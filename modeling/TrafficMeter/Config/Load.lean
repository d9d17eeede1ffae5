import TrafficMeter.Config.Decode
import TrafficMeter.Text.Utf8

/-!
Loading the configuration from the octets of a file, or from the reason why there are none.
-/

namespace TrafficMeter

def fileText (contents : Except OsFault (List UInt8)) : Outcome String :=
  match contents with
  | .error fault => Outcome.fail (.os fault)
  | .ok octets =>
    match Text.Utf8.decode? octets with
    | some text => .ok text
    | none => Outcome.fail (.os .invalidText)

def Config.load (path : String) (contents : Except OsFault (List UInt8)) : Outcome Config := do
  let text ← Outcome.within s!"reading config file {path}" (fileText contents)
  let config ← Outcome.within s!"parsing config file {path}" (Config.ofYaml text)
  config.validate
  return config

end TrafficMeter
