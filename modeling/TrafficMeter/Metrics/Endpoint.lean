import TrafficMeter.Amount
import TrafficMeter.Failure
import TrafficMeter.Text.Line
import TrafficMeter.Text.Number

/-!
Where the metrics are served. An address is a host and a port with a colon between; a port alone,
with its colon, means every interface.
-/

namespace TrafficMeter

structure Endpoint where
  host : String
  port : Nat
  deriving DecidableEq, Repr

namespace Endpoint

def defaultAddress : String := ":9090"

def address (configured : String) : String :=
  let given := if configured.isEmpty then defaultAddress else configured
  if given.startsWith ":" then "0.0.0.0" ++ given else given

/-- The endpoint that an address names: all before its last colon is the host. -/
def parse? (address : String) : Option Endpoint := do
  let parts := Text.pieces ':' address.toList
  let port ← Text.unsigned? 65535 (← parts.getLast?)
  if parts.length < 2 then none
  else return ⟨String.ofList ([':'].intercalate parts.dropLast), port⟩

def listen (bind : Endpoint → Except OsFault Unit) (configured : String) : Outcome Endpoint :=
  Outcome.within s!"listening on {address configured}" <|
    match parse? (address configured) with
    | none => Outcome.fail (.os .invalidAddress)
    | some endpoint =>
      match bind endpoint with
      | .ok _ => .ok endpoint
      | .error fault => Outcome.fail (.os fault)

end Endpoint

end TrafficMeter
