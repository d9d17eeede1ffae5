import TrafficMeter.Config.Basic
import TrafficMeter.Source.Dump
import TrafficMeter.Source.Polled
import TrafficMeter.Text.Utf8

/-!
Peer counters from the command that dumps a VPN interface. The command may not start, may not
answer in time, may fail, and may print anything.
-/

namespace TrafficMeter

/-- How a command ended. One that was killed is told by the signal, as the system names it. -/
inductive CommandOutcome
  | notStarted (fault : OsFault)
  | unanswered
  | exited (code : Nat) (output errors : List UInt8)
  | killed (signal : String) (output errors : List UInt8)
  deriving DecidableEq, Repr

namespace PeersConfig

def dumpArguments (c : PeersConfig) : List String := ["show", c.interface, "dump"]

def commandFailure (status : String) (errors : List UInt8) : Outcome String :=
  Outcome.fail (.source (.commandFailed status (Text.trim (Text.Utf8.decodeLossy errors))))

def commandOutput (c : PeersConfig) : CommandOutcome → Outcome String
  | .notStarted fault => Outcome.within s!"running {c.wgBinary}" (Outcome.fail (.os fault))
  | .unanswered =>
    Outcome.within s!"{c.wgBinary} show {c.interface} dump timed out after {c.timeout.text}"
      (Outcome.fail .timeout)
  | .exited 0 output _ =>
    match Text.Utf8.decode? output with
    | some text => .ok text
    | none => Outcome.within "decoding wg output as UTF-8" (Outcome.fail .utf8)
  | .exited code _ errors => commandFailure s!"exit status: {code}" errors
  | .killed signal _ errors => commandFailure s!"signal: {signal}" errors

def peersOf (c : PeersConfig) (ended : CommandOutcome) : Outcome (List PeerReading) := do
  match Dump.read (← c.commandOutput ended) with
  | .ok peers => return peers
  | .error fault => Outcome.fail (.source fault)

def poll (c : PeersConfig) (ended : CommandOutcome) : Polled (List PeerReading) :=
  let peers := c.peersOf ended
  { result := Outcome.within s!"reading peers of {c.interface}" peers
    requests := [⟨"wireguard", .of peers⟩] }

end PeersConfig

end TrafficMeter
