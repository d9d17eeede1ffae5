import TrafficMeter.Config.Basic
import TrafficMeter.Json.Reader
import TrafficMeter.Keyed
import TrafficMeter.Source.Http
import TrafficMeter.Source.Polled
import TrafficMeter.Text.Utf8

/-!
Counters of a proxy from the document at its statistics address: one pair of counters for each user
and one for each inbound.
-/

namespace TrafficMeter

abbrev Readings := Keyed String Counters

structure StatsSection where
  users : Readings
  inbounds : Readings
  deriving DecidableEq, Repr

namespace StatsSection

def fieldOr {α : Type} (get : String → Option Json) (name : String) (default : α)
    (read : Json → Option α) : Option α :=
  match get name with
  | some value => read value
  | none => some default

def readCounters (value : Json) : Option Counters := do
  let get ← value.record? ["uplink", "downlink"]
  return ⟨← fieldOr get "uplink" 0 (Json.nat? maxCount),
    ← fieldOr get "downlink" 0 (Json.nat? maxCount)⟩

/-- A map from names to counters; of members of one name the last counts. -/
def readReadings (value : Json) : Option Readings := do
  let entries ← (← value.members?).mapM fun (name, value) => do
    return (← name, ← readCounters value)
  return .ofList entries

def ofJson? (value : Json) : Option StatsSection := do
  let get ← value.record? ["user", "inbound"]
  return ⟨← fieldOr get "user" .empty readReadings, ← fieldOr get "inbound" .empty readReadings⟩

def ofDocument? (value : Json) : Option (Option StatsSection) := do
  let get ← value.record? ["stats"]
  match get "stats" with
  | none | some .null => return none
  | some value => return some (← ofJson? value)

def userReadings (s : StatsSection) : Readings := s.users.keep fun name _ => name ≠ ""

def sumTags (s : StatsSection) (tags : List String) : Counters :=
  tags.foldl (fun total tag => total.add ((s.inbounds.get? tag).getD default)) default

end StatsSection

namespace ProxyConfig

def statsAddress (c : ProxyConfig) : String :=
  String.ofList (c.statsUrl.toList.reverse.dropWhile (· == '/')).reverse ++ "/debug/vars"

/-- The document in a body: a statistics section, or none. Octets that are no text may stand where
the document is skipped. -/
def readDocument (url : String) (body : Option (List UInt8)) :
    Except HttpFault (Option StatsSection) :=
  match body with
  | none => .error (.brokenOff url)
  | some octets =>
    match (Json.readOctets? octets).bind StatsSection.ofDocument? with
    | some document => .ok document
    | none => .error (.undecodable url)

/-- The document that a response carries. Of a response that reports a failure the body is shown, as
far as there is one. -/
def statsDocument (url : String) (response : Except HttpFault Http.Response) :
    Outcome (Option StatsSection) :=
  match response with
  | .error fault => Outcome.within s!"requesting {url}" (Outcome.fail (.http fault))
  | .ok response =>
    if !response.isSuccess then
      Outcome.fail (.status response.status (Http.reason response.status) url
        (Text.Utf8.decodeLossy (response.body.getD [])))
    else
      match readDocument url response.body with
      | .ok document => .ok document
      | .error fault =>
        Outcome.within s!"decoding response from {url}" (Outcome.fail (.http fault))

/-- Polls the statistics. A document that can be read counts as a successful request, even if it
lacks the section. -/
def fetchStats (c : ProxyConfig) (transport : Http.Transport) : Polled StatsSection :=
  let document := statsDocument c.statsAddress (Http.get transport c.statsAddress)
  let stats : Outcome StatsSection := do
    match ← document with
    | some stats => return stats
    | none => Outcome.fail (.source (.missingSection "stats"))
  { result := stats, requests := [⟨"proxy", .of document⟩] }

def pollUsers (c : ProxyConfig) (transport : Http.Transport) : Polled Readings :=
  let stats := (c.fetchStats transport).within "fetching user counters"
  { stats with result := stats.result.map (·.userReadings) }

def pollAggregate (c : ProxyConfig) (transport : Http.Transport) (tags : List String) :
    Polled Counters :=
  let stats := (c.fetchStats transport).within "fetching aggregate counters"
  { stats with result := stats.result.map (·.sumTags tags) }

end ProxyConfig

end TrafficMeter
