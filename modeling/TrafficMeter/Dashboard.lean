import TrafficMeter.Counters
import TrafficMeter.Json.Basic
import TrafficMeter.PeerNames
import TrafficMeter.Store.Query

/-!
The dashboard of a window: a chart of running totals on a grid of equal slots, and the heaviest
users and peers. The slots are as wide as the length of the window asks for; the first one contains
the start of the window, the last one its end.
-/

namespace TrafficMeter

/-- A row of the chart: the totals up to the end of a slot. -/
structure ChartPoint where
  ts : Int
  proxy : Counters
  peers : Counters
  deriving DecidableEq, Repr

structure Consumer where
  id : String
  name : String
  uplink : Nat
  downlink : Nat
  total : Nat
  deriving DecidableEq, Repr

structure Dashboard where
  first : Int
  last : Int
  interval : Int
  series : List ChartPoint
  proxyTotal : Counters
  peersTotal : Counters
  topUsers : List Consumer
  topPeers : List Consumer
  deriving DecidableEq, Repr

namespace Dashboard

def maxSlots : Int := 4096

def slotWidth (span : Int) : Int :=
  if span ≤ 3600 then 60
  else if span ≤ 21600 then 300
  else if span ≤ 86400 then 900
  else if span ≤ 604800 then 3600
  else if span ≤ 2678400 then 21600
  else 86400

/-- The number of slots of a window, if it is not too large. -/
def slots? (first last interval : Int) : Option Nat :=
  let span := last - bucketStart first interval
  let slots := span.tdiv interval + 1
  if span ≤ maxTime ∧ 1 ≤ slots ∧ slots ≤ maxSlots then some slots.toNat else none

def slotOf (origin interval : Int) (p : Store.Point) : Int :=
  (clampTime (p.ts - origin)).tdiv interval

def bytes (p : Store.Point) : Counters := ⟨p.uplink, p.downlink⟩

def slotTotal (origin interval : Int) (points : List Store.Point) (slot : Nat) : Counters :=
  (points.filter fun p => slotOf origin interval p = slot).foldl
    (fun sum p => sum.add (bytes p)) default

/-- The running totals of the slots from number `slot` on. -/
def runningFrom (origin interval : Int) (proxy peers : List Store.Point) (slot : Nat)
    (proxySum peerSum : Counters) : Nat → List ChartPoint
  | 0 => []
  | count + 1 =>
    let proxySum := proxySum.add (slotTotal origin interval proxy slot)
    let peerSum := peerSum.add (slotTotal origin interval peers slot)
    ⟨origin + slot * interval, proxySum, peerSum⟩ ::
      runningFrom origin interval proxy peers (slot + 1) proxySum peerSum count

def chart (first interval : Int) (slots : Nat) (proxy peers : List Store.Point) :
    List ChartPoint :=
  runningFrom (bucketStart first interval) interval proxy peers 0 default default slots

def consumer (name : String) (e : Store.TopEntry) : Consumer :=
  ⟨e.identity, name, e.uplink, e.downlink, e.total⟩

end Dashboard

structure DashboardView where
  proxy : Bool
  peers : Bool
  names : PeerNames
  limit : Nat
  deriving DecidableEq, Repr

namespace DashboardView

open Store (Series Point TopEntry)

/-- An answer about a source, nothing if the source is off. -/
def whenOn {α : Type} (on : Bool) (activity : String) (answer : Outcome (List α)) :
    Outcome (List α) :=
  if on then Outcome.within activity answer else .ok []

def build (v : DashboardView) (first last : Int) (t : Store.Tables) : Outcome Dashboard := do
  if last < first then Outcome.fail (.window (.reversed first last))
  if maxTime < last - first then Outcome.fail (.window (.tooLarge first last))
  let interval := Dashboard.slotWidth (last - first)
  match Dashboard.slots? first last interval with
  | none =>
    Outcome.fail (.window (.tooManySlots first last Dashboard.maxSlots.toNat interval))
  | some slots =>
    let proxy ← whenOn v.proxy "bucketing proxy traffic" (t.bucketed .traffic [] first last interval)
    let users ← whenOn v.proxy "ranking users" (t.topTotals first last v.limit)
    let peers ← whenOn v.peers "bucketing peer traffic" (t.bucketed .peers [] first last interval)
    let ranked ← whenOn v.peers "ranking peers" (t.peerTopTotals first last v.limit)
    let series := Dashboard.chart first interval slots proxy peers
    let total := series.getLast?
    return {
      first, last, interval, series
      proxyTotal := (total.map (·.proxy)).getD default
      peersTotal := (total.map (·.peers)).getD default
      topUsers := users.map fun e => Dashboard.consumer e.identity e
      topPeers := ranked.map fun e => Dashboard.consumer (v.names.displayName e.identity) e }

end DashboardView

namespace Dashboard

def countersJson (c : Counters) : Json :=
  .object [("uplink", .ofNat c.uplink), ("downlink", .ofNat c.downlink)]

def pointJson (p : ChartPoint) : Json :=
  .object [("ts", .int p.ts), ("proxy", countersJson p.proxy), ("peers", countersJson p.peers)]

def consumerJson (c : Consumer) : Json :=
  .object [("id", .ofString c.id), ("name", .ofString c.name), ("uplink", .ofNat c.uplink),
    ("downlink", .ofNat c.downlink), ("total", .ofNat c.total)]

def totalsJson (d : Dashboard) : Json :=
  .object [("proxy", countersJson d.proxyTotal), ("peers", countersJson d.peersTotal)]

def toJson (d : Dashboard) : Json :=
  .object [("start", .int d.first), ("end", .int d.last), ("interval", .int d.interval),
    ("series", .arr (d.series.map pointJson)), ("totals", d.totalsJson),
    ("top_users", .arr (d.topUsers.map consumerJson)),
    ("top_peers", .arr (d.topPeers.map consumerJson))]

end Dashboard

end TrafficMeter
