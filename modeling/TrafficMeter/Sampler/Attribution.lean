import TrafficMeter.Counters
import TrafficMeter.Sampler.Tick
import TrafficMeter.Store.Query

/-!
Traffic of connected users from counters of them all. What a reading adds to the one before is
split evenly among the identities that are active; what cannot be split is dropped and counted.
The last few differences are kept as points.
-/

namespace TrafficMeter

structure Split where
  samples : List Store.Sample
  dropped : Nat
  deriving DecidableEq, Repr

/-- Splits a difference evenly; what is dropped is a 64-bit word. -/
def Split.ofDelta (now : Int) (delta : Counters) (active : List String) : Split :=
  let total := addCounts delta.uplink delta.downlink
  if active.isEmpty then ⟨[], total⟩
  else
    let n := active.length
    let uplink := delta.uplink / n
    let downlink := delta.downlink / n
    let assigned := (uplink + downlink) * n % countValues
    { samples :=
        if uplink = 0 && downlink = 0 then []
        else active.map fun identity => ⟨identity, now, uplink, downlink⟩
      dropped := (total + countValues - assigned) % countValues }

structure Calculator where
  policy : ResetPolicy
  capacity : Nat
  previous : Option Counters
  points : List Store.Point
  deriving DecidableEq, Repr

namespace Calculator

def ofPolicy (policy : ResetPolicy) (capacity : Nat) : Calculator :=
  ⟨policy, max capacity 1, none, []⟩

/-- Adds a point, in place of the oldest one if there is no room. -/
def pushPoint (capacity : Nat) (points : List Store.Point) (p : Store.Point) : List Store.Point :=
  (if capacity ≤ points.length then points.drop 1 else points) ++ [p]

def advance (c : Calculator) (now : Int) (current : Counters) : Option Counters × Calculator :=
  match c.previous with
  | none => (none, { c with previous := some current })
  | some previous =>
    let delta := Counters.delta c.policy previous current
    (some delta,
      { c with
        previous := some current
        points := pushPoint c.capacity c.points ⟨now, delta.uplink, delta.downlink⟩ })

def dropReason (active : List String) : String :=
  if active.isEmpty then "no_active_identity" else "split_remainder"

def write (samples : List Store.Sample) : Store.Action Nat :=
  .within "writing attributed samples" (.mergeBatch samples)

def tick (c : Calculator) (now : Int) (elapsed : Span) (poll : Polled Counters)
    (active : List String) (db : Store.Database) : Ticked Calculator :=
  let requests := poll.events elapsed
  match Outcome.within "polling aggregate counters" poll.result with
  | .error failure => .unchanged c db (.error failure) requests
  | .ok current =>
    match c.advance now current with
    | (none, next) => .unchanged next db (.ok 0) requests
    | (some delta, next) =>
      if delta.isZero then .unchanged next db (.ok 0) requests
      else
        let split := Split.ofDelta now delta active
        let drops := if split.dropped = 0 then [] else [.dropped (dropReason active) split.dropped]
        let events := requests ++ .active active.length :: drops
        if split.samples.isEmpty then .unchanged next db (.ok 0) events
        else .writing next db events (write split.samples)

end Calculator

end TrafficMeter
