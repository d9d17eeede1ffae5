import TrafficMeter.Amount

/-!
Byte counters and their deltas. A counter only grows; one that falls was reset, and the policy says
what the interval of the reset counts for.
-/

namespace TrafficMeter

structure Counters where
  uplink : Nat
  downlink : Nat
  deriving DecidableEq, Repr, Inhabited

/-- What the interval counts for in which a counter fell. -/
inductive ResetPolicy
  | clampToZero
  | countFromZero
  deriving DecidableEq, Repr

def ResetPolicy.delta (policy : ResetPolicy) (previous current : Nat) : Nat :=
  if previous ≤ current then current - previous
  else
    match policy with
    | .clampToZero => 0
    | .countFromZero => current

namespace Counters

def delta (policy : ResetPolicy) (previous current : Counters) : Counters :=
  ⟨policy.delta previous.uplink current.uplink, policy.delta previous.downlink current.downlink⟩

def add (a b : Counters) : Counters :=
  ⟨addCounts a.uplink b.uplink, addCounts a.downlink b.downlink⟩

def isZero (c : Counters) : Bool := c.uplink == 0 && c.downlink == 0

end Counters

theorem ResetPolicy.delta_of_le {policy : ResetPolicy} {previous current : Nat}
    (h : previous ≤ current) : policy.delta previous current = current - previous := by
  simp [delta, h]

end TrafficMeter
