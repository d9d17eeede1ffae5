import TrafficMeter.Failure

/-!
What polling a source yields: a result, and the requests that the metrics count for it.
-/

namespace TrafficMeter

inductive Verdict
  | success
  | error
  deriving DecidableEq, Repr

def Verdict.name : Verdict → String
  | .success => "success"
  | .error => "error"

def Verdict.of {α : Type} : Outcome α → Verdict
  | .ok _ => .success
  | .error _ => .error

structure Request where
  source : String
  verdict : Verdict
  deriving DecidableEq, Repr

structure Polled (α : Type) where
  result : Outcome α
  requests : List Request

def Polled.within {α : Type} (activity : String) (p : Polled α) : Polled α :=
  { p with result := Outcome.within activity p.result }

end TrafficMeter
