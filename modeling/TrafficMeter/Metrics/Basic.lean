import TrafficMeter.Double
import TrafficMeter.Keyed
import TrafficMeter.Span

/-!
What the agent counts about itself. Everything that happens is an `Event`; the metrics are what
`Metrics.record` makes of the events so far. Amounts are added in double precision, in which whole
numbers below 2 ^ 53 are exact.
-/

namespace TrafficMeter

inductive Event
  | tick (source : String) (elapsed : Span) (rows : Nat) (failed : Bool)
  | request (source status : String) (elapsed : Span)
  | paused (source : String) (value : Int)
  | retained (source : String) (value : Int)
  | dropped (reason : String) (bytes : Nat)
  | active (value : Int)
  | removed (source pass : String) (rows : Nat)
  deriving DecidableEq, Repr

/-- Observed lengths of time: how many there were up to each bound, how many in all, and their sum
in seconds. -/
structure Histogram where
  upTo : List Nat
  count : Nat
  sum : Double
  deriving DecidableEq, Repr

def Span.toDouble (s : Span) : Double :=
  (Double.ofNat s.seconds).add (.ofRatio s.subsecond Span.nanosPerSecond)

def Histogram.ofBounds (bounds : List Span) : Histogram := ⟨bounds.map fun _ => 0, 0, .zero⟩

def Histogram.observe (h : Histogram) (bounds : List Span) (elapsed : Span) : Histogram where
  upTo := (h.upTo.zip bounds).map fun (count, bound) => if elapsed ≤ bound then count + 1 else count
  count := h.count + 1
  sum := h.sum.add elapsed.toDouble

def addAmounts (a b : Nat) : Nat := roundMagnitude (a + roundMagnitude b)

theorem addAmounts_of_lt {a b : Nat} (h : a + b < Nat.pow 2 53) : addAmounts a b = a + b := by
  have hb : b < Nat.pow 2 53 := Nat.lt_of_le_of_lt (Nat.le_add_left b a) h
  simp only [addAmounts, roundMagnitude, if_pos hb, if_pos h]

/-- The metrics: ticks, failed ticks and rows by source, rows removed by source and pass, requests
by source and status. -/
structure Metrics where
  ticks : Keyed String Nat
  errors : Keyed String Nat
  rows : Keyed String Nat
  tickTimes : Keyed String Histogram
  paused : Keyed String Int
  retained : Keyed String Int
  dropped : Keyed String Nat
  active : Int
  removed : Keyed (String × String) Nat
  requests : Keyed (String × String) Nat
  requestTimes : Keyed String Histogram
  deriving DecidableEq, Repr

namespace Metrics

def none : Metrics :=
  ⟨.empty, .empty, .empty, .empty, .empty, .empty, .empty, 0, .empty, .empty, .empty⟩

def tickBounds : List Span := [1, 5, 10, 50, 100, 500, 1000, 5000, 10000].map Span.ofMillis

def requestBounds : List Span := [5, 10, 50, 100, 500, 1000, 2500, 5000].map Span.ofMillis

/-- Adds to the amount of a key; a key counts from its first event on. -/
def raise {κ : Type} [DecidableEq κ] (m : Keyed κ Nat) (key : κ) (amount : Nat) : Keyed κ Nat :=
  m.update key 0 fun total => addAmounts total amount

def observe (m : Keyed String Histogram) (bounds : List Span) (source : String) (elapsed : Span) :
    Keyed String Histogram :=
  m.update source (.ofBounds bounds) fun h => h.observe bounds elapsed

def record (m : Metrics) : Event → Metrics
  | .tick source elapsed rows failed => {
    m with
    ticks := raise m.ticks source 1
    tickTimes := observe m.tickTimes tickBounds source elapsed
    rows := raise m.rows source rows
    errors := if failed then raise m.errors source 1 else m.errors }
  | .request source status elapsed => {
    m with
    requests := raise m.requests (source, status) 1
    requestTimes := observe m.requestTimes requestBounds source elapsed }
  | .paused source value => { m with paused := m.paused.insert source (roundDouble value) }
  | .retained source value => { m with retained := m.retained.insert source (roundDouble value) }
  | .dropped reason bytes => { m with dropped := raise m.dropped reason bytes }
  | .active value => { m with active := roundDouble value }
  | .removed source pass rows => { m with removed := raise m.removed (source, pass) rows }

def recordAll (m : Metrics) (events : List Event) : Metrics := events.foldl record m

end Metrics

end TrafficMeter
