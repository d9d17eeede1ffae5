import TrafficMeter.Sampler.Tick
import TrafficMeter.Sampler.Timer

/-!
A job on a schedule of its own. The loop ticks whenever its timer has an occasion that is not
paused, records each tick that comes to an end, and takes orders in between. Ticks are atomic here:
none of the loop's time passes while one runs and no order meets one, and how long it took is only
told to the log and the metrics. What comes in while a slow tick runs is therefore not covered.
-/

namespace TrafficMeter

/-- What a loop does on each occasion, under which source it is recorded and how long it takes. A
tick that does not come to an end has no outcome. -/
structure Job (σ : Type) where
  source : String
  elapsed : Span
  tick : Int → σ → Store.Database → Option (Ticked σ)

structure Loop (σ : Type) where
  timer : Timer
  startedAt : Int
  memory : σ
  database : Store.Database
  metrics : Option Metrics

inductive Order
  | advance (millis : Nat)
  | trigger
  | pause (paused : Bool)
  | cancel
  deriving DecidableEq, Repr

namespace Loop

variable {σ : Type}

def second (l : Loop σ) : Int := l.startedAt + (l.timer.now / 1000 : Nat)

def work (job : Job σ) (l : Loop σ) : Option (Loop σ) := do
  let t := (← job.tick l.second l.memory l.database).recorded job.source l.second job.elapsed
  return { l with
    memory := t.memory
    database := t.database
    metrics := l.metrics.map (·.recordAll t.events) }

def settle (job : Job σ) (l : Loop σ) : Loop σ :=
  let (timer, l) := l.timer.settle (work job) l
  { l with timer }

/-- Takes an order, which shows once the loop runs on. -/
def take (job : Job σ) (l : Loop σ) : Order → Loop σ
  | .advance millis => { l with timer := l.timer.advance millis }
  | .trigger => { l with timer := l.timer.request }
  | .pause paused => { l with
      timer := l.timer.setPaused paused
      metrics := l.metrics.map (·.record (.paused job.source (if paused then 1 else 0))) }
  | .cancel => { l with timer := l.timer.cancel }

def perform (job : Job σ) (l : Loop σ) (orders : List Order) : Loop σ :=
  (orders.foldl (take job) l).settle job

end Loop

end TrafficMeter
