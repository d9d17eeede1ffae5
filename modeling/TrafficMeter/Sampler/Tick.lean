import TrafficMeter.Metrics.Basic
import TrafficMeter.Source.Polled
import TrafficMeter.Store.RunLog
import TrafficMeter.Store.Write

/-!
What the samplers share. A tick is one unit of work: it changes the sampler's own memory and the
database, has events to tell and ends in a number of rows or in a failure. Executing a tick records
its outcome in the run log and never fails.
-/

namespace TrafficMeter

inductive Sampler
  | traffic
  | attribution
  | peers
  | retention
  deriving DecidableEq, Repr

def Sampler.source : Sampler → String
  | .traffic => "traffic"
  | .attribution => "attribution"
  | .peers => "peers"
  | .retention => "retention"

/-- How a tick ended: rows or a failure, the sampler's memory, the events of the tick in order, and
the database. -/
structure Ticked (σ : Type) where
  result : Outcome Nat
  memory : σ
  events : List Event
  database : Store.Database

namespace Ticked

variable {σ : Type}

def unchanged (memory : σ) (db : Store.Database) (result : Outcome Nat) (events : List Event) :
    Ticked σ := ⟨result, memory, events, db⟩

def writing (memory : σ) (db : Store.Database) (events : List Event) (write : Store.Action Nat) :
    Ticked σ := ⟨(write.run db).1, memory, events, (write.run db).2⟩

end Ticked

def Polled.events {α : Type} (p : Polled α) (elapsed : Span) : List Event :=
  p.requests.map fun request => .request request.source request.verdict.name elapsed

def Store.Run.ofTick (source : String) (now : Int) (elapsed : Span) : Outcome Nat → Store.Run
  | .ok rows => ⟨now, elapsed.millis, rows, none, source⟩
  | .error failure => ⟨now, elapsed.millis, 0, some failure.message, source⟩

def Store.Run.event (run : Store.Run) (elapsed : Span) : Event :=
  .tick run.source elapsed run.inserted run.error.isSome

/-- The database with a run recorded; one that the log refuses is lost. -/
def Store.Database.recording (db : Store.Database) (run : Store.Run) : Store.Database :=
  ((Store.Action.recordRun run).run db).2

/-- A tick with its outcome recorded; its own event follows those that it told. -/
def Ticked.recorded {σ : Type} (source : String) (now : Int) (elapsed : Span) (t : Ticked σ) :
    Ticked σ :=
  let run := Store.Run.ofTick source now elapsed t.result
  { t with
    events := t.events ++ [run.event elapsed]
    database := t.database.recording run }

end TrafficMeter
