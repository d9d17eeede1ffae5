import TrafficMeter.Store.Database

/-!
The run log: one entry for each sampler run, in the order of recording.
-/

namespace TrafficMeter.Store

/-- A number as the log holds it, at most the largest column value. -/
def capColumn (n : Nat) : Nat := min n maxTime.toNat

namespace Action

def recordRun (run : Run) : Action Unit := within "inserting sampler run" do
  permit .runs .insert run.source
  let stored := { run with millis := capColumn run.millis, inserted := capColumn run.inserted }
  update fun db => { db with runs := db.runs ++ [stored] }

end Action

def recentRuns (source : Option String) (limit : Nat) (db : Database) : List Run :=
  (db.runs.reverse.filter fun run => source.isNone || source == some run.source).take limit

end TrafficMeter.Store
