import TrafficMeter.Store.Row
import TrafficMeter.Store.Schema

/-!
The database: schema, byte tables, run log and the guards that refuse writes. An `Action` is work on
a database that may fail; what it has done by then stays, unless it runs `atomically`, which is the
only way multi-row writes run.
-/

namespace TrafficMeter.Store

inductive Series
  | traffic
  | peers
  deriving DecidableEq, Repr

def Series.name : Series → String
  | .traffic => "traffic"
  | .peers => "peers"

/-- The four tables of byte amounts. Buckets carry the second at which they start. -/
structure Tables where
  traffic : List Row
  peers : List Snapshot
  trafficBuckets : List Row
  peerBuckets : List Row
  deriving DecidableEq, Repr

def Tables.empty : Tables := ⟨[], [], [], []⟩

structure Run where
  ts : Int
  millis : Nat
  inserted : Nat
  error : Option String
  source : String
  deriving DecidableEq, Repr

inductive Table
  | traffic
  | peers
  | trafficBuckets
  | peerBuckets
  | runs
  deriving DecidableEq, Repr

def Table.name : Table → String
  | .traffic => "traffic_samples"
  | .peers => "peer_samples"
  | .trafficBuckets => "traffic_compressed"
  | .peerBuckets => "peer_compressed"
  | .runs => "sampler_runs"

inductive Change
  | insert
  | update
  | delete
  deriving DecidableEq, Repr

/-- Refuses one change of the rows of a table, of one identity if a key is given. -/
structure Guard where
  table : Table
  change : Change
  key : Option String
  deriving DecidableEq, Repr

def Guard.refuses (g : Guard) (table : Table) (change : Change) (id : String) : Bool :=
  g.table == table && g.change == change && (g.key.isNone || g.key == some id)

/-- Everything that a database file holds. The row of the version table is the schema version and
whether a migration to it was left half done. -/
structure Database where
  schema : Schema
  version : Option (Int × Int)
  tables : Tables
  runs : List Run
  guards : List Guard
  deriving DecidableEq, Repr

namespace Database

def blank : Database := ⟨[], none, .empty, [], []⟩

def refuses (db : Database) (table : Table) (change : Change) (id : String) : Bool :=
  db.guards.any (·.refuses table change id)

end Database

/-- Work on a database: a result or a failure, and the database that it leaves. -/
def Action (α : Type) : Type := Database → Except Failure α × Database

namespace Action

variable {α β : Type}

def run (action : Action α) (db : Database) : Except Failure α × Database := action db

protected def pure (a : α) : Action α := fun db => (.ok a, db)

protected def bind (action : Action α) (next : α → Action β) : Action β := fun db =>
  match action db with
  | (.ok a, after) => next a after
  | (.error failure, after) => (.error failure, after)

instance : Monad Action where
  pure := Action.pure
  bind := Action.bind

def database : Action Database := fun db => (.ok db, db)

def update (f : Database → Database) : Action Unit := fun db => (.ok (), f db)

def fail (failure : Failure) : Action α := fun db => (.error failure, db)

def within (activity : String) (action : Action α) : Action α := fun db =>
  match action db with
  | (.ok a, after) => (.ok a, after)
  | (.error failure, after) => (.error (failure.within activity), after)

/-- Runs an action as one transaction: a failure undoes all that it has done. -/
def atomically (action : Action α) : Action α := fun db =>
  match action db with
  | (.ok a, after) => (.ok a, after)
  | (.error failure, _) => (.error failure, db)

def reading (answer : Database → Outcome α) : Action α := fun db => (answer db, db)

def permit (table : Table) (change : Change) (id : String) : Action Unit := fun db =>
  if db.refuses table change id then (.error (.of (.store .denied)), db) else (.ok (), db)

def lift (result : Except StoreFault α) : Action α := fun db =>
  match result with
  | .ok a => (.ok a, db)
  | .error fault => (.error (.of (.store fault)), db)

theorem atomically_error {action : Action α} {db after : Database} {failure : Failure}
    (h : atomically action db = (.error failure, after)) : after = db := by
  cases run : action db with
  | mk result ended =>
    cases result <;> simp only [atomically, run, Prod.mk.injEq, reduceCtorEq, false_and] at h
    exact h.2.symm

theorem within_snd (activity : String) (action : Action α) (db : Database) :
    (within activity action db).2 = (action db).2 := by
  cases h : action db with
  | mk result after => cases result <;> simp only [within, h]

end Action

end TrafficMeter.Store
