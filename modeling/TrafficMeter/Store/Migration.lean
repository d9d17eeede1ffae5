import TrafficMeter.Store.Database

/-!
Moving the schema between versions. A migration marks its version unfinished, runs its script and
marks the version finished, all in one transaction; an unfinished version found in a database stops
every move forward.
-/

namespace TrafficMeter.Store

structure Migration where
  version : Nat
  up : List Statement
  down : List Statement
  deriving DecidableEq, Repr

def migrations : List Migration := [
  { version := 1
    up := [
      .createTable "traffic_samples" ["identity", "ts", "uplink", "downlink"],
      .createIndex "traffic_samples_ts_idx" "traffic_samples" ["ts"],
      .createTable "peer_samples" ["peer_id", "ts", "rx", "tx", "endpoint"],
      .createIndex "peer_samples_ts_idx" "peer_samples" ["ts"],
      .createTable "traffic_compressed" ["identity", "bucket_start", "uplink", "downlink"],
      .createTable "peer_compressed" ["peer_id", "bucket_start", "rx", "tx"]]
    down := [
      .dropTable "peer_compressed",
      .dropTable "traffic_compressed",
      .dropTable "peer_samples",
      .dropTable "traffic_samples"] },
  { version := 2
    up := [
      .createTable "sampler_runs" ["id", "ts", "duration_ms", "inserted", "error", "source"],
      .createIndex "sampler_runs_source_ts_idx" "sampler_runs" ["source", "ts"]]
    down := [.dropTable "sampler_runs"] }]

def latestVersion : Nat := (migrations.getLast?.map (·.version)).getD 0

def versionTable : String := "schema_migrations"

/-- A stored version number; one that is no 32-bit word counts as no version. -/
def versionNumber (n : Int) : Nat := if 0 ≤ n ∧ n < 4294967296 then n.toNat else 0

def Database.withoutTable (db : Database) (name : String) : Database :=
  if sameName name Table.traffic.name then { db with tables.traffic := [] }
  else if sameName name Table.peers.name then { db with tables.peers := [] }
  else if sameName name Table.trafficBuckets.name then { db with tables.trafficBuckets := [] }
  else if sameName name Table.peerBuckets.name then { db with tables.peerBuckets := [] }
  else if sameName name Table.runs.name then { db with runs := [] }
  else if sameName name versionTable then { db with version := none }
  else db

namespace Action

def execute (statement : Statement) : Action Unit := do
  let schema ← lift (statement.run (← database).schema)
  update fun db =>
    let db := match statement with
      | .dropTable name => db.withoutTable name
      | _ => db
    { db with schema := schema }

def executeAll : List Statement → Action Unit
  | [] => pure ()
  | statement :: rest => do
    execute statement
    executeAll rest

def ensureVersionTable : Action Unit := within "creating schema_migrations table" <|
  execute (.createTable versionTable ["version", "dirty"])

def currentVersion : Action (Nat × Bool) := within "querying migration version" do
  let db ← database
  lift (db.schema.reads versionTable ["version", "dirty"])
  match db.version with
  | some (version, dirty) => return (versionNumber version, dirty != 0)
  | none => return (0, false)

/-- Makes a version the current one; version 0 leaves no mark. -/
def setVersion (version : Nat) (dirty : Bool) : Action Unit := do
  within "clearing schema_migrations" <| lift ((← database).schema.writes versionTable)
  update fun db => { db with version := none }
  if version ≠ 0 then
    within "inserting migration version" <| update fun db =>
      { db with version := some (version, if dirty then 1 else 0) }

def applyMigration (m : Migration) : Action Unit := atomically do
  setVersion m.version true
  within s!"applying migration version {m.version}" (executeAll m.up)
  setVersion m.version false

def applyAll : List Migration → Action Unit
  | [] => pure ()
  | m :: rest => do
    applyMigration m
    applyAll rest

def migrateUp : Action Unit := do
  ensureVersionTable
  let (current, dirty) ← currentVersion
  if dirty then fail (.of (.schema (.dirty current)))
  else applyAll (migrations.filter fun m => current < m.version)

def versionBelow (current : Nat) : Nat :=
  ((migrations.filter fun m => m.version < current).map (·.version)).foldl max 0

/-- Takes back the migration to the current version. -/
def migrateDown : Action Unit := do
  ensureVersionTable
  let (current, _) ← currentVersion
  if current = 0 then return ()
  match migrations.find? (·.version == current) with
  | none => fail (.of (.schema (.unknownVersion current)))
  | some m => atomically do
    setVersion current true
    within s!"rolling back migration version {current}" (executeAll m.down)
    setVersion (versionBelow current) false

def status : Action (Nat × Bool) := do
  ensureVersionTable
  currentVersion

def forceVersion (version dirty : Int) : Action Unit := do
  ensureVersionTable
  lift ((← database).schema.writes versionTable)
  update fun db => { db with version := some (version, dirty) }

end Action

end TrafficMeter.Store
