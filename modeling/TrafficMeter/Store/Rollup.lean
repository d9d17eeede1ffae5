import TrafficMeter.Store.Query

/-!
Maintenance of old rows. A hard delete drops raw rows before a cutoff and the buckets that end by
it; a rollup moves raw rows into buckets. Both leave the newest snapshot of each peer before the
cutoff in place, because the growth of the next snapshot is measured from it.
-/

namespace TrafficMeter.Store

/-- The width of the buckets that retention keeps: eight hours. -/
def compressedBucketSeconds : Int := 28800

def superseded (peers : List Snapshot) (cutoff : Int) (s : Snapshot) : Bool :=
  s.ts < cutoff && peers.any fun a => a.id == s.id && a.ts < cutoff && s.ts < a.ts

def historyBefore (peers : List Snapshot) (cutoff : Int) (peer : String) : List Snapshot :=
  sortByTime Snapshot.toRow (peers.filter fun s => s.id == peer && s.ts < cutoff)

/-- The buckets of a list of rows: one row for each identity and start, with the sums of its group
or what is wrong with them. -/
def rollUp (rows : List Row) (width : Int) : List (Except StoreFault Row) :=
  (sortedKeys (rows.map (·.id))).flatMap fun identity =>
    let own := rows.filter (·.id == identity)
    let shares := own.map (Row.share fun r => bucketKey r.ts width)
    (sortedKeys (shares.map (·.key))).map fun start => do
      let (up, down) ← groupSum shares start
      return ⟨identity, start, up, down⟩

def grown : Except StoreFault Row → Bool
  | .ok r => 0 < (r.up.add r.down).value
  | .error _ => true

namespace Tables

/-- The buckets that rolling up the raw rows before a cutoff yields. Peer buckets without any
growth are left out. -/
def rolledUp (t : Tables) (series : Series) (cutoff width : Int) :
    List (Except StoreFault Row) :=
  match series with
  | .traffic => rollUp (t.traffic.filter fun r => r.ts < cutoff) width
  | .peers =>
    let steps := t.peerIds.flatMap fun peer => growths (historyBefore t.peers cutoff peer)
    (rollUp steps width).filter grown

end Tables

namespace Action

def deleteTraffic (gone : Row → Bool) : Action Nat := do
  let rows := (← database).tables.traffic.filter gone
  rows.forM fun r => permit .traffic .delete r.id
  modifyTables fun t => { t with traffic := t.traffic.filter fun r => !gone r }
  return rows.length

def deleteSuperseded (cutoff : Int) : Action Nat := do
  let peers := (← database).tables.peers
  let rows := peers.filter (superseded peers cutoff)
  rows.forM fun s => permit .peers .delete s.id
  modifyTables fun t => { t with peers := peers.filter fun s => !superseded peers cutoff s }
  return rows.length

def deleteRaw (series : Series) (cutoff : Int) : Action Nat :=
  match series with
  | .traffic => deleteTraffic fun r => r.ts < cutoff
  | .peers => deleteSuperseded cutoff

def bucketsOf (series : Series) (t : Tables) : List Row :=
  match series with
  | .traffic => t.trafficBuckets
  | .peers => t.peerBuckets

def bucketTable : Series → Table
  | .traffic => .trafficBuckets
  | .peers => .peerBuckets

def modifyBuckets (series : Series) (f : List Row → List Row) : Action Unit :=
  modifyTables fun t =>
    match series with
    | .traffic => { t with trafficBuckets := f t.trafficBuckets }
    | .peers => { t with peerBuckets := f t.peerBuckets }

def deleteBuckets (series : Series) (cutoff : Int) : Action Unit := do
  let gone := fun r : Row => r.ts + compressedBucketSeconds ≤ cutoff
  let rows := (bucketsOf series (← database).tables).filter gone
  rows.forM fun r => permit (bucketTable series) .delete r.id
  modifyBuckets series fun buckets => buckets.filter fun r => !gone r

/-- Adds a bucket, or its amounts to the bucket that is there. -/
def mergeBucket (series : Series) (r : Row) : Action Unit := do
  permit (bucketTable series) .insert r.id
  if holds id (bucketsOf series (← database).tables) r.key then
    permit (bucketTable series) .update r.id
  modifyBuckets series fun buckets => merge buckets r

def watched (table : Table) (change : Change) : Action Bool := do
  return (← database).guards.any fun g => g.table == table && g.change == change

/-- Adds buckets in order. Each is summed when its turn comes, except that all are summed before the
first is added if a guard watches for new buckets. -/
def mergeBuckets (series : Series) (buckets : List (Except StoreFault Row)) : Action Unit := do
  if ← watched (bucketTable series) .insert then
    (← lift (buckets.mapM id)).forM (mergeBucket series)
  else
    buckets.forM fun bucket => do mergeBucket series (← lift bucket)

theorem mapM_id_ok (rows : List Row) :
    (rows.map (fun r => (.ok r : Except StoreFault Row))).mapM id = .ok rows := by
  induction rows with
  | nil => rfl
  | cons r rest ih =>
    rw [List.map_cons, List.mapM_cons, ih]
    rfl

theorem forM_lift_ok (series : Series) (rows : List Row) :
    ((rows.map Except.ok).forM fun bucket => do mergeBucket series (← lift bucket))
      = rows.forM (mergeBucket series) := by
  induction rows with
  | nil => rfl
  | cons r rest ih =>
    simp only [List.map_cons, List.forM_eq_forM, List.forM_cons] at ih ⊢
    rw [ih]
    rfl

/-- Which guards there are makes no difference to when buckets are summed that all can be. -/
theorem mergeBuckets_ok (series : Series) (rows : List Row) :
    mergeBuckets series (rows.map .ok) = rows.forM (mergeBucket series) := by
  funext db
  simp only [mergeBuckets, mapM_id_ok, forM_lift_ok]
  show (if _ then _ else _ : Action Unit) db = _
  split <;> rfl

def rowName : Series → String
  | .traffic => "traffic"
  | .peers => "peer"

def hardDeleteBefore (series : Series) (cutoff : Int) : Action Nat := atomically do
  let removed ← within s!"deleting raw {series.name} rows" (deleteRaw series cutoff)
  within s!"deleting compressed {series.name} rows" (deleteBuckets series cutoff)
  return removed

def compressBefore (series : Series) (cutoff width : Int) : Action Nat := atomically do
  within s!"merging {rowName series} rollup" do
    mergeBuckets series ((← database).tables.rolledUp series cutoff (max width 1))
  within s!"deleting rolled-up {rowName series} rows" (deleteRaw series cutoff)

/-- Gives back the pages of deleted rows. No row changes, but there has to be room for a copy of the
file, so how it ends is not up to the database. -/
def vacuum (ended : Except StoreFault Unit) : Action Unit :=
  within "vacuuming database" (lift ended)

end Action

end TrafficMeter.Store
