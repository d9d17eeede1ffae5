import TrafficMeter.Proofs.Store.Calls

/-!
What stands in the way of a call. `Blocked` tells for one action on one database exactly when it
fails, and it is closed under the ways in which actions are put together. A call is blocked by a
guard on any of the rows that it touches, wherever in the call their turn comes, and by a sum past
the column range; a blocked call leaves nothing of what it did by then.
-/

namespace TrafficMeter.Store

section Places

variable {α : Type}

def Somewhere (p : List α → α → Prop) (l : List α) : Prop :=
  ∃ before a rest, l = before ++ a :: rest ∧ p before a

theorem somewhere_nil {p : List α → α → Prop} : ¬ Somewhere p [] := by
  rintro ⟨before, a, rest, he, -⟩
  cases before <;> cases he

theorem somewhere_cons {p : List α → α → Prop} {a : α} {l : List α} :
    Somewhere p (a :: l) ↔ p [] a ∨ Somewhere (fun before => p (a :: before)) l := by
  constructor
  · rintro ⟨before, b, rest, he, hp⟩
    cases before with
    | nil =>
      cases he
      exact Or.inl hp
    | cons c before =>
      cases he
      exact Or.inr ⟨before, b, rest, rfl, hp⟩
  · rintro (hp | ⟨before, b, rest, rfl, hp⟩)
    · exact ⟨[], a, l, rfl, hp⟩
    · exact ⟨a :: before, b, rest, rfl, hp⟩

theorem somewhere_iff_exists {q : α → Prop} {l : List α} :
    Somewhere (fun _ => q) l ↔ ∃ a ∈ l, q a := by
  constructor
  · rintro ⟨before, a, rest, rfl, hq⟩
    exact ⟨a, by simp, hq⟩
  · rintro ⟨a, ha, hq⟩
    obtain ⟨before, rest, rfl⟩ := List.append_of_mem ha
    exact ⟨before, a, rest, rfl, hq⟩

end Places

namespace Action

variable {α β : Type} {db : Database}

/-- Started on `db`, the action fails exactly if `obstacle` holds. -/
def Blocked (action : Action α) (db : Database) (obstacle : Prop) : Prop :=
  (∃ failure after, action db = (.error failure, after)) ↔ obstacle

namespace Blocked

theorem congr {action : Action α} {p q : Prop} (h : Blocked action db p) (hpq : p ↔ q) :
    Blocked action db q := h.trans hpq

theorem succeeds {action : Action α} {p : Prop} (h : Blocked action db p) (hn : ¬ p) :
    ∃ a after, action db = (.ok a, after) := by
  rcases ok_or_error action db with hok | hfails
  · exact hok
  · exact absurd (h.mp hfails) hn

theorem never {action : Action α} (h : ∃ a after, action db = (.ok a, after)) :
    Blocked action db False := by
  obtain ⟨a, after, hr⟩ := h
  constructor
  · rintro ⟨failure, other, he⟩
    rw [hr] at he
    cases he
  · exact False.elim

theorem bind {action : Action α} {next : α → Action β} {a : α} {t : Tables} {p q : Prop}
    (h : Blocked action db p) (hy : Yields action db a t)
    (k : Blocked (next a) { db with tables := t } q) : Blocked (action >>= next) db (p ∨ q) := by
  constructor
  · rintro ⟨failure, after, hr⟩
    rcases bind_error.mp hr with he | ⟨x, mid, hx, hn⟩
    · exact Or.inl (h.mp ⟨failure, after, he⟩)
    · obtain ⟨rfl, rfl⟩ := hy.only x mid hx
      exact Or.inr (k.mp ⟨failure, after, hn⟩)
  · intro hobstacle
    by_cases hp : p
    · obtain ⟨failure, after, he⟩ := h.mpr hp
      exact ⟨failure, after, bind_error.mpr (Or.inl he)⟩
    · obtain ⟨x, mid, hx⟩ := h.succeeds hp
      obtain ⟨rfl, rfl⟩ := hy.only x mid hx
      obtain ⟨failure, after, hn⟩ := k.mpr (hobstacle.resolve_left hp)
      exact ⟨failure, after, bind_error.mpr (Or.inr ⟨x, _, hx, hn⟩)⟩

theorem bind_never {action : Action α} {next : α → Action β} {p : Prop} (h : Blocked action db p)
    (k : ∀ a mid, ∃ b after, next a mid = (.ok b, after)) : Blocked (action >>= next) db p := by
  refine Iff.trans ?_ h
  constructor
  · rintro ⟨failure, after, hr⟩
    rcases bind_error.mp hr with he | ⟨a, mid, -, hn⟩
    · exact ⟨failure, after, he⟩
    · obtain ⟨b, done, hk⟩ := k a mid
      rw [hk] at hn
      cases hn
  · rintro ⟨failure, after, he⟩
    exact ⟨failure, after, bind_error.mpr (Or.inl he)⟩

theorem read {f : Database → Action α} {p : Prop} (h : Blocked (f db) db p) :
    Blocked (database >>= f) db p := h

theorem within {action : Action α} {p : Prop} (activity : String) (h : Blocked action db p) :
    Blocked (within activity action) db p := by
  refine Iff.trans ?_ h
  unfold Action.within
  cases action db with
  | mk result after => cases result <;> simp

theorem atomically {action : Action α} {p : Prop} (h : Blocked action db p) :
    Blocked (atomically action) db p := by
  refine Iff.trans ?_ h
  unfold Action.atomically
  cases action db with
  | mk result after => cases result <;> simp

theorem permit (db : Database) (table : Table) (change : Change) (id : String) :
    Blocked (permit table change id) db (db.refuses table change id = true) := by
  unfold Blocked Action.permit
  split <;> simp_all

theorem permit_if (table : Table) (change : Change) (id : String) (there : Bool)
    {next : PUnit → Action α} (k : ∀ mid, ∃ b after, next PUnit.unit mid = (.ok b, after)) :
    Blocked (if there = true then Action.permit table change id >>= next else next PUnit.unit) db
      (there = true ∧ db.refuses table change id = true) := by
  cases there with
  | true =>
    exact ((permit db table change id).bind_never fun _ mid => k mid).congr (by simp)
  | false => exact (never (k db)).congr (by simp)

theorem forM_permit (db : Database) (table : Table) (change : Change) (id : α → String)
    (l : List α) : Blocked (l.forM fun a => Action.permit table change (id a)) db
      (∃ a ∈ l, db.refuses table change (id a) = true) := by
  induction l with
  | nil => exact (never ⟨PUnit.unit, db, rfl⟩).congr (by simp)
  | cons a rest ih =>
    exact ((permit db table change (id a)).bind (Yields.permit db _ _ _) ih).congr (by simp)

theorem forM {action : α → Action PUnit} (f : Tables → α → Tables) {obstacle : Tables → α → Prop}
    (hy : ∀ a db, Yields (action a) db PUnit.unit (f db.tables a))
    (h : ∀ a t, Blocked (action a) { db with tables := t } (obstacle t a)) (l : List α) (t : Tables) :
    Blocked (l.forM action) { db with tables := t }
      (Somewhere (fun before a => obstacle (before.foldl f t) a) l) := by
  induction l generalizing t with
  | nil => exact (never ⟨PUnit.unit, _, rfl⟩).congr (by simp [somewhere_nil])
  | cons a rest ih =>
    refine ((h a t).bind (hy a _) (ih (f t a))).congr ?_
    exact (somewhere_cons (p := fun before b => obstacle (before.foldl f t) b)).symm

/-- A batch is blocked where its first obstacle comes up, by what was written until then. -/
theorem writeAll {write : α → Action ℕ} (f : Tables → α → Tables) (answer : Tables → α → ℕ)
    {obstacle : Tables → α → Prop}
    (hy : ∀ a db, Yields (write a) db (answer db.tables a) (f db.tables a))
    (h : ∀ a t, Blocked (write a) { db with tables := t } (obstacle t a)) (l : List α) (t : Tables) :
    Blocked (writeAll write l) { db with tables := t }
      (Somewhere (fun before a => obstacle (before.foldl f t) a) l) := by
  induction l generalizing t with
  | nil => exact (never ⟨0, _, rfl⟩).congr (by simp [somewhere_nil])
  | cons a rest ih =>
    have hrest : Blocked (do return answer t a + (← Action.writeAll write rest))
        { db with tables := f t a } _ :=
      (ih (f t a)).bind_never fun n mid => ⟨answer t a + n, mid, rfl⟩
    refine ((h a t).bind (hy a _) hrest).congr ?_
    exact (somewhere_cons (p := fun before b => obstacle (before.foldl f t) b)).symm

end Blocked

variable (db)

theorem appendSample_blocked (s : Sample) :
    Blocked (appendSample s) db (db.refuses .traffic .insert s.identity = true) :=
  (Blocked.permit db _ _ _).bind_never fun _ _ => ⟨_, _, rfl⟩

theorem appendPeerSample_blocked (s : PeerSample) :
    Blocked (appendPeerSample s) db (db.refuses .peers .insert s.peer = true) :=
  (Blocked.permit db _ _ _).bind_never fun _ _ => ⟨_, _, rfl⟩

theorem mergeSample_blocked (s : Sample) :
    Blocked (mergeSample s) db (db.refuses .traffic .insert s.identity = true ∨
      holds id db.tables.traffic s.row.key = true ∧
        db.refuses .traffic .update s.identity = true) := by
  refine (Blocked.permit db _ _ _).bind (Yields.permit db _ _ _) (Blocked.read ?_)
  exact Blocked.permit_if _ _ _ _ fun _ => ⟨_, _, rfl⟩

theorem mergeBucket_blocked (series : Series) (r : Row) :
    Blocked (mergeBucket series r) db (db.refuses (bucketTable series) .insert r.id = true ∨
      holds id (bucketsOf series db.tables) r.key = true ∧
        db.refuses (bucketTable series) .update r.id = true) := by
  refine (Blocked.permit db _ _ _).bind (Yields.permit db _ _ _) (Blocked.read ?_)
  exact Blocked.permit_if _ _ _ _ fun _ => ⟨_, _, rfl⟩

theorem deleteTraffic_blocked (gone : Row → Bool) : Blocked (deleteTraffic gone) db
    (∃ r ∈ db.tables.traffic.filter gone, db.refuses .traffic .delete r.id = true) :=
  Blocked.read ((Blocked.forM_permit db _ _ _ _).bind_never fun _ _ => ⟨_, _, rfl⟩)

theorem deleteSuperseded_blocked (cutoff : ℤ) : Blocked (deleteSuperseded cutoff) db
    (∃ s ∈ db.tables.peers.filter (superseded db.tables.peers cutoff),
      db.refuses .peers .delete s.id = true) :=
  Blocked.read ((Blocked.forM_permit db _ _ _ _).bind_never fun _ _ => ⟨_, _, rfl⟩)

end Action

def Database.KeepsRaw (db : Database) (cutoff : ℤ) : Series → Prop
  | .traffic => ∃ r ∈ db.tables.traffic, r.ts < cutoff ∧ db.refuses .traffic .delete r.id = true
  | .peers => ∃ s ∈ db.tables.peers, superseded db.tables.peers cutoff s = true ∧
      db.refuses .peers .delete s.id = true

def Database.KeepsBuckets (db : Database) (cutoff : ℤ) (series : Series) : Prop :=
  ∃ r ∈ Action.bucketsOf series db.tables, r.ts + compressedBucketSeconds ≤ cutoff ∧
    db.refuses (Action.bucketTable series) .delete r.id = true

def Database.RefusesBucket (db : Database) (series : Series) (r : Row) : Prop :=
  db.refuses (Action.bucketTable series) .insert r.id = true ∨
    r.key ∈ (Action.bucketsOf series db.tables).map Row.key ∧
      db.refuses (Action.bucketTable series) .update r.id = true

theorem exists_fault {buckets : List (Except StoreFault Row)}
    (h : ¬ ∃ rows : List Row, buckets = rows.map .ok) : ∃ fault, .error fault ∈ buckets := by
  induction buckets with
  | nil => exact absurd ⟨[], rfl⟩ h
  | cons bucket rest ih =>
    cases bucket with
    | error fault => exact ⟨fault, List.mem_cons_self⟩
    | ok r =>
      have hrest : ¬ ∃ rows : List Row, rest = rows.map .ok := by
        rintro ⟨rows, rfl⟩
        exact h ⟨r :: rows, rfl⟩
      obtain ⟨fault, hf⟩ := ih hrest
      exact ⟨fault, List.mem_cons_of_mem _ hf⟩

namespace Action

variable (db : Database)

theorem deleteRaw_blocked (series : Series) (cutoff : ℤ) :
    Blocked (deleteRaw series cutoff) db (db.KeepsRaw cutoff series) := by
  cases series with
  | traffic =>
    refine (deleteTraffic_blocked db _).congr ?_
    simp [Database.KeepsRaw, and_assoc]
  | peers =>
    refine (deleteSuperseded_blocked db cutoff).congr ?_
    simp [Database.KeepsRaw, and_assoc]

theorem deleteBuckets_blocked (series : Series) (cutoff : ℤ) :
    Blocked (deleteBuckets series cutoff) db (db.KeepsBuckets cutoff series) := by
  have hforM := Blocked.forM_permit db (bucketTable series) .delete Row.id
    ((bucketsOf series db.tables).filter fun r => r.ts + compressedBucketSeconds ≤ cutoff)
  refine (Blocked.read (hforM.bind_never fun _ _ => ⟨_, _, rfl⟩)).congr ?_
  simp [Database.KeepsBuckets, and_assoc]

/-- Buckets of distinct keys: what was added before a bucket does not stand in its way. -/
theorem mergeAll_blocked (series : Series) {rows : List Row} (hd : (rows.map Row.key).Nodup) :
    Blocked (rows.forM (mergeBucket series)) db (∃ r ∈ rows, db.RefusesBucket series r) := by
  have hall := Blocked.forM (fun t r => t.withBuckets (fun buckets => merge buckets r) series)
    (fun r db => mergeBucket_yields db series r)
    (fun r t => mergeBucket_blocked { db with tables := t } series r) rows db.tables
  have hkeys : ∀ before : List Row, ∀ key, holds id (bucketsOf series (before.foldl (fun t r =>
      t.withBuckets (fun buckets => merge buckets r) series) db.tables)) key = true ↔
      key ∈ (bucketsOf series db.tables).map Row.key ∨ key ∈ before.map Row.key := by
    intro before key
    rw [Tables.foldl_withBuckets, holds_iff]
    cases series <;> exact key_mem_foldl_merge
  refine hall.congr (Iff.trans ?_ somewhere_iff_exists)
  constructor
  · rintro ⟨before, r, rest, rfl, hr⟩
    refine ⟨before, r, rest, rfl, hr.imp_right fun ⟨hh, hu⟩ => ⟨?_, hu⟩⟩
    rcases (hkeys before r.key).mp hh with hin | hin
    · exact hin
    · -- it cannot be among those that were added before
      rw [List.map_append, List.map_cons] at hd
      exact absurd List.mem_cons_self (List.disjoint_of_nodup_append hd hin)
  · rintro ⟨before, r, rest, rfl, hr⟩
    exact ⟨before, r, rest, rfl,
      hr.imp_right fun ⟨hin, hu⟩ => ⟨(hkeys before r.key).mpr (Or.inl hin), hu⟩⟩

theorem mergeBuckets_blocked (series : Series) {buckets : List (Except StoreFault Row)}
    (hd : ((buckets.filterMap Except.toOption).map Row.key).Nodup) :
    Blocked (mergeBuckets series buckets) db ((∃ fault, .error fault ∈ buckets) ∨
      ∃ r, .ok r ∈ buckets ∧ db.RefusesBucket series r) := by
  by_cases hall : ∃ rows : List Row, buckets = rows.map .ok
  · obtain ⟨rows, rfl⟩ := hall
    rw [mergeBuckets_ok]
    rw [filterMap_ok] at hd
    exact (mergeAll_blocked db series hd).congr (by simp)
  · refine Iff.intro (fun _ => Or.inl (exists_fault hall)) fun _ => ?_
    rcases ok_or_error (mergeBuckets series buckets) db with ⟨_, after, hr⟩ | hfails
    · exact absurd (mergeBuckets_summable hr) hall
    · exact hfails

end Action

section Rollup

variable {rows : List Row} {t : Tables} {series : Series} {cutoff width : ℤ} {fault : StoreFault}

theorem Cell.sum_error {cells : List Cell} (h : Cell.sum cells = .error fault) :
    fault = .integerOverflow := by
  unfold Cell.sum at h
  dsimp only at h
  split at h
  · cases h
  · split at h <;> cases h
    rfl

theorem groupSum_error {shares : List (Share ℤ)} {key : ℤ} (h : groupSum shares key = .error fault) :
    fault = .integerOverflow := by
  unfold groupSum at h
  dsimp only at h
  cases hu : Cell.sum ((shares.filter (·.key = key)).map (·.up)) with
  | error other =>
    rw [hu] at h
    cases h
    exact Cell.sum_error hu
  | ok up =>
    cases hd : Cell.sum ((shares.filter (·.key = key)).map (·.down)) with
    | error other =>
      rw [hu, hd] at h
      cases h
      exact Cell.sum_error hd
    | ok down =>
      rw [hu, hd] at h
      cases h

theorem rollUp_error (h : .error fault ∈ rollUp rows width) : fault = .integerOverflow := by
  simp only [rollUp, List.mem_flatMap, List.mem_map] at h
  obtain ⟨identity, -, start, -, h⟩ := h
  cases hs : groupSum ((rows.filter (·.id == identity)).map
      (Row.share fun r => bucketKey r.ts width)) start with
  | error other =>
    rw [hs] at h
    cases h
    exact groupSum_error hs
  | ok amounts =>
    rw [hs] at h
    cases h

theorem rolledUp_error (h : .error fault ∈ t.rolledUp series cutoff width) :
    fault = .integerOverflow := by
  cases series with
  | traffic => exact rollUp_error h
  | peers => exact rollUp_error (List.mem_filter.mp h).1

theorem rolledUp_distinct :
    (((t.rolledUp series cutoff width).filterMap Except.toOption).map Row.key).Nodup := by
  cases series with
  | traffic => exact slots_nodup.sublist rollUp_keys_sublist
  | peers =>
    have hpart : (t.rolledUp .peers cutoff width).Sublist (rollUp _ width) := List.filter_sublist
    exact slots_nodup.sublist (((hpart.filterMap _).map _).trans rollUp_keys_sublist)

end Rollup

namespace Call

/-- What stands in the way of a call: a sample that is refused, wherever in its batch it stands, a
bucket that cannot be summed or written, a row that may not be deleted. -/
def Obstructed (db : Database) : Call → Prop
  | .append samples => ∃ s ∈ samples, db.refuses .traffic .insert s.identity = true
  | .merge samples => Somewhere (fun before s => db.refuses .traffic .insert s.identity = true ∨
      s.row.key ∈ (db.tables.traffic ++ before.map Sample.row).map Row.key ∧
        db.refuses .traffic .update s.identity = true) samples
  | .appendPeers samples => ∃ s ∈ samples, db.refuses .peers .insert s.peer = true
  | .hardDelete series cutoff => db.KeepsRaw cutoff series ∨ db.KeepsBuckets cutoff series
  | .compress series cutoff width =>
    .error .integerOverflow ∈ db.tables.rolledUp series cutoff (max width 1) ∨
      (∃ r, .ok r ∈ db.tables.rolledUp series cutoff (max width 1) ∧ db.RefusesBucket series r) ∨
      db.KeepsRaw cutoff series

variable (db : Database)

theorem append_blocked (samples : List Sample) :
    Action.Blocked (Action.appendBatch samples) db (Obstructed db (.append samples)) := by
  have hall := Action.Blocked.writeAll
    (fun t s => { t with traffic := insertNew id t.traffic s.row })
    (fun t s => if holds id t.traffic s.row.key then 0 else 1)
    (fun s db => (Action.appendSample_yields db s).within s!"inserting sample for {s.identity}")
    (fun s t => (Action.appendSample_blocked { db with tables := t } s).within _) samples db.tables
  exact hall.atomically.congr
    (somewhere_iff_exists (q := fun s : Sample => db.refuses .traffic .insert s.identity = true))

theorem appendPeers_blocked (samples : List PeerSample) :
    Action.Blocked (Action.appendPeerBatch samples) db (Obstructed db (.appendPeers samples)) := by
  have hall := Action.Blocked.writeAll
    (fun t s => { t with peers := insertNew Snapshot.toRow t.peers s.snapshot })
    (fun t s => if holds Snapshot.toRow t.peers s.snapshot.key then 0 else 1)
    (fun s db => (Action.appendPeerSample_yields db s).within s!"inserting snapshot for {s.peer}")
    (fun s t => (Action.appendPeerSample_blocked { db with tables := t } s).within _)
    samples db.tables
  exact hall.atomically.congr
    (somewhere_iff_exists (q := fun s : PeerSample => db.refuses .peers .insert s.peer = true))

theorem merge_blocked (samples : List Sample) :
    Action.Blocked (Action.mergeBatch samples) db (Obstructed db (.merge samples)) := by
  have hall := Action.Blocked.writeAll
    (fun t s => { t with traffic := Store.merge t.traffic s.row }) (fun _ _ => 1)
    (fun s db => (Action.mergeSample_yields db s).within s!"merging sample for {s.identity}")
    (fun s t => (Action.mergeSample_blocked { db with tables := t } s).within _) samples db.tables
  refine hall.atomically.congr (iff_of_eq (congrArg (Somewhere · samples) ?_))
  funext before s
  have hkeys : holds id (before.foldl (fun t s =>
      { t with traffic := Store.merge t.traffic s.row }) db.tables).traffic s.row.key = true ↔
      s.row.key ∈ (db.tables.traffic ++ before.map Sample.row).map Row.key := by
    rw [foldl_part Tables.traffic (fun rows t => { t with traffic := rows }) (fun _ _ => rfl)
      (fun _ _ _ => rfl) (fun _ => rfl) fun rows (s : Sample) => Store.merge rows s.row, holds_iff,
      ← List.foldl_map, List.map_append, List.mem_append]
    exact key_mem_foldl_merge
  exact propext (or_congr_right (and_congr_left' hkeys))

theorem hardDelete_blocked (series : Series) (cutoff : ℤ) :
    Action.Blocked (Action.hardDeleteBefore series cutoff) db
      (Obstructed db (.hardDelete series cutoff)) := by
  have hbuckets : Action.Blocked (Action.deleteBuckets series cutoff)
      { db with tables := db.tables.prune cutoff series } (db.KeepsBuckets cutoff series) := by
    refine (Action.deleteBuckets_blocked _ series cutoff).congr ?_
    cases series <;> exact Iff.rfl
  refine (((Action.deleteRaw_blocked db series cutoff).within _).bind
    ((Action.deleteRaw_yields db series cutoff).within _) ?_).atomically
  exact (hbuckets.within _).bind_never fun _ _ => ⟨_, _, rfl⟩

theorem rollup_blocked (series : Series) (cutoff width : ℤ) :
    Action.Blocked (do
      Action.mergeBuckets series ((← Action.database).tables.rolledUp series cutoff width)) db
      (.error .integerOverflow ∈ db.tables.rolledUp series cutoff width ∨
        ∃ r, .ok r ∈ db.tables.rolledUp series cutoff width ∧ db.RefusesBucket series r) := by
  refine (Action.Blocked.read (Action.mergeBuckets_blocked db series rolledUp_distinct)).congr ?_
  refine or_congr_left ⟨?_, fun h => ⟨_, h⟩⟩
  rintro ⟨fault, hf⟩
  rwa [rolledUp_error hf] at hf

theorem compress_blocked (series : Series) (cutoff width : ℤ) :
    Action.Blocked (Action.compressBefore series cutoff width) db
      (Obstructed db (.compress series cutoff width)) := by
  by_cases hall : ∃ rows : List Row, db.tables.rolledUp series cutoff (max width 1) = rows.map .ok
  · obtain ⟨rows, hrows⟩ := hall
    have hraw : Action.Blocked (Action.deleteRaw series cutoff)
        { db with tables := db.tables.withBuckets (rows.foldl Store.merge) series }
        (db.KeepsRaw cutoff series) := by
      refine (Action.deleteRaw_blocked _ series cutoff).congr ?_
      cases series <;> exact Iff.rfl
    exact (((rollup_blocked db series cutoff _).within _).bind
      ((Action.rollup_yields db series cutoff _ hrows).within _) (hraw.within _)).atomically.congr
        or_assoc
  · -- a sum overflows, so the call fails whatever else may stand in its way
    obtain ⟨fault, hf⟩ := exists_fault hall
    rw [rolledUp_error hf] at hf
    refine Iff.intro (fun _ => Or.inl hf) fun _ => ?_
    rcases Action.ok_or_error (compress series cutoff width).action db with ⟨n, after, hr⟩ | hfails
    · exact absurd (summable_of_ok hr) hall
    · exact hfails

theorem blocked (call : Call) : Action.Blocked call.action db (call.Obstructed db) := by
  cases call with
  | append samples => exact append_blocked db samples
  | merge samples => exact merge_blocked db samples
  | appendPeers samples => exact appendPeers_blocked db samples
  | hardDelete series cutoff => exact hardDelete_blocked db series cutoff
  | compress series cutoff width => exact compress_blocked db series cutoff width

end Call

/-- A call fails exactly if something stands in its way, wherever that is met, and then the database is
as it was; otherwise its whole effect is there. -/
theorem writes_all_or_nothing (call : Call) (db : Database) :
    (∀ failure after, call.action.run db = (.error failure, after) → after = db) ∧
    ((∃ failure after, call.action.run db = (.error failure, after)) ↔ call.Obstructed db) ∧
    (¬ call.Obstructed db → call.action.run db =
      (.ok (call.answer db.tables), { db with tables := call.effect db.tables })) := by
  refine ⟨fun _ _ h => Call.unchanged_of_error h, call.blocked db, fun hfree => ?_⟩
  rcases call.run_cases db with ⟨failure, hr⟩ | ⟨-, hr⟩
  · exact absurd ((call.blocked db).mp ⟨failure, db, hr⟩) hfree
  · exact hr

def undeletable : Database :=
  { Database.blank with
    tables := { Tables.empty with
      traffic := [⟨"a", 70, .int 5, .int 0⟩]
      trafficBuckets := [⟨"a", 60, .int 1, .int 1⟩] }
    guards := [⟨.traffic, .delete, some "a"⟩] }

/-- The rollup of these is refused after it has added to the bucket, and takes that back. -/
theorem writes_all_or_nothing_at_last_statement :
    (∃ db, Action.mergeBuckets .traffic (undeletable.tables.rolledUp .traffic 120 60) undeletable =
      (.ok (), db) ∧ db ≠ undeletable) ∧
    ∃ failure, (Call.compress .traffic 120 60).action.run undeletable =
      (.error failure, undeletable) := by
  obtain ⟨hkeep, hiff, -⟩ := writes_all_or_nothing (.compress .traffic 120 60) undeletable
  obtain ⟨failure, after, hr⟩ := hiff.mpr (Or.inr (Or.inr ⟨_, List.mem_cons_self, by decide, rfl⟩))
  refine ⟨⟨_, rfl, by decide⟩, failure, ?_⟩
  rw [hr, hkeep failure after hr]

end TrafficMeter.Store
