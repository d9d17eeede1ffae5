import TrafficMeter.Proofs.Store.Outcomes
import TrafficMeter.Proofs.Store.Overflow

/-!
The calls that change the byte tables. Each either fails and leaves the database as it was, or gives
one answer and leaves the tables that `Call.effect` describes. No call breaks `Tables.Sound`, so it
holds after every run from a sound store.
-/

namespace TrafficMeter.Store

/-- The members of a batch whose key is free when their turn comes. -/
def newcomers {α : Type} (row : α → Row) (table : List α) : List α → List α
  | [] => []
  | a :: rest =>
    if holds row table (row a).key then newcomers row table rest
    else a :: newcomers row (table ++ [a]) rest

theorem filterMap_ok (rows : List Row) :
    (rows.map (.ok : Row → Except StoreFault Row)).filterMap Except.toOption = rows := by
  rw [List.filterMap_map]
  exact List.filterMap_some

theorem length_newcomers_cons {α : Type} (row : α → Row) (table : List α) (a : α) (rest : List α) :
    (newcomers row table (a :: rest)).length =
      (if holds row table (row a).key then 0 else 1) +
        (newcomers row (insertNew row table a) rest).length := by
  rw [newcomers, insertNew]
  split
  · simp
  · rw [List.length_cons, Nat.add_comm]

theorem foldl_insertNew {α : Type} (row : α → Row) (table added : List α) :
    added.foldl (insertNew row) table = table ++ newcomers row table added := by
  induction added generalizing table with
  | nil => simp [newcomers]
  | cons a rest ih =>
    rw [List.foldl_cons, ih, newcomers, insertNew]
    split
    · rfl
    · simp

theorem newcomers_subset {α : Type} (row : α → Row) (table added : List α) :
    newcomers row table added ⊆ added := by
  induction added generalizing table with
  | nil => simp [newcomers]
  | cons a rest ih =>
    rw [newcomers]
    split
    · exact List.subset_cons_of_subset a (ih table)
    · exact List.cons_subset_cons a (ih _)

theorem foldl_part {σ π α : Type} (get : σ → π) (set : π → σ → σ)
    (get_set : ∀ p s, get (set p s) = p) (set_set : ∀ p q s, set p (set q s) = set p s)
    (set_get : ∀ s, set (get s) s = s) (step : π → α → π) (l : List α) (s : σ) :
    l.foldl (fun s a => set (step (get s) a) s) s = set (l.foldl step (get s)) s := by
  induction l generalizing s with
  | nil => exact (set_get s).symm
  | cons a rest ih => rw [List.foldl_cons, ih, get_set, set_set, List.foldl_cons]

namespace Tables

/-- The raw rows of a series before a cutoff are gone, save the newest snapshot of each peer. -/
def prune (t : Tables) (cutoff : ℤ) : Series → Tables
  | .traffic => { t with traffic := t.traffic.filter fun r => !decide (r.ts < cutoff) }
  | .peers => { t with peers := t.peers.filter fun s => !superseded t.peers cutoff s }

def outdated (t : Tables) (cutoff : ℤ) : Series → ℕ
  | .traffic => (t.traffic.filter fun r => r.ts < cutoff).length
  | .peers => (t.peers.filter (superseded t.peers cutoff)).length

def withBuckets (t : Tables) (f : List Row → List Row) : Series → Tables
  | .traffic => { t with trafficBuckets := f t.trafficBuckets }
  | .peers => { t with peerBuckets := f t.peerBuckets }

theorem foldl_withBuckets (t : Tables) (series : Series) (rows : List Row) :
    rows.foldl (fun t r => t.withBuckets (fun buckets => merge buckets r) series) t =
      t.withBuckets (rows.foldl merge) series := by
  cases series with
  | traffic =>
    exact foldl_part Tables.trafficBuckets (fun rows t => { t with trafficBuckets := rows })
      (fun _ _ => rfl) (fun _ _ _ => rfl) (fun _ => rfl) merge rows t
  | peers =>
    exact foldl_part Tables.peerBuckets (fun rows t => { t with peerBuckets := rows })
      (fun _ _ => rfl) (fun _ _ _ => rfl) (fun _ => rfl) merge rows t

def dropBuckets (t : Tables) (cutoff : ℤ) (series : Series) : Tables :=
  t.withBuckets (fun buckets => buckets.filter fun r =>
    !decide (r.ts + compressedBucketSeconds ≤ cutoff)) series

def compress (t : Tables) (cutoff width : ℤ) (series : Series) : Tables :=
  (t.withBuckets (((t.rolledUp series cutoff (max width 1)).filterMap Except.toOption).foldl merge)
    series).prune cutoff series

end Tables

inductive Call where
  | append (samples : List Sample)
  | merge (samples : List Sample)
  | appendPeers (samples : List PeerSample)
  | hardDelete (series : Series) (cutoff : ℤ)
  | compress (series : Series) (cutoff width : ℤ)
  deriving DecidableEq, Repr

namespace Call

def action : Call → Action ℕ
  | .append samples => Action.appendBatch samples
  | .merge samples => Action.mergeBatch samples
  | .appendPeers samples => Action.appendPeerBatch samples
  | .hardDelete series cutoff => Action.hardDeleteBefore series cutoff
  | .compress series cutoff width => Action.compressBefore series cutoff width

def effect (t : Tables) : Call → Tables
  | .append samples => { t with traffic := (samples.map Sample.row).foldl (insertNew id) t.traffic }
  | .merge samples => { t with traffic := (samples.map Sample.row).foldl Store.merge t.traffic }
  | .appendPeers samples =>
    { t with peers := (samples.map PeerSample.snapshot).foldl (insertNew Snapshot.toRow) t.peers }
  | .hardDelete series cutoff => (t.prune cutoff series).dropBuckets cutoff series
  | .compress series cutoff width => t.compress cutoff width series

def answer (t : Tables) : Call → ℕ
  | .append samples => (newcomers id t.traffic (samples.map Sample.row)).length
  | .merge samples => samples.length
  | .appendPeers samples =>
    (newcomers Snapshot.toRow t.peers (samples.map PeerSample.snapshot)).length
  | .hardDelete series cutoff | .compress series cutoff _ => t.outdated cutoff series

/-- Every bucket that the call would write can be summed. -/
def Summable (t : Tables) : Call → Prop
  | .compress series cutoff width =>
    ∃ rows : List Row, t.rolledUp series cutoff (max width 1) = rows.map .ok
  | _ => True

end Call

namespace Action

variable (db : Database)

theorem appendSample_yields (s : Sample) :
    Yields (appendSample s) db (if holds id db.tables.traffic s.row.key then 0 else 1)
      { db.tables with traffic := insertNew id db.tables.traffic s.row } :=
  (Yields.permit db _ _ _).bind ((Yields.database _).bind
    ((Yields.modifyTables _ _).bind (Yields.pure _ _)))

theorem mergeSample_yields (s : Sample) :
    Yields (mergeSample s) db 1
      { db.tables with traffic := merge db.tables.traffic s.row } := by
  refine (Yields.permit db _ _ _).bind ((Yields.database _).bind ?_)
  have hdone : Yields (do
      modifyTables fun t => { t with traffic := merge t.traffic s.row }
      return 1) db 1 { db.tables with traffic := merge db.tables.traffic s.row } :=
    (Yields.modifyTables db _).bind (Yields.pure _ _)
  dsimp only
  split
  · exact (Yields.permit db _ _ _).bind hdone
  · exact hdone

theorem appendPeerSample_yields (s : PeerSample) :
    Yields (appendPeerSample s) db
      (if holds Snapshot.toRow db.tables.peers s.snapshot.key then 0 else 1)
      { db.tables with peers := insertNew Snapshot.toRow db.tables.peers s.snapshot } :=
  (Yields.permit db _ _ _).bind ((Yields.database _).bind
    ((Yields.modifyTables _ _).bind (Yields.pure _ _)))

theorem appendBatch_yields (samples : List Sample) :
    Yields (appendBatch samples) db
      (newcomers id db.tables.traffic (samples.map Sample.row)).length
      { db.tables with
        traffic := (samples.map Sample.row).foldl (insertNew id) db.tables.traffic } := by
  have hall := Yields.writeAll
    (fun t s => { t with traffic := insertNew id t.traffic s.row })
    (fun t s => if holds id t.traffic s.row.key then 0 else 1)
    (fun t l => (newcomers id t.traffic (l.map Sample.row)).length)
    (fun s db => (appendSample_yields db s).within s!"inserting sample for {s.identity}")
    (fun _ => rfl) (fun t s rest => length_newcomers_cons id t.traffic s.row _) db samples
  rw [foldl_part Tables.traffic (fun rows t => { t with traffic := rows }) (fun _ _ => rfl)
    (fun _ _ _ => rfl) (fun _ => rfl) fun rows (s : Sample) => insertNew id rows s.row] at hall
  rw [List.foldl_map]
  exact hall.atomically

theorem mergeBatch_yields (samples : List Sample) :
    Yields (mergeBatch samples) db samples.length
      { db.tables with traffic := (samples.map Sample.row).foldl merge db.tables.traffic } := by
  have hall := Yields.writeAll
    (fun t s => { t with traffic := merge t.traffic s.row }) (fun _ _ => 1) (fun _ l => l.length)
    (fun s db => (mergeSample_yields db s).within s!"merging sample for {s.identity}")
    (fun _ => rfl) (fun _ _ _ => Nat.add_comm _ _) db samples
  rw [foldl_part Tables.traffic (fun rows t => { t with traffic := rows }) (fun _ _ => rfl)
    (fun _ _ _ => rfl) (fun _ => rfl) fun rows (s : Sample) => merge rows s.row] at hall
  rw [List.foldl_map]
  exact hall.atomically

theorem appendPeerBatch_yields (samples : List PeerSample) :
    Yields (appendPeerBatch samples) db
      (newcomers Snapshot.toRow db.tables.peers (samples.map PeerSample.snapshot)).length
      { db.tables with peers :=
        (samples.map PeerSample.snapshot).foldl (insertNew Snapshot.toRow) db.tables.peers } := by
  have hall := Yields.writeAll
    (fun t s => { t with peers := insertNew Snapshot.toRow t.peers s.snapshot })
    (fun t s => if holds Snapshot.toRow t.peers s.snapshot.key then 0 else 1)
    (fun t l => (newcomers Snapshot.toRow t.peers (l.map PeerSample.snapshot)).length)
    (fun s db => (appendPeerSample_yields db s).within s!"inserting snapshot for {s.peer}")
    (fun _ => rfl)
    (fun t s rest => length_newcomers_cons Snapshot.toRow t.peers s.snapshot _) db samples
  rw [foldl_part Tables.peers (fun rows t => { t with peers := rows }) (fun _ _ => rfl)
    (fun _ _ _ => rfl) (fun _ => rfl)
    fun rows (s : PeerSample) => insertNew Snapshot.toRow rows s.snapshot] at hall
  rw [List.foldl_map]
  exact hall.atomically

theorem deleteTraffic_yields (gone : Row → Bool) :
    Yields (deleteTraffic gone) db (db.tables.traffic.filter gone).length
      { db.tables with traffic := db.tables.traffic.filter fun r => !gone r } :=
  (Yields.database db).bind ((Yields.forM_permit db _ _ _ _).bind
    ((Yields.modifyTables _ _).bind (Yields.pure _ _)))

theorem deleteSuperseded_yields (cutoff : ℤ) :
    Yields (deleteSuperseded cutoff) db
      (db.tables.peers.filter (superseded db.tables.peers cutoff)).length
      { db.tables with
        peers := db.tables.peers.filter fun s => !superseded db.tables.peers cutoff s } :=
  (Yields.database db).bind ((Yields.forM_permit db _ _ _ _).bind
    ((Yields.modifyTables _ _).bind (Yields.pure _ _)))

theorem deleteRaw_yields (series : Series) (cutoff : ℤ) :
    Yields (deleteRaw series cutoff) db (db.tables.outdated cutoff series)
      (db.tables.prune cutoff series) := by
  cases series with
  | traffic => exact deleteTraffic_yields db _
  | peers => exact deleteSuperseded_yields db cutoff

theorem modifyBuckets_yields (series : Series) (f : List Row → List Row) :
    Yields (modifyBuckets series f) db () (db.tables.withBuckets f series) := by
  cases series with
  | traffic => exact Yields.modifyTables db _
  | peers => exact Yields.modifyTables db _

theorem deleteBuckets_yields (series : Series) (cutoff : ℤ) :
    Yields (deleteBuckets series cutoff) db () (db.tables.dropBuckets cutoff series) :=
  (Yields.database db).bind ((Yields.forM_permit db _ _ _ _).bind
    (modifyBuckets_yields _ series _))

theorem mergeBucket_yields (series : Series) (r : Row) :
    Yields (mergeBucket series r) db ()
      (db.tables.withBuckets (fun buckets => merge buckets r) series) := by
  refine (Yields.permit db _ _ _).bind ((Yields.database _).bind ?_)
  have hdone := modifyBuckets_yields db series fun buckets => merge buckets r
  dsimp only
  split
  · exact (Yields.permit db _ _ _).bind hdone
  · exact hdone

theorem mergeBuckets_yields (series : Series) (rows : List Row) :
    Yields (mergeBuckets series (rows.map .ok)) db ()
      (db.tables.withBuckets (rows.foldl merge) series) := by
  rw [mergeBuckets_ok, ← Tables.foldl_withBuckets]
  exact Yields.forM (fun t r => t.withBuckets (fun buckets => merge buckets r) series)
    (fun r db => mergeBucket_yields db series r) db rows

theorem rollup_yields (series : Series) (cutoff width : ℤ) {rows : List Row}
    (h : db.tables.rolledUp series cutoff width = rows.map .ok) :
    Yields (do mergeBuckets series ((← database).tables.rolledUp series cutoff width)) db ()
      (db.tables.withBuckets (rows.foldl merge) series) := by
  refine (Yields.database db).bind ?_
  rw [h]
  exact mergeBuckets_yields db series rows

theorem compressBefore_yields (series : Series) (cutoff width : ℤ) {rows : List Row}
    (h : db.tables.rolledUp series cutoff (max width 1) = rows.map .ok) :
    Yields (compressBefore series cutoff width) db (db.tables.outdated cutoff series)
      (db.tables.compress cutoff width series) := by
  have hraw : (db.tables.withBuckets (rows.foldl merge) series).outdated cutoff series =
      db.tables.outdated cutoff series := by
    cases series <;> rfl
  unfold Tables.compress
  rw [h, filterMap_ok, ← hraw]
  exact (((rollup_yields db series cutoff _ h).within _).bind
    ((deleteRaw_yields _ series cutoff).within _)).atomically

private theorem eq_map_ok_of_mapM {buckets : List (Except StoreFault Row)} {rows : List Row}
    (h : buckets.mapM id = .ok rows) : buckets = rows.map .ok := by
  induction buckets generalizing rows with
  | nil => cases h; rfl
  | cons bucket rest ih =>
    rw [List.mapM_cons] at h
    cases bucket with
    | error fault => cases h
    | ok r =>
      cases hr : rest.mapM id with
      | error fault => rw [hr] at h; cases h
      | ok others =>
        rw [hr] at h
        cases h
        rw [ih hr, List.map_cons]

private theorem eq_map_ok_of_forM {series : Series} {buckets : List (Except StoreFault Row)}
    {db after : Database}
    (h : (buckets.forM fun bucket => do mergeBucket series (← lift bucket)) db = (.ok (), after)) :
    ∃ rows : List Row, buckets = rows.map .ok := by
  induction buckets generalizing db with
  | nil => exact ⟨[], rfl⟩
  | cons bucket rest ih =>
    obtain ⟨_, mid, hone, hrest⟩ := bind_ok.mp h
    obtain ⟨r, _, hl, -⟩ := bind_ok.mp hone
    obtain ⟨rows, rfl⟩ := ih hrest
    exact ⟨r :: rows, by rw [(lift_ok.mp hl).1, List.map_cons]⟩

variable {db} in
theorem mergeBuckets_summable {after : Database} {series : Series}
    {buckets : List (Except StoreFault Row)}
    (h : mergeBuckets series buckets db = (.ok (), after)) :
    ∃ rows : List Row, buckets = rows.map .ok := by
  obtain ⟨guarded, mid, hw, h⟩ := bind_ok.mp h
  cases hw
  split at h
  · obtain ⟨rows, _, hl, -⟩ := bind_ok.mp h
    refine ⟨rows, ?_⟩
    exact eq_map_ok_of_mapM (lift_ok.mp hl).1
  · exact eq_map_ok_of_forM h

end Action

namespace Call

variable {db : Database}

theorem yields (call : Call) (h : call.Summable db.tables) :
    Action.Yields call.action db (call.answer db.tables) (call.effect db.tables) := by
  cases call with
  | append samples => exact Action.appendBatch_yields db samples
  | merge samples => exact Action.mergeBatch_yields db samples
  | appendPeers samples => exact Action.appendPeerBatch_yields db samples
  | hardDelete series cutoff =>
    refine (((Action.deleteRaw_yields db series cutoff).within _).bind ?_).atomically
    exact ((Action.deleteBuckets_yields _ series cutoff).within _).bind (.pure _ _)
  | compress series cutoff width =>
    obtain ⟨rows, hrows⟩ := h
    exact Action.compressBefore_yields db series cutoff width hrows

theorem unchanged_of_error {call : Call} {failure : Failure} {after : Database}
    (h : call.action.run db = (.error failure, after)) : after = db := by
  cases call <;> exact Action.atomically_error h

theorem summable_of_ok {call : Call} {n : ℕ} {after : Database}
    (h : call.action.run db = (.ok n, after)) : call.Summable db.tables := by
  cases call with
  | compress series cutoff width =>
    obtain ⟨_, _, hmerge, -⟩ := Action.bind_ok.mp (Action.atomically_ok.mp h)
    obtain ⟨_, _, hdb, hbuckets⟩ := Action.bind_ok.mp (Action.within_ok.mp hmerge)
    cases hdb
    exact Action.mergeBuckets_summable hbuckets
  | _ => trivial

/-- A call fails without a trace, or has its one answer and its one effect. -/
theorem run_cases (call : Call) (db : Database) :
    (∃ failure, call.action.run db = (.error failure, db)) ∨
      call.Summable db.tables ∧ call.action.run db =
        (.ok (call.answer db.tables), { db with tables := call.effect db.tables }) := by
  rcases Action.ok_or_error call.action db with ⟨n, after, hr⟩ | ⟨failure, after, hr⟩
  · have hs := summable_of_ok hr
    obtain ⟨rfl, rfl⟩ := (call.yields hs).only n after hr
    exact Or.inr ⟨hs, hr⟩
  · have hsame : after = db := unchanged_of_error hr
    exact Or.inl ⟨failure, hsame ▸ hr⟩

def after (call : Call) (db : Database) : Database := (call.action.run db).2

theorem after_cases (call : Call) (db : Database) : call.after db = db ∨
    call.Summable db.tables ∧ call.after db = { db with tables := call.effect db.tables } := by
  rcases run_cases call db with ⟨failure, hr⟩ | ⟨hs, hr⟩
  · exact Or.inl (congrArg Prod.snd hr)
  · exact Or.inr ⟨hs, congrArg Prod.snd hr⟩

theorem after_guards (call : Call) (db : Database) : (call.after db).guards = db.guards := by
  rcases after_cases call db with ha | ⟨-, ha⟩
  · rw [ha]
  · rw [ha]

end Call

/-- What every call keeps: keys are distinct in each table, snapshots hold counters as they were
stored, and no sum has come back from past the column range. -/
structure Tables.Sound (t : Tables) : Prop where
  traffic : DistinctKeys id t.traffic
  peers : DistinctKeys Snapshot.toRow t.peers
  trafficBuckets : DistinctKeys id t.trafficBuckets
  peerBuckets : DistinctKeys id t.peerBuckets
  counters : ∀ s ∈ t.peers, s.Whole
  samples : ∀ r ∈ t.traffic, r.Stored
  trafficAmounts : ∀ r ∈ t.trafficBuckets, r.Stored
  peerAmounts : ∀ r ∈ t.peerBuckets, r.Stored

theorem Sample.row_whole (s : Sample) : s.row.Whole := ⟨Cell.ofCount_whole _, Cell.ofCount_whole _⟩

theorem Sample.rows_whole (samples : List Sample) : ∀ r ∈ samples.map Sample.row, r.Whole := by
  intro r hr
  obtain ⟨s, -, rfl⟩ := List.mem_map.mp hr
  exact s.row_whole

namespace Tables.Sound

variable {t : Tables}

theorem empty : Tables.empty.Sound := by
  constructor <;> simp [Tables.empty, DistinctKeys]

theorem withBuckets (h : t.Sound) {f : List Row → List Row}
    (hf : ∀ {rows}, DistinctKeys id rows → DistinctKeys id (f rows))
    (hs : ∀ {rows : List Row}, (∀ r ∈ rows, r.Stored) → ∀ r ∈ f rows, r.Stored)
    (series : Series) : (t.withBuckets f series).Sound := by
  cases series with
  | traffic =>
    exact { h with
      trafficBuckets := hf h.trafficBuckets
      trafficAmounts := hs h.trafficAmounts }
  | peers =>
    exact { h with
      peerBuckets := hf h.peerBuckets
      peerAmounts := hs h.peerAmounts }

theorem prune (h : t.Sound) (cutoff : ℤ) (series : Series) : (t.prune cutoff series).Sound := by
  cases series with
  | traffic =>
    exact { h with
      traffic := h.traffic.filter _
      samples := fun r hr => h.samples r (List.mem_filter.mp hr).1 }
  | peers =>
    exact { h with
      peers := h.peers.filter _
      counters := fun s hs => h.counters s (List.mem_filter.mp hs).1 }

theorem appendPeers (h : t.Sound) (samples : List PeerSample) :
    (Call.effect t (.appendPeers samples)).Sound where
  traffic := h.traffic
  trafficBuckets := h.trafficBuckets
  peerBuckets := h.peerBuckets
  samples := h.samples
  trafficAmounts := h.trafficAmounts
  peerAmounts := h.peerAmounts
  peers := h.peers.foldl_insertNew _
  counters := by
    intro s hs
    simp only [Call.effect, foldl_insertNew, List.mem_append] at hs
    rcases hs with hs | hs
    · exact h.counters s hs
    · obtain ⟨sample, _, rfl⟩ := List.mem_map.mp (newcomers_subset _ _ _ hs)
      exact ⟨Cell.ofCount_whole _, Cell.ofCount_whole _⟩

theorem merged (h : t.Sound) {rows : List Row} (hrows : ∀ r ∈ rows, r.Stored) (series : Series) :
    (t.withBuckets (rows.foldl Store.merge) series).Sound :=
  h.withBuckets (·.foldl_merge _) (fun hs => foldl_stored merge_stored hs hrows) series

theorem dropBuckets (h : t.Sound) (cutoff : ℤ) (series : Series) :
    (t.dropBuckets cutoff series).Sound :=
  h.withBuckets (·.filter _) (fun hs r hr => hs r (List.mem_filter.mp hr).1) series

theorem effect (h : t.Sound) (call : Call) : (call.effect t).Sound := by
  cases call with
  | append samples =>
    have hrows := fun r hr => (Sample.rows_whole samples r hr).stored
    exact { h with
      traffic := h.traffic.foldl_insertNew _
      samples := foldl_stored insertNew_stored h.samples hrows }
  | merge samples =>
    have hrows := fun r hr => (Sample.rows_whole samples r hr).stored
    exact { h with
      traffic := h.traffic.foldl_merge _
      samples := foldl_stored merge_stored h.samples hrows }
  | appendPeers samples => exact h.appendPeers samples
  | hardDelete series cutoff => exact (h.prune cutoff series).dropBuckets cutoff series
  | compress series cutoff width =>
    refine (h.merged (fun r hr => ?_) series).prune cutoff series
    obtain ⟨bucket, hb, hok⟩ := List.mem_filterMap.mp hr
    cases bucket with
    | error fault => cases hok
    | ok b =>
      cases hok
      exact rolledUp_stored h.samples h.counters hb

end Tables.Sound

def runAll (calls : List Call) (db : Database) : Database :=
  calls.foldl (fun db call => call.after db) db

theorem Tables.Sound.after {db : Database} (h : db.tables.Sound) (call : Call) :
    (call.after db).tables.Sound := by
  rcases call.after_cases db with ha | ⟨-, ha⟩
  · rwa [ha]
  · rw [ha]
    exact h.effect call

theorem Tables.Sound.runAll {db : Database} (h : db.tables.Sound) (calls : List Call) :
    (runAll calls db).tables.Sound := by
  induction calls generalizing db with
  | nil => exact h
  | cons call rest ih => exact ih (h.after call)

end TrafficMeter.Store
