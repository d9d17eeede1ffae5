import Mathlib.Data.Finset.Card
import TrafficMeter.Proofs.Store.Obstacles

/-!
Batches appended in turn. A table keeps the row that a key has, and of the samples of a free key it
takes the first, so appending in one batch or in two comes to the same and appending again to nothing.
-/

namespace TrafficMeter.Store

section Tables

variable {α : Type} {row : α → Row} {table added : List α} {key : String × ℤ}

def rowAt? (row : α → Row) (table : List α) (key : String × ℤ) : Option α :=
  table.find? fun a => (row a).key == key

def freeKeys (row : α → Row) (table added : List α) : Finset (String × ℤ) :=
  (added.map fun a => (row a).key).toFinset \ (table.map fun a => (row a).key).toFinset

theorem rowAt?_cons_of_eq {a : α} (h : (row a).key = key) : rowAt? row (a :: added) key = some a :=
  List.find?_cons_of_pos (beq_iff_eq.mpr h)

theorem rowAt?_cons_of_ne {a : α} (h : (row a).key ≠ key) :
    rowAt? row (a :: added) key = rowAt? row added key :=
  List.find?_cons_of_neg fun hk => h (beq_iff_eq.mp hk)

theorem rowAt?_isSome : (rowAt? row table key).isSome ↔ key ∈ table.map fun a => (row a).key := by
  simp [rowAt?]

theorem rowAt?_newcomers (row : α → Row) (table added : List α) (key : String × ℤ) :
    rowAt? row (newcomers row table added) key =
      if key ∈ table.map fun a => (row a).key then none else rowAt? row added key := by
  induction added generalizing table with
  | nil => simp [newcomers, rowAt?]
  | cons a rest ih =>
    rw [newcomers]
    by_cases hk : (row a).key = key
    · subst hk
      split
      · rename_i htaken
        rw [ih, if_pos (holds_iff.mp htaken), if_pos (holds_iff.mp htaken)]
      · rename_i hfree
        rw [if_neg fun hin => hfree (holds_iff.mpr hin), rowAt?_cons_of_eq rfl, rowAt?_cons_of_eq rfl]
    · have hsame : key ∈ (table ++ [a]).map (fun a => (row a).key) ↔
          key ∈ table.map fun a => (row a).key := by
        simp [Ne.symm hk]
      rw [rowAt?_cons_of_ne hk]
      split
      · exact ih table
      · rw [rowAt?_cons_of_ne hk, ih]
        simp only [hsame]

theorem key_mem_newcomers : (key ∈ (newcomers row table added).map fun a => (row a).key) ↔
    (key ∈ added.map fun a => (row a).key) ∧ key ∉ table.map fun a => (row a).key := by
  rw [← rowAt?_isSome, rowAt?_newcomers]
  split
  · rename_i htaken
    simp [htaken]
  · rename_i hfree
    rw [rowAt?_isSome]
    exact (and_iff_left hfree).symm

theorem newcomers_distinct (row : α → Row) (table added : List α) :
    DistinctKeys row (newcomers row table added) := by
  induction added generalizing table with
  | nil => exact List.nodup_nil
  | cons a rest ih =>
    rw [newcomers]
    split
    · exact ih table
    · refine List.nodup_cons.mpr ⟨fun hin => ?_, ih _⟩
      exact (key_mem_newcomers.mp hin).2 (by simp)

theorem length_newcomers (row : α → Row) (table added : List α) :
    (newcomers row table added).length = (freeKeys row table added).card := by
  have hkeys : ((newcomers row table added).map fun a => (row a).key).toFinset =
      freeKeys row table added := by
    ext key
    rw [List.mem_toFinset, key_mem_newcomers, freeKeys, Finset.mem_sdiff, List.mem_toFinset,
      List.mem_toFinset]
  rw [← hkeys, List.toFinset_card_of_nodup (newcomers_distinct row table added), List.length_map]

theorem newcomers_of_taken (h : ∀ a ∈ added, (row a).key ∈ table.map fun a => (row a).key) :
    newcomers row table added = [] := by
  induction added with
  | nil => rfl
  | cons a rest ih =>
    rw [newcomers, if_pos (holds_iff.mpr (h a List.mem_cons_self))]
    exact ih fun b hb => h b (List.mem_cons_of_mem a hb)

/-- Whoever got in, or had no need to, finds the key taken the next time. -/
theorem newcomers_again (row : α → Row) (table added : List α) :
    newcomers row (table ++ newcomers row table added) added = [] := by
  refine newcomers_of_taken fun a ha => ?_
  rw [List.map_append, List.mem_append, key_mem_newcomers]
  by_cases htaken : (row a).key ∈ table.map fun a => (row a).key
  · exact Or.inl htaken
  · exact Or.inr ⟨List.mem_map_of_mem ha, htaken⟩

theorem newcomers_append (row : α → Row) (table added more : List α) :
    newcomers row table (added ++ more) =
      newcomers row table added ++ newcomers row (table ++ newcomers row table added) more := by
  have hfold : (added ++ more).foldl (insertNew row) table =
      more.foldl (insertNew row) (added.foldl (insertNew row) table) := List.foldl_append
  rw [foldl_insertNew, foldl_insertNew, foldl_insertNew, List.append_assoc] at hfold
  exact List.append_cancel_left hfold

end Tables

/-- What appending comes to, for one of the tables: a batch with a sample that is refused leaves
nothing; any other leaves every row and adds the first sample of each free key. -/
structure FirstWriteWins {σ α : Type} (append : List σ → Action ℕ) (refused : Database → σ → Prop)
    (stored : σ → α) (row : α → Row) (rows : Tables → List α)
    (withRows : Tables → List α → Tables) : Prop where
  whole : ∀ db samples, (∃ s ∈ samples, refused db s) →
    ∃ failure, (append samples).run db = (.error failure, db)
  first : ∀ db samples, (∀ s ∈ samples, ¬ refused db s) → ∃ new,
    (append samples).run db = (.ok (freeKeys row (rows db.tables) (samples.map stored)).card,
      { db with tables := withRows db.tables (rows db.tables ++ new) }) ∧
    DistinctKeys row new ∧
    ∀ key, rowAt? row new key = if key ∈ (rows db.tables).map (fun a => (row a).key) then none
      else rowAt? row (samples.map stored) key
  joined : ∀ db samples more, (∀ s ∈ samples ++ more, ¬ refused db s) → ∃ m n mid after,
    (append samples).run db = (.ok m, mid) ∧ (append more).run mid = (.ok n, after) ∧
    (append (samples ++ more)).run db = (.ok (m + n), after)
  again : ∀ db samples count after, (append samples).run db = (.ok count, after) →
    (append samples).run after = (.ok 0, after)

section Appending

variable {σ α : Type} {append : List σ → Action ℕ} {refused : Database → σ → Prop} {stored : σ → α}
  {row : α → Row} {rows : Tables → List α} {withRows : Tables → List α → Tables}

theorem firstWriteWins (rows_withRows : ∀ t table, rows (withRows t table) = table)
    (withRows_withRows : ∀ t table other, withRows (withRows t table) other = withRows t other)
    (refused_of_guards : ∀ db t s, refused { db with tables := t } s ↔ refused db s)
    (unchanged : ∀ samples db failure after,
      (append samples).run db = (.error failure, after) → after = db)
    (blocked : ∀ samples db, Action.Blocked (append samples) db (∃ s ∈ samples, refused db s))
    (yields : ∀ samples db, Action.Yields (append samples) db
      (newcomers row (rows db.tables) (samples.map stored)).length
      (withRows db.tables ((samples.map stored).foldl (insertNew row) (rows db.tables)))) :
    FirstWriteWins append refused stored row rows withRows := by
  -- a batch without a refused sample adds its newcomers, and does nothing else
  have hrun : ∀ samples db, (∀ s ∈ samples, ¬ refused db s) → (append samples).run db =
      (.ok (newcomers row (rows db.tables) (samples.map stored)).length,
        { db with
          tables := withRows db.tables
            (rows db.tables ++ newcomers row (rows db.tables) (samples.map stored)) }) := by
    intro samples db hfree
    obtain ⟨n, after, hr⟩ := (blocked samples db).succeeds fun ⟨s, hs, href⟩ => hfree s hs href
    obtain ⟨rfl, rfl⟩ := (yields samples db).only n after hr
    rw [foldl_insertNew] at hr
    exact hr
  constructor
  · intro db samples hrefused
    obtain ⟨failure, after, hr⟩ := (blocked samples db).mpr hrefused
    have hsame : after = db := unchanged samples db failure after hr
    exact ⟨failure, hsame ▸ hr⟩
  · intro db samples hfree
    refine ⟨_, ?_, newcomers_distinct row _ _, rowAt?_newcomers row _ _⟩
    rw [hrun samples db hfree, length_newcomers]
  · intro db samples more hfree
    have hone := hrun samples db fun s hs => hfree s (List.mem_append_left more hs)
    have htwo := hrun more { db with tables := withRows db.tables (rows db.tables ++
      newcomers row (rows db.tables) (samples.map stored)) } fun s hs href =>
        hfree s (List.mem_append_right samples hs) ((refused_of_guards db _ s).mp href)
    have hall := hrun (samples ++ more) db hfree
    refine ⟨_, _, _, _, hone, htwo, ?_⟩
    simp only [rows_withRows, withRows_withRows]
    rw [hall, List.map_append, newcomers_append, List.length_append, List.append_assoc]
  · intro db samples count after hr
    have hfree : ∀ s ∈ samples, ¬ refused db s := by
      intro s hs href
      obtain ⟨failure, other, he⟩ := (blocked samples db).mpr ⟨s, hs, href⟩
      rw [Action.run, he] at hr
      cases hr
    rw [hrun samples db hfree] at hr
    cases hr
    rw [hrun samples _ fun s hs href => hfree s hs ((refused_of_guards db _ s).mp href)]
    simp only [rows_withRows, newcomers_again, List.append_nil, withRows_withRows, List.length_nil]

end Appending

/-- The first write of a key wins, among samples of users and among snapshots of peers, their
endpoints included. Amounts are stored up to the largest value of a column. -/
theorem appends_first_write_wins :
    FirstWriteWins Action.appendBatch (fun db s => db.refuses .traffic .insert s.identity = true)
      (fun s => ⟨s.identity, s.ts, .int (min s.uplink maxTime), .int (min s.downlink maxTime)⟩)
      id Tables.traffic (fun t table => { t with traffic := table }) ∧
    FirstWriteWins Action.appendPeerBatch (fun db s => db.refuses .peers .insert s.peer = true)
      (fun s => ⟨⟨s.peer, s.ts, .int (min s.rx maxTime), .int (min s.tx maxTime)⟩, s.endpoint⟩)
      Snapshot.toRow Tables.peers (fun t table => { t with peers := table }) := by
  constructor
  · exact firstWriteWins (fun _ _ => rfl) (fun _ _ _ => rfl) (fun _ _ _ => Iff.rfl)
      (fun samples db _ _ => @Call.unchanged_of_error db (.append samples) _ _)
      (fun samples db => Call.append_blocked db samples)
      (fun samples db => Action.appendBatch_yields db samples)
  · exact firstWriteWins (fun _ _ => rfl) (fun _ _ _ => rfl) (fun _ _ _ => Iff.rfl)
      (fun samples db _ _ => @Call.unchanged_of_error db (.appendPeers samples) _ _)
      (fun samples db => Call.appendPeers_blocked db samples)
      (fun samples db => Action.appendPeerBatch_yields db samples)

def snapshotStore : Database :=
  { Database.blank with
    guards := [⟨.peers, .insert, some "s"⟩]
    tables := { Tables.empty with peers := [⟨⟨"p", 60, .int 8, .int 8⟩, "old"⟩] } }

def meetingSnapshots : List PeerSample :=
  [⟨"p", 60, 9, 9, "new"⟩, ⟨"q", 60, 18446744073709551615, 1, "first"⟩, ⟨"q", 60, 2, 2, "second"⟩]

theorem appends_first_write_wins_of_meeting_snapshots :
    (∀ s ∈ meetingSnapshots, ¬ snapshotStore.refuses .peers .insert s.peer = true) ∧
    ∃ new after, (Action.appendPeerBatch meetingSnapshots).run snapshotStore = (.ok 1, after) ∧
      after.tables.peers = snapshotStore.tables.peers ++ new ∧
      rowAt? Snapshot.toRow new ("p", 60) = none ∧
      rowAt? Snapshot.toRow new ("q", 60) =
        some ⟨⟨"q", 60, .int 9223372036854775807, .int 1⟩, "first"⟩ ∧
      (Action.appendPeerBatch meetingSnapshots).run after = (.ok 0, after) := by
  have hfree : ∀ s ∈ meetingSnapshots, ¬ snapshotStore.refuses .peers .insert s.peer = true := by
    decide
  have hwins := appends_first_write_wins.2
  obtain ⟨new, hrun, -, hfirst⟩ := hwins.first snapshotStore meetingSnapshots hfree
  exact ⟨hfree, new, _, hrun, rfl, (hfirst _).trans (by decide), (hfirst _).trans (by decide),
    hwins.again _ _ _ _ hrun⟩

end TrafficMeter.Store
