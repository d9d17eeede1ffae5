import TrafficMeter.Proofs.Store.Interleavings
import TrafficMeter.Proofs.Store.Obstacles
import TrafficMeter.Proofs.Store.RowOrder

/-!
Batches of samples merged in turn. Each key is merged for itself, into one row that holds what the key
held before and what all of its samples bring, so neither their order nor the batches leave a trace.
-/

namespace TrafficMeter.Store

section Tables

variable {table rows others : List Row} {key : String × ℤ}

theorem DistinctKeys.filter_key (h : DistinctKeys id table) {r : Row} (hr : r ∈ table) :
    table.filter (·.key = r.key) = [r] := by
  obtain ⟨before, after, rfl, hother⟩ := h.split hr
  have hnone : ∀ l : List Row, l ⊆ before ++ after → l.filter (·.key = r.key) = [] := by
    intro l hsub
    rw [List.filter_eq_nil_iff]
    intro s hs
    simpa using hother s (hsub hs)
  rw [List.filter_append, List.filter_cons_of_pos (by simp),
    hnone before (List.subset_append_left _ _), hnone after (List.subset_append_right _ _),
    List.nil_append]

theorem perm_of_filter_key (ha : DistinctKeys id rows) (hb : DistinctKeys id others)
    (h : ∀ key, rows.filter (·.key = key) = others.filter (·.key = key)) : rows.Perm others := by
  have hnodup : ∀ {l : List Row}, DistinctKeys id l → l.Nodup := fun hl => List.Nodup.of_map _ hl
  rw [List.perm_ext_iff_of_nodup (hnodup ha) (hnodup hb)]
  intro r
  have hown : ∀ l : List Row, r ∈ l ↔ r ∈ l.filter (·.key = r.key) := by
    intro l
    simp
  rw [hown rows, hown others, h]

theorem merged_key_untouched (hk : key ∉ rows.map Row.key) :
    (rows.foldl merge table).filter (·.key = key) = table.filter (·.key = key) := by
  have hnone : rows.filter (·.key = key) = [] := by
    rw [List.filter_eq_nil_iff]
    intro r hr
    have : r.key ≠ key := fun he => hk (he ▸ List.mem_map_of_mem hr)
    simpa using this
  rw [filter_foldl_merge fun r s hkey => by rw [hkey], hnone, List.foldl_nil]

/-- A key that rows are merged into has one row, with all that they and the table had for it. -/
theorem merged_key_touched (h : DistinctKeys id table) (hs : ∀ r ∈ table, r.Stored)
    (hw : ∀ r ∈ rows, r.Whole) (hk : key ∈ rows.map Row.key) {total : ℕ × ℕ}
    (htotal : movedAt (fun k => k = key) table + movedAt (fun k => k = key) rows = total)
    (fits : Storable total) :
    (rows.foldl merge table).filter (·.key = key) =
      [⟨key.1, key.2, .int total.1, .int total.2⟩] := by
  have hin : key ∈ (rows.foldl merge table).map Row.key := key_mem_foldl_merge.mpr (Or.inr hk)
  obtain ⟨r, hr, rfl⟩ := List.mem_map.mp hin
  have hone := (h.foldl_merge rows).filter_key hr
  have hown := hone
  rw [filter_foldl_merge fun r s hkey => by rw [hkey]] at hown
  -- rows of other keys may be past the range, so only those of this key are merged by amount
  have htable : Tallied (table.filter (·.key = r.key)) :=
    tallied_of_stored (fun s hin => hs s (List.mem_filter.mp hin).1)
      (fits.mono (htotal ▸ le_self_add))
  obtain ⟨hwhole, hmoved⟩ := foldl_merge_whole (h.filter _) htable.whole
    (fun s hin => hw s (List.mem_filter.mp hin).1) (htotal ▸ fits)
  have hbytes := hmoved fun _ => true
  rw [hown] at hwhole hbytes
  rw [movedAt_true, movedAt_true, movedAt_true, moved_cons, moved_nil, add_zero] at hbytes
  have hsum : r.bytes = total := hbytes.trans htotal
  obtain ⟨hup, hdown⟩ := hwhole r (List.mem_singleton_self r)
  rw [hone, ← hsum]
  cases r
  simp only [Row.key, Row.bytes, List.cons.injEq, Row.mk.injEq, and_true, true_and]
  exact ⟨hup.eq_int, hdown.eq_int⟩

end Tables

def Sample.capped (s : Sample) : ℕ × ℕ := (min s.uplink maxTime.toNat, min s.downlink maxTime.toNat)

def heldAfter (table : List Row) (samples : List Sample) (key : String × ℤ) : ℕ × ℕ :=
  movedAt (fun k => k = key) table +
    ((samples.filter fun s => s.row.key = key).map Sample.capped).sum

section Samples

variable {table : List Row} {samples others : List Sample}

theorem movedAt_rows (samples : List Sample) (key : String × ℤ) :
    movedAt (fun k => k = key) (samples.map Sample.row) =
      ((samples.filter fun s => s.row.key = key).map Sample.capped).sum := by
  have hbytes : ∀ s : Sample, s.row.bytes = s.capped := fun s =>
    Prod.ext (Cell.bytes_ofCount s.uplink) (Cell.bytes_ofCount s.downlink)
  unfold movedAt moved
  rw [List.filter_map, List.map_map]
  exact congrArg List.sum (List.map_congr_left fun s _ => hbytes s)

theorem heldAfter_perm (hp : samples.Perm others) (key : String × ℤ) :
    heldAfter table samples key = heldAfter table others key := by
  unfold heldAfter
  rw [((hp.filter _).map _).sum_eq]

theorem merged_key (h : DistinctKeys id table) (hs : ∀ r ∈ table, r.Stored)
    (fits : ∀ s ∈ samples, Storable (heldAfter table samples s.row.key)) (key : String × ℤ) :
    ((samples.map Sample.row).foldl merge table).filter (·.key = key) =
      if key ∈ samples.map (·.row.key) then
        [⟨key.1, key.2, .int (heldAfter table samples key).1, .int (heldAfter table samples key).2⟩]
      else table.filter (·.key = key) := by
  have hkeys : (samples.map Sample.row).map Row.key = samples.map (·.row.key) := List.map_map
  by_cases hk : key ∈ samples.map (·.row.key)
  · rw [if_pos hk]
    obtain ⟨s, hin, hkey⟩ := List.mem_map.mp hk
    refine merged_key_touched h hs (Sample.rows_whole samples) (hkeys ▸ hk) ?_ (hkey ▸ fits s hin)
    rw [movedAt_rows]
    rfl
  · rw [if_neg hk]
    exact merged_key_untouched (hkeys ▸ hk)

theorem merged_perm (h : DistinctKeys id table) (hs : ∀ r ∈ table, r.Stored)
    (fits : ∀ s ∈ samples, Storable (heldAfter table samples s.row.key))
    (hp : samples.Perm others) :
    ((samples.map Sample.row).foldl merge table).Perm
      ((others.map Sample.row).foldl merge table) := by
  have hfits : ∀ s ∈ others, Storable (heldAfter table others s.row.key) := by
    intro s hin
    rw [← heldAfter_perm hp]
    exact fits s (hp.mem_iff.mpr hin)
  refine perm_of_filter_key (h.foldl_merge _) (h.foldl_merge _) fun key => ?_
  rw [merged_key h hs fits, merged_key h hs hfits, heldAfter_perm hp]
  simp only [(hp.map _).mem_iff]

end Samples

def Database.Admits (db : Database) (s : Sample) : Prop :=
  db.refuses .traffic .insert s.identity = false ∧ db.refuses .traffic .update s.identity = false

instance (db : Database) (s : Sample) : Decidable (db.Admits s) :=
  inferInstanceAs (Decidable (_ ∧ _))

theorem merge_admitted {db : Database} {batch : List Sample} (h : ∀ s ∈ batch, db.Admits s) :
    (Call.merge batch).action.run db = (.ok batch.length, { db with tables := { db.tables with
      traffic := (batch.map Sample.row).foldl merge db.tables.traffic } }) := by
  rcases (Call.merge batch).run_cases db with ⟨failure, hr⟩ | ⟨-, hr⟩
  · have hblocked := ((Call.merge batch).blocked db).mp ⟨failure, db, hr⟩
    obtain ⟨before, s, rest, rfl, hrefused⟩ := hblocked
    obtain ⟨hinsert, hupdate⟩ := h s (by simp)
    rcases hrefused with hi | ⟨-, hu⟩
    · rw [hinsert] at hi
      cases hi
    · rw [hupdate] at hu
      cases hu
  · exact hr

/-- Merging batch after batch is merging all of their samples, and every batch counts its own. -/
theorem runAll_merges {db : Database} {batches : List (List Sample)}
    (h : ∀ s ∈ batches.flatten, db.Admits s) :
    runAll (batches.map Call.merge) db = { db with tables := { db.tables with
      traffic := (batches.flatten.map Sample.row).foldl merge db.tables.traffic } } ∧
    (outcomes (batches.map Call.merge) db).map (·.2) = (batches.map List.length).map .ok := by
  induction batches generalizing db with
  | nil => exact ⟨rfl, rfl⟩
  | cons batch rest ih =>
    have hrun := merge_admitted fun s hs => h s (List.mem_append_left _ hs)
    have hafter := congrArg Prod.snd hrun
    have hnext : ∀ s ∈ rest.flatten, ((Call.merge batch).after db).Admits s := by
      intro s hs
      have hs := h s (List.mem_append_right _ hs)
      unfold Database.Admits Database.refuses at hs ⊢
      rwa [Call.after_guards]
    obtain ⟨hend, hcounts⟩ := ih hnext
    constructor
    · change runAll (rest.map Call.merge) ((Call.merge batch).after db) = _
      rw [hend, List.flatten_cons, List.map_append, List.foldl_append]
      unfold Call.after
      rw [hafter]
    · rw [List.map_cons, outcomes, List.map_cons, hcounts]
      exact congrArg (· :: _) (congrArg Prod.fst hrun)

/-- Only which samples are merged matters, not their order or how they are split into batches. Every
key grows by what its samples bring, all else stays, and the counts add up to the number of
samples. -/
theorem merges_depend_on_samples {db : Database} (h : db.tables.Sound)
    {batches : List (List Sample)} (free : ∀ s ∈ batches.flatten, db.Admits s)
    (fits : ∀ s ∈ batches.flatten,
      Storable (heldAfter db.tables.traffic batches.flatten s.row.key)) :
    let merged := runAll (batches.map Call.merge) db
    merged = { db with tables := { db.tables with traffic := merged.tables.traffic } } ∧
    (∀ key, merged.tables.traffic.filter (·.key = key) =
      if key ∈ batches.flatten.map (·.row.key) then
        [⟨key.1, key.2, .int (heldAfter db.tables.traffic batches.flatten key).1,
          .int (heldAfter db.tables.traffic batches.flatten key).2⟩]
      else db.tables.traffic.filter (·.key = key)) ∧
    (∃ counts : List ℕ, (outcomes (batches.map Call.merge) db).map (·.2) = counts.map .ok ∧
      counts.sum = batches.flatten.length) ∧
    ∀ others : List (List Sample), others.flatten.Perm batches.flatten →
      let other := runAll (others.map Call.merge) db
      merged.tables.SameRows other.tables ∧
        ∀ first, merged.tables.SameAnswers first other.tables := by
  obtain ⟨hmerged, hcounts⟩ := runAll_merges free
  refine ⟨?_, fun key => ?_, ⟨_, hcounts, List.length_flatten.symm⟩, fun others hp => ?_⟩
  · rw [hmerged]
  · rw [hmerged]
    exact merged_key h.traffic h.samples fits key
  · obtain ⟨hother, -⟩ := runAll_merges fun s hs => free s (hp.mem_iff.mp hs)
    have hrows : (runAll (batches.map Call.merge) db).tables.SameRows
        (runAll (others.map Call.merge) db).tables := by
      rw [hmerged, hother]
      exact ⟨merged_perm h.traffic h.samples fits hp.symm, .refl _, .refl _, .refl _⟩
    exact ⟨hrows, hrows.answers (h.runAll _)⟩

def meetingBatches : List (List Sample) :=
  [[⟨"a", 50, 1, 2⟩, ⟨"c", 70, 5, 0⟩, ⟨"a", 50, 3, 4⟩],
    [⟨"d", 50, 18446744073709551615, 9⟩, ⟨"c", 70, 1, 1⟩]]

def meetingStore : Database :=
  { Database.blank with
    guards := [⟨.traffic, .insert, some "b"⟩]
    tables :=
      { traffic := [⟨"a", 50, .int 10, .int 20⟩, ⟨"b", 50, .int 6, .int 6⟩]
        peers := [⟨⟨"p", 50, .int 8, .int 8⟩, "e"⟩]
        trafficBuckets := [⟨"a", 0, .int 1, .int 1⟩]
        peerBuckets := [] } }

theorem meetingStore_sound : meetingStore.tables.Sound := by constructor <;> decide

theorem merges_depend_on_samples_of_meeting_batches :
    (∀ s ∈ meetingBatches.flatten, meetingStore.Admits s) ∧
    (∀ s ∈ meetingBatches.flatten,
      Storable (heldAfter meetingStore.tables.traffic meetingBatches.flatten s.row.key)) ∧
    [meetingBatches.flatten.reverse, []].flatten.Perm meetingBatches.flatten ∧
    (runAll (meetingBatches.map Call.merge) meetingStore).tables.SameRows
      (runAll [.merge meetingBatches.flatten.reverse, .merge []] meetingStore).tables ∧
    (runAll (meetingBatches.map Call.merge) meetingStore).tables.traffic.filter
      (·.key = ("a", 50)) = [⟨"a", 50, .int 14, .int 26⟩] ∧
    (runAll (meetingBatches.map Call.merge) meetingStore).tables.traffic.filter
      (·.key = ("d", 50)) = [⟨"d", 50, .int 9223372036854775807, .int 9⟩] := by
  have fits : ∀ s ∈ meetingBatches.flatten,
      Storable (heldAfter meetingStore.tables.traffic meetingBatches.flatten s.row.key) := by
    decide
  have free : ∀ s ∈ meetingBatches.flatten, meetingStore.Admits s := by decide
  have hp : [meetingBatches.flatten.reverse, []].flatten.Perm meetingBatches.flatten := by decide
  obtain ⟨-, hkeys, -, hothers⟩ := merges_depend_on_samples meetingStore_sound free fits
  exact ⟨free, fits, hp, (hothers _ hp).1, (hkeys ("a", 50)).trans (by decide),
    (hkeys ("d", 50)).trans (by decide)⟩

end TrafficMeter.Store
