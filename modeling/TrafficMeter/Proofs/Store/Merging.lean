import TrafficMeter.Proofs.Store.Grouping

/-!
Tables without two rows of one key, and what adding rows to them does. Merging rows into such a
table adds their amounts under their keys, whatever was there before.
-/

namespace TrafficMeter.Store

def DistinctKeys {α : Type} (row : α → Row) (table : List α) : Prop :=
  (table.map fun a => (row a).key).Nodup

instance {α : Type} (row : α → Row) (table : List α) : Decidable (DistinctKeys row table) :=
  inferInstanceAs (Decidable (List.Nodup _))

section Tables

variable {α : Type} {row : α → Row} {table : List α}

theorem holds_iff {key : String × ℤ} :
    holds row table key = true ↔ key ∈ table.map fun a => (row a).key := by
  simp [holds]

theorem DistinctKeys.filter (h : DistinctKeys row table) (p : α → Bool) :
    DistinctKeys row (table.filter p) :=
  h.sublist (List.filter_sublist.map _)

theorem DistinctKeys.eq_of_key (h : DistinctKeys row table) {a b : α} (ha : a ∈ table)
    (hb : b ∈ table) (hk : (row a).key = (row b).key) : a = b :=
  List.inj_on_of_nodup_map h ha hb hk

theorem DistinctKeys.insertNew (h : DistinctKeys row table) (a : α) :
    DistinctKeys row (insertNew row table a) := by
  unfold Store.insertNew
  split
  · exact h
  · rename_i hn
    have hk : (row a).key ∉ table.map fun b => (row b).key := fun hm => hn (holds_iff.mpr hm)
    unfold DistinctKeys
    rw [List.map_append, List.map_singleton]
    exact h.append (List.nodup_singleton _) (List.disjoint_singleton.mpr hk)

theorem DistinctKeys.foldl_insertNew (h : DistinctKeys row table) (added : List α) :
    DistinctKeys row (added.foldl (Store.insertNew row) table) := by
  induction added generalizing table with
  | nil => exact h
  | cons a rest ih => exact ih (h.insertNew a)

end Tables

def movedAt (test : String × ℤ → Bool) (rows : List Row) : ℕ × ℕ :=
  moved (rows.filter fun r => test r.key)

section Amounts

variable (test : String × ℤ → Bool)

@[simp] theorem movedAt_nil : movedAt test [] = 0 := rfl

theorem movedAt_cons (r : Row) (rows : List Row) :
    movedAt test (r :: rows) = (if test r.key then r.bytes else 0) + movedAt test rows := by
  unfold movedAt
  by_cases h : test r.key = true
  · simp [h]
  · simp [h]

@[simp] theorem movedAt_append (a b : List Row) :
    movedAt test (a ++ b) = movedAt test a + movedAt test b := by
  simp [movedAt]

theorem movedAt_perm {a b : List Row} (h : a.Perm b) : movedAt test a = movedAt test b :=
  moved_perm (h.filter _)

theorem movedAt_true (rows : List Row) : movedAt (fun _ => true) rows = moved rows := by
  simp [movedAt]

end Amounts

theorem key_mem_merge {table : List Row} {a : Row} {key : String × ℤ} :
    key ∈ (merge table a).map Row.key ↔ key ∈ table.map Row.key ∨ key = a.key := by
  unfold merge
  split
  · rename_i hh
    have hm : a.key ∈ table.map Row.key := holds_iff.mp hh
    have hs : (table.map fun r => if r.key = a.key then r.absorb a else r).map Row.key =
        table.map Row.key := by
      rw [List.map_map]
      apply List.map_congr_left
      intro r _
      by_cases hr : r.key = a.key
      · simp [hr, Row.key_absorb]
      · simp [hr]
    rw [hs]
    constructor
    · exact Or.inl
    · rintro (h | rfl)
      · exact h
      · exact hm
  · simp

theorem DistinctKeys.split {table : List Row} (h : DistinctKeys id table) {r : Row}
    (hr : r ∈ table) : ∃ before after, table = before ++ r :: after ∧
      ∀ s ∈ before ++ after, s.key ≠ r.key := by
  obtain ⟨before, after, rfl⟩ := List.append_of_mem hr
  refine ⟨before, after, rfl, fun s hs he => ?_⟩
  have hd : (r :: (before ++ after)).map Row.key |>.Nodup :=
    (List.perm_middle.map Row.key).nodup_iff.mp h
  exact (List.nodup_cons.mp hd).1 (List.mem_map.mpr ⟨s, hs, he⟩)

/-- A merged row is new or absorbed by the one row of its key. -/
theorem merge_cases {table : List Row} (h : DistinctKeys id table) (a : Row) :
    (a.key ∉ table.map Row.key ∧ merge table a = table ++ [a]) ∨
      ∃ before r after, table = before ++ r :: after ∧ r.key = a.key ∧
        merge table a = before ++ r.absorb a :: after := by
  by_cases hm : a.key ∈ table.map Row.key
  · right
    obtain ⟨r, hr, hk⟩ := List.mem_map.mp hm
    obtain ⟨before, after, rfl, hother⟩ := h.split hr
    rw [hk] at hother
    refine ⟨before, r, after, rfl, hk, ?_⟩
    have hsame : ∀ l : List Row, (∀ s ∈ l, s.key ≠ a.key) →
        (l.map fun s => if s.key = a.key then s.absorb a else s) = l := by
      intro l hl
      calc (l.map fun s => if s.key = a.key then s.absorb a else s)
          = l.map (fun s => s) := List.map_congr_left fun s hs => if_neg (hl s hs)
        _ = l := List.map_id' l
    have hh : holds id (before ++ r :: after) a.key = true := holds_iff.mpr hm
    rw [merge, if_pos hh, List.map_append, List.map_cons, if_pos hk,
      hsame before fun s hs => hother s (List.mem_append_left _ hs),
      hsame after fun s hs => hother s (List.mem_append_right _ hs)]
  · left
    refine ⟨hm, ?_⟩
    rw [merge, if_neg]
    exact fun hh => hm (holds_iff.mp hh)

theorem DistinctKeys.merge {table : List Row} (h : DistinctKeys id table) (a : Row) :
    DistinctKeys id (merge table a) := by
  rcases merge_cases h a with ⟨hn, he⟩ | ⟨before, r, after, rfl, hk, he⟩
  · unfold DistinctKeys
    rw [he, List.map_append, List.map_singleton]
    exact List.Nodup.append h (List.nodup_singleton _) (List.disjoint_singleton.mpr hn)
  · unfold DistinctKeys at *
    rw [he]
    simpa [Row.key_absorb] using h

section TwoFilters

variable {α : Type} {l m : List α} {p q : α → Bool}

theorem filter_filter_of_imp (h : ∀ a ∈ l, p a = true → q a = true) :
    (l.filter q).filter p = l.filter p := by
  rw [List.filter_filter]
  apply List.filter_congr
  intro a ha
  cases hp : p a with
  | false => rfl
  | true => exact h a ha hp

theorem filter_of_filter (h : l.filter q = m.filter q) (hpq : ∀ a, p a = true → q a = true) :
    l.filter p = m.filter p := by
  rw [← filter_filter_of_imp fun a _ => hpq a, h, filter_filter_of_imp fun a _ => hpq a]

end TwoFilters

section Filters

variable {α : Type} {row : α → Row} {table : List α} {a : α} {p : α → Bool}

theorem holds_filter (h : ∀ b, (row b).key = (row a).key → p b = true) :
    holds row (table.filter p) (row a).key = holds row table (row a).key := by
  unfold holds
  rw [List.any_filter]
  congr 1
  funext b
  cases hk : (row b).key == (row a).key with
  | false => exact Bool.and_false _
  | true => rw [h b (beq_iff_eq.mp hk), Bool.and_true]

theorem filter_insertNew (h : ∀ b, (row b).key = (row a).key → p b = true) :
    (insertNew row table a).filter p = insertNew row (table.filter p) a := by
  unfold insertNew
  rw [holds_filter h]
  split
  · rfl
  · rw [List.filter_append, List.filter_singleton, h a rfl]
    rfl

theorem filter_insertNew_of_not (h : p a = false) :
    (insertNew row table a).filter p = table.filter p := by
  unfold insertNew
  split
  · rfl
  · rw [List.filter_append, List.filter_singleton, h]
    exact List.append_nil _

theorem filter_foldl {step : List α → α → List α} {added : List α}
    (h : ∀ a ∈ added, ∀ table, (step table a).filter p = table.filter p) (table : List α) :
    (added.foldl step table).filter p = table.filter p := by
  induction added generalizing table with
  | nil => rfl
  | cons a rest ih =>
    rw [List.foldl_cons, ih fun b hb => h b (List.mem_cons_of_mem a hb)]
    exact h a List.mem_cons_self table

end Filters

section MergeFilters

variable {table : List Row} {a : Row} {p : Row → Bool}

theorem filter_merge (h : ∀ r, r.key = a.key → p r = true) :
    (merge table a).filter p = merge (table.filter p) a := by
  have hholds : holds id (table.filter p) a.key = holds id table a.key := holds_filter h
  unfold merge
  rw [hholds]
  split
  · rw [List.filter_map]
    refine congrArg _ (List.filter_congr fun r _ => ?_)
    rw [Function.comp_apply]
    split
    · rename_i hk
      rw [h _ hk, h (r.absorb a) hk]
    · rfl
  · rw [List.filter_append, List.filter_singleton, h a rfl]
    rfl

theorem filter_merge_of_not (h : ∀ r, r.key = a.key → p r = false) :
    (merge table a).filter p = table.filter p := by
  unfold merge
  split
  · have hp : (p ∘ fun r => if r.key = a.key then r.absorb a else r) = p := by
      funext r
      rw [Function.comp_apply]
      split
      · rename_i hk
        rw [h _ hk, h (r.absorb a) hk]
      · rfl
    rw [List.filter_map, hp]
    refine (List.map_congr_left fun r hr => if_neg fun hk => ?_).trans (List.map_id' _)
    have hpr := (List.mem_filter.mp hr).2
    rw [h r hk] at hpr
    cases hpr
  · rw [List.filter_append, List.filter_singleton, h a rfl]
    exact List.append_nil _

/-- The rows of some keys are merged among themselves. -/
theorem filter_foldl_merge {p : Row → Bool} (hp : ∀ r s : Row, r.key = s.key → p r = p s)
    (table rows : List Row) :
    (rows.foldl merge table).filter p = (rows.filter p).foldl merge (table.filter p) := by
  induction rows generalizing table with
  | nil => rfl
  | cons a rest ih =>
    rw [List.foldl_cons, ih]
    by_cases ha : p a = true
    · rw [filter_merge fun r hr => (hp r a hr).trans ha, List.filter_cons_of_pos ha, List.foldl_cons]
    · rw [filter_merge_of_not fun r hr => (hp r a hr).trans (Bool.eq_false_iff.mpr ha),
        List.filter_cons_of_neg ha]

end MergeFilters

theorem merge_whole {table : List Row} (h : DistinctKeys id table) {a : Row}
    (hw : ∀ r ∈ table, r.Whole) (ha : a.Whole)
    (hs : Storable (movedAt (fun key => key = a.key) table + a.bytes)) :
    (∀ r ∈ merge table a, r.Whole) ∧
      ∀ test, movedAt test (merge table a) = movedAt test table + movedAt test [a] := by
  rcases merge_cases h a with ⟨-, he⟩ | ⟨before, r, after, rfl, hk, he⟩
  · rw [he]
    refine ⟨?_, fun test => movedAt_append test table [a]⟩
    intro r hr
    rcases List.mem_append.mp hr with hr | hr
    · exact hw r hr
    · exact List.mem_singleton.mp hr ▸ ha
  · have hr : r ∈ before ++ r :: after := by simp
    have hown : r ∈ (before ++ r :: after).filter fun s => decide (s.key = a.key) :=
      List.mem_filter.mpr ⟨hr, decide_eq_true hk⟩
    obtain ⟨hrw, hrb⟩ := Row.absorb_whole (hw r hr) ha
      (hs.mono (add_le_add_left (bytes_le_moved hown) _))
    rw [he]
    constructor
    · intro s hs
      simp only [List.mem_append, List.mem_cons] at hs
      rcases hs with hs | rfl | hs
      · exact hw s (by simp [hs])
      · exact hrw
      · exact hw s (by simp [hs])
    · intro test
      simp only [movedAt_append, movedAt_cons, movedAt_nil, Row.key_absorb, hrb, hk]
      split
      · ac_rfl
      · ac_rfl

theorem key_mem_foldl_merge {table rows : List Row} {key : String × ℤ} :
    key ∈ (rows.foldl merge table).map Row.key ↔
      key ∈ table.map Row.key ∨ key ∈ rows.map Row.key := by
  induction rows generalizing table with
  | nil => simp
  | cons a rest ih =>
    rw [List.foldl_cons, ih, key_mem_merge, List.map_cons, List.mem_cons, or_assoc]

theorem DistinctKeys.foldl_merge {table : List Row} (h : DistinctKeys id table) (rows : List Row) :
    DistinctKeys id (rows.foldl Store.merge table) := by
  induction rows generalizing table with
  | nil => exact h
  | cons a rest ih => exact ih (h.merge a)

theorem foldl_merge_new {table rows : List Row} (hn : ∀ a ∈ rows, a.key ∉ table.map Row.key)
    (hd : (rows.map Row.key).Nodup) : rows.foldl merge table = table ++ rows := by
  induction rows generalizing table with
  | nil => exact (List.append_nil table).symm
  | cons a rest ih =>
    obtain ⟨ha, hrest⟩ := List.nodup_cons.mp hd
    have hfree : ¬ holds id table a.key = true := fun hh =>
      hn a List.mem_cons_self (holds_iff.mp hh)
    have hnext : ∀ b ∈ rest, b.key ∉ (table ++ [a]).map Row.key := by
      intro b hb hin
      rw [List.map_append, List.mem_append, List.map_singleton, List.mem_singleton] at hin
      rcases hin with hin | hin
      · exact hn b (List.mem_cons_of_mem a hb) hin
      · exact ha (hin ▸ List.mem_map_of_mem hb)
    rw [List.foldl_cons, merge, if_neg hfree, ih hnext hrest]
    exact (List.append_cons table a rest).symm

/-- Merging rows one by one adds up what they hold, as long as every key stays within range. -/
theorem foldl_merge_within {table rows : List Row} (h : DistinctKeys id table)
    (hw : ∀ r ∈ table, r.Whole) (hr : ∀ r ∈ rows, r.Whole)
    (hs : ∀ k, Storable (movedAt (fun key => key = k) table + movedAt (fun key => key = k) rows)) :
    (∀ r ∈ rows.foldl merge table, r.Whole) ∧
      ∀ test, movedAt test (rows.foldl merge table) = movedAt test table + movedAt test rows := by
  induction rows generalizing table with
  | nil => exact ⟨hw, fun test => by simp⟩
  | cons a rest ih =>
    have hone := hs a.key
    rw [movedAt_cons, if_pos (decide_eq_true rfl), ← add_assoc] at hone
    obtain ⟨hmw, hm⟩ := merge_whole h hw (hr a (by simp)) (hone.mono le_self_add)
    have hsplit : ∀ test, movedAt test table + movedAt test (a :: rest) =
        movedAt test (merge table a) + movedAt test rest := by
      intro test
      rw [hm test, movedAt_cons test a rest, movedAt_cons test a [], movedAt_nil]
      ac_rfl
    obtain ⟨hfw, hf⟩ := ih (h.merge a) hmw (fun r hr' => hr r (by simp [hr']))
      fun k => hsplit _ ▸ hs k
    refine ⟨hfw, fun test => ?_⟩
    rw [List.foldl_cons, hf test, hsplit test]

theorem foldl_merge_whole {table rows : List Row} (h : DistinctKeys id table)
    (hw : ∀ r ∈ table, r.Whole) (hr : ∀ r ∈ rows, r.Whole)
    (hs : Storable (moved table + moved rows)) :
    (∀ r ∈ rows.foldl merge table, r.Whole) ∧
      ∀ test, movedAt test (rows.foldl merge table) = movedAt test table + movedAt test rows :=
  foldl_merge_within h hw hr fun _ =>
    hs.mono (add_le_add (moved_filter_le table _) (moved_filter_le rows _))

end TrafficMeter.Store
