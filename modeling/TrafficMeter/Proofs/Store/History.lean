import TrafficMeter.Proofs.Store.Merging
import TrafficMeter.Store.Rollup

/-!
The history of a peer. `previous?` is the newest earlier snapshot of the same peer, whatever its
age, and `increments` measures every snapshot from it. Sorting part of a table by time and comparing
neighbours gives the same growth for each snapshot whose predecessor is in that part.
-/

namespace TrafficMeter.Store

def rise (before after : Snapshot) : Row :=
  { after.toRow with
    up := before.up.growth after.up
    down := before.down.growth after.down }

@[simp] theorem rise_key (before after : Snapshot) : (rise before after).key = after.key := rfl

theorem rise_whole {before after : Snapshot} (hb : before.Whole) (ha : after.Whole) :
    (rise before after).Whole ∧ (rise before after).bytes = after.bytes - before.bytes := by
  have hu := Cell.growth_whole hb.1 ha.1
  have hd := Cell.growth_whole hb.2 ha.2
  have lu : ((after.up.bytes - before.up.bytes : ℕ) : ℤ) ≤ maxTime := by
    have := ha.1.bytes_le
    omega
  have ld : ((after.down.bytes - before.down.bytes : ℕ) : ℤ) ≤ maxTime := by
    have := ha.2.bytes_le
    omega
  constructor
  · constructor
    · change (before.up.growth after.up).Whole
      rw [hu]
      exact Cell.ofCount_whole _
    · change (before.down.growth after.down).Whole
      rw [hd]
      exact Cell.ofCount_whole _
  · simp only [rise, Row.bytes, hu, hd, Cell.bytes_ofCount_of_le lu, Cell.bytes_ofCount_of_le ld]
    rfl

theorem mem_growths {history : List Snapshot} {r : Row} (h : r ∈ growths history) :
    ∃ before after, [before, after].Sublist history ∧ r = rise before after := by
  induction history with
  | nil => cases h
  | cons a rest ih =>
    cases rest with
    | nil => cases h
    | cons b rest =>
      rcases List.mem_cons.mp h with rfl | h
      · exact ⟨a, b, ((List.nil_sublist rest).cons_cons b).cons_cons a, rfl⟩
      · obtain ⟨before, after, hsub, rfl⟩ := ih h
        exact ⟨before, after, hsub.cons a, rfl⟩

theorem growths_whole {history : List Snapshot} (h : ∀ s ∈ history, s.Whole) :
    ∀ r ∈ growths history, r.Whole := by
  intro r hr
  obtain ⟨before, after, hsub, rfl⟩ := mem_growths hr
  exact (rise_whole (h before (hsub.subset (by simp))) (h after (hsub.subset (by simp)))).1

theorem growths_concat (history : List Snapshot) (s : Snapshot) :
    growths (history ++ [s]) = growths history ++ (history.getLast?.map (rise · s)).toList := by
  induction history with
  | nil => rfl
  | cons a rest ih =>
    cases rest with
    | nil => rfl
    | cons b rest =>
      simp only [List.cons_append, growths, List.getLast?_cons_cons] at ih ⊢
      rw [ih]

def Ascending (history : List Snapshot) : Prop := history.Pairwise fun a b => a.ts < b.ts

theorem Ascending.getLast?_eq_some_iff {history : List Snapshot} (h : Ascending history)
    {b : Snapshot} : history.getLast? = some b ↔ b ∈ history ∧ ∀ c ∈ history, c.ts ≤ b.ts := by
  rcases List.eq_nil_or_concat' history with rfl | ⟨rest, last, rfl⟩
  · simp
  · have hlt : ∀ c ∈ rest, c.ts < last.ts := fun c hc =>
      (List.pairwise_append.mp h).2.2 c hc last (List.mem_singleton_self last)
    rw [List.getLast?_concat, Option.some.injEq]
    constructor
    · rintro rfl
      refine ⟨by simp, fun c hc => ?_⟩
      rcases List.mem_append.mp hc with hc | hc
      · exact (hlt c hc).le
      · rw [List.mem_singleton.mp hc]
    · rintro ⟨hb, hmax⟩
      rcases List.mem_append.mp hb with hb | hb
      · have := hmax last (by simp)
        have := hlt b hb
        omega
      · exact (List.mem_singleton.mp hb).symm

/-- Neighbours in an ascending history are a snapshot and the newest one before it. -/
theorem Ascending.growths_eq {history : List Snapshot} (h : Ascending history) :
    growths history =
      history.filterMap fun s => (history.filter (·.ts < s.ts)).getLast?.map (rise · s) := by
  induction history using List.reverseRecOn with
  | nil => rfl
  | append_singleton rest s ih =>
    obtain ⟨hrest, -, hlt⟩ := List.pairwise_append.mp h
    have hs : ∀ x ∈ rest, x.ts < s.ts := fun x hx => hlt x hx s (List.mem_singleton_self s)
    have hself : (rest ++ [s]).filter (·.ts < s.ts) = rest := by
      rw [List.filter_append, List.filter_eq_self.mpr fun x hx => decide_eq_true (hs x hx)]
      simp
    have hother : ∀ x ∈ rest, (rest ++ [s]).filter (·.ts < x.ts) = rest.filter (·.ts < x.ts) := by
      intro x hx
      have hx' : ¬ s.ts < x.ts := (hs x hx).asymm
      rw [List.filter_append, List.filter_singleton, decide_eq_false hx']
      exact List.append_nil _
    rw [growths_concat, ih hrest, List.filterMap_append]
    congr 1
    · apply List.filterMap_congr
      intro x hx
      rw [hother x hx]
    · simp only [List.filterMap_cons, List.filterMap_nil, hself]
      cases rest.getLast? <;> rfl

section Sorting

variable {α : Type} (row : α → Row)

theorem insertByTime_perm (a : α) (l : List α) : (insertByTime row a l).Perm (a :: l) := by
  induction l with
  | nil => exact List.Perm.refl _
  | cons x rest ih =>
    simp only [insertByTime]
    split
    · exact List.Perm.refl _
    · exact (ih.cons x).trans (List.Perm.swap a x rest)

theorem sortByTime_perm (l : List α) : (sortByTime row l).Perm l := by
  induction l with
  | nil => exact List.Perm.refl _
  | cons a rest ih => exact (insertByTime_perm row a _).trans (ih.cons a)

theorem insertByTime_pairwise (a : α) {l : List α}
    (h : l.Pairwise fun x y => (row x).ts ≤ (row y).ts) :
    (insertByTime row a l).Pairwise fun x y => (row x).ts ≤ (row y).ts := by
  induction l with
  | nil => simp [insertByTime]
  | cons x rest ih =>
    obtain ⟨hx, hrest⟩ := List.pairwise_cons.mp h
    simp only [insertByTime]
    split
    · rename_i hle
      refine List.pairwise_cons.mpr ⟨fun y hy => ?_, h⟩
      rcases List.mem_cons.mp hy with rfl | hy
      · exact hle
      · exact hle.trans (hx y hy)
    · rename_i hgt
      refine List.pairwise_cons.mpr ⟨fun y hy => ?_, ih hrest⟩
      rcases List.mem_cons.mp ((insertByTime_perm row a rest).mem_iff.mp hy) with rfl | hy
      · omega
      · exact hx y hy

theorem sortByTime_pairwise (l : List α) :
    (sortByTime row l).Pairwise fun x y => (row x).ts ≤ (row y).ts := by
  induction l with
  | nil => exact List.Pairwise.nil
  | cons a rest ih => exact insertByTime_pairwise row a ih

theorem sortByTime_strict {l : List α} (h : (l.map fun a => (row a).ts).Nodup) :
    (sortByTime row l).Pairwise fun a b => (row a).ts < (row b).ts := by
  have hp := sortByTime_perm row l
  have hne : (sortByTime row l).Pairwise fun a b => (row a).ts ≠ (row b).ts :=
    List.pairwise_map.mp ((hp.map fun a => (row a).ts).nodup_iff.mpr h)
  refine ((sortByTime_pairwise row l).and hne).imp ?_
  intro a b hab
  exact lt_of_le_of_ne hab.1 hab.2

variable {row} in
theorem segment_strict {table : List α} (h : DistinctKeys row table) (identity : String)
    (q : ℤ → Bool) :
    (sortByTime row (table.filter fun a => (row a).id == identity && q (row a).ts)).Pairwise
      fun a b => (row a).ts < (row b).ts := by
  refine sortByTime_strict row (List.Nodup.of_map (fun ts => (identity, ts)) ?_)
  have hk := h.filter fun a => (row a).id == identity && q (row a).ts
  unfold DistinctKeys at hk
  rw [List.map_map]
  rwa [List.map_congr_left] at hk
  intro a ha
  simp only [List.mem_filter, Bool.and_eq_true, beq_iff_eq] at ha
  simp [Row.key, ha.2.1]

end Sorting

theorem mem_historyBefore {peers : List Snapshot} {cutoff : ℤ} {peer : String} {s : Snapshot} :
    s ∈ historyBefore peers cutoff peer ↔ s ∈ peers ∧ s.id = peer ∧ s.ts < cutoff := by
  rw [historyBefore, (sortByTime_perm _ _).mem_iff, List.mem_filter, Bool.and_eq_true, beq_iff_eq,
    decide_eq_true_eq]

def previous? (peers : List Snapshot) (s : Snapshot) : Option Snapshot :=
  (historyBefore peers s.ts s.id).getLast?

theorem previous?_mem {peers : List Snapshot} {s b : Snapshot}
    (h : previous? peers s = some b) : b ∈ peers :=
  (mem_historyBefore.mp (List.mem_of_getLast? h)).1

/-- The growth of every snapshot over the one before it; the first one of a peer has none. -/
def increments (peers : List Snapshot) : List Row :=
  peers.filterMap fun s => (previous? peers s).map (rise · s)

section Table

variable {peers : List Snapshot}

theorem segment_ascending (h : DistinctKeys Snapshot.toRow peers) (peer : String) (q : ℤ → Bool) :
    Ascending (sortByTime Snapshot.toRow (peers.filter fun s => s.id == peer && q s.ts)) :=
  segment_strict h peer q

theorem previous?_eq_some_iff (h : DistinctKeys Snapshot.toRow peers) {s b : Snapshot} :
    previous? peers s = some b ↔
      (b ∈ peers ∧ b.id = s.id ∧ b.ts < s.ts) ∧
        ∀ c ∈ peers, c.id = s.id → c.ts < s.ts → c.ts ≤ b.ts := by
  have ha : Ascending (historyBefore peers s.ts s.id) := segment_ascending h s.id (· < s.ts)
  rw [previous?, ha.getLast?_eq_some_iff]
  simp only [mem_historyBefore]
  exact ⟨fun ⟨hb, hc⟩ => ⟨hb, fun c h₁ h₂ h₃ => hc c ⟨h₁, h₂, h₃⟩⟩,
    fun ⟨hb, hc⟩ => ⟨hb, fun c ⟨h₁, h₂, h₃⟩ => hc c h₁ h₂ h₃⟩⟩

theorem previous?_eq_none_iff {s : Snapshot} :
    previous? peers s = none ↔ ∀ c ∈ peers, c.id = s.id → s.ts ≤ c.ts := by
  rw [previous?, List.getLast?_eq_none_iff, List.eq_nil_iff_forall_not_mem]
  simp only [mem_historyBefore, not_and, not_lt]

/-- Inside part of a history that has the predecessor of a snapshot, it is the predecessor there
too. -/
theorem segment_previous (h : DistinctKeys Snapshot.toRow peers) {q : ℤ → Bool} {s : Snapshot}
    (hq : ∀ b, previous? peers s = some b → q b.ts = true) :
    ((sortByTime Snapshot.toRow (peers.filter fun a => a.id == s.id && q a.ts)).filter
      (·.ts < s.ts)).getLast? = previous? peers s := by
  have hm : ∀ c, c ∈ (sortByTime Snapshot.toRow
      (peers.filter fun a => a.id == s.id && q a.ts)).filter (·.ts < s.ts) ↔
      (c ∈ peers ∧ c.id = s.id ∧ q c.ts = true) ∧ c.ts < s.ts := by
    intro c
    rw [List.mem_filter, (sortByTime_perm _ _).mem_iff]
    simp
  cases hp : previous? peers s with
  | none =>
    rw [List.getLast?_eq_none_iff, List.eq_nil_iff_forall_not_mem]
    intro c hc
    obtain ⟨⟨hc, hid, -⟩, hlt⟩ := (hm c).mp hc
    have := previous?_eq_none_iff.mp hp c hc hid
    omega
  | some b =>
    obtain ⟨⟨hb, hid, hlt⟩, hmax⟩ := (previous?_eq_some_iff h).mp hp
    have ha := (segment_ascending h s.id q).filter (·.ts < s.ts)
    rw [Ascending.getLast?_eq_some_iff ha]
    refine ⟨(hm b).mpr ⟨⟨hb, hid, hq b hp⟩, hlt⟩, fun c hc => ?_⟩
    obtain ⟨⟨hc, hcid, -⟩, hclt⟩ := (hm c).mp hc
    exact hmax c hc hcid hclt

theorem increments_filter (peers : List Snapshot) (test : String × ℤ → Bool) :
    ((increments peers).filter fun r => test r.key) =
      (peers.filter fun s => test s.key).filterMap fun s => (previous? peers s).map (rise · s) := by
  rw [increments, List.filter_filterMap, List.filterMap_filter]
  apply List.filterMap_congr
  intro s _
  cases previous? peers s with
  | none => cases h : test s.key <;> rfl
  | some b => cases h : test s.key <;> simp [h]

/-- Comparing neighbours in a part of one peer's history yields the increments of that part, as far
as it has the predecessors of the snapshots that are kept. -/
theorem growths_part_perm (h : DistinctKeys Snapshot.toRow peers) (peer : String)
    (q keep : ℤ → Bool)
    (hq : ∀ s ∈ peers, s.id = peer → q s.ts = true → keep s.ts = true →
      ∀ b, previous? peers s = some b → q b.ts = true) :
    ((growths (sortByTime Snapshot.toRow
        (peers.filter fun s => s.id == peer && q s.ts))).filter fun r => keep r.ts).Perm
      ((peers.filter fun s => s.id == peer && (q s.ts && keep s.ts)).filterMap
        fun s => (previous? peers s).map (rise · s)) := by
  have hperm := sortByTime_perm Snapshot.toRow (peers.filter fun s => s.id == peer && q s.ts)
  have hmem : ∀ s ∈ sortByTime Snapshot.toRow (peers.filter fun s => s.id == peer && q s.ts),
      s ∈ peers ∧ s.id = peer ∧ q s.ts = true := by
    intro s hs
    simpa using hperm.mem_iff.mp hs
  have hkept : (growths (sortByTime Snapshot.toRow
      (peers.filter fun s => s.id == peer && q s.ts))).filter (fun r => keep r.ts) =
      ((sortByTime Snapshot.toRow (peers.filter fun s => s.id == peer && q s.ts)).filter
        fun s => keep s.ts).filterMap fun s => (previous? peers s).map (rise · s) := by
    rw [(segment_ascending h peer q).growths_eq, List.filter_filterMap, List.filterMap_filter]
    apply List.filterMap_congr
    intro s hs
    obtain ⟨hin, rfl, hqs⟩ := hmem s hs
    cases hk : keep s.ts with
    | true =>
      rw [segment_previous h (hq s hin rfl hqs hk)]
      cases previous? peers s with
      | none => rfl
      | some b => exact Option.filter_some_pos hk
    | false =>
      cases List.getLast? _ with
      | none => rfl
      | some b => exact Option.filter_some_neg (by simp [rise, hk])
  rw [hkept]
  refine ((hperm.filter _).trans (List.Perm.of_eq ?_)).filterMap _
  rw [List.filter_filter]
  apply List.filter_congr
  intro s _
  rw [Bool.and_comm, Bool.and_assoc]

theorem growths_parts_perm (h : DistinctKeys Snapshot.toRow peers) {ids : List String}
    (hids : ids.Nodup) (q : String → ℤ → Bool) (keep : ℤ → Bool)
    (hq : ∀ s ∈ peers, q s.id s.ts = true → keep s.ts = true →
      ∀ b, previous? peers s = some b → q s.id b.ts = true) :
    ((ids.flatMap fun peer => growths (sortByTime Snapshot.toRow
        (peers.filter fun s => s.id == peer && q peer s.ts))).filter fun r => keep r.ts).Perm
      ((increments peers).filter fun r => (q r.id r.ts && keep r.ts) && decide (r.id ∈ ids)) := by
  have hpart : ∀ peer ∈ ids, ((growths (sortByTime Snapshot.toRow
        (peers.filter fun s => s.id == peer && q peer s.ts))).filter fun r => keep r.ts).Perm
      (((peers.filter fun s => q s.id s.ts && keep s.ts).filter fun s => s.id = peer).filterMap
        fun s => (previous? peers s).map (rise · s)) := by
    intro peer _
    have hone := growths_part_perm h peer (q peer) keep fun s hs hid => hid ▸ hq s hs
    refine hone.trans (List.Perm.of_eq (congrArg (List.filterMap _) ?_))
    rw [List.filter_filter]
    apply List.filter_congr
    intro s _
    by_cases hs : s.id = peer <;> simp [hs]
  have hi := increments_filter peers fun k => (q k.1 k.2 && keep k.2) && decide (k.1 ∈ ids)
  rw [List.filter_flatMap]
  refine (List.Perm.flatMap_left ids hpart).trans ?_
  rw [← List.filterMap_flatMap]
  refine ((flatMap_filter_perm _ _ hids).filterMap _).trans (List.Perm.of_eq (Eq.trans ?_ hi.symm))
  rw [List.filter_filter]
  refine congrArg (List.filterMap _) (List.filter_congr fun s _ => ?_)
  exact Bool.and_comm _ _

end Table

end TrafficMeter.Store
