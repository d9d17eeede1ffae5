import TrafficMeter.Proofs.Store.Amounts
import TrafficMeter.Store.Query

/-!
Grouping by key. Sorted keys depend only on which keys occur, groups of distinct keys split a list
without loss, and the points of an answer hold what the rows of each bucket hold together.
-/

namespace TrafficMeter.Store

section Keys

variable {κ : Type} [LinearOrder κ] [DecidableLT κ] [DecidableEq κ]

theorem insertKey_pairwise (k : κ) {keys : List κ} (h : keys.Pairwise (· < ·)) :
    (insertKey k keys).Pairwise (· < ·) := by
  induction keys with
  | nil => simp [insertKey]
  | cons x rest ih =>
    obtain ⟨hx, hr⟩ := List.pairwise_cons.mp h
    simp only [insertKey]
    split
    · rename_i hlt
      refine List.pairwise_cons.mpr ⟨?_, h⟩
      intro y hy
      rcases List.mem_cons.mp hy with rfl | hy
      · exact hlt
      · exact hlt.trans (hx y hy)
    · split
      · exact h
      · rename_i hlt hne
        refine List.pairwise_cons.mpr ⟨?_, ih hr⟩
        intro y hy
        rcases mem_insertKey.mp hy with rfl | hy
        · exact lt_of_le_of_ne (not_lt.mp hlt) (Ne.symm hne)
        · exact hx y hy

theorem sortedKeys_pairwise (keys : List κ) : (sortedKeys keys).Pairwise (· < ·) := by
  induction keys with
  | nil => exact List.Pairwise.nil
  | cons k rest ih => exact insertKey_pairwise k ih

theorem sortedKeys_nodup (keys : List κ) : (sortedKeys keys).Nodup :=
  (sortedKeys_pairwise keys).imp ne_of_lt

theorem sortedKeys_congr {a b : List κ} (h : ∀ x, x ∈ a ↔ x ∈ b) : sortedKeys a = sortedKeys b := by
  refine (sortedKeys_pairwise a).eq_of_mem_iff (sortedKeys_pairwise b) fun x => ?_
  rw [mem_sortedKeys, mem_sortedKeys, h x]

theorem filter_sortedKeys (p : κ → Bool) (keys : List κ) :
    (sortedKeys keys).filter p = sortedKeys (keys.filter p) := by
  refine ((sortedKeys_pairwise keys).filter p).eq_of_mem_iff (sortedKeys_pairwise _) fun x => ?_
  rw [List.mem_filter, mem_sortedKeys, mem_sortedKeys, List.mem_filter]

end Keys

section Groups

variable {α κ : Type} [DecidableEq κ]

/-- The groups of distinct keys hold each member with such a key exactly once. -/
theorem flatMap_filter_perm (l : List α) (key : α → κ) {keys : List κ} (hk : keys.Nodup) :
    (keys.flatMap fun k => l.filter fun a => key a = k).Perm (l.filter fun a => key a ∈ keys) := by
  induction keys with
  | nil => simp
  | cons k rest ih =>
    obtain ⟨hn, hr⟩ := List.nodup_cons.mp hk
    have hsplit := List.filter_append_perm (fun a => decide (key a = k))
      (l.filter fun a => key a ∈ k :: rest)
    have hfirst : (l.filter fun a => key a ∈ k :: rest).filter (fun a => key a = k) =
        l.filter fun a => key a = k := by
      rw [List.filter_filter]
      apply List.filter_congr
      intro a _
      by_cases ha : key a = k <;> simp [ha]
    have hother : (l.filter fun a => key a ∈ k :: rest).filter (fun a => !decide (key a = k)) =
        l.filter fun a => key a ∈ rest := by
      rw [List.filter_filter]
      apply List.filter_congr
      intro a _
      by_cases ha : key a = k
      · simp [ha, hn]
      · simp [ha]
    rw [hfirst, hother] at hsplit
    rw [List.flatMap_cons]
    exact ((ih hr).append_left _).trans hsplit

theorem sum_moved_groups (rows : List Row) (key : Row → κ) {keys : List κ} (hk : keys.Nodup) :
    (keys.map fun k => moved (rows.filter fun r => key r = k)).sum =
      moved (rows.filter fun r => key r ∈ keys) := by
  rw [← moved_perm (flatMap_filter_perm rows key hk)]
  induction keys with
  | nil => rfl
  | cons k rest ih =>
    simp only [List.map_cons, List.sum_cons, List.flatMap_cons, moved_append,
      ih (List.nodup_cons.mp hk).2]

theorem groupSum_tallied {rows : List Row} {key : Row → κ} {k : κ}
    (h : Tallied (rows.filter fun r => key r = k)) :
    groupSum (rows.map (Row.share key)) k =
      .ok (.ofCount (moved (rows.filter fun r => key r = k)).1,
        .ofCount (moved (rows.filter fun r => key r = k)).2) := by
  have hup : ((rows.map (Row.share key)).filter (·.key = k)).map (·.up) =
      (rows.filter fun r => key r = k).map (·.up) := by
    rw [List.filter_map, List.map_map]
    rfl
  have hdown : ((rows.map (Row.share key)).filter (·.key = k)).map (·.down) =
      (rows.filter fun r => key r = k).map (·.down) := by
    rw [List.filter_map, List.map_map]
    rfl
  simp only [groupSum, hup, hdown, h.sum_up, h.sum_down]
  rfl

end Groups

theorem mapM_eq_ok {α β ε : Type} {f : α → Except ε β} {g : α → β} {l : List α}
    (h : ∀ a ∈ l, f a = .ok (g a)) : l.mapM f = .ok (l.map g) := by
  induction l with
  | nil => rfl
  | cons a rest ih =>
    have hr := ih fun b hb => h b (List.mem_cons_of_mem a hb)
    rw [List.mapM_cons, h a List.mem_cons_self, hr]
    rfl

def tally (rows : List Row) (key : Row → ℤ) : List Point :=
  (sortedKeys (rows.map key)).map fun k =>
    ⟨k, (moved (rows.filter fun r => key r = k)).1, (moved (rows.filter fun r => key r = k)).2⟩

theorem groupPoints_tallied {rows : List Row} {key : Row → ℤ}
    (h : ∀ k, Tallied (rows.filter fun r => key r = k)) :
    groupPoints (rows.map (Row.share key)) = .ok (tally rows key) := by
  have hk : (rows.map (Row.share key)).map (·.key) = rows.map key := by
    rw [List.map_map]
    rfl
  rw [groupPoints, hk]
  apply mapM_eq_ok
  intro k _
  obtain ⟨hu, hd⟩ := (h k).storable
  rw [groupSum_tallied (h k)]
  have eu : (Cell.ofCount (moved (rows.filter fun r => key r = k)).1).count? = .ok _ :=
    Cell.count?_whole (Cell.ofCount_whole _)
  have ed : (Cell.ofCount (moved (rows.filter fun r => key r = k)).2).count? = .ok _ :=
    Cell.count?_whole (Cell.ofCount_whole _)
  rw [Cell.bytes_ofCount_of_le hu] at eu
  rw [Cell.bytes_ofCount_of_le hd] at ed
  simp only [bind, Except.bind, eu, ed]
  rfl

theorem tally_congr {a b : List Row} {key : Row → ℤ} (hk : ∀ k, k ∈ a.map key ↔ k ∈ b.map key)
    (hm : ∀ k, moved (a.filter fun r => key r = k) = moved (b.filter fun r => key r = k)) :
    tally a key = tally b key := by
  simp only [tally, sortedKeys_congr hk, hm]

/-- What an answer gives for a bucket; nothing if the bucket is missing. -/
def amountAt (points : List Point) (bucket : ℤ) : ℕ × ℕ :=
  ((points.filter (·.ts = bucket)).map fun p => (p.uplink, p.downlink)).sum

theorem filter_eq_of_nodup {α : Type} [DecidableEq α] {l : List α} (h : l.Nodup) (a : α) :
    l.filter (fun b => b = a) = if a ∈ l then [a] else [] := by
  induction l with
  | nil => rfl
  | cons b rest ih =>
    obtain ⟨hb, hr⟩ := List.nodup_cons.mp h
    by_cases he : b = a
    · subst he
      simp [ih hr, hb]
    · simp [ih hr, he, Ne.symm he]

theorem amountAt_tally (rows : List Row) (key : Row → ℤ) (k : ℤ) :
    amountAt (tally rows key) k = moved (rows.filter fun r => key r = k) := by
  have hf : (tally rows key).filter (·.ts = k) =
      ((sortedKeys (rows.map key)).filter (fun b => b = k)).map fun b =>
        ⟨b, (moved (rows.filter fun r => key r = b)).1,
          (moved (rows.filter fun r => key r = b)).2⟩ := by
    rw [tally, List.filter_map]
    rfl
  rw [amountAt, hf, filter_eq_of_nodup (sortedKeys_nodup _)]
  split
  · simp
  · rename_i hn
    have hnone : rows.filter (fun r => key r = k) = [] := by
      rw [List.filter_eq_nil_iff]
      intro r hr
      simp only [decide_eq_true_eq]
      rintro rfl
      exact hn (mem_sortedKeys.mpr (List.mem_map_of_mem hr))
    rw [hnone]
    rfl

end TrafficMeter.Store
