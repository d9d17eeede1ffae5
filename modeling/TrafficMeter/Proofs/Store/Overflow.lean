import TrafficMeter.Proofs.Store.Buckets
import TrafficMeter.Proofs.Store.History

/-!
Amounts past the column range. A sum that leaves the range becomes a real number past it and stays
one in every later sum, so among stored amounts only whole ones have a sum within range.
-/

namespace TrafficMeter.Store

namespace Cell

/-- A byte count, or a real number past the range of byte counts. -/
def Stored (c : Cell) : Prop := c.Whole ∨ c.isReal = true ∧ 2 ^ 63 ≤ c.value

instance (c : Cell) : Decidable c.Stored := inferInstanceAs (Decidable (_ ∨ _))

theorem Stored.value_eq {c : Cell} (h : c.Stored) : c.value = c.bytes := by
  rcases h with h | ⟨-, h⟩
  · exact h.value_eq
  · unfold bytes
    omega

theorem Stored.whole {c : Cell} (h : c.Stored) (hle : (c.bytes : ℤ) ≤ maxTime) : c.Whole := by
  rcases h with h | ⟨-, h⟩
  · exact h
  · unfold bytes maxTime at hle
    omega

theorem Stored.le_of_real {c : Cell} (h : c.Stored) (hr : c.isReal = true) : 2 ^ 63 ≤ c.bytes := by
  rcases h with h | ⟨-, h⟩
  · rw [h.not_real] at hr
    cases hr
  · unfold bytes
    omega

theorem stored_int {n : ℕ} (h : (n : ℤ) ≤ maxTime) : (Cell.int n).Stored := by
  rw [← ofCount_of_le h]
  exact Or.inl (ofCount_whole n)

theorem stored_real {n : ℕ} (h : 2 ^ 63 ≤ n) : (Cell.real n).Stored := by
  refine Or.inr ⟨rfl, ?_⟩
  simp only [value]
  omega

theorem add_stored {a b : Cell} (ha : a.Stored) (hb : b.Stored) : (a.add b).Stored := by
  rcases add_cases ha.value_eq hb.value_eq with ⟨hle, he⟩ | ⟨hr, he⟩
  · rw [he]
    exact stored_int hle
  · rw [he]
    apply stored_real
    apply le_round_add
    rcases hr with hr | hr | hr
    · have := ha.le_of_real hr
      omega
    · have := hb.le_of_real hr
      omega
    · unfold maxTime at hr
      omega

def KeptBySums (P : Cell → Prop) : Prop :=
  ∀ {cells : List Cell} {c : Cell}, (∀ d ∈ cells, P d) → sum cells = .ok c → P c

theorem stored_keptBySums : KeptBySums Stored := by
  intro cells c h hs
  have hv := sum_value fun d hd => (h d hd).value_eq
  unfold sum at hs
  dsimp only at hs
  rw [hv] at hs
  split at hs
  · rename_i hreal
    cases hs
    obtain ⟨d, hd, hr⟩ := List.any_eq_true.mp hreal
    have hle : d.bytes ≤ (cells.map bytes).sum := List.le_sum_of_mem (List.mem_map_of_mem hd)
    rw [roundDouble_natCast]
    exact stored_real (two_pow_le_roundMagnitude (((h d hd).le_of_real hr).trans hle))
  · split at hs
    · rename_i hfits
      cases hs
      exact stored_int (fitsColumn_iff.mp hfits).2
    · cases hs

theorem whole_keptBySums : KeptBySums Whole := by
  intro cells c h hs
  have hstored := stored_keptBySums (fun d hd => Or.inl (h d hd)) hs
  have hi : cells.any isReal = false := by
    rw [List.any_eq_false]
    intro d hd
    simp [(h d hd).not_real]
  unfold sum at hs
  dsimp only at hs
  rw [hi, if_neg Bool.false_ne_true] at hs
  split at hs <;> cases hs
  exact hstored.resolve_right fun hr => Bool.false_ne_true hr.1

end Cell

namespace Row

def Stored (r : Row) : Prop := r.up.Stored ∧ r.down.Stored

instance (r : Row) : Decidable r.Stored := inferInstanceAs (Decidable (_ ∧ _))

theorem Whole.stored {r : Row} (h : r.Whole) : r.Stored := ⟨Or.inl h.1, Or.inl h.2⟩

theorem absorb_stored {r s : Row} (hr : r.Stored) (hs : s.Stored) : (r.absorb s).Stored :=
  ⟨Cell.add_stored hr.1 hs.1, Cell.add_stored hr.2 hs.2⟩

end Row

theorem tallied_of_stored {rows : List Row} (h : ∀ r ∈ rows, r.Stored)
    (fits : Storable (moved rows)) : Tallied rows where
  whole := by
    intro r hr
    obtain ⟨hu, hd⟩ := fits.mono (bytes_le_moved hr)
    exact ⟨(h r hr).1.whole hu, (h r hr).2.whole hd⟩
  storable := fits

theorem insertNew_stored {table : List Row} {a : Row} (h : ∀ r ∈ table, r.Stored) (ha : a.Stored) :
    ∀ r ∈ insertNew id table a, r.Stored := by
  intro r hr
  unfold insertNew at hr
  split at hr
  · exact h r hr
  · rcases List.mem_append.mp hr with hr | hr
    · exact h r hr
    · rw [List.mem_singleton.mp hr]
      exact ha

theorem merge_stored {table : List Row} {a : Row} (h : ∀ r ∈ table, r.Stored) (ha : a.Stored) :
    ∀ r ∈ merge table a, r.Stored := by
  intro r hr
  unfold merge at hr
  split at hr
  · obtain ⟨s, hs, rfl⟩ := List.mem_map.mp hr
    split
    · exact Row.absorb_stored (h s hs) ha
    · exact h s hs
  · rcases List.mem_append.mp hr with hr | hr
    · exact h r hr
    · rw [List.mem_singleton.mp hr]
      exact ha

theorem foldl_stored {step : List Row → Row → List Row}
    (hstep : ∀ {table a}, (∀ r ∈ table, r.Stored) → a.Stored → ∀ r ∈ step table a, r.Stored)
    {table rows : List Row} (h : ∀ r ∈ table, r.Stored) (ha : ∀ r ∈ rows, r.Stored) :
    ∀ r ∈ rows.foldl step table, r.Stored := by
  induction rows generalizing table with
  | nil => exact h
  | cons a rest ih =>
    apply ih
    · exact hstep h (ha a List.mem_cons_self)
    · exact fun r hr => ha r (List.mem_cons_of_mem a hr)

theorem groupSum_eq_ok {κ : Type} [DecidableEq κ] {shares : List (Share κ)} {k : κ} {up down : Cell} :
    groupSum shares k = .ok (up, down) ↔
      Cell.sum ((shares.filter (·.key = k)).map (·.up)) = .ok up ∧
        Cell.sum ((shares.filter (·.key = k)).map (·.down)) = .ok down := by
  unfold groupSum
  dsimp only
  cases Cell.sum ((shares.filter (·.key = k)).map (·.up)) with
  | error fault => exact ⟨nofun, fun h => nomatch h.1⟩
  | ok u =>
    cases Cell.sum ((shares.filter (·.key = k)).map (·.down)) with
    | error fault => exact ⟨nofun, fun h => nomatch h.2⟩
    | ok d => simp [bind, Except.bind, pure, Except.pure]

section Sums

variable {P : Cell → Prop} (hP : Cell.KeptBySums P)

include hP

theorem groupSum_kept {rows : List Row} {key : Row → ℤ} {k : ℤ} {up down : Cell}
    (h : ∀ r ∈ rows, P r.up ∧ P r.down)
    (hs : groupSum (rows.map (Row.share key)) k = .ok (up, down)) : P up ∧ P down := by
  have hshare : ∀ s ∈ (rows.map (Row.share key)).filter (·.key = k), P s.up ∧ P s.down := by
    intro s hm
    obtain ⟨r, hr, rfl⟩ := List.mem_map.mp (List.mem_filter.mp hm).1
    exact h r hr
  obtain ⟨hu, hd⟩ := groupSum_eq_ok.mp hs
  constructor
  · apply hP _ hu
    intro c hc
    obtain ⟨s, hm, rfl⟩ := List.mem_map.mp hc
    exact (hshare s hm).1
  · apply hP _ hd
    intro c hc
    obtain ⟨s, hm, rfl⟩ := List.mem_map.mp hc
    exact (hshare s hm).2

theorem rollUp_kept {rows : List Row} {width : ℤ} (h : ∀ r ∈ rows, P r.up ∧ P r.down) {b : Row}
    (hb : .ok b ∈ rollUp rows width) : P b.up ∧ P b.down := by
  simp only [rollUp, List.mem_flatMap, List.mem_map] at hb
  obtain ⟨identity, -, start, -, hb⟩ := hb
  have hown : ∀ r ∈ rows.filter (·.id == identity), P r.up ∧ P r.down :=
    fun r hr => h r (List.mem_filter.mp hr).1
  cases hs : groupSum ((rows.filter (·.id == identity)).map
      (Row.share fun r => bucketKey r.ts width)) start with
  | error fault =>
    rw [hs] at hb
    cases hb
  | ok amounts =>
    rw [hs] at hb
    cases hb
    exact groupSum_kept hP hown hs

/-- Whatever sums keep of raw amounts, and whole amounts have, holds of the buckets of a rollup. -/
theorem rolledUp_kept (hw : ∀ c : Cell, c.Whole → P c) {t : Tables} {series : Series}
    {cutoff width : ℤ} (htraffic : ∀ r ∈ t.traffic, P r.up ∧ P r.down)
    (hpeers : ∀ s ∈ t.peers, s.Whole) {b : Row} (hb : .ok b ∈ t.rolledUp series cutoff width) :
    P b.up ∧ P b.down := by
  cases series with
  | traffic => exact rollUp_kept hP (fun r hr => htraffic r (List.mem_filter.mp hr).1) hb
  | peers =>
    refine rollUp_kept hP (fun r hr => ?_) (List.mem_filter.mp hb).1
    obtain ⟨peer, -, hr⟩ := List.mem_flatMap.mp hr
    have hg := growths_whole (fun s hs => hpeers s (mem_historyBefore.mp hs).1) r hr
    exact ⟨hw _ hg.1, hw _ hg.2⟩

end Sums

theorem rolledUp_stored {t : Tables} {series : Series} {cutoff width : ℤ}
    (htraffic : ∀ r ∈ t.traffic, r.Stored) (hpeers : ∀ s ∈ t.peers, s.Whole) {b : Row}
    (hb : .ok b ∈ t.rolledUp series cutoff width) : b.Stored :=
  rolledUp_kept Cell.stored_keptBySums (fun _ => Or.inl) htraffic hpeers hb

theorem rolledUp_whole {t : Tables} {series : Series} {cutoff width : ℤ}
    (htraffic : ∀ r ∈ t.traffic, r.Whole) (hpeers : ∀ s ∈ t.peers, s.Whole) {b : Row}
    (hb : .ok b ∈ t.rolledUp series cutoff width) : b.Whole :=
  rolledUp_kept Cell.whole_keptBySums (fun _ => id) htraffic hpeers hb

end TrafficMeter.Store
