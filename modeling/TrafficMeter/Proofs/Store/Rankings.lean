import TrafficMeter.Proofs.Store.Windows

/-!
Rankings of traffic. An identity's standing is what its rows of the window hold, whether they are
samples or buckets, as long as the sums stay within the column range.
-/

namespace TrafficMeter.Store

def cells (amount : ℕ × ℕ) : Cell × Cell := (.ofCount amount.1, .ofCount amount.2)

def place (identity : String) (amount : ℕ × ℕ) : Tables.Standing :=
  ⟨identity, .ofCount amount.1, .ofCount amount.2⟩

def summed (rows : List Row) : List (ℕ × ℕ) := if rows.isEmpty then [] else [moved rows]

theorem summed_sum (rows : List Row) : (summed rows).sum = moved rows := by
  cases rows with
  | nil => rfl
  | cons r rest => exact List.sum_singleton

theorem bytes_cells {amounts : List (ℕ × ℕ)} (h : Storable amounts.sum) :
    (((amounts.map cells).map (·.1)).map Cell.bytes).sum = amounts.sum.1 ∧
      (((amounts.map cells).map (·.2)).map Cell.bytes).sum = amounts.sum.2 := by
  induction amounts with
  | nil => exact ⟨rfl, rfl⟩
  | cons a rest ih =>
    rw [List.sum_cons] at h
    obtain ⟨hup, hdown⟩ := h.mono le_self_add
    obtain ⟨iup, idown⟩ := ih (h.mono le_add_self)
    constructor
    · simp [cells, Cell.bytes_ofCount_of_le hup, ← iup]
    · simp [cells, Cell.bytes_ofCount_of_le hdown, ← idown]

theorem sum_cells {amounts : List (ℕ × ℕ)} (h : Storable amounts.sum) :
    Cell.sum ((amounts.map cells).map (·.1)) = .ok (.ofCount amounts.sum.1) ∧
      Cell.sum ((amounts.map cells).map (·.2)) = .ok (.ofCount amounts.sum.2) := by
  obtain ⟨hup, hdown⟩ := bytes_cells h
  constructor
  · rw [Cell.sum_whole ?_ (hup ▸ h.1), hup]
    simp only [List.map_map, List.mem_map]
    rintro c ⟨a, -, rfl⟩
    exact Cell.ofCount_whole a.1
  · rw [Cell.sum_whole ?_ (hdown ▸ h.2), hdown]
    simp only [List.map_map, List.mem_map]
    rintro c ⟨a, -, rfl⟩
    exact Cell.ofCount_whole a.2

theorem sumOfSome_tallied {rows : List Row} (h : Tallied rows) :
    Tables.sumOfSome rows = .ok ((summed rows).map cells) := by
  unfold Tables.sumOfSome summed
  split
  · rfl
  · rw [h.sum_up, h.sum_down]
    rfl

/-- A standing from parts that were told apart is the place of their sum. -/
theorem standing_cells {raw buckets : List (ℕ × ℕ)} (h : Storable (raw ++ buckets).sum)
    (identity : String) :
    Tables.standing identity (raw.map cells) (buckets.map cells) =
      .ok (place identity (raw ++ buckets).sum) := by
  obtain ⟨hup, hdown⟩ := sum_cells h
  rw [List.map_append] at hup hdown
  rw [Tables.standing, hup, hdown]
  rfl

theorem standing_tallied {raw buckets : List Row} (h : Tallied (raw ++ buckets))
    (identity : String) :
    (do Tables.standing identity (← Tables.sumOfSome raw) (← Tables.sumOfSome buckets)) =
      .ok (place identity (moved (raw ++ buckets))) := by
  have hsum : (summed raw ++ summed buckets).sum = moved (raw ++ buckets) := by
    rw [List.sum_append, summed_sum, summed_sum, moved_append]
  have hstorable : Storable (summed raw ++ summed buckets).sum := by
    rw [hsum]
    exact h.storable
  have hstanding := standing_cells hstorable identity
  rw [hsum] at hstanding
  rw [sumOfSome_tallied h.left, sumOfSome_tallied h.right]
  exact hstanding

def Tables.standings (t : Tables) (first last : ℤ) : List Tables.Standing :=
  (sortedKeys ((t.windowed .traffic [] first last).map (·.id))).map fun identity =>
    place identity (moved ((t.windowed .traffic [] first last).filter (·.id == identity)))

theorem ranking_ok {standings : List Tables.Standing} (h : ∀ s ∈ standings, s.up.Whole ∧ s.down.Whole)
    (limit : ℕ) :
    Tables.ranking (.ok standings) limit =
      .ok (((standings.mergeSort Tables.Standing.precedes).take limit).map fun s =>
        ⟨s.identity, s.up.bytes, s.down.bytes⟩) := by
  unfold Tables.ranking
  split
  · rename_i hzero
    subst hzero
    rfl
  · apply mapM_eq_ok
    intro s hs
    have hmem : s ∈ standings :=
      (List.mergeSort_perm standings _).mem_iff.mp (List.mem_of_mem_take hs)
    obtain ⟨hup, hdown⟩ := h s hmem
    rw [Cell.count?_whole hup, Cell.count?_whole hdown]
    rfl

theorem topTotals_tallied {t : Tables} {first last : ℤ}
    (h : Tallied (t.windowed .traffic [] first last)) (limit : ℕ) :
    t.topTotals first last limit =
      .ok ((((t.standings first last).mergeSort Tables.Standing.precedes).take limit).map fun s =>
        ⟨s.identity, s.up.bytes, s.down.bytes⟩) := by
  have hwindow : (t.traffic.filter fun r => inWindow first last r.ts) ++
      (t.trafficBuckets.filter fun r => inWindow first last r.ts) =
      t.windowed .traffic [] first last := by
    rw [← List.filter_append]
    exact List.filter_congr fun r _ => (Bool.and_true _).symm
  have hstandings : (sortedKeys ((t.windowed .traffic [] first last).map (·.id))).mapM
      (fun identity => do
        Tables.standing identity
          (← Tables.sumOfSome ((t.traffic.filter fun r : Row => inWindow first last r.ts).filter
            (·.id == identity)))
          (← Tables.sumOfSome ((t.trafficBuckets.filter fun r : Row => inWindow first last r.ts).filter
            (·.id == identity)))) = .ok (t.standings first last) := by
    apply mapM_eq_ok
    intro identity _
    rw [standing_tallied, ← List.filter_append, hwindow]
    rw [← List.filter_append, hwindow]
    exact h.filter _
  have hwhole : ∀ s ∈ t.standings first last, s.up.Whole ∧ s.down.Whole := by
    intro s hs
    obtain ⟨identity, -, rfl⟩ := List.mem_map.mp hs
    exact ⟨Cell.ofCount_whole _, Cell.ofCount_whole _⟩
  unfold Tables.topTotals
  dsimp only
  rw [hwindow, hstandings, ranking_ok hwhole]
  rfl

end TrafficMeter.Store
