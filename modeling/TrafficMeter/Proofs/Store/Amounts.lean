import TrafficMeter.Proofs.Rounding
import TrafficMeter.Store.Row

/-!
Amounts as natural numbers. A whole cell holds a byte count that fits an integer column; on whole
cells the stored arithmetic is that of the naturals as long as results fit. `moved` is what a list
of rows holds, both ways at once.
-/

namespace TrafficMeter.Store

namespace Cell

def bytes (c : Cell) : ℕ := c.value.toNat

/-- Holds a byte count that fits an integer column. -/
def Whole (c : Cell) : Prop := c = ofCount c.bytes

instance (c : Cell) : Decidable c.Whole := inferInstanceAs (Decidable (_ = _))

theorem ofCount_of_le {n : ℕ} (h : (n : ℤ) ≤ maxTime) : ofCount n = .int n := by
  simp [ofCount, h]

theorem bytes_ofCount (n : ℕ) : (ofCount n).bytes = min n maxTime.toNat := by
  simp only [bytes, ofCount, value, maxTime]
  omega

theorem bytes_ofCount_of_le {n : ℕ} (h : (n : ℤ) ≤ maxTime) : (ofCount n).bytes = n := by
  simp [ofCount_of_le h, bytes, value]

theorem ofCount_whole (n : ℕ) : (ofCount n).Whole := by
  unfold Whole
  rw [bytes_ofCount]
  simp only [ofCount, maxTime, Cell.int.injEq]
  omega

theorem Whole.bytes_le {c : Cell} (h : c.Whole) : (c.bytes : ℤ) ≤ maxTime := by
  have hb := congrArg bytes h
  rw [bytes_ofCount] at hb
  simp only [maxTime] at hb ⊢
  omega

theorem Whole.eq_int {c : Cell} (h : c.Whole) : c = .int c.bytes :=
  h.trans (ofCount_of_le h.bytes_le)

theorem Whole.value_eq {c : Cell} (h : c.Whole) : c.value = c.bytes := by
  rw [h.eq_int]
  simp [bytes, value]

theorem count?_whole {c : Cell} (h : c.Whole) : c.count? = .ok c.bytes := by
  rw [h.eq_int]
  rfl

theorem fitsColumn_iff {n : ℤ} : fitsColumn n = true ↔ minTime ≤ n ∧ n ≤ maxTime := by
  simp [fitsColumn]

private theorem fitsColumn_natCast {n : ℕ} (h : (n : ℤ) ≤ maxTime) : fitsColumn n = true := by
  refine fitsColumn_iff.mpr ⟨?_, h⟩
  unfold minTime
  omega

theorem roundDouble_natCast (n : ℕ) : roundDouble n = roundMagnitude n := by
  simp [roundDouble]

theorem Whole.not_real {c : Cell} (h : c.Whole) : c.isReal = false := by
  rw [h.eq_int]
  rfl

/-- Counts add up exactly within the column range; past it, or if one is real already, their sum is
rounded, as each of them is before. -/
theorem add_cases {a b : Cell} (ha : a.value = a.bytes) (hb : b.value = b.bytes) :
    ((a.bytes + b.bytes : ℕ) ≤ maxTime ∧ a.add b = .int (a.bytes + b.bytes : ℕ)) ∨
      ((a.isReal = true ∨ b.isReal = true ∨ maxTime < (a.bytes + b.bytes : ℕ)) ∧ a.add b =
        .real (roundMagnitude (roundMagnitude a.bytes + roundMagnitude b.bytes) : ℕ)) := by
  have hround : Cell.real (roundDouble (roundDouble a.value + roundDouble b.value)) =
      .real (roundMagnitude (roundMagnitude a.bytes + roundMagnitude b.bytes) : ℕ) := by
    rw [ha, hb, roundDouble_natCast, roundDouble_natCast, ← Int.natCast_add, roundDouble_natCast]
  cases a with
  | real m => exact Or.inr ⟨Or.inl rfl, hround⟩
  | int m =>
    cases b with
    | real n => exact Or.inr ⟨Or.inr (Or.inl rfl), hround⟩
    | int n =>
      have hm : m = (int m).bytes := ha
      have hn : n = (int n).bytes := hb
      have hsum : m + n = ((int m).bytes + (int n).bytes : ℕ) := by omega
      by_cases hf : fitsColumn (m + n) = true
      · left
        rw [add_int hf, ← hsum]
        exact ⟨(fitsColumn_iff.mp hf).2, rfl⟩
      · right
        constructor
        · right
          right
          rw [fitsColumn_iff] at hf
          unfold minTime at hf
          omega
        · rw [← hround]
          exact if_neg hf

theorem add_whole {a b : Cell} (ha : a.Whole) (hb : b.Whole)
    (h : ((a.bytes + b.bytes : ℕ) : ℤ) ≤ maxTime) : a.add b = ofCount (a.bytes + b.bytes) := by
  rw [ofCount_of_le h]
  rcases add_cases ha.value_eq hb.value_eq with ⟨-, he⟩ | ⟨hr | hr | hr, -⟩
  · exact he
  · rw [ha.not_real] at hr
    cases hr
  · rw [hb.not_real] at hr
    cases hr
  · omega

theorem add_value_pos {a b : Cell} (ha : a.Whole) (hb : b.Whole) :
    0 < (a.add b).value ↔ 0 < a.bytes + b.bytes := by
  rcases add_cases ha.value_eq hb.value_eq with ⟨-, he⟩ | ⟨-, he⟩
  · rw [he, value]
    omega
  · have hpos : ∀ {n : ℕ}, 0 < n → 0 < roundMagnitude n := fun {n} hn =>
      two_pow_le_roundMagnitude (show 2 ^ 0 ≤ n from hn)
    rw [he, value, Int.natCast_pos]
    constructor
    · intro h
      by_contra hzero
      have hab : a.bytes = 0 ∧ b.bytes = 0 := by omega
      rw [hab.1, hab.2] at h
      cases h
    · intro h
      apply hpos
      rcases Nat.eq_zero_or_pos a.bytes with hz | hp
      · exact Nat.add_pos_right _ (hpos (by omega))
      · exact Nat.add_pos_left (hpos hp) _

theorem sub_whole {a b : Cell} (ha : a.Whole) (hb : b.Whole) :
    b.sub a = .int ((b.bytes : ℤ) - a.bytes) := by
  have la := ha.bytes_le
  have lb := hb.bytes_le
  have hf : fitsColumn ((b.bytes : ℤ) - a.bytes) = true := by
    rw [fitsColumn_iff]
    unfold minTime maxTime at *
    omega
  conv_lhs => rw [hb.eq_int, ha.eq_int]
  simp [sub, arith, hf]

theorem growth_whole {a b : Cell} (ha : a.Whole) (hb : b.Whole) :
    a.growth b = ofCount (b.bytes - a.bytes) := by
  have lb := hb.bytes_le
  have hr : ((b.bytes - a.bytes : ℕ) : ℤ) ≤ maxTime := by omega
  rw [ofCount_of_le hr]
  simp only [growth, sub_whole ha hb, value]
  split
  · simp only [Cell.int.injEq]; omega
  · simp only [Cell.int.injEq]; omega

theorem sum_value {cells : List Cell} (hw : ∀ c ∈ cells, c.value = c.bytes) :
    (cells.foldr (fun c total => c.value + total) 0 : ℤ) = ((cells.map bytes).sum : ℕ) := by
  induction cells with
  | nil => rfl
  | cons c rest ih =>
    have hc := hw c List.mem_cons_self
    have hr := ih fun d hd => hw d (List.mem_cons_of_mem c hd)
    rw [List.foldr_cons, hr, hc, List.map_cons, List.sum_cons, Int.natCast_add]

theorem sum_whole {cells : List Cell} (hw : ∀ c ∈ cells, c.Whole)
    (h : (((cells.map bytes).sum : ℕ) : ℤ) ≤ maxTime) :
    sum cells = .ok (ofCount (cells.map bytes).sum) := by
  have hi : cells.any isReal = false := by
    rw [List.any_eq_false]
    intro c hc
    simp [(hw c hc).not_real]
  have hfits := fitsColumn_natCast h
  rw [ofCount_of_le h]
  unfold sum
  dsimp only
  rw [sum_value fun c hc => (hw c hc).value_eq, hi, hfits]
  rfl

end Cell

namespace Row

def bytes (r : Row) : ℕ × ℕ := (r.up.bytes, r.down.bytes)

def Whole (r : Row) : Prop := r.up.Whole ∧ r.down.Whole

instance (r : Row) : Decidable r.Whole := inferInstanceAs (Decidable (_ ∧ _))

end Row

def Storable (amount : ℕ × ℕ) : Prop := (amount.1 : ℤ) ≤ maxTime ∧ (amount.2 : ℤ) ≤ maxTime

instance (amount : ℕ × ℕ) : Decidable (Storable amount) := inferInstanceAs (Decidable (_ ∧ _))

theorem Storable.mono {a b : ℕ × ℕ} (h : Storable b) (hab : a ≤ b) : Storable a := by
  obtain ⟨h₁, h₂⟩ := hab
  unfold Storable at *
  omega

theorem Row.Whole.storable {r : Row} (h : r.Whole) : Storable r.bytes :=
  ⟨h.1.bytes_le, h.2.bytes_le⟩

def moved (rows : List Row) : ℕ × ℕ := (rows.map Row.bytes).sum

@[simp] theorem moved_nil : moved [] = 0 := rfl

@[simp] theorem moved_cons (r : Row) (rows : List Row) : moved (r :: rows) = r.bytes + moved rows := by
  simp [moved]

@[simp] theorem moved_append (a b : List Row) : moved (a ++ b) = moved a + moved b := by
  simp [moved]

theorem moved_perm {a b : List Row} (h : a.Perm b) : moved a = moved b :=
  (h.map Row.bytes).sum_eq

theorem moved_fst (rows : List Row) : (moved rows).1 = ((rows.map (·.up)).map Cell.bytes).sum := by
  induction rows with
  | nil => rfl
  | cons r rest ih => simp [Row.bytes, ih]

theorem moved_snd (rows : List Row) :
    (moved rows).2 = ((rows.map (·.down)).map Cell.bytes).sum := by
  induction rows with
  | nil => rfl
  | cons r rest ih => simp [Row.bytes, ih]

theorem moved_filter_add (rows : List Row) (p : Row → Bool) :
    moved (rows.filter p) + moved (rows.filter fun r => !p r) = moved rows := by
  rw [← moved_append]
  exact moved_perm (List.filter_append_perm p rows)

theorem moved_filter_le (rows : List Row) (p : Row → Bool) : moved (rows.filter p) ≤ moved rows := by
  rw [← moved_filter_add rows p]
  exact le_self_add

theorem bytes_le_moved {r : Row} {rows : List Row} (h : r ∈ rows) : r.bytes ≤ moved rows := by
  obtain ⟨a, b, rfl⟩ := List.append_of_mem h
  simp only [moved_append, moved_cons]
  exact le_add_left le_self_add

theorem Storable.left {a b : List Row} (h : Storable (moved (a ++ b))) : Storable (moved a) := by
  rw [moved_append] at h
  exact h.mono le_self_add

theorem Storable.right {a b : List Row} (h : Storable (moved (a ++ b))) : Storable (moved b) := by
  rw [moved_append] at h
  exact h.mono le_add_self

/-- Rows whose amounts are whole and together fit an integer column. -/
structure Tallied (rows : List Row) : Prop where
  whole : ∀ r ∈ rows, r.Whole
  storable : Storable (moved rows)

theorem Tallied.filter {rows : List Row} (h : Tallied rows) (p : Row → Bool) :
    Tallied (rows.filter p) :=
  ⟨fun r hr => h.whole r (List.mem_filter.mp hr).1, h.storable.mono (moved_filter_le rows p)⟩

theorem Tallied.perm {a b : List Row} (h : Tallied a) (hp : a.Perm b) : Tallied b :=
  ⟨fun r hr => h.whole r (hp.mem_iff.mpr hr), moved_perm hp ▸ h.storable⟩

theorem Tallied.left {a b : List Row} (h : Tallied (a ++ b)) : Tallied a :=
  ⟨fun r hr => h.whole r (List.mem_append_left b hr), h.storable.left⟩

theorem Tallied.right {a b : List Row} (h : Tallied (a ++ b)) : Tallied b :=
  ⟨fun r hr => h.whole r (List.mem_append_right a hr), h.storable.right⟩

theorem Tallied.sum_up {rows : List Row} (h : Tallied rows) :
    Cell.sum (rows.map (·.up)) = .ok (.ofCount (moved rows).1) := by
  rw [moved_fst]
  refine Cell.sum_whole ?_ (moved_fst rows ▸ h.storable.1)
  intro c hc
  obtain ⟨r, hr, rfl⟩ := List.mem_map.mp hc
  exact (h.whole r hr).1

theorem Tallied.sum_down {rows : List Row} (h : Tallied rows) :
    Cell.sum (rows.map (·.down)) = .ok (.ofCount (moved rows).2) := by
  rw [moved_snd]
  refine Cell.sum_whole ?_ (moved_snd rows ▸ h.storable.2)
  intro c hc
  obtain ⟨r, hr, rfl⟩ := List.mem_map.mp hc
  exact (h.whole r hr).2

namespace Row

theorem absorb_whole {r s : Row} (hr : r.Whole) (hs : s.Whole) (h : Storable (r.bytes + s.bytes)) :
    (r.absorb s).Whole ∧ (r.absorb s).bytes = r.bytes + s.bytes := by
  have hu := Cell.add_whole hr.1 hs.1 h.1
  have hd := Cell.add_whole hr.2 hs.2 h.2
  refine ⟨⟨?_, ?_⟩, ?_⟩
  · simp only [absorb, hu]
    exact Cell.ofCount_whole _
  · simp only [absorb, hd]
    exact Cell.ofCount_whole _
  · have eu := Cell.bytes_ofCount_of_le h.1
    have ed := Cell.bytes_ofCount_of_le h.2
    simp only [bytes, Prod.fst_add, Prod.snd_add] at eu ed
    simp only [bytes, absorb, hu, hd, eu, ed, Prod.mk_add_mk]

end Row

end TrafficMeter.Store
