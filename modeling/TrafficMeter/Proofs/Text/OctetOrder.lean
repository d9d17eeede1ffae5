import Mathlib.Data.List.Lex
import Mathlib.Data.String.Basic

/-!
The order of texts. Texts are compared by their characters, and their UTF-8 octets compare in the
same way: a character with a larger code point starts with a larger octet, or first differs from a
smaller one in an octet that continues it.
-/

namespace TrafficMeter.Text

def continuation (v : ℕ) : UInt8 := .ofNat (v % 64 + 128)

def units (base : ℕ) : ℕ → ℕ → List UInt8
  | 0, v => [.ofNat (v + base)]
  | more + 1, v => units base more (v / 64) ++ [continuation v]

theorem ofNat_lt_ofNat {a b : ℕ} (h : a < b) (hb : b < 256) : UInt8.ofNat a < UInt8.ofNat b := by
  rw [UInt8.lt_iff_toNat_lt, UInt8.toNat_ofNat_of_lt' (h.trans hb), UInt8.toNat_ofNat_of_lt' hb]
  exact h

theorem append_lt_append {a b : List UInt8} (front : List UInt8) (h : a < b) :
    front ++ a < front ++ b := by
  induction front with
  | nil => exact h
  | cons x rest ih => exact List.cons_lt_cons_iff.mpr (Or.inr ⟨rfl, ih⟩)

/-- Code points with equally many octets compare like these, whatever follows. -/
theorem units_lt {base more : ℕ} {v w : ℕ} (h : v < w) (hw : w / 64 ^ more + base < 256)
    (xs ys : List UInt8) : units base more v ++ xs < units base more w ++ ys := by
  induction more generalizing v w xs ys with
  | zero =>
    rw [pow_zero, Nat.div_one] at hw
    exact List.cons_lt_cons_iff.mpr (Or.inl (ofNat_lt_ofNat (by omega) hw))
  | succ more ih =>
    rw [units, units, List.append_assoc, List.append_assoc]
    by_cases hhigh : v / 64 = w / 64
    · rw [hhigh]
      apply append_lt_append
      apply List.cons_lt_cons_iff.mpr
      left
      exact ofNat_lt_ofNat (by omega) (by omega)
    · apply ih
      · omega
      · rwa [Nat.div_div_eq_div_mul, ← pow_succ']

theorem units_eq_cons (base more v : ℕ) :
    ∃ rest, units base more v = .ofNat (v / 64 ^ more + base) :: rest := by
  induction more generalizing v with
  | zero => exact ⟨[], by rw [pow_zero, Nat.div_one]; rfl⟩
  | succ more ih =>
    obtain ⟨rest, hrest⟩ := ih (v / 64)
    refine ⟨rest ++ [continuation v], ?_⟩
    rw [units, hrest, Nat.div_div_eq_div_mul, ← pow_succ']
    rfl

theorem units_lt_of_lead {base base' more more' v w : ℕ}
    (h : v / 64 ^ more + base < w / 64 ^ more' + base') (hw : w / 64 ^ more' + base' < 256)
    (xs ys : List UInt8) : units base more v ++ xs < units base' more' w ++ ys := by
  obtain ⟨left, hleft⟩ := units_eq_cons base more v
  obtain ⟨right, hright⟩ := units_eq_cons base' more' w
  rw [hleft, hright]
  exact List.cons_lt_cons_iff.mpr (Or.inl (ofNat_lt_ofNat h hw))

theorem encode_eq_units (c : Char) :
    String.utf8EncodeChar c =
      if c.val.toNat < 128 then units 0 0 c.val.toNat
      else if c.val.toNat < 2048 then units 192 1 c.val.toNat
      else if c.val.toNat < 65536 then units 224 2 c.val.toNat
      else units 240 3 c.val.toNat := by
  have hmax : c.val.toNat < 1114112 := by
    rcases c.valid with h | h
    · omega
    · omega
  unfold String.utf8EncodeChar
  dsimp only
  generalize c.val.toNat = v at hmax
  simp only [units, continuation, ← Nat.lt_succ_iff, List.cons_append, List.nil_append,
    Nat.div_div_eq_div_mul, Nat.reduceMul, Nat.reduceSucc, Nat.add_zero]
  by_cases h₁ : v < 128
  · rw [if_pos h₁, if_pos h₁]
  · rw [if_neg h₁, if_neg h₁]
    by_cases h₂ : v < 2048
    · rw [if_pos h₂, if_pos h₂, Nat.mod_eq_of_lt (show v / 64 < 32 by omega)]
    · rw [if_neg h₂, if_neg h₂]
      by_cases h₃ : v < 65536
      · rw [if_pos h₃, if_pos h₃, Nat.mod_eq_of_lt (show v / 4096 < 16 by omega)]
      · rw [if_neg h₃, if_neg h₃, Nat.mod_eq_of_lt (show v / 262144 < 8 by omega)]

theorem encode_lt {c d : Char} (h : c < d) (xs ys : List UInt8) :
    String.utf8EncodeChar c ++ xs < String.utf8EncodeChar d ++ ys := by
  have hlt : c.val.toNat < d.val.toNat := h
  have hmax : d.val.toNat < 1114112 := by
    rcases d.valid with h | h
    · omega
    · omega
  rw [encode_eq_units, encode_eq_units]
  generalize c.val.toNat = v at hlt
  generalize d.val.toNat = w at hlt hmax
  split_ifs
  all_goals first
    | omega
    | exact units_lt hlt (by omega) xs ys
    | exact units_lt_of_lead (by omega) (by omega) xs ys

def utf8 (s : String) : List UInt8 := s.toUTF8.data.toList

theorem utf8_eq (s : String) : utf8 s = s.toList.flatMap String.utf8EncodeChar := by
  have h : s.toUTF8 = (s.toList.flatMap String.utf8EncodeChar).toByteArray := by
    conv_lhs => rw [← String.ofList_toList (s := s)]
    exact String.toByteArray_ofList
  rw [utf8, h, List.toList_data_toByteArray]

theorem flatMap_encode_lt {s t : List Char} (h : s < t) :
    s.flatMap String.utf8EncodeChar < t.flatMap String.utf8EncodeChar := by
  induction h with
  | nil =>
    rename_i d rest
    rw [List.flatMap_nil, List.flatMap_cons]
    cases hd : String.utf8EncodeChar d with
    | nil => exact absurd hd (String.utf8EncodeChar_ne_nil)
    | cons x xs => exact List.nil_lt_cons _ _
  | rel hlt =>
    rw [List.flatMap_cons, List.flatMap_cons]
    exact encode_lt hlt _ _
  | cons _ ih =>
    rw [List.flatMap_cons, List.flatMap_cons]
    exact append_lt_append _ ih

/-- Texts are in the order of their octets. -/
theorem lt_iff_utf8_lt (s t : String) : s < t ↔ utf8 s < utf8 t := by
  have hmono : ∀ {a b : String}, a < b → utf8 a < utf8 b := by
    intro a b h
    rw [utf8_eq, utf8_eq]
    exact flatMap_encode_lt (String.lt_iff_toList_lt.mp h)
  constructor
  · exact hmono
  · intro h
    rcases lt_trichotomy s t with hlt | heq | hgt
    · exact hlt
    · rw [heq] at h
      exact absurd h (List.lt_irrefl _)
    · exact absurd (hmono hgt) (List.lt_asymm h)

end TrafficMeter.Text
