import TrafficMeter.Text.Blank
import TrafficMeter.Text.Number

/-!
Decimal numerals. `IsNumeral` says which texts are numerals and of which numbers, `Unsigned` and
`Signed` which signs may stand in front. The readers accept these texts and no others, and what is
written for a number reads back as that number.
-/

namespace TrafficMeter.Text

structure IsNumeral (text : List Char) (n : Nat) : Prop where
  nonempty : text ≠ []
  digits : ∀ c ∈ text, c.isDigit = true
  value : Nat.ofDigitChars 10 text 0 = n

inductive Unsigned : List Char → Nat → Prop
  | bare {text : List Char} {n : Nat} : IsNumeral text n → Unsigned text n
  | plus {text : List Char} {n : Nat} : IsNumeral text n → Unsigned ('+' :: text) n

inductive Signed : List Char → Int → Prop
  | bare {text : List Char} {n : Nat} : IsNumeral text n → Signed text n
  | plus {text : List Char} {n : Nat} : IsNumeral text n → Signed ('+' :: text) n
  | minus {text : List Char} {n : Nat} : IsNumeral text n → Signed ('-' :: text) (-n)

variable {text : List Char}

section Reading

variable {n : Nat}

theorem IsNumeral.head_isDigit {c : Char} (h : IsNumeral (c :: text) n) : c.isDigit = true :=
  h.digits c List.mem_cons_self

theorem digitIn?_ten (c : Char) :
    digitIn? 10 c = if c.isDigit then some (c.toNat - '0'.toNat) else none := by
  have hdigit : ('0' ≤ c ∧ c ≤ '9') ↔ c.isDigit = true := Char.isDigit_iff_toNat.symm
  unfold digitIn?
  simp only [hdigit]
  by_cases h : c.isDigit = true
  · obtain ⟨hlow, hhigh⟩ := Char.isDigit_iff_toNat.mp h
    have hsmall : c.toNat - '0'.toNat < 10 := by
      have : '9'.toNat = '0'.toNat + 9 := rfl
      omega
    rw [if_pos h, if_pos h, Option.filter_some, if_pos (decide_eq_true hsmall)]
  · rw [if_neg h, if_neg h]
    split
    · simp [Option.filter]
    · split <;> simp [Option.filter]

/-- The reader's loop: it goes on while there are digits, with the value of those it has read. -/
theorem foldlM_digitIn? (text : List Char) (value : Nat) :
    text.foldlM (fun value c => (digitIn? 10 c).map (value * 10 + ·)) value =
      if text.all Char.isDigit then some (Nat.ofDigitChars 10 text value) else none := by
  induction text generalizing value with
  | nil => rfl
  | cons c rest ih =>
    rw [List.foldlM_cons, digitIn?_ten, List.all_cons]
    by_cases h : c.isDigit = true
    · rw [if_pos h, h, Bool.true_and, Nat.ofDigitChars_cons, Nat.mul_comm 10 value]
      exact ih _
    · rw [if_neg h, Bool.eq_false_iff.mpr h]
      rfl

theorem natural?_eq_some_iff : natural? text = some n ↔ IsNumeral text n := by
  cases text with
  | nil => exact ⟨nofun, fun h => absurd rfl h.nonempty⟩
  | cons c rest =>
    have hread : natural? (c :: rest) =
        if (c :: rest).all Char.isDigit then some (Nat.ofDigitChars 10 (c :: rest) 0) else none :=
      foldlM_digitIn? (c :: rest) 0
    rw [hread]
    constructor
    · intro h
      split at h
      · next hdigits =>
        exact ⟨List.cons_ne_nil c rest, List.all_eq_true.mp hdigits, Option.some.inj h⟩
      · cases h
    · rintro ⟨-, hdigits, hvalue⟩
      rw [if_pos (List.all_eq_true.mpr hdigits), hvalue]

theorem unsigned?_eq_some_iff {limit : Nat} :
    unsigned? limit text = some n ↔ Unsigned text n ∧ n ≤ limit := by
  have hnumeral : ∀ digits : List Char,
      (naturalIn? 10 digits).filter (· ≤ limit) = some n ↔ IsNumeral digits n ∧ n ≤ limit := by
    intro digits
    rw [Option.filter_eq_some_iff, decide_eq_true_eq]
    exact and_congr_left' natural?_eq_some_iff
  unfold unsigned? unsignedIn?
  split
  · next digits =>
    rw [hnumeral]
    refine and_congr_left' ⟨.plus, fun h => ?_⟩
    cases h with
    | bare h => exact absurd h.head_isDigit (by decide)
    | plus h => exact h
  · next hsign =>
    rw [hnumeral]
    refine and_congr_left' ⟨.bare, fun h => ?_⟩
    cases h with
    | bare h => exact h
    | plus h => exact absurd rfl (hsign _)

theorem signed?_eq_some_iff {low high value : Int} :
    signed? low high text = some value ↔ Signed text value ∧ low ≤ value ∧ value ≤ high := by
  unfold signed?
  dsimp only
  rw [Option.filter_eq_some_iff, decide_eq_true_eq]
  refine and_congr_left' ?_
  split
  · next digits =>
    simp only [bind_pure_comp, Option.map_eq_map, Option.map_map, Option.map_eq_some_iff,
      natural?_eq_some_iff]
    constructor
    · rintro ⟨n, hn, rfl⟩
      exact .minus hn
    · intro h
      cases h with
      | bare h => exact absurd h.head_isDigit (by decide)
      | minus h => exact ⟨_, h, rfl⟩
  · next digits =>
    simp only [Option.map_eq_some_iff, natural?_eq_some_iff]
    constructor
    · rintro ⟨n, hn, rfl⟩
      exact .plus hn
    · intro h
      cases h with
      | bare h => exact absurd h.head_isDigit (by decide)
      | plus h => exact ⟨_, h, rfl⟩
  · next hminus hplus =>
    simp only [Option.map_eq_some_iff, natural?_eq_some_iff]
    constructor
    · rintro ⟨n, hn, rfl⟩
      exact .bare hn
    · intro h
      cases h with
      | bare h => exact ⟨_, h, rfl⟩
      | plus h => exact absurd rfl (hplus _)
      | minus h => exact absurd rfl (hminus _)

end Reading

section Writing

theorem isNumeral_repr (n : Nat) : IsNumeral n.repr.toList n where
  nonempty := by rw [Nat.toList_repr]; exact Nat.toDigits_ne_nil
  digits := by
    rw [Nat.toList_repr]
    exact fun c hc => Nat.isDigit_of_mem_toDigits (by decide) (by decide) hc
  value := by rw [Nat.toList_repr]; exact Nat.ofDigitChars_ten_toDigits

theorem isBlank_of_isDigit {c : Char} (h : c.isDigit = true) : isBlank c = false := by
  obtain ⟨hlow, hhigh⟩ := Char.isDigit_iff_toNat.mp h
  have hzero : '0'.toNat = 48 := rfl
  have hnine : '9'.toNat = 57 := rfl
  rw [Bool.eq_false_iff]
  intro hblank
  simp only [isBlank, Bool.or_eq_true, Bool.and_eq_true, decide_eq_true_eq, beq_iff_eq] at hblank
  omega

theorem unsigned_toString (n : Nat) : Unsigned (toString n).toList n := .bare (isNumeral_repr n)

theorem signed_toString (n : Int) : Signed (toString n).toList n := by
  rw [Int.toString_eq_repr, Int.repr_eq_if]
  split
  · next h =>
    have hread := Signed.bare (isNumeral_repr n.toNat)
    rwa [Int.toNat_of_nonneg h] at hread
  · next h =>
    have hread := Signed.minus (isNumeral_repr (-n).toNat)
    rw [Int.toNat_of_nonneg (by omega), Int.neg_neg] at hread
    rwa [String.toList_append]

theorem Signed.not_mem {n : Int} (h : Signed text n) {c : Char} (hdigit : c.isDigit = false)
    (hplus : c ≠ '+') (hminus : c ≠ '-') : c ∉ text := by
  have hfree : ∀ {digits : List Char} {m : Nat}, IsNumeral digits m → c ∉ digits :=
    fun hdigits hc => Bool.eq_false_iff.mp hdigit (hdigits.digits c hc)
  cases h with
  | bare h => exact hfree h
  | plus h => exact List.not_mem_cons_of_ne_of_not_mem hplus (hfree h)
  | minus h => exact List.not_mem_cons_of_ne_of_not_mem hminus (hfree h)

theorem Unsigned.signed {n : Nat} (h : Unsigned text n) : Signed text n := by
  cases h with
  | bare h => exact .bare h
  | plus h => exact .plus h

end Writing

end TrafficMeter.Text
