import TrafficMeter.Proofs.Text.OctetOrder
import TrafficMeter.Text.Utf8

/-!
What lossy decoding shows. A character is shown where its encoding stands. Where none stands, the
octets that could still have begun one, or a single octet if that could not, are shown as one
replacement character. `Shown` says so without a decoder, and `decodeLossy` computes it.
-/

namespace TrafficMeter.Text.Utf8

open String (utf8EncodeChar)

/-- Octets where no character stands: one octet, or as many as begin the encoding of some character,
up to the first that does not go on with any such encoding. -/
structure IllFormed (stretch rest : List UInt8) : Prop where
  nonempty : stretch ≠ []
  broken : ∀ c, ¬ utf8EncodeChar c <+: stretch ++ rest
  begun : stretch.length = 1 ∨ ∃ c, stretch <+: utf8EncodeChar c
  longest : ∀ b ∈ rest.head?, ∀ c, ¬ stretch ++ [b] <+: utf8EncodeChar c

inductive Shown : List UInt8 → List Char → Prop
  | nothing : Shown [] []
  | char (c : Char) {rest : List UInt8} {shown : List Char} :
      Shown rest shown → Shown (utf8EncodeChar c ++ rest) (c :: shown)
  | illFormed {stretch rest : List UInt8} {shown : List Char} :
      IllFormed stretch rest → Shown rest shown → Shown (stretch ++ rest) ('\ufffd' :: shown)

inductive Encoding : List UInt8 → Prop
  | one {a : UInt8} : a.toNat < 128 → Encoding [a]
  | two {a b : UInt8} : 194 ≤ a.toNat → a.toNat ≤ 223 → continues b = true → Encoding [a, b]
  | three {a b x : UInt8} : 224 ≤ a.toNat → a.toNat ≤ 239 → startsWell a b = true →
      continues x = true → Encoding [a, b, x]
  | four {a b x y : UInt8} : 240 ≤ a.toNat → a.toNat ≤ 244 → startsWell a b = true →
      continues x = true → continues y = true → Encoding [a, b, x, y]

section Encodings

variable {a b x y : UInt8} {octets tail : List UInt8}

theorem continues_iff : continues b = true ↔ 128 ≤ b.toNat ∧ b.toNat ≤ 191 := by
  simp [continues, UInt8.le_iff_toNat_le]

theorem startsWell_iff : startsWell a b = true ↔ (128 ≤ b.toNat ∧ b.toNat ≤ 191) ∧
    (a.toNat = 224 → 160 ≤ b.toNat) ∧ (a.toNat = 237 → b.toNat ≤ 159) ∧
    (a.toNat = 240 → 144 ≤ b.toNat) ∧ (a.toNat = 244 → b.toNat ≤ 143) := by
  simp only [startsWell, continues, beq_iff_eq, ← UInt8.toNat_inj, UInt8.le_iff_toNat_le,
    UInt8.reduceToNat, apply_ite (· = true), Bool.and_eq_true, decide_eq_true_eq]
  split_ifs <;> omega

theorem continues_continuation (v : ℕ) : continues (continuation v) = true := by
  rw [continues_iff, continuation, UInt8.toNat_ofNat']
  omega

theorem toNat_ofNat_of_lt {n : ℕ} (h : n < 256) : (UInt8.ofNat n).toNat = n := by
  rw [UInt8.toNat_ofNat', Nat.mod_eq_of_lt h]

theorem encoding_encode (c : Char) : Encoding (utf8EncodeChar c) := by
  have hvalid : c.val.toNat < 55296 ∨ 57343 < c.val.toNat ∧ c.val.toNat < 1114112 := c.valid
  have hencode := encode_eq_units c
  generalize c.val.toNat = v at hvalid hencode
  simp only [units, List.cons_append, List.nil_append, Nat.div_div_eq_div_mul,
    Nat.reduceMul] at hencode
  rw [hencode]
  split_ifs
  · have hlead := toNat_ofNat_of_lt (show v + 0 < 256 by omega)
    exact .one (by omega)
  · have hlead := toNat_ofNat_of_lt (show v / 64 + 192 < 256 by omega)
    exact .two (by omega) (by omega) (continues_continuation _)
  · have hlead := toNat_ofNat_of_lt (show v / 4096 + 224 < 256 by omega)
    have hsecond := toNat_ofNat_of_lt (show v / 64 % 64 + 128 < 256 by omega)
    refine .three (by omega) (by omega) ?_ (continues_continuation _)
    rw [startsWell_iff, continuation, hlead, hsecond]
    omega
  · have hlead := toNat_ofNat_of_lt (show v / 262144 + 240 < 256 by omega)
    have hsecond := toNat_ofNat_of_lt (show v / 4096 % 64 + 128 < 256 by omega)
    refine .four (by omega) (by omega) ?_ (continues_continuation _) (continues_continuation _)
    rw [startsWell_iff, continuation, hlead, hsecond]
    omega

theorem units_payload {base more v : ℕ} (hb : continues b = true) :
    units base (more + 1) (v * 64 + payload b) = units base more v ++ [b] := by
  obtain ⟨hlow, hhigh⟩ := continues_iff.mp hb
  have hoctet : continuation (v * 64 + payload b) = b := by
    rw [continuation, payload, ← UInt8.toNat_inj, UInt8.toNat_ofNat']
    omega
  have hv : (v * 64 + payload b) / 64 = v := by
    unfold payload
    omega
  rw [units, hoctet, hv]

theorem units_lead {base : ℕ} (h : base ≤ a.toNat) : units base 0 (a.toNat - base) = [a] := by
  rw [units, Nat.sub_add_cancel h, UInt8.ofNat_toNat]

theorem encode_ofNat {v : ℕ} (h : v.isValidChar) :
    utf8EncodeChar (Char.ofNat v) =
      if v < 128 then units 0 0 v
      else if v < 2048 then units 192 1 v
      else if v < 65536 then units 224 2 v
      else units 240 3 v := by
  have hv : (Char.ofNat v).val.toNat = v := by
    rw [Char.ofNat, dif_pos h]
    rfl
  rw [encode_eq_units, hv]

theorem encode_one (h : a.toNat < 128) : utf8EncodeChar (Char.ofNat a.toNat) = [a] := by
  rw [encode_ofNat (by left; omega), if_pos h, ← units_lead (Nat.zero_le a.toNat), Nat.sub_zero]

theorem encode_two (hlow : 194 ≤ a.toNat) (hhigh : a.toNat ≤ 223) (hb : continues b = true) :
    utf8EncodeChar (Char.ofNat ((a.toNat - 192) * 64 + payload b)) = [a, b] := by
  have hrange : payload b < 64 := Nat.mod_lt _ (by decide)
  rw [encode_ofNat (by left; omega), if_neg (by omega), if_pos (by omega), units_payload hb,
    units_lead (by omega)]
  rfl

theorem encode_three (hlow : 224 ≤ a.toNat) (hhigh : a.toNat ≤ 239)
    (hb : startsWell a b = true) (hx : continues x = true) :
    utf8EncodeChar (Char.ofNat (((a.toNat - 224) * 64 + payload b) * 64 + payload x)) =
      [a, b, x] := by
  obtain ⟨hsecond, htight⟩ := startsWell_iff.mp hb
  have hpayload : payload b = b.toNat - 128 := by
    unfold payload
    omega
  have hrange : payload x < 64 := Nat.mod_lt _ (by decide)
  have hvalid : (((a.toNat - 224) * 64 + payload b) * 64 + payload x).isValidChar := by
    unfold Nat.isValidChar
    omega
  rw [encode_ofNat hvalid, if_neg (by omega), if_neg (by omega), if_pos (by omega),
    units_payload hx, units_payload (continues_iff.mpr hsecond), units_lead hlow]
  rfl

theorem encode_four (hlow : 240 ≤ a.toNat) (hhigh : a.toNat ≤ 244) (hb : startsWell a b = true)
    (hx : continues x = true) (hy : continues y = true) :
    utf8EncodeChar (Char.ofNat
      ((((a.toNat - 240) * 64 + payload b) * 64 + payload x) * 64 + payload y)) = [a, b, x, y] := by
  obtain ⟨hsecond, htight⟩ := startsWell_iff.mp hb
  have hpayload : payload b = b.toNat - 128 := by
    unfold payload
    omega
  have hthird : payload x < 64 := Nat.mod_lt _ (by decide)
  have hfourth : payload y < 64 := Nat.mod_lt _ (by decide)
  have hvalid : ((((a.toNat - 240) * 64 + payload b) * 64 + payload x) * 64 +
      payload y).isValidChar := by
    unfold Nat.isValidChar
    omega
  rw [encode_ofNat hvalid, if_neg (by omega), if_neg (by omega), if_neg (by omega),
    units_payload hy, units_payload hx, units_payload (continues_iff.mpr hsecond),
    units_lead hlow]
  rfl

theorem exists_prefix_two (hlow : 224 ≤ a.toNat) (hhigh : a.toNat ≤ 244)
    (hb : startsWell a b = true) : ∃ c, [a, b] <+: utf8EncodeChar c := by
  have hlast : continues 128 = true := by decide
  rcases Nat.lt_or_ge a.toNat 240 with h | h
  · exact ⟨_, [128], (encode_three hlow (by omega) hb hlast).symm⟩
  · exact ⟨_, [128, 128], (encode_four h hhigh hb hlast hlast).symm⟩

theorem exists_prefix_three (hlow : 240 ≤ a.toNat) (hhigh : a.toNat ≤ 244)
    (hb : startsWell a b = true) (hx : continues x = true) :
    ∃ c, [a, b, x] <+: utf8EncodeChar c :=
  ⟨_, [128], (encode_four hlow hhigh hb hx (by decide)).symm⟩

theorem Encoding.ne_nil (h : Encoding octets) : octets ≠ [] := by
  cases h <;> exact List.cons_ne_nil _ _

theorem Encoding.length (h : Encoding (a :: tail)) : (128 ≤ a.toNat → 1 ≤ tail.length) ∧
    (224 ≤ a.toNat → 2 ≤ tail.length) ∧ (240 ≤ a.toNat → 3 ≤ tail.length) := by
  cases h <;> simp only [List.length_cons, List.length_nil] <;> omega

theorem Encoding.second (h : Encoding (a :: b :: tail)) : (194 ≤ a.toNat ∧ a.toNat ≤ 244) ∧
    (a.toNat ≤ 223 → continues b = true) ∧ (224 ≤ a.toNat → startsWell a b = true) := by
  cases h with
  | two hlow hhigh hb => exact ⟨by omega, fun _ => hb, fun _ => by omega⟩
  | three hlow hhigh hb => exact ⟨by omega, fun _ => by omega, fun _ => hb⟩
  | four hlow hhigh hb => exact ⟨by omega, fun _ => by omega, fun _ => hb⟩

theorem Encoding.third (h : Encoding (a :: b :: x :: tail)) : continues x = true := by
  cases h with
  | three _ _ _ hx => exact hx
  | four _ _ _ hx => exact hx

theorem Encoding.fourth (h : Encoding (a :: b :: x :: y :: tail)) : continues y = true := by
  cases h with
  | four _ _ _ _ hy => exact hy

end Encodings

section Stretches

variable {a b x : UInt8} {tail rest : List UInt8}

/-- A stretch is ill-formed that ends before the number of octets that its first one asks for, where
what follows does not go on with it. -/
theorem IllFormed.of_short (hbegun : tail = [] ∨ ∃ c, a :: tail <+: utf8EncodeChar c)
    (hshort : ∀ more, Encoding (a :: more) → tail.length < more.length)
    (hnext : ∀ b ∈ rest.head?, ∀ more, ¬ Encoding (a :: tail ++ b :: more)) :
    IllFormed (a :: tail) rest where
  nonempty := List.cons_ne_nil a tail
  begun := hbegun.imp_left fun h => by rw [h]; rfl
  longest := by
    rintro b hb c ⟨more, hmore⟩
    rw [List.append_assoc] at hmore
    exact hnext b hb more (hmore ▸ encoding_encode c)
  broken := by
    rintro c ⟨after, hafter⟩
    have hc := encoding_encode c
    -- an encoding at the front would end with the stretch at the latest, or go on past it
    rcases List.append_eq_append_iff.mp hafter with ⟨inside, hinside, -⟩ | ⟨beyond, hencode, hrest⟩
    · cases hencode : utf8EncodeChar c with
      | nil => exact hc.ne_nil hencode
      | cons first more =>
        rw [hencode, List.cons_append] at hinside
        rw [hencode] at hc
        obtain ⟨rfl, rfl⟩ := List.cons.inj hinside
        have hlength := hshort more hc
        rw [List.length_append] at hlength
        omega
    · rw [hencode] at hc
      cases beyond with
      | nil =>
        rw [List.append_nil] at hc
        exact lt_irrefl _ (hshort tail hc)
      | cons b more => exact hnext b (by rw [hrest]; rfl) more hc

theorem illFormed_one (h : 128 ≤ a.toNat)
    (hnext : ∀ b ∈ rest.head?, ∀ more, ¬ Encoding (a :: b :: more)) : IllFormed [a] rest :=
  .of_short (Or.inl rfl) (fun _ hmore => hmore.length.1 h) hnext

theorem illFormed_lead (hlow : 224 ≤ a.toNat)
    (hnext : ∀ b ∈ rest.head?, startsWell a b = false) : IllFormed [a] rest := by
  refine illFormed_one (by omega) fun b hb more hmore => ?_
  exact Bool.eq_false_iff.mp (hnext b hb) (hmore.second.2.2 hlow)

theorem illFormed_two (hlow : 224 ≤ a.toNat) (hhigh : a.toNat ≤ 244) (hb : startsWell a b = true)
    (hnext : ∀ x ∈ rest.head?, continues x = false) : IllFormed [a, b] rest := by
  refine .of_short (Or.inr (exists_prefix_two hlow hhigh hb))
    (fun _ hmore => hmore.length.2.1 hlow) fun x hx more hmore => ?_
  exact Bool.eq_false_iff.mp (hnext x hx) hmore.third

theorem illFormed_three (hlow : 240 ≤ a.toNat) (hhigh : a.toNat ≤ 244)
    (hb : startsWell a b = true) (hx : continues x = true)
    (hnext : ∀ y ∈ rest.head?, continues y = false) : IllFormed [a, b, x] rest := by
  refine .of_short (Or.inr (exists_prefix_three hlow hhigh hb hx))
    (fun _ hmore => hmore.length.2.2 hlow) fun y hy more hmore => ?_
  exact Bool.eq_false_iff.mp (hnext y hy) hmore.fourth

def Heads (first : UInt8) (rest : List UInt8) : Option Char × ℕ → Prop
  | (some c, size) => first :: rest = utf8EncodeChar c ++ rest.drop size
  | (none, size) => IllFormed (first :: rest.take size) (rest.drop size)

theorem forall_head?_nil {p : UInt8 → Bool} : ∀ b ∈ ([] : List UInt8).head?, p b = false := nofun

theorem forall_head?_cons {p : UInt8 → Bool} (h : p b = false) :
    ∀ b' ∈ (b :: rest).head?, p b' = false :=
  fun _ hb' => Option.some.inj hb' ▸ h

theorem between_iff {n m : UInt8} : (n ≤ a && a ≤ m) = true ↔
    n.toNat ≤ a.toNat ∧ a.toNat ≤ m.toNat := by
  rw [Bool.and_eq_true, decide_eq_true_eq, decide_eq_true_eq, UInt8.le_iff_toNat_le,
    UInt8.le_iff_toNat_le]

theorem heads_one (h : a.toNat < 128) (rest : List UInt8) : Heads a rest (head a rest) := by
  unfold head
  simp only [UInt8.lt_iff_toNat_lt, UInt8.reduceToNat, if_pos h]
  change a :: rest = _ ++ rest
  rw [encode_one h]
  rfl

theorem heads_two (hlow : 194 ≤ a.toNat) (hhigh : a.toNat ≤ 223) (rest : List UInt8) :
    Heads a rest (head a rest) := by
  unfold head
  simp only [UInt8.lt_iff_toNat_lt, between_iff, UInt8.reduceToNat]
  rw [if_neg (by omega), if_pos ⟨hlow, hhigh⟩]
  cases rest with
  | nil => exact illFormed_one (by omega) nofun
  | cons b more =>
    dsimp only
    split
    · next hb =>
      change a :: b :: more = _ ++ more
      rw [encode_two hlow hhigh hb]
      rfl
    · next hb =>
      refine illFormed_one (by omega) fun b' hb' tail htail => hb ?_
      obtain rfl := Option.some.inj hb'
      exact htail.second.2.1 hhigh

theorem heads_three (hlow : 224 ≤ a.toNat) (hhigh : a.toNat ≤ 239) (rest : List UInt8) :
    Heads a rest (head a rest) := by
  unfold head
  simp only [UInt8.lt_iff_toNat_lt, between_iff, UInt8.reduceToNat]
  rw [if_neg (by omega), if_neg (by omega), if_pos ⟨hlow, hhigh⟩]
  rcases rest with _ | ⟨b, _ | ⟨x, more⟩⟩ <;> dsimp only
  · exact illFormed_lead hlow forall_head?_nil
  · cases hb : startsWell a b with
    | false => exact illFormed_lead hlow (forall_head?_cons hb)
    | true => exact illFormed_two hlow (by omega) hb forall_head?_nil
  · cases hb : startsWell a b with
    | false => exact illFormed_lead hlow (forall_head?_cons hb)
    | true =>
      cases hx : continues x with
      | false => exact illFormed_two hlow (by omega) hb (forall_head?_cons hx)
      | true =>
        change a :: b :: x :: more = _ ++ more
        rw [encode_three hlow hhigh hb hx]
        rfl

theorem heads_four (hlow : 240 ≤ a.toNat) (hhigh : a.toNat ≤ 244) (rest : List UInt8) :
    Heads a rest (head a rest) := by
  have hlead : 224 ≤ a.toNat := by omega
  unfold head
  simp only [UInt8.lt_iff_toNat_lt, between_iff, UInt8.reduceToNat]
  rw [if_neg (by omega), if_neg (by omega), if_neg (by omega), if_pos ⟨hlow, hhigh⟩]
  rcases rest with _ | ⟨b, _ | ⟨x, _ | ⟨y, more⟩⟩⟩ <;> dsimp only
  · exact illFormed_lead hlead forall_head?_nil
  · cases hb : startsWell a b with
    | false => exact illFormed_lead hlead (forall_head?_cons hb)
    | true => exact illFormed_two hlead hhigh hb forall_head?_nil
  · cases hb : startsWell a b with
    | false => exact illFormed_lead hlead (forall_head?_cons hb)
    | true =>
      cases hx : continues x with
      | false => exact illFormed_two hlead hhigh hb (forall_head?_cons hx)
      | true => exact illFormed_three hlow hhigh hb hx forall_head?_nil
  · cases hb : startsWell a b with
    | false => exact illFormed_lead hlead (forall_head?_cons hb)
    | true =>
      cases hx : continues x with
      | false => exact illFormed_two hlead hhigh hb (forall_head?_cons hx)
      | true =>
        cases hy : continues y with
        | false => exact illFormed_three hlow hhigh hb hx (forall_head?_cons hy)
        | true =>
          change a :: b :: x :: y :: more = _ ++ more
          rw [encode_four hlow hhigh hb hx hy]
          rfl

theorem heads_stray (h : 128 ≤ a.toNat) (hstray : a.toNat < 194 ∨ 244 < a.toNat)
    (rest : List UInt8) : Heads a rest (head a rest) := by
  unfold head
  simp only [UInt8.lt_iff_toNat_lt, between_iff, UInt8.reduceToNat]
  rw [if_neg (by omega), if_neg (by omega), if_neg (by omega), if_neg (by omega)]
  refine illFormed_one h fun b _ more hmore => ?_
  have hrange := hmore.second.1
  omega

theorem heads_head (a : UInt8) (rest : List UInt8) : Heads a rest (head a rest) := by
  rcases Nat.lt_or_ge a.toNat 128 with hone | hmore
  · exact heads_one hone rest
  by_cases hstray : a.toNat < 194 ∨ 244 < a.toNat
  · exact heads_stray hmore hstray rest
  rcases Nat.lt_or_ge a.toNat 224 with htwo | hmore
  · exact heads_two (by omega) (by omega) rest
  rcases Nat.lt_or_ge a.toNat 240 with hthree | hfour
  · exact heads_three hmore (by omega) rest
  · exact heads_four hfour (by omega) rest

end Stretches

section Decoding

variable {octets stretch rest : List UInt8} {shown : List Char} {c d : Char}

def display (units : List (Option Char)) : List Char := units.map (·.getD '\ufffd')

theorem shown_scan (octets : List UInt8) : Shown octets (display (scan octets)) := by
  fun_induction scan octets with
  | case1 => exact .nothing
  | case2 first rest unit size hhead ih =>
    have hheads := heads_head first rest
    rw [hhead] at hheads
    cases unit with
    | some c =>
      rw [show first :: rest = _ from hheads]
      exact .char c ih
    | none =>
      have hwhole : first :: rest = first :: rest.take size ++ rest.drop size :=
        congrArg (first :: ·) (List.take_append_drop size rest).symm
      rw [hwhole]
      exact .illFormed hheads ih

theorem encode_append_inj {xs ys : List UInt8}
    (h : utf8EncodeChar c ++ xs = utf8EncodeChar d ++ ys) : c = d ∧ xs = ys := by
  rcases lt_trichotomy c d with hlt | rfl | hlt
  · exact absurd (h ▸ encode_lt hlt xs ys) (List.lt_irrefl _)
  · exact ⟨rfl, List.append_cancel_left h⟩
  · exact absurd (h ▸ encode_lt hlt ys xs) (List.lt_irrefl _)

theorem IllFormed.not_shorter {other after : List UInt8} (h : IllFormed stretch rest)
    (ho : IllFormed other after) (heq : stretch ++ rest = other ++ after) :
    other.length ≤ stretch.length := by
  rcases List.append_eq_append_iff.mp heq with ⟨more, hother, hrest⟩ | ⟨more, hstretch, -⟩
  · cases more with
    | nil => rw [hother, List.append_nil]
    | cons b more =>
      have hpos := List.length_pos_iff.mpr h.nonempty
      rcases ho.begun with hone | ⟨c, hc⟩
      · rw [hother, List.length_append, List.length_cons] at hone
        omega
      · have hnext : stretch ++ [b] <+: other := ⟨more, by rw [hother, List.append_assoc]; rfl⟩
        exact absurd (hnext.trans hc) (h.longest b (by rw [hrest]; rfl) c)
  · rw [hstretch, List.length_append]
    exact Nat.le_add_right _ _

theorem IllFormed.unique {other after : List UInt8} (h : IllFormed stretch rest)
    (ho : IllFormed other after) (heq : stretch ++ rest = other ++ after) :
    stretch = other ∧ rest = after :=
  List.append_inj heq (le_antisymm (ho.not_shorter h heq.symm) (h.not_shorter ho heq))

theorem Shown.unique {other : List Char} (h : Shown octets shown) (ho : Shown octets other) :
    shown = other := by
  induction h generalizing other with
  | nothing =>
    generalize hoctets : [] = octets at ho
    cases ho with
    | nothing => rfl
    | char d _ => exact absurd (List.append_eq_nil_iff.mp hoctets.symm).1 (encoding_encode d).ne_nil
    | illFormed hother _ => exact absurd (List.append_eq_nil_iff.mp hoctets.symm).1 hother.nonempty
  | @char c rest shown _ ih =>
    generalize hoctets : utf8EncodeChar c ++ rest = octets at ho
    cases ho with
    | nothing =>
      exact absurd (List.append_eq_nil_iff.mp hoctets).1 (encoding_encode c).ne_nil
    | char d hrest =>
      obtain ⟨rfl, rfl⟩ := encode_append_inj hoctets
      rw [ih hrest]
    | illFormed hother _ => exact absurd ⟨rest, hoctets⟩ (hother.broken c)
  | @illFormed stretch rest shown hstretch _ ih =>
    generalize hoctets : stretch ++ rest = octets at ho
    cases ho with
    | nothing => exact absurd (List.append_eq_nil_iff.mp hoctets).1 hstretch.nonempty
    | @char d after _ _ => exact absurd ⟨after, hoctets.symm⟩ (hstretch.broken d)
    | illFormed hother hrest =>
      obtain ⟨rfl, rfl⟩ := hstretch.unique hother hoctets
      rw [ih hrest]

/-- Lossy decoding is what octets are shown as. -/
theorem decodeLossy_eq_iff {text : String} :
    decodeLossy octets = text ↔ Shown octets text.toList := by
  have hscan := shown_scan octets
  have hdecode : (decodeLossy octets).toList = display (scan octets) := String.toList_ofList
  rw [← String.toList_inj, hdecode]
  constructor
  · intro h
    exact h ▸ hscan
  · exact hscan.unique

end Decoding

end TrafficMeter.Text.Utf8
