import TrafficMeter.Proofs.Text.Blanks
import TrafficMeter.Proofs.Text.LossyUtf8
import TrafficMeter.Sampler.LogWatcher

/-!
The identity that a line of the log names. It is the word that follows the leftmost occurrence of
the marker at once, up to the next blank or the end of the line. Later occurrences do not count, not
even where no word follows the first.
-/

namespace TrafficMeter

variable {marker line after rest token : List UInt8} {a : UInt8}

/-- The line holds the marker between `before` and `after`, and nowhere further left. Occurrences
may overlap. -/
structure FirstMarked (marker line before after : List UInt8) : Prop where
  split : line = before ++ marker ++ after
  leftmost : ∀ earlier later, line = earlier ++ marker ++ later → before.length ≤ earlier.length

theorem firstMarked_of_prefix (h : line = marker ++ after) : FirstMarked marker line [] after where
  split := h
  leftmost _ _ _ := Nat.zero_le _

theorem firstMarked_cons {before : List UInt8} (h : ¬ marker <+: a :: line) :
    FirstMarked marker (a :: line) before after ↔
      ∃ inner, before = a :: inner ∧ FirstMarked marker line inner after := by
  constructor
  · rintro ⟨hsplit, hleftmost⟩
    cases before with
    | nil => exact absurd ⟨after, hsplit.symm⟩ h
    | cons b inner =>
      obtain ⟨rfl, hline⟩ := List.cons.inj hsplit
      refine ⟨inner, rfl, hline, fun earlier later heq => ?_⟩
      have hshifted := hleftmost (a :: earlier) later (congrArg (a :: ·) heq)
      exact Nat.le_of_succ_le_succ hshifted
  · rintro ⟨inner, rfl, hline, hleftmost⟩
    refine ⟨congrArg (a :: ·) hline, fun earlier later heq => ?_⟩
    cases earlier with
    | nil => exact absurd ⟨later, heq.symm⟩ h
    | cons b earlier => exact Nat.succ_le_succ (hleftmost earlier later (List.cons.inj heq).2)

theorem FirstMarked.of_prefix {before : List UInt8} (h : FirstMarked marker line before after)
    (hp : marker <+: line) : line = marker ++ after := by
  obtain ⟨later, hlater⟩ := hp
  have hlength := h.leftmost [] later hlater.symm
  obtain rfl := List.eq_nil_of_length_eq_zero (Nat.le_zero.mp hlength)
  exact h.split

theorem afterMarker?_eq_some_iff :
    afterMarker? marker line = some after ↔ ∃ before, FirstMarked marker line before after := by
  induction line with
  | nil =>
    rw [afterMarker?]
    constructor
    · intro h
      split at h
      · next hempty =>
        obtain rfl := List.isEmpty_iff.mp hempty
        exact ⟨[], firstMarked_of_prefix (Option.some.inj h)⟩
      · cases h
    · rintro ⟨before, hsplit, -⟩
      obtain ⟨hmarked, rfl⟩ := List.append_eq_nil_iff.mp hsplit.symm
      obtain ⟨-, rfl⟩ := List.append_eq_nil_iff.mp hmarked
      rfl
  | cons a line ih =>
    rw [afterMarker?]
    by_cases hp : marker <+: a :: line
    · rw [if_pos (List.isPrefixOf_iff_prefix.mpr hp)]
      constructor
      · intro h
        refine ⟨[], firstMarked_of_prefix ?_⟩
        rw [← Option.some.inj h]
        exact (List.prefix_iff_eq_append.mp hp).symm
      · rintro ⟨before, hmarked⟩
        rw [hmarked.of_prefix hp, List.drop_left]
    · rw [if_neg (mt List.isPrefixOf_iff_prefix.mp hp), ih]
      simp only [firstMarked_cons hp]
      constructor
      · rintro ⟨inner, hmarked⟩
        exact ⟨a :: inner, inner, rfl, hmarked⟩
      · rintro ⟨_, inner, -, hmarked⟩
        exact ⟨inner, hmarked⟩

theorem takeWhile_eq_iff : after.takeWhile (fun b => !Text.isAsciiBlank b) = token ↔
    ∃ rest, after = token ++ rest ∧ (∀ b ∈ token, b ∉ Text.asciiBlanks) ∧
      ∀ b ∈ rest.head?, b ∈ Text.asciiBlanks := by
  simp only [← Text.isAsciiBlank_iff, Bool.not_eq_true]
  constructor
  · rintro rfl
    refine ⟨_, List.takeWhile_append_dropWhile.symm, fun b hb => ?_, fun b hb => ?_⟩
    · simpa using List.mem_takeWhile_imp hb
    · simpa using Text.head?_dropWhile _ after b hb
  · rintro ⟨rest, rfl, htoken, hrest⟩
    apply Text.takeWhile_run
    · intro b hb
      rw [htoken b hb]
      rfl
    · intro b hb
      rw [hrest b hb]
      rfl

theorem identityIn?_eq_some_iff {identity : String} :
    identityIn? marker line = some identity ↔ marker ≠ [] ∧ ∃ before after,
      FirstMarked marker line before after ∧ ∃ token ≠ [],
        after.takeWhile (fun b => !Text.isAsciiBlank b) = token ∧
          Text.Utf8.decodeLossy token = identity := by
  unfold identityIn?
  by_cases hm : marker = []
  · rw [if_pos (List.isEmpty_iff.mpr hm)]
    exact ⟨nofun, fun h => absurd hm h.1⟩
  rw [if_neg (mt List.isEmpty_iff.mp hm)]
  cases hfound : afterMarker? marker line with
  | none =>
    refine ⟨nofun, fun ⟨_, before, after, hmarked, _⟩ => ?_⟩
    cases hfound.symm.trans (afterMarker?_eq_some_iff.mpr ⟨before, hmarked⟩)
  | some found =>
    dsimp only
    constructor
    · intro h
      obtain ⟨before, hmarked⟩ := afterMarker?_eq_some_iff.mp hfound
      split at h
      · cases h
      · next hword =>
        exact ⟨hm, before, found, hmarked, _, mt List.isEmpty_iff.mpr hword, rfl,
          Option.some.inj h⟩
    · rintro ⟨-, before, after, hmarked, token, hne, hword, hshown⟩
      have hafter := afterMarker?_eq_some_iff.mpr ⟨before, hmarked⟩
      obtain rfl := Option.some.inj (hfound.symm.trans hafter)
      rw [hword, if_neg (mt List.isEmpty_iff.mp hne), hshown]

theorem identityIn?_eq_none (h : marker = [] ∨ ¬ marker <:+: line) :
    identityIn? marker line = none := by
  refine Option.eq_none_iff_forall_ne_some.mpr fun identity hsome => ?_
  obtain ⟨hm, before, after, hmarked, -⟩ := identityIn?_eq_some_iff.mp hsome
  rcases h with hempty | hmissing
  · exact hm hempty
  · exact hmissing ⟨before, after, hmarked.split.symm⟩

/-- A line names the word right after the leftmost marker, and no other: none where the marker is
empty or missing, or where a blank or the end of the line follows it. The word is shown as text by
lossy decoding. -/
theorem identity_after_first_marker (marker line : List UInt8) :
    (∀ identity, identityIn? marker line = some identity ↔ marker ≠ [] ∧
      ∃ before token rest, line = before ++ marker ++ token ++ rest ∧
        (∀ earlier later, line = earlier ++ marker ++ later → before.length ≤ earlier.length) ∧
        token ≠ [] ∧ (∀ b ∈ token, b ∉ Text.asciiBlanks) ∧
        (∀ b ∈ rest.head?, b ∈ Text.asciiBlanks) ∧
        Text.Utf8.decodeLossy token = identity ∧ Text.Utf8.Shown token identity.toList) ∧
    (marker = [] ∨ ¬ marker <:+: line → identityIn? marker line = none) := by
  refine ⟨fun identity => ?_, identityIn?_eq_none⟩
  rw [identityIn?_eq_some_iff]
  refine and_congr_right' ⟨?_, ?_⟩
  · rintro ⟨before, after, ⟨hsplit, hleftmost⟩, token, hne, hword, hshown⟩
    obtain ⟨rest, rfl, htoken, hrest⟩ := takeWhile_eq_iff.mp hword
    rw [← List.append_assoc] at hsplit
    exact ⟨before, token, rest, hsplit, hleftmost, hne, htoken, hrest, hshown,
      Text.Utf8.decodeLossy_eq_iff.mp hshown⟩
  · rintro ⟨before, token, rest, hsplit, hleftmost, hne, htoken, hrest, hshown, -⟩
    rw [List.append_assoc] at hsplit
    exact ⟨before, token ++ rest, ⟨hsplit, hleftmost⟩, token, hne,
      takeWhile_eq_iff.mpr ⟨rest, rfl, htoken, hrest⟩, hshown⟩

/-- The marker `aa` at two places that overlap and once more after a blank; an octet that no text
holds ends the first word. -/
def overlappingLine : List UInt8 := [98, 97, 97, 97, 255, 32, 97, 97, 98]

theorem identity_after_first_marker_of_overlapping :
    identityIn? [97, 97] overlappingLine = some "a\ufffd" ∧
    (∃ before token rest, overlappingLine = before ++ [97, 97] ++ token ++ rest ∧
      (∀ earlier later, overlappingLine = earlier ++ [97, 97] ++ later →
        before.length ≤ earlier.length) ∧
      token ≠ [] ∧ Text.Utf8.Shown token "a\ufffd".toList) ∧
    ¬ [98, 98] <:+: overlappingLine ∧ identityIn? [98, 98] overlappingLine = none := by
  have hnamed : identityIn? [97, 97] overlappingLine = some "a\ufffd" := by decide +kernel
  have hmissing : ¬ [98, 98] <:+: overlappingLine := by decide
  obtain ⟨hfound, -⟩ := identity_after_first_marker [97, 97] overlappingLine
  obtain ⟨-, hnone⟩ := identity_after_first_marker [98, 98] overlappingLine
  obtain ⟨-, before, token, rest, hsplit, hleftmost, hne, -, -, -, hshown⟩ :=
    (hfound "a\ufffd").mp hnamed
  exact ⟨hnamed, ⟨before, token, rest, hsplit, hleftmost, hne, hshown⟩, hmissing,
    hnone (Or.inr hmissing)⟩

end TrafficMeter
