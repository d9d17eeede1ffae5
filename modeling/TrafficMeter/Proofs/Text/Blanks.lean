import Mathlib.Data.List.TakeWhile
import TrafficMeter.Text.Blank

/-!
Blanks around a text and after a word, said without a scan. `IsTrimmed` relates a text to what is
left of it without the blanks at its ends, and `trimChars` computes that. A word goes on to the
next of the five `asciiBlanks`.
-/

namespace TrafficMeter.Text

section Runs

variable {α : Type} {p : α → Bool} {run rest : List α}

theorem dropWhile_run (hrun : ∀ a ∈ run, p a = true) (hrest : ∀ a ∈ rest.head?, p a = false) :
    (run ++ rest).dropWhile p = rest := by
  rw [List.dropWhile_append_of_pos hrun]
  cases rest with
  | nil => rfl
  | cons a more => exact List.dropWhile_cons_of_neg (Bool.eq_false_iff.mp (hrest a rfl))

theorem takeWhile_run (hrun : ∀ a ∈ run, p a = true) (hrest : ∀ a ∈ rest.head?, p a = false) :
    (run ++ rest).takeWhile p = run := by
  have hsplit := List.takeWhile_append_dropWhile (p := p) (l := run ++ rest)
  rw [dropWhile_run hrun hrest] at hsplit
  exact List.append_cancel_right hsplit

theorem head?_dropWhile (p : α → Bool) (text : List α) :
    ∀ a ∈ (text.dropWhile p).head?, p a = false := by
  intro a ha
  have h := List.head?_dropWhile_not p text
  rwa [Option.mem_def.mp ha] at h

end Runs

structure IsTrimmed (text core : List Char) : Prop where
  around : ∃ before after, text = before ++ core ++ after ∧
    (∀ c ∈ before, isBlank c = true) ∧ ∀ c ∈ after, isBlank c = true
  starts : ∀ c ∈ core.head?, isBlank c = false
  ends : ∀ c ∈ core.getLast?, isBlank c = false

theorem isTrimmed_trimChars (text : List Char) : IsTrimmed text (trimChars text) := by
  have hrest : text.dropWhile isBlank = trimChars text ++
      ((text.dropWhile isBlank).reverse.takeWhile isBlank).reverse := by
    rw [trimChars, ← List.reverse_append, List.takeWhile_append_dropWhile, List.reverse_reverse]
  refine ⟨⟨text.takeWhile isBlank, ((text.dropWhile isBlank).reverse.takeWhile isBlank).reverse,
    ?_, ?_, ?_⟩, ?_, ?_⟩
  · rw [List.append_assoc, ← hrest, List.takeWhile_append_dropWhile]
  · intro c hc
    exact List.mem_takeWhile_imp hc
  · intro c hc
    exact List.mem_takeWhile_imp (List.mem_reverse.mp hc)
  · intro c hc
    apply head?_dropWhile isBlank text c
    rw [hrest, List.head?_append, Option.mem_def.mp hc]
    rfl
  · intro c hc
    rw [trimChars, List.getLast?_reverse] at hc
    exact head?_dropWhile isBlank _ c hc

/-- Where nothing is left, the blanks before and after are one run. -/
theorem trimChars_of_isTrimmed {text core : List Char} (h : IsTrimmed text core) :
    trimChars text = core := by
  obtain ⟨⟨before, after, rfl, hbefore, hafter⟩, hstarts, hends⟩ := h
  cases core with
  | nil =>
    have hall : (before ++ [] ++ after).dropWhile isBlank = [] :=
      List.dropWhile_eq_nil_iff.mpr fun c hc => by
        rw [List.append_nil] at hc
        exact (List.mem_append.mp hc).elim (hbefore c) (hafter c)
    rw [trimChars, hall]
    rfl
  | cons c core =>
    have hfront : (before ++ (c :: core) ++ after).dropWhile isBlank = (c :: core) ++ after := by
      rw [List.append_assoc]
      exact dropWhile_run hbefore hstarts
    have hback : (((c :: core) ++ after).reverse).dropWhile isBlank = (c :: core).reverse := by
      rw [List.reverse_append]
      apply dropWhile_run
      · intro d hd
        exact hafter d (List.mem_reverse.mp hd)
      · rwa [List.head?_reverse]
    rw [trimChars, hfront, hback, List.reverse_reverse]

theorem trimChars_eq_iff {text core : List Char} : trimChars text = core ↔ IsTrimmed text core := by
  constructor
  · intro h
    exact h ▸ isTrimmed_trimChars text
  · exact trimChars_of_isTrimmed

theorem trim_eq_iff {text core : String} :
    trim text = core ↔ IsTrimmed text.toList core.toList := by
  rw [← trimChars_eq_iff, ← String.toList_inj, trim, String.toList_ofList]

def asciiBlanks : List UInt8 := [32, 9, 10, 12, 13]

theorem isAsciiBlank_iff {b : UInt8} : isAsciiBlank b = true ↔ b ∈ asciiBlanks := by
  simp [isAsciiBlank, asciiBlanks, or_assoc]

end TrafficMeter.Text
