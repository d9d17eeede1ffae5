import Mathlib.Data.List.Basic
import TrafficMeter.Text.Line

/-!
Texts that grow at the end. The pieces that a separator has ended stay as they are and only the last
one goes on, so the rest of a text can be cut from that one on.
-/

namespace TrafficMeter.Text

variable {α : Type} [DecidableEq α]

def ended (separator : α) (text : List α) : List (List α) := (pieces separator text).dropLast

def unended (separator : α) (text : List α) : List α := (pieces separator text).getLast?.getD []

variable {separator a : α} {text : List α}

theorem pieces_eq (separator : α) (text : List α) :
    pieces separator text = ended separator text ++ [unended separator text] := by
  have hne := pieces_ne_nil separator text
  rw [ended, unended, List.getLast?_eq_some_getLast hne, Option.getD_some,
    List.dropLast_append_getLast]

theorem ended_eq_of_pieces {parts : List (List α)} {last : List α}
    (h : pieces separator text = parts ++ [last]) :
    ended separator text = parts ∧ unended separator text = last := by
  rw [ended, unended, h, List.dropLast_concat, List.getLast?_concat]
  exact ⟨rfl, rfl⟩

theorem pieces_cons_of_ne (ha : a ≠ separator) {piece : List α} {more : List (List α)}
    (h : pieces separator text = piece :: more) :
    pieces separator (a :: text) = (a :: piece) :: more := by
  rw [pieces, if_neg ha, h]

/-- A text with one more element in front: it is a separator, or it comes before the piece that was
first, which may be the one that has no end. -/
theorem ended_cons (separator a : α) (text : List α) :
    (a = separator ∧ ended separator (a :: text) = [] :: ended separator text ∧
      unended separator (a :: text) = unended separator text) ∨
    (a ≠ separator ∧ ended separator text = [] ∧ ended separator (a :: text) = [] ∧
      unended separator (a :: text) = a :: unended separator text) ∨
    a ≠ separator ∧ ∃ piece more, ended separator text = piece :: more ∧
      ended separator (a :: text) = (a :: piece) :: more ∧
      unended separator (a :: text) = unended separator text := by
  have htext := pieces_eq separator text
  by_cases ha : a = separator
  · left
    refine ⟨ha, @ended_eq_of_pieces _ _ _ _ ([] :: ended separator text) _ ?_⟩
    rw [pieces, if_pos ha, htext]
    rfl
  · right
    cases hended : ended separator text with
    | nil =>
      left
      rw [hended] at htext
      exact ⟨ha, rfl, @ended_eq_of_pieces _ _ _ _ [] _ (pieces_cons_of_ne ha htext)⟩
    | cons piece more =>
      right
      rw [hended] at htext
      exact ⟨ha, piece, more, rfl,
        @ended_eq_of_pieces _ _ _ _ ((a :: piece) :: more) _ (pieces_cons_of_ne ha htext)⟩

theorem pieces_append (separator : α) (text more : List α) :
    pieces separator (text ++ more) =
      ended separator text ++ pieces separator (unended separator text ++ more) := by
  induction text with
  | nil => rfl
  | cons a rest ih =>
    rw [List.cons_append]
    rcases ended_cons separator a rest with ⟨ha, he, hu⟩ | ⟨ha, hnone, he, hu⟩ |
      ⟨ha, piece, others, hsome, he, hu⟩
    · rw [he, hu, pieces, if_pos ha, ih]
      rfl
    · rw [hnone, List.nil_append] at ih
      rw [he, hu, List.nil_append, List.cons_append, pieces, pieces, ih]
    · rw [hsome] at ih
      rw [he, hu, pieces_cons_of_ne ha ih]
      rfl

theorem ended_append (separator : α) (text more : List α) :
    ended separator (text ++ more) =
      ended separator text ++ ended separator (unended separator text ++ more) := by
  have h := pieces_append separator text more
  rw [pieces_eq separator (unended separator text ++ more), ← List.append_assoc] at h
  exact (ended_eq_of_pieces h).1

theorem unended_append (separator : α) (text more : List α) :
    unended separator (text ++ more) = unended separator (unended separator text ++ more) := by
  have h := pieces_append separator text more
  rw [pieces_eq separator (unended separator text ++ more), ← List.append_assoc] at h
  exact (ended_eq_of_pieces h).2

theorem flatMap_ended (separator : α) (text : List α) :
    (ended separator text).flatMap (· ++ [separator]) ++ unended separator text = text := by
  induction text with
  | nil => rfl
  | cons a rest ih =>
    rcases ended_cons separator a rest with ⟨ha, he, hu⟩ | ⟨-, hnone, he, hu⟩ |
      ⟨-, piece, more, hsome, he, hu⟩
    · rw [he, hu, List.flatMap_cons, List.append_assoc, ih, ha]
      rfl
    · rw [hnone, List.flatMap_nil, List.nil_append] at ih
      rw [he, hu, ih]
      rfl
    · rw [hsome, List.flatMap_cons] at ih
      rw [he, hu, List.flatMap_cons, List.cons_append, List.cons_append, List.cons_append, ih]

theorem not_mem_ended (separator : α) (text : List α) :
    (∀ piece ∈ ended separator text, separator ∉ piece) ∧ separator ∉ unended separator text := by
  induction text with
  | nil => simp [ended, unended, pieces]
  | cons a rest ih =>
    obtain ⟨hended, hunended⟩ := ih
    rcases ended_cons separator a rest with ⟨ha, he, hu⟩ | ⟨ha, -, he, hu⟩ |
      ⟨ha, piece, more, hsome, he, hu⟩
    · rw [he, hu, List.forall_mem_cons]
      exact ⟨⟨List.not_mem_nil, hended⟩, hunended⟩
    · rw [he, hu]
      exact ⟨List.forall_mem_nil _, List.not_mem_cons_of_ne_of_not_mem (Ne.symm ha) hunended⟩
    · rw [hsome, List.forall_mem_cons] at hended
      rw [he, hu, List.forall_mem_cons]
      exact ⟨⟨List.not_mem_cons_of_ne_of_not_mem (Ne.symm ha) hended.1, hended.2⟩, hunended⟩

end TrafficMeter.Text
