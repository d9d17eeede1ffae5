import TrafficMeter.Proofs.Text.EndedLines

/-!
What cutting a text comes to, said without a cutter. `IsCut` relates a text to its fields and
`Lined` to its lines; `pieces` and `lines` compute the one answer that each of them allows.
-/

namespace TrafficMeter.Text

section Cuts

variable {α : Type}

structure IsCut (separator : α) (text : List α) (parts : List (List α)) : Prop where
  nonempty : parts ≠ []
  free : ∀ part ∈ parts, separator ∉ part
  joined : [separator].intercalate parts = text

variable {separator a : α} {text part : List α} {parts : List (List α)}

theorem mem_of_mem_intercalate (h : a ∈ [separator].intercalate parts) :
    a = separator ∨ ∃ part ∈ parts, a ∈ part := by
  induction parts with
  | nil => exact absurd h List.not_mem_nil
  | cons first more ih =>
    by_cases hmore : more = []
    · rw [hmore, List.intercalate_singleton] at h
      exact Or.inr ⟨first, List.mem_cons_self, h⟩
    · rw [List.intercalate_cons_of_ne_nil hmore, List.append_assoc, List.mem_append,
        List.singleton_append, List.mem_cons] at h
      rcases h with h | h | h
      · exact Or.inr ⟨first, List.mem_cons_self, h⟩
      · exact Or.inl h
      · exact (ih h).imp_right fun ⟨part, hpart, ha⟩ => ⟨part, List.mem_cons_of_mem first hpart, ha⟩

theorem mem_intercalate_of_mem (hpart : part ∈ parts) (ha : a ∈ part) :
    a ∈ [separator].intercalate parts := by
  induction parts with
  | nil => exact absurd hpart List.not_mem_nil
  | cons first more ih =>
    by_cases hmore : more = []
    · subst hmore
      rw [List.intercalate_singleton]
      exact List.mem_singleton.mp hpart ▸ ha
    · rw [List.intercalate_cons_of_ne_nil hmore]
      rcases List.mem_cons.mp hpart with rfl | hpart
      · exact List.mem_append_left _ (List.mem_append_left _ ha)
      · exact List.mem_append_right _ (ih hpart)

variable [DecidableEq α]

theorem pieces_eq_splitOn (separator : α) (text : List α) :
    pieces separator text = text.splitOn separator := by
  induction text with
  | nil => rfl
  | cons a rest ih =>
    rw [List.splitOn_cons_eq_if_modifyHead, ← ih, pieces]
    cases hrest : pieces separator rest with
    | nil => exact absurd hrest (pieces_ne_nil separator rest)
    | cons piece more => simp

theorem isCut_pieces (separator : α) (text : List α) :
    IsCut separator text (pieces separator text) where
  nonempty := pieces_ne_nil separator text
  free := by
    obtain ⟨hended, hunended⟩ := not_mem_ended separator text
    rw [pieces_eq]
    intro part hpart
    rcases List.mem_append.mp hpart with h | h
    · exact hended part h
    · exact List.mem_singleton.mp h ▸ hunended
  joined := intercalate_pieces separator text

theorem pieces_of_isCut (h : IsCut separator text parts) : pieces separator text = parts := by
  rw [pieces_eq_splitOn, ← h.joined, List.splitOn_intercalate separator h.free h.nonempty]

end Cuts

/-- The lines of a text. A line feed ends a line, alone or after a carriage return that then does
not belong to it; what stands after the last line feed is one more line, whole. -/
inductive Lined : List Char → List (List Char) → Prop
  | nothing : Lined [] []
  | unended {line : List Char} : line ≠ [] → '\n' ∉ line → Lined line [line]
  | feed {line text : List Char} {rest : List (List Char)} : '\n' ∉ line →
      line.getLast? ≠ some '\r' → Lined text rest → Lined (line ++ '\n' :: text) (line :: rest)
  | returnFeed {line text : List Char} {rest : List (List Char)} : '\n' ∉ line →
      Lined text rest → Lined (line ++ '\r' :: '\n' :: text) (line :: rest)

section Lines

variable {line text : List Char} {parts : List (List Char)}

theorem dropReturn_concat (line : List Char) : dropReturn (line ++ ['\r']) = line := by
  unfold dropReturn
  rw [if_pos List.getLast?_concat, List.dropLast_concat]

theorem lines_unended (hne : line ≠ []) (h : '\n' ∉ line) : lines line = [line] := by
  unfold lines
  rw [pieces_eq_splitOn, List.splitOn_eq_singleton h]
  cases line with
  | nil => exact absurd rfl hne
  | cons a rest => rfl

theorem lines_feed (h : '\n' ∉ line) (text : List Char) :
    lines (line ++ '\n' :: text) = dropReturn line :: lines text := by
  have hne : pieces '\n' text ≠ [] := pieces_ne_nil '\n' text
  have hlast : (line :: pieces '\n' text).getLast? = (pieces '\n' text).getLast? := by
    rw [List.getLast?_cons, List.getLast?_eq_some_getLast hne, Option.getD_some]
  unfold lines
  rw [pieces_eq_splitOn, List.splitOn_append_cons_self_of_not_mem h, ← pieces_eq_splitOn]
  dsimp only
  rw [hlast, List.dropLast_cons_of_ne_nil hne, List.map_cons]
  split <;> rfl

theorem lines_of_lined (h : Lined text parts) : lines text = parts := by
  induction h with
  | nothing => rfl
  | unended hne hfree => exact lines_unended hne hfree
  | @feed line text rest hfree hlast _ ih => rw [lines_feed hfree, dropReturn, if_neg hlast, ih]
  | @returnFeed line text rest hfree _ ih =>
    have hreturned : '\n' ∉ line ++ ['\r'] := by simp [hfree]
    rw [List.append_cons, lines_feed hreturned, dropReturn_concat, ih]

/-- Every text has lines: one more character in front begins a line or joins the first one, where
it may be the carriage return that closes an empty line. -/
theorem exists_lined (text : List Char) : ∃ parts, Lined text parts := by
  induction text with
  | nil => exact ⟨[], .nothing⟩
  | cons a text ih =>
    obtain ⟨parts, h⟩ := ih
    by_cases ha : a = '\n'
    · exact ⟨[] :: parts, ha ▸ .feed List.not_mem_nil nofun h⟩
    · have hcons : ∀ {line : List Char}, '\n' ∉ line → '\n' ∉ a :: line :=
        fun hline => List.not_mem_cons_of_ne_of_not_mem (Ne.symm ha) hline
      cases h with
      | nothing => exact ⟨_, .unended (List.cons_ne_nil a _) (hcons List.not_mem_nil)⟩
      | unended _ hfree => exact ⟨_, .unended (List.cons_ne_nil a _) (hcons hfree)⟩
      | @feed line text rest hfree hlast hrest =>
        by_cases hclosed : (a :: line).getLast? = some '\r'
        · cases line with
          | nil =>
            obtain rfl : a = '\r' := Option.some.inj hclosed
            exact ⟨_, .returnFeed hfree hrest⟩
          | cons b line => exact absurd hclosed hlast
        · exact ⟨_, .feed (hcons hfree) hclosed hrest⟩
      | returnFeed hfree hrest => exact ⟨_, .returnFeed (hcons hfree) hrest⟩

theorem lines_eq_iff : lines text = parts ↔ Lined text parts := by
  constructor
  · intro h
    obtain ⟨found, hfound⟩ := exists_lined text
    exact h ▸ lines_of_lined hfound ▸ hfound
  · exact lines_of_lined

theorem lined_flatMap (h : ∀ line ∈ parts, '\n' ∉ line ∧ '\r' ∉ line) :
    Lined (parts.flatMap (· ++ ['\n'])) parts := by
  induction parts with
  | nil => exact .nothing
  | cons line more ih =>
    obtain ⟨⟨hfeed, hreturn⟩, hmore⟩ := List.forall_mem_cons.mp h
    rw [List.flatMap_cons, List.append_assoc]
    exact .feed hfeed (fun hlast => hreturn (List.mem_of_getLast? hlast)) (ih hmore)

end Lines

end TrafficMeter.Text
