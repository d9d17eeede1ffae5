/-!
Cutting sequences at separators. `pieces` keeps every piece, empty ones too, so that joining them
again gives back the whole. `lines` reads a text as lines, each ended by a line feed or by a
carriage return and a line feed; the last line may lack its end.
-/

namespace TrafficMeter.Text

variable {α : Type}

/-- The pieces between the separators: always one more than there are separators. -/
def pieces [DecidableEq α] (separator : α) : List α → List (List α)
  | [] => [[]]
  | a :: rest =>
    if a = separator then [] :: pieces separator rest
    else
      match pieces separator rest with
      | [] => [[a]]
      | piece :: more => (a :: piece) :: more

theorem pieces_ne_nil [DecidableEq α] (separator : α) (text : List α) :
    pieces separator text ≠ [] := by
  cases text with
  | nil => simp [pieces]
  | cons a rest =>
    simp only [pieces]
    split
    · simp
    · split <;> simp

theorem intercalate_pieces [DecidableEq α] (separator : α) (text : List α) :
    [separator].intercalate (pieces separator text) = text := by
  induction text with
  | nil => simp [pieces, List.intercalate]
  | cons a rest ih =>
    cases h : pieces separator rest with
    | nil => exact absurd h (pieces_ne_nil separator rest)
    | cons piece more =>
      by_cases ha : a = separator
      · simp_all [pieces, List.intercalate]
      · cases more <;> simp_all [pieces, List.intercalate]

def dropReturn (line : List Char) : List Char :=
  if line.getLast? = some '\r' then line.dropLast else line

/-- The lines of a text. Only a line that a line feed ends gives up a carriage return. -/
def lines (text : List Char) : List (List Char) :=
  let parts := pieces '\n' text
  let ended := parts.dropLast.map dropReturn
  match parts.getLast? with
  | none | some [] => ended
  | some unended => ended ++ [unended]

end TrafficMeter.Text
