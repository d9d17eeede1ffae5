/-!
JSON documents. Members keep the order and the repetitions of the text. A number is a whole one
within the range of 64-bit words, signed or not, or else the text that it was written as. A string
whose escapes name half of a surrogate pair is kept as one that has no text: it may stand where it
is skipped, but not where it is read.
-/

namespace TrafficMeter

inductive Json
  | null
  | bool (value : Bool)
  | int (value : Int)
  | decimal (text : String)
  | str (text : Option String)
  | arr (items : List Json)
  | obj (members : List (Option String × Json))

namespace Json

def ofString (text : String) : Json := .str (some text)

def ofNat (n : Nat) : Json := .int n

def object (members : List (String × Json)) : Json :=
  .obj (members.map fun (name, value) => (some name, value))

def strings (texts : List String) : Json := .arr (texts.map ofString)

def ofString? : Option String → Json
  | some text => .ofString text
  | none => .null

def text? : Json → Option String
  | .str text => text
  | _ => none

def nat? (limit : Nat) : Json → Option Nat
  | .int n => if 0 ≤ n ∧ n ≤ (limit : Int) then some n.toNat else none
  | _ => none

def int? : Json → Option Int
  | .int n => some n
  | _ => none

def bool? : Json → Option Bool
  | .bool b => some b
  | _ => none

def items? : Json → Option (List Json)
  | .arr items => some items
  | _ => none

def members? : Json → Option (List (Option String × Json))
  | .obj members => some members
  | _ => none

def valuesOf (name : String) (members : List (Option String × Json)) : List Json :=
  (members.filter fun (key, _) => key == some name).map (·.2)

def get? (value : Json) (name : String) : Option Json := do
  (valuesOf name (← value.members?)).getLast?

/-- Reads a record with known fields: an object that gives no known field twice, or an array of the
fields' values in order, later ones left out. -/
def record? (fields : List String) : Json → Option (String → Option Json)
  | .obj members =>
    if members.any (fun (key, _) => key.isNone) then none
    else if fields.any fun field => 1 < (valuesOf field members).length then none
    else some fun field => (valuesOf field members).head?
  | .arr items =>
    if fields.length < items.length then none
    else some fun field => ((fields.zip items).find? (·.1 == field)).map (·.2)
  | _ => none

end Json

end TrafficMeter
