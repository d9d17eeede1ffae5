import TrafficMeter.Json.Basic

/-!
Writing JSON texts, on one line without blanks or over several lines with two blanks for each
level. Characters outside ASCII stand as they are.
-/

namespace TrafficMeter.Json

def escapeChar (c : Char) : List Char :=
  match c with
  | '"' => ['\\', '"']
  | '\\' => ['\\', '\\']
  | '\x08' => ['\\', 'b']
  | '\x0c' => ['\\', 'f']
  | '\n' => ['\\', 'n']
  | '\r' => ['\\', 'r']
  | '\t' => ['\\', 't']
  | c =>
    if c.toNat < 0x20 then
      let digits := Nat.toDigits 16 c.toNat
      ['\\', 'u'] ++ List.replicate (4 - digits.length) '0' ++ digits
    else [c]

/-- A text as a string literal. A string without a text is written as an empty one. -/
def literal (text : Option String) : String :=
  String.ofList ('"' :: (text.getD "").toList.flatMap escapeChar ++ ['"'])

/-- Items between brackets. An indentation, if given, is that of the closing bracket. -/
def enclose (left right : String) (indent : Option Nat) (items : List String) : String :=
  match items, indent with
  | [], _ => left ++ right
  | _, none => left ++ ",".intercalate items ++ right
  | _, some depth =>
    let margin := "\n" ++ String.ofList (List.replicate (2 * (depth + 1)) ' ')
    let last := "\n" ++ String.ofList (List.replicate (2 * depth) ' ')
    left ++ ",".intercalate (items.map (margin ++ ·)) ++ last ++ right

mutual

def render (indent : Option Nat) : Json → String
  | .null => "null"
  | .bool true => "true"
  | .bool false => "false"
  | .int n => toString n
  | .decimal text => text
  | .str text => literal text
  | .arr items => enclose "[" "]" indent (renderItems (indent.map (· + 1)) items)
  | .obj members => enclose "\x7b" "\x7d" indent (renderMembers (indent.map (· + 1)) members)

def renderItems (indent : Option Nat) : List Json → List String
  | [] => []
  | item :: rest => render indent item :: renderItems indent rest

def renderMembers (indent : Option Nat) : List (Option String × Json) → List String
  | [] => []
  | (name, value) :: rest =>
    (literal name ++ (if indent.isSome then ": " else ":") ++ render indent value) ::
      renderMembers indent rest

end

def compact (value : Json) : String := render none value

def pretty (value : Json) : String := render (some 0) value

end TrafficMeter.Json
