/-!
A place in a YAML text: what is left of it, and how many characters, lines and columns are behind.
A line ends at a line feed, a carriage return, both together, or one of the separators U+0085,
U+2028 and U+2029.
-/

namespace TrafficMeter.Yaml

structure Cursor where
  rest : List Char
  index : Nat
  line : Nat
  column : Nat

def isAllowed (c : Char) : Bool :=
  let n := c.toNat
  n == 0x09 || n == 0x0a || n == 0x0d || (0x20 ≤ n && n ≤ 0x7e) || n == 0x85 ||
    (0xa0 ≤ n && n ≤ 0xfffd) || 0x10000 ≤ n

def isBreak (c : Char) : Bool :=
  c == '\n' || c == '\r' || c == '\x85' || c == '\u2028' || c == '\u2029'

def isSpace (c : Char) : Bool := c == ' ' || c == '\t'

def isSpaceOrBreak (c : Char) : Bool := isSpace c || isBreak c

def isWord (c : Char) : Bool := c.isAlphanum || c == '_' || c == '-'

def endsWord (text : List Char) : Bool := text.head?.all isSpaceOrBreak

def endsLine (text : List Char) : Bool := text.head?.all isBreak

namespace Cursor

def start (text : List Char) : Cursor := ⟨text, 0, 0, 0⟩

def advance (c : Cursor) (n : Nat) : Cursor :=
  ⟨c.rest.drop n, c.index + n, c.line, c.column + n⟩

def skipWhile (c : Cursor) (p : Char → Bool) : Cursor := c.advance (c.rest.takeWhile p).length

/-- Past the end of a line, and the character that stands for it. -/
def skipLine (c : Cursor) : List Char × Cursor :=
  match c.rest with
  | '\r' :: '\n' :: rest => (['\n'], ⟨rest, c.index + 2, c.line + 1, 0⟩)
  | b :: rest =>
    if isBreak b then
      (if b == '\u2028' || b == '\u2029' then [b] else ['\n'], ⟨rest, c.index + 1, c.line + 1, 0⟩)
    else ([], c)
  | [] => ([], c)

def atDocumentMark (c : Cursor) : Bool :=
  c.column == 0 &&
    match c.rest with
    | '-' :: '-' :: '-' :: rest => endsWord rest
    | '.' :: '.' :: '.' :: rest => endsWord rest
    | _ => false

def skipComment (c : Cursor) : Cursor :=
  match c.rest with
  | '#' :: _ => c.skipWhile fun x => !isBreak x
  | _ => c

end Cursor

end TrafficMeter.Yaml
