import TrafficMeter.Text.Number
import TrafficMeter.Yaml.Cursor

/-!
Scalars of a YAML text: plain ones, quoted ones, and blocks. Inside the first two a single line end
becomes a blank and each further one stays; a folded block joins its lines in the same way and a
literal block keeps them.
-/

namespace TrafficMeter.Yaml

inductive Style
  | plain
  | singleQuoted
  | doubleQuoted
  | literal
  | folded
  deriving DecidableEq, Repr

structure Gap where
  spaces : List Char
  newline : Bool
  firstBreak : List Char
  breaks : List Char

namespace Gap

def none : Gap := ⟨[], false, [], []⟩

def isNone (g : Gap) : Bool := g.spaces.isEmpty && !g.newline

def text (g : Gap) : List Char :=
  if !g.newline then g.spaces
  else if g.firstBreak == ['\n'] then (if g.breaks.isEmpty then [' '] else g.breaks)
  else g.firstBreak ++ g.breaks

def space (g : Gap) (c : Char) : Gap := if g.newline then g else { g with spaces := g.spaces ++ [c] }

def lineEnd (g : Gap) (b : List Char) : Gap :=
  if g.newline then { g with breaks := g.breaks ++ b }
  else { spaces := [], newline := true, firstBreak := b, breaks := [] }

end Gap

/-- The text of a scalar, the cursor past it, and whether a line ended after its last word. -/
structure Scanned where
  text : List Char
  cursor : Cursor
  newline : Bool

def isFlowIndicator (c : Char) : Bool :=
  c == ',' || c == '[' || c == ']' || c == '\x7b' || c == '\x7d'

/-- Reads a plain scalar. In block context its lines have to be indented by `indent` columns. -/
def scanPlain (inFlow : Bool) (indent : Int) :
    Nat → Cursor → List Char → Gap → Bool → Option Scanned
  | 0, _, _, _, _ => none
  | fuel + 1, cursor, done, gap, begun =>
    let ended : Option Scanned := some ⟨done, cursor, gap.newline⟩
    match cursor.rest with
    | [] => ended
    | c :: rest =>
      if isSpace c then
        if !begun then ended
        else if gap.newline && cursor.column < indent && c == '\t' then none
        else scanPlain inFlow indent fuel (cursor.advance 1) done (gap.space c) begun
      else if isBreak c then
        if !begun then ended
        else
          let (b, next) := cursor.skipLine
          scanPlain inFlow indent fuel next done (gap.lineEnd b) begun
      else if !gap.isNone && !inFlow && cursor.column < indent then ended
      else if cursor.atDocumentMark then ended
      else if c == '#' && (!begun || !gap.isNone) then ended
      else if inFlow && c == ':' && rest.head?.any (fun d => isFlowIndicator d || d == '?') then none
      else if c == ':' && endsWord rest then ended
      else if inFlow && isFlowIndicator c then ended
      else
        scanPlain inFlow indent fuel (cursor.advance 1) (done ++ gap.text ++ [c]) Gap.none true

def doubleEscape? (c : Char) : Option (Char ⊕ Nat) :=
  match c with
  | '0' => some (.inl '\x00')
  | 'a' => some (.inl '\x07')
  | 'b' => some (.inl '\x08')
  | 't' | '\t' => some (.inl '\t')
  | 'n' => some (.inl '\n')
  | 'v' => some (.inl '\x0b')
  | 'f' => some (.inl '\x0c')
  | 'r' => some (.inl '\r')
  | 'e' => some (.inl '\x1b')
  | ' ' => some (.inl ' ')
  | '"' => some (.inl '"')
  | '/' => some (.inl '/')
  | '\\' => some (.inl '\\')
  | 'N' => some (.inl '\x85')
  | '_' => some (.inl '\xa0')
  | 'L' => some (.inl '\u2028')
  | 'P' => some (.inl '\u2029')
  | 'x' => some (.inr 2)
  | 'u' => some (.inr 4)
  | 'U' => some (.inr 8)
  | _ => none

def codeChar? (digits : List Char) (length : Nat) : Option Char := do
  if digits.length ≠ length then none
  else
    let n ← Text.naturalIn? 16 digits
    if (0xd800 ≤ n && n ≤ 0xdfff) || 0x10ffff < n then none else some (Char.ofNat n)

def scanQuoted (double : Bool) : Nat → Cursor → List Char → Gap → Option Scanned
  | 0, _, _, _ => none
  | fuel + 1, cursor, done, gap =>
    if cursor.atDocumentMark then none
    else
      match cursor.rest with
      | [] => none
      | c :: rest =>
        if isSpace c then scanQuoted double fuel (cursor.advance 1) done (gap.space c)
        else if isBreak c then
          let (b, next) := cursor.skipLine
          scanQuoted double fuel next done (gap.lineEnd b)
        else
          let done := done ++ gap.text
          if !double then
            if c == '\'' then
              if rest.head? == some '\'' then
                scanQuoted double fuel (cursor.advance 2) (done ++ ['\'']) Gap.none
              else some ⟨done, cursor.advance 1, false⟩
            else scanQuoted double fuel (cursor.advance 1) (done ++ [c]) Gap.none
          else if c == '"' then some ⟨done, cursor.advance 1, false⟩
          else if c == '\\' then
            match rest with
            | [] => none
            | d :: more =>
              if isBreak d then
                let (_, next) := (cursor.advance 1).skipLine
                scanQuoted double fuel next done { Gap.none with newline := true }
              else
                match doubleEscape? d with
                | none => none
                | some (.inl char) =>
                  scanQuoted double fuel (cursor.advance 2) (done ++ [char]) Gap.none
                | some (.inr length) => do
                  let char ← codeChar? (more.take length) length
                  scanQuoted double fuel (cursor.advance (2 + length)) (done ++ [char]) Gap.none
          else scanQuoted double fuel (cursor.advance 1) (done ++ [c]) Gap.none

/-- Passes the indentation and the empty lines before a line of a block. The indentation is zero as
long as it is not known. Answers the line ends, the cursor and the widest indentation seen. -/
def scanBreaks (indent : Nat) :
    Nat → Cursor → List Char → Nat → Option (List Char × Cursor × Nat)
  | 0, _, _, _ => none
  | fuel + 1, cursor, breaks, widest =>
    match cursor.rest with
    | ' ' :: _ =>
      if indent == 0 || cursor.column < indent then
        scanBreaks indent fuel (cursor.advance 1) breaks widest
      else some (breaks, cursor, max widest cursor.column)
    | '\t' :: _ =>
      if indent == 0 || cursor.column < indent then none
      else some (breaks, cursor, max widest cursor.column)
    | c :: _ =>
      if isBreak c then
        let (b, next) := cursor.skipLine
        scanBreaks indent fuel next (breaks ++ b) (max widest cursor.column)
      else some (breaks, cursor, max widest cursor.column)
    | [] => some (breaks, cursor, max widest cursor.column)

inductive Chomp
  | strip
  | clip
  | keep
  deriving DecidableEq, Repr

/-- The lines of a block so far: its text, the end of the last line, the empty lines after it, and
whether the last line began with a blank. -/
structure Block where
  text : List Char
  lastBreak : List Char
  breaks : List Char
  blank : Bool

def scanLines (literal : Bool) (indent : Nat) : Nat → Cursor → Block → Option (Block × Cursor)
  | 0, _, _ => none
  | fuel + 1, cursor, block =>
    if cursor.column != indent || cursor.rest.isEmpty then some (block, cursor)
    else do
      let blank := cursor.rest.head?.any isSpace
      let folds := !literal && block.lastBreak == ['\n'] && !block.blank && !blank
      let joint :=
        if folds then (if block.breaks.isEmpty then [' '] else [])
        else block.lastBreak
      let line := cursor.rest.takeWhile fun c => !isBreak c
      let (lineEnd, next) := (cursor.advance line.length).skipLine
      let (breaks, next, _) ← scanBreaks indent fuel next [] 0
      scanLines literal indent fuel next
        ⟨block.text ++ joint ++ block.breaks ++ line, lineEnd, breaks, blank⟩

def blockHeader? (cursor : Cursor) : Option (Chomp × Nat × Cursor) :=
  let chomp? : Char → Option Chomp := fun c =>
    if c == '+' then some .keep else if c == '-' then some .strip else none
  match cursor.rest with
  | a :: b :: _ =>
    match chomp? a, Text.digit? a with
    | some chomp, _ =>
      match Text.digit? b with
      | some 0 => none
      | some n => some (chomp, n, cursor.advance 2)
      | none => some (chomp, 0, cursor.advance 1)
    | none, some 0 => none
    | none, some n =>
      match chomp? b with
      | some chomp => some (chomp, n, cursor.advance 2)
      | none => some (.clip, n, cursor.advance 1)
    | none, none => some (.clip, 0, cursor)
  | [a] =>
    match chomp? a, Text.digit? a with
    | some chomp, _ => some (chomp, 0, cursor.advance 1)
    | none, some 0 => none
    | none, some n => some (.clip, n, cursor.advance 1)
    | none, none => some (.clip, 0, cursor)
  | [] => some (.clip, 0, cursor)

/-- Reads a block from behind its sign. `parent` is the indentation around it, -1 at the top. -/
def scanBlock (literal : Bool) (parent : Int) (cursor : Cursor) : Option Scanned := do
  let fuel := cursor.rest.length + 2
  let (chomp, increment, cursor) ← blockHeader? cursor
  let cursor := (cursor.skipWhile isSpace).skipComment
  if !endsLine cursor.rest then none
  else
    let (_, cursor) := cursor.skipLine
    let given : Nat := if increment = 0 then 0 else (max parent 0).toNat + increment
    let (breaks, cursor, widest) ← scanBreaks given fuel cursor [] 0
    let indent := if given = 0 then max widest (max (parent + 1).toNat 1) else given
    let (block, cursor) ← scanLines literal indent fuel cursor ⟨[], [], breaks, false⟩
    let tail :=
      match chomp with
      | .strip => []
      | .clip => block.lastBreak
      | .keep => block.lastBreak ++ block.breaks
    some ⟨block.text ++ tail, cursor, false⟩

end TrafficMeter.Yaml
