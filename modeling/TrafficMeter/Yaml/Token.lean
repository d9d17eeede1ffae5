import TrafficMeter.Text.Utf8
import TrafficMeter.Yaml.Scalar

/-!
The tokens of a YAML text. Indentation opens and closes block collections. A key without a sign of
its own is known only when its colon is met, so the place of a possible key is marked when it begins
and settled later; `Token.scan?` answers the tokens with all marks settled.
-/

namespace TrafficMeter.Yaml

/-- A token. A `mark` holds the place of a possible key. -/
inductive Token
  | version (major minor : Nat)
  | tagHandle (handle : List Char) (expansion : List Char)
  | documentStart
  | documentEnd
  | blockSequenceStart
  | blockMappingStart
  | blockEnd
  | flowSequenceStart
  | flowSequenceEnd
  | flowMappingStart
  | flowMappingEnd
  | blockEntry
  | flowEntry
  | key
  | value
  | alias (name : List Char)
  | anchor (name : List Char)
  | tag (handle suffix : List Char)
  | scalar (text : List Char) (style : Style)
  | mark (number : Nat)
  deriving DecidableEq, Repr

/-- A place where a key may have begun: its mark, where it is, and whether nothing but a key can
begin there. -/
structure PossibleKey where
  mark : Nat
  cursor : Cursor
  required : Bool

/-- The state of a scan. Tokens are kept in reverse. `keys` has the possible key of each open flow
collection, the innermost first, and last that of the block context. `settled` lists the marks of
keys, and whether a block mapping opens there. -/
structure Scan where
  cursor : Cursor
  tokens : List Token
  indent : Int
  indents : List Int
  keyAllowed : Bool
  keys : List (Option PossibleKey)
  marks : Nat
  settled : List (Nat × Bool)

namespace Scan

def start (text : List Char) : Scan := ⟨.start text, [], -1, [], true, [none], 0, []⟩

def inFlow (s : Scan) : Bool := 1 < s.keys.length

def push (s : Scan) (token : Token) : Scan := { s with tokens := token :: s.tokens }

def pushSign (s : Scan) (token : Token) (n : Nat) : Scan :=
  { s.push token with cursor := s.cursor.advance n }

def allowKey (s : Scan) (allowed : Bool) : Scan := { s with keyAllowed := allowed }

/-- Past blanks, comments and line ends. Tabs count as blanks where no key can begin. -/
def skipToToken : Nat → Scan → Scan
  | 0, s => s
  | fuel + 1, s =>
    let cursor :=
      if s.cursor.index == 0 && s.cursor.rest.head? == some '\ufeff' then s.cursor.advance 1
      else s.cursor
    let blank := fun c : Char => c == ' ' || ((s.inFlow || !s.keyAllowed) && c == '\t')
    let cursor := (cursor.skipWhile blank).skipComment
    if cursor.rest.head?.any isBreak then
      skipToToken fuel
        { s with cursor := cursor.skipLine.2, keyAllowed := s.keyAllowed || !s.inFlow }
    else { s with cursor := cursor }

/-- Drops a possible key that lies on an earlier line or too far back, unless it is required. -/
def dropStale? (s : Scan) : Option Scan := do
  let keys ← s.keys.mapM fun
    | some key =>
      if key.cursor.line < s.cursor.line || key.cursor.index + 1024 < s.cursor.index then
        if key.required then none else some none
      else some (some key)
    | none => some none
  return { s with keys := keys }

def unroll (s : Scan) (column : Int) : Scan :=
  if s.inFlow then s
  else
    let closed := (s.indent :: s.indents).takeWhile fun i => column < i
    let left := (s.indent :: s.indents).dropWhile fun i => column < i
    { s with
      tokens := closed.map (fun _ => Token.blockEnd) ++ s.tokens
      indent := left.head?.getD (-1)
      indents := left.tail }

def roll (s : Scan) (token : Token) : Scan :=
  if !s.inFlow && s.indent < s.cursor.column then
    { s.push token with indents := s.indent :: s.indents, indent := s.cursor.column }
  else s

def dropKey? (s : Scan) : Option Scan :=
  match s.keys with
  | some key :: others => if key.required then none else some { s with keys := none :: others }
  | _ => some s

def markKey? (s : Scan) : Option Scan :=
  if !s.keyAllowed then some s
  else do
    let s ← s.dropKey?
    let required := !s.inFlow && s.indent == s.cursor.column
    return { s.push (.mark s.marks) with
      marks := s.marks + 1
      keys := some ⟨s.marks, s.cursor, required⟩ :: s.keys.tail }

def openFlow? (s : Scan) (token : Token) : Option Scan := do
  let s ← s.markKey?
  return ({ s with keys := none :: s.keys }.allowKey true).pushSign token 1

def closeFlow? (s : Scan) (token : Token) : Option Scan := do
  let s ← s.dropKey?
  let keys := if s.inFlow then s.keys.tail else s.keys
  return ({ s with keys := keys }.allowKey false).pushSign token 1

def blockEntry? (s : Scan) : Option Scan :=
  if !s.inFlow && !s.keyAllowed then none
  else do return ((← (s.roll .blockSequenceStart).dropKey?).allowKey true).pushSign .blockEntry 1

def keySign? (s : Scan) : Option Scan :=
  if !s.inFlow && !s.keyAllowed then none
  else do return ((← (s.roll .blockMappingStart).dropKey?).allowKey (!s.inFlow)).pushSign .key 1

/-- A colon before a value: it settles the possible key, or follows a key with a sign. -/
def valueSign? (s : Scan) : Option Scan :=
  match s.keys with
  | some key :: others =>
    let column : Int := key.cursor.column
    let opens := !s.inFlow && s.indent < column
    let s := { s with keys := none :: others, settled := (key.mark, opens) :: s.settled }
    let s := if opens then { s with indents := s.indent :: s.indents, indent := column } else s
    some ((s.allowKey false).pushSign .value 1)
  | _ =>
    if !s.inFlow && !s.keyAllowed then none
    else some (((s.roll .blockMappingStart).allowKey (!s.inFlow)).pushSign .value 1)

def anchor? (s : Scan) (token : List Char → Token) : Option Scan := do
  let s := (← s.markKey?).allowKey false
  let name := (s.cursor.rest.drop 1).takeWhile isWord
  let next := s.cursor.advance (1 + name.length)
  let closes := fun c : Char => isSpaceOrBreak c || "?:,]\x7d%@\x60".toList.contains c
  if name.isEmpty || !next.rest.head?.all closes then none
  else return { s.push (token name) with cursor := next }

def isUriChar (inBrackets : Bool) (c : Char) : Bool :=
  isWord c || ";/?:@&=+$.!~*'()".toList.contains c || (inBrackets && ",[]".toList.contains c)

def escapedOctet? : List Char → Option (Nat × List Char)
  | '%' :: a :: b :: rest => do return (← Text.naturalIn? 16 [a, b], rest)
  | _ => none

def octetCount? (first : Nat) : Option Nat :=
  if first < 0x80 then some 1
  else if 0xc0 ≤ first && first < 0xe0 then some 2
  else if 0xe0 ≤ first && first < 0xf0 then some 3
  else if 0xf0 ≤ first && first < 0xf8 then some 4
  else none

def escapedOctets? : Nat → List Char → Option (List UInt8 × List Char)
  | 0, text => some ([], text)
  | count + 1, text => do
    let (octet, rest) ← escapedOctet? text
    let (others, rest) ← escapedOctets? count rest
    return (octet.toUInt8 :: others, rest)

def escapedChar? (text : List Char) : Option (List Char × List Char) := do
  let (first, _) ← escapedOctet? text
  let (octets, rest) ← escapedOctets? (← octetCount? first) text
  if octets.tail.all Text.Utf8.continues then some ((Text.Utf8.decodeLossy octets).toList, rest)
  else none

def uri? (inBrackets : Bool) : Nat → List Char → Option (List Char × List Char)
  | 0, _ => none
  | fuel + 1, text =>
    match text with
    | '%' :: _ => do
      let (chars, rest) ← escapedChar? text
      let (others, rest) ← uri? inBrackets fuel rest
      return (chars ++ others, rest)
    | c :: rest =>
      if isUriChar inBrackets c then do
        let (others, rest) ← uri? inBrackets fuel rest
        return (c :: others, rest)
      else some ([], text)
    | [] => some ([], [])

def handle? (text : List Char) : Option (List Char × List Char) :=
  match text with
  | '!' :: rest =>
    let word := rest.takeWhile isWord
    match rest.dropWhile isWord with
    | '!' :: rest => some ('!' :: word ++ ['!'], rest)
    | rest => some ('!' :: word, rest)
  | _ => none

def movedTo (cursor : Cursor) (rest : List Char) : Cursor :=
  cursor.advance (cursor.rest.length - rest.length)

def tag? (s : Scan) : Option Scan := do
  let s := (← s.markKey?).allowKey false
  let fuel := s.cursor.rest.length + 1
  let (handle, suffix, rest) ←
    match s.cursor.rest with
    | '!' :: '<' :: rest => do
      let (suffix, rest) ← uri? true fuel rest
      if suffix.isEmpty then none
      else
        match rest with
        | '>' :: rest => some ([], suffix, rest)
        | _ => none
    | text => do
      let (handle, rest) ← handle? text
      let (suffix, rest) ← uri? false fuel rest
      if 1 < handle.length && handle.getLast? == some '!' then
        if suffix.isEmpty then none else some (handle, suffix, rest)
      else
        let suffix := handle.tail ++ suffix
        some (if suffix.isEmpty then ([], ['!'], rest) else (['!'], suffix, rest))
  if endsWord rest || (s.inFlow && rest.head? == some ',') then
    return { s.push (.tag handle suffix) with cursor := movedTo s.cursor rest }
  else none

def versionNumber? (text : List Char) : Option (Nat × List Char) := do
  let digits := text.takeWhile Char.isDigit
  if 9 < digits.length then none
  else return (← Text.natural? digits, text.dropWhile Char.isDigit)

def directive? (s : Scan) : Option Scan := do
  let s := (← (s.unroll (-1)).dropKey?).allowKey false
  let line := s.cursor.rest.drop 1
  let name := line.takeWhile isWord
  let rest := line.dropWhile isWord
  if name.isEmpty || !endsWord rest then none
  else
    let rest := rest.dropWhile isSpace
    let (token, rest) ←
      if name == "YAML".toList then do
        let (major, rest) ← versionNumber? rest
        match rest with
        | '.' :: rest => do
          let (minor, rest) ← versionNumber? rest
          some (Token.version major minor, rest)
        | _ => none
      else if name == "TAG".toList then do
        let (handle, rest) ← handle? rest
        if handle != ['!'] && handle.getLast? != some '!' then none
        else if !rest.head?.any isSpace then none
        else
          let (expansion, rest) ← uri? true (rest.length + 1) (rest.dropWhile isSpace)
          if expansion.isEmpty || !endsWord rest then none
          else some (Token.tagHandle handle expansion, rest)
      else none
    let next := ((movedTo s.cursor rest).skipWhile isSpace).skipComment
    if endsLine next.rest then return { s.push token with cursor := next.skipLine.2 } else none

def documentMark? (s : Scan) (token : Token) : Option Scan := do
  return ((← (s.unroll (-1)).dropKey?).allowKey false).pushSign token 3

def block? (s : Scan) (literal : Bool) : Option Scan := do
  let s := (← s.dropKey?).allowKey true
  let found ← scanBlock literal s.indent (s.cursor.advance 1)
  return { s.push (.scalar found.text (if literal then .literal else .folded)) with
    cursor := found.cursor }

def quoted? (s : Scan) (double : Bool) : Option Scan := do
  let s := (← s.markKey?).allowKey false
  let found ← scanQuoted double (s.cursor.rest.length + 1) (s.cursor.advance 1) [] Gap.none
  return { s.push (.scalar found.text (if double then .doubleQuoted else .singleQuoted)) with
    cursor := found.cursor }

def plain? (s : Scan) : Option Scan := do
  let s := (← s.markKey?).allowKey false
  let found ← scanPlain s.inFlow (s.indent + 1) (s.cursor.rest.length + 1) s.cursor [] Gap.none false
  let s := if found.newline then s.allowKey true else s
  return { s.push (.scalar found.text .plain) with cursor := found.cursor }

def isIndicator (c : Char) : Bool :=
  "-?:,[]\x7b\x7d#&*!|>'\"%@\x60".toList.contains c

def token? (s : Scan) (c : Char) (rest : List Char) : Option Scan :=
  if s.cursor.column == 0 && c == '%' then s.directive?
  else if s.cursor.atDocumentMark then
    s.documentMark? (if c == '-' then .documentStart else .documentEnd)
  else if c == '[' then s.openFlow? .flowSequenceStart
  else if c == '\x7b' then s.openFlow? .flowMappingStart
  else if c == ']' then s.closeFlow? .flowSequenceEnd
  else if c == '\x7d' then s.closeFlow? .flowMappingEnd
  else if c == ',' then do return ((← s.dropKey?).allowKey true).pushSign .flowEntry 1
  else if c == '-' && endsWord rest then s.blockEntry?
  else if c == '?' && (s.inFlow || endsWord rest) then s.keySign?
  else if c == ':' && (s.inFlow || endsWord rest) then s.valueSign?
  else if c == '*' then s.anchor? .alias
  else if c == '&' then s.anchor? .anchor
  else if c == '!' then s.tag?
  else if c == '|' && !s.inFlow then s.block? true
  else if c == '>' && !s.inFlow then s.block? false
  else if c == '\'' then s.quoted? false
  else if c == '"' then s.quoted? true
  else if !isSpaceOrBreak c && !isIndicator c then s.plain?
  else if c == '-' && !rest.head?.any isSpace then s.plain?
  else if !s.inFlow && (c == '?' || c == ':') && !endsWord rest then s.plain?
  else none

def run? : Nat → Scan → Option Scan
  | 0, _ => none
  | fuel + 1, s => do
    let s := s.skipToToken (s.cursor.rest.length + 1)
    let s := (← s.dropStale?).unroll s.cursor.column
    match s.cursor.rest with
    | [] => do
      let last := { s.cursor with column := 0, line := s.cursor.line + 1 }
      ({ s with cursor := last }.unroll (-1)).dropKey?
    | c :: rest => run? fuel (← s.token? c rest)

def settle (settled : List (Nat × Bool)) : Token → List Token
  | .mark number =>
    match settled.find? (·.1 == number) with
    | some (_, true) => [.blockMappingStart, .key]
    | some (_, false) => [.key]
    | none => []
  | token => [token]

end Scan

def Token.scan? (text : List Char) : Option (List Token) :=
  if !text.all isAllowed then none
  else do
    let s ← Scan.run? (text.length + 2) (.start text)
    return s.tokens.reverse.flatMap (Scan.settle s.settled)

end TrafficMeter.Yaml
