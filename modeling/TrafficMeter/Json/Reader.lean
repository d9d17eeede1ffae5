import TrafficMeter.Json.Basic
import TrafficMeter.Text.Number
import TrafficMeter.Text.Utf8

/-!
Reading JSON texts. The grammar is the strict one: no comments, no trailing commas, no leading
zeros, no control characters in strings, and nothing but blanks after the value. What is read are
units: characters, and `none` where octets are none. Such a unit may stand in a string, which then
has no text.
-/

namespace TrafficMeter.Json

abbrev Units := List (Option Char)

def skipBlanks (text : Units) : Units :=
  text.dropWhile (·.any fun c => c == ' ' || c == '\t' || c == '\n' || c == '\r')

def codeUnit? (a b c d : Option Char) : Option Nat :=
  ([a, b, c, d].mapM id).bind (Text.naturalIn? 16)

def isHighSurrogate (n : Nat) : Bool := 0xd800 ≤ n && n ≤ 0xdbff

def isSurrogate (n : Nat) : Bool := 0xd800 ≤ n && n ≤ 0xdfff

def pairChar? (high low : Nat) : Option Char :=
  if 0xdc00 ≤ low ∧ low ≤ 0xdfff then
    some (Char.ofNat (0x10000 + (high - 0xd800) * 1024 + (low - 0xdc00)))
  else none

def plainEscape? (c : Char) : Option Char :=
  match c with
  | '"' => some '"'
  | '\\' => some '\\'
  | '/' => some '/'
  | 'b' => some '\x08'
  | 'f' => some '\x0c'
  | 'n' => some '\n'
  | 'r' => some '\r'
  | 't' => some '\t'
  | _ => none

/-- The characters of a string up to its closing quote, and the rest of the text. A half of a
surrogate pair is read as no character. -/
def stringBody : Units → Option (Units × Units)
  | [] => none
  | some '"' :: rest => some ([], rest)
  | some '\\' :: some 'u' :: a :: b :: c :: d ::
      some '\\' :: some 'u' :: e :: f :: g :: h :: rest => do
    let first ← codeUnit? a b c d
    let second ← codeUnit? e f g h
    if isHighSurrogate first then
      match pairChar? first second with
      | some pair => do
        let (chars, rest) ← stringBody rest
        return (some pair :: chars, rest)
      | none => do
        let (chars, rest) ← stringBody (some '\\' :: some 'u' :: e :: f :: g :: h :: rest)
        return (none :: chars, rest)
    else
      let char := if isSurrogate first then none else some (Char.ofNat first)
      let (chars, rest) ← stringBody (some '\\' :: some 'u' :: e :: f :: g :: h :: rest)
      return (char :: chars, rest)
  | some '\\' :: some 'u' :: a :: b :: c :: d :: rest => do
    let unit ← codeUnit? a b c d
    let char := if isSurrogate unit then none else some (Char.ofNat unit)
    let (chars, rest) ← stringBody rest
    return (char :: chars, rest)
  | some '\\' :: c :: rest => do
    let char ← plainEscape? (← c)
    let (chars, rest) ← stringBody rest
    return (some char :: chars, rest)
  | c :: rest =>
    if c.any fun c => c.toNat < 0x20 || c == '\\' then none
    else do
      let (chars, rest) ← stringBody rest
      return (c :: chars, rest)
termination_by text => text.length

def textOf (chars : Units) : Option String := (chars.mapM id).map String.ofList

def digits (text : Units) : List Char × Units :=
  ((text.takeWhile (·.any Char.isDigit)).filterMap id, text.dropWhile (·.any Char.isDigit))

def wholePart? (text : Units) : Option (List Char × Units) :=
  match text with
  | some '0' :: rest => if (rest.head?.any (·.any Char.isDigit)) then none else some (['0'], rest)
  | _ =>
    let (whole, rest) := digits text
    if whole.isEmpty then none else some (whole, rest)

def pointPart? (text : Units) : Option (List Char × Units) :=
  match text with
  | some '.' :: rest =>
    let (part, rest) := digits rest
    if part.isEmpty then none else some ('.' :: part, rest)
  | _ => some ([], text)

def exponentPart? (text : Units) : Option (List Char × Units) :=
  match text with
  | some e :: rest =>
    if e == 'e' || e == 'E' then
      let (sign, rest) :=
        match rest with
        | some '+' :: rest => (['+'], rest)
        | some '-' :: rest => (['-'], rest)
        | _ => ([], rest)
      let (part, rest) := digits rest
      if part.isEmpty then none else some (e :: sign ++ part, rest)
    else some ([], text)
  | _ => some ([], text)

def number? (text : Units) : Option (Json × Units) := do
  let (sign, rest) :=
    match text with
    | some '-' :: rest => (['-'], rest)
    | _ => ([], text)
  let (whole, rest) ← wholePart? rest
  let (point, rest) ← pointPart? rest
  let (exponent, rest) ← exponentPart? rest
  let literal := String.ofList (sign ++ whole ++ point ++ exponent)
  let magnitude ← Text.natural? whole
  let value : Int := if sign.isEmpty then magnitude else -(magnitude : Int)
  let isWhole := point.isEmpty && exponent.isEmpty && (sign.isEmpty || magnitude != 0) &&
    decide (-9223372036854775808 ≤ value) && decide (value ≤ 18446744073709551615)
  return (if isWhole then .int value else .decimal literal, rest)

def expect? (word : String) (text : Units) : Option Units :=
  let letters := word.toList.map some
  if text.take letters.length = letters then some (text.drop letters.length) else none

mutual

/-- A value and what follows it. The fuel bounds the values and separators that are read. -/
def value? : Nat → Units → Option (Json × Units)
  | 0, _ => none
  | fuel + 1, text =>
    match skipBlanks text with
    | [] => none
    | some '"' :: rest => do
      let (chars, rest) ← stringBody rest
      return (.str (textOf chars), rest)
    | some '[' :: rest =>
      match skipBlanks rest with
      | some ']' :: rest => some (.arr [], rest)
      | rest => do
        let (items, rest) ← items fuel rest
        return (.arr items, rest)
    | some '\x7b' :: rest =>
      match skipBlanks rest with
      | some '\x7d' :: rest => some (.obj [], rest)
      | rest => do
        let (members, rest) ← members fuel rest
        return (.obj members, rest)
    | some 't' :: rest => (expect? "rue" rest).map fun rest => (.bool true, rest)
    | some 'f' :: rest => (expect? "alse" rest).map fun rest => (.bool false, rest)
    | some 'n' :: rest => (expect? "ull" rest).map fun rest => (.null, rest)
    | rest => number? rest

def items : Nat → Units → Option (List Json × Units)
  | 0, _ => none
  | fuel + 1, text => do
    let (item, rest) ← value? fuel text
    match skipBlanks rest with
    | some ',' :: rest => do
      let (others, rest) ← items fuel rest
      return (item :: others, rest)
    | some ']' :: rest => return ([item], rest)
    | _ => none

def members : Nat → Units → Option (List (Option String × Json) × Units)
  | 0, _ => none
  | fuel + 1, text =>
    match skipBlanks text with
    | some '"' :: rest => do
      let (name, rest) ← stringBody rest
      match skipBlanks rest with
      | some ':' :: rest => do
        let (value, rest) ← value? fuel rest
        let member := (textOf name, value)
        match skipBlanks rest with
        | some ',' :: rest => do
          let (others, rest) ← members fuel rest
          return (member :: others, rest)
        | some '\x7d' :: rest => return ([member], rest)
        | _ => none
      | _ => none
    | _ => none

end

def readUnits? (text : Units) : Option Json := do
  let (value, rest) ← value? (2 * text.length + 2) text
  if (skipBlanks rest).isEmpty then some value else none

def read? (text : String) : Option Json := readUnits? (text.toList.map some)

def readOctets? (octets : List UInt8) : Option Json := readUnits? (Text.Utf8.scan octets)

end TrafficMeter.Json
