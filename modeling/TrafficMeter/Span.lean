import TrafficMeter.Text.Blank
import TrafficMeter.Text.Number

/-!
Lengths of time. A span is a whole number of nanoseconds; its seconds are a 64-bit word. As text it
is a sequence of amounts with units, `1h 30min` or `1.5h`, in any order and with blanks between or
none; a lone `0` needs no unit. A month is 30.44 days and a year 365.25 days.
-/

namespace TrafficMeter

structure Span where
  nanos : Nat
  deriving DecidableEq, Repr, Inhabited

namespace Span

def nanosPerSecond : Nat := 1000000000

def ofSeconds (seconds : Nat) : Span := ⟨seconds * nanosPerSecond⟩

def ofMillis (millis : Nat) : Span := ⟨millis * 1000000⟩

def seconds (s : Span) : Nat := s.nanos / nanosPerSecond

def subsecond (s : Span) : Nat := s.nanos % nanosPerSecond

def millis (s : Span) : Nat := s.nanos / 1000000

def isZero (s : Span) : Bool := s.nanos == 0

def wholeSeconds (s : Span) : Int := min (s.seconds : Int) 9223372036854775807

instance : LE Span := ⟨fun a b => a.nanos ≤ b.nanos⟩

instance : LT Span := ⟨fun a b => a.nanos < b.nanos⟩

instance (a b : Span) : Decidable (a ≤ b) := inferInstanceAs (Decidable (a.nanos ≤ b.nanos))

instance (a b : Span) : Decidable (a < b) := inferInstanceAs (Decidable (a.nanos < b.nanos))

/-- A unit of length: so many nanoseconds, and whether a part of it is counted in whole seconds. -/
structure Measure where
  nanos : Nat
  wholeSeconds : Bool

def measure? (name : String) : Option Measure :=
  match name with
  | "nanos" | "nsec" | "ns" => some ⟨1, false⟩
  | "usec" | "us" | "µs" => some ⟨1000, false⟩
  | "millis" | "msec" | "ms" => some ⟨1000000, false⟩
  | "seconds" | "second" | "secs" | "sec" | "s" => some ⟨1000000000, false⟩
  | "minutes" | "minute" | "min" | "mins" | "m" => some ⟨60000000000, false⟩
  | "hours" | "hour" | "hrs" | "hr" | "h" => some ⟨3600000000000, true⟩
  | "days" | "day" | "d" => some ⟨86400000000000, true⟩
  | "weeks" | "week" | "wks" | "wk" | "w" => some ⟨604800000000000, true⟩
  | "months" | "month" | "M" => some ⟨2630016000000000, true⟩
  | "years" | "year" | "yrs" | "yr" | "y" => some ⟨31557600000000000, true⟩
  | _ => none

def maxWord : Nat := 18446744073709551615

def word? (n : Nat) : Option Nat := if n ≤ maxWord then some n else none

/-- The sum, if its seconds fit a word and the added part below a second did in nanoseconds. -/
def add? (total : Span) (seconds nanos : Nat) : Option Span := do
  let _ ← word? (total.subsecond + nanos)
  let sum : Span := ⟨total.nanos + seconds * nanosPerSecond + nanos⟩
  let _ ← word? sum.seconds
  return sum

/-- Adds `amount` units and the part `numerator / denominator` of one. Units of a second or more
are counted in seconds, smaller ones in nanoseconds; each product has to fit a word. -/
def addAmount? (total : Span) (amount : Nat) (part : Option (Nat × Nat)) (name : String) :
    Option Span := do
  let unit ← measure? name
  let whole ←
    if unit.nanos < nanosPerSecond then do total.add? 0 (← word? (amount * unit.nanos))
    else do total.add? (← word? (amount * (unit.nanos / nanosPerSecond))) 0
  match part with
  | none => return whole
  | some (numerator, denominator) =>
    if unit.wholeSeconds then do
      whole.add? ((← word? (numerator * (unit.nanos / nanosPerSecond))) / denominator) 0
    else do whole.add? 0 ((← word? (numerator * unit.nanos)) / denominator)

inductive Reading
  | start
  | between
  | whole (amount : Nat)
  | decimals (amount numerator denominator : Nat)
  | unit (amount : Nat) (part : Option (Nat × Nat)) (name : List Char)

def isUnitLetter (c : Char) : Bool := c.isAlpha || c == 'µ'

/-- Reads one character. Blanks inside a number are skipped; a digit after a unit begins the next
amount. -/
def step (total : Span) (reading : Reading) (c : Char) : Option (Span × Reading) :=
  match reading with
  | .start | .between =>
    match Text.digit? c with
    | some d => some (total, .whole d)
    | none => if Text.isBlank c then some (total, reading) else none
  | .whole amount =>
    match Text.digit? c with
    | some d => (word? (amount * 10 + d)).map fun n => (total, .whole n)
    | none =>
      if Text.isBlank c then some (total, reading)
      else if isUnitLetter c then some (total, .unit amount none [c])
      else if c == '.' then some (total, .decimals amount 0 1)
      else none
  | .decimals amount numerator denominator =>
    match Text.digit? c with
    | some d => do
      let n ← word? (numerator * 10 + d)
      let m ← word? (denominator * 10)
      return (total, .decimals amount n m)
    | none =>
      if Text.isBlank c then some (total, reading)
      else if isUnitLetter c && denominator != 1 then
        some (total, .unit amount (some (numerator, denominator)) [c])
      else none
  | .unit amount part name =>
    match Text.digit? c with
    | some d => do
      return (← total.addAmount? amount part (String.ofList name.reverse), .whole d)
    | none =>
      if Text.isBlank c then do
        return (← total.addAmount? amount part (String.ofList name.reverse), .between)
      else if isUnitLetter c then some (total, .unit amount part (c :: name))
      else none

def finish (total : Span) : Reading → Option Span
  | .between => some total
  | .unit amount part name => total.addAmount? amount part (String.ofList name.reverse)
  | _ => none

def parse? (text : String) : Option Span :=
  if text = "0" then some ⟨0⟩
  else do
    let (total, reading) ← text.toList.foldlM (fun (total, reading) c => step total reading c)
      ((⟨0⟩ : Span), Reading.start)
    finish total reading

/-- `whole` and the decimals of `part`, which counts in units of `10 ^ -places`, without trailing
zeros. -/
def decimalText (whole part places : Nat) : String :=
  if part = 0 then toString whole
  else
    let digits := Nat.toDigits 10 part
    let padded := List.replicate (places - digits.length) '0' ++ digits
    let kept := (padded.reverse.dropWhile (· == '0')).reverse
    toString whole ++ "." ++ String.ofList kept

def text (s : Span) : String :=
  if s.nanos ≥ 1000000000 then decimalText s.seconds s.subsecond 9 ++ "s"
  else if s.nanos ≥ 1000000 then decimalText (s.nanos / 1000000) (s.nanos % 1000000) 6 ++ "ms"
  else if s.nanos ≥ 1000 then decimalText (s.nanos / 1000) (s.nanos % 1000) 3 ++ "µs"
  else toString s.nanos ++ "ns"

end Span

end TrafficMeter
