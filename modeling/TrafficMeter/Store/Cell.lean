import TrafficMeter.Amount
import TrafficMeter.Double
import TrafficMeter.Failure

/-!
Amounts as columns hold them. A cell is a whole number of 64 bits with sign, or, once a sum has
left that range, a number in double precision. Such a number is a whole one too, so a cell carries
its exact value; `roundDouble` is the rounding that every operation on it applies.
-/

namespace TrafficMeter.Store

inductive Cell
  | int (value : Int)
  | real (value : Int)
  deriving DecidableEq, Repr

def fitsColumn (n : Int) : Bool := minTime ≤ n && n ≤ maxTime

namespace Cell

def value : Cell → Int
  | .int n => n
  | .real n => n

def ofCount (n : Nat) : Cell := .int (min (n : Int) maxTime)

/-- Reads a cell back as a byte count; a negative number counts as none. -/
def count? : Cell → Except StoreFault Nat
  | .int n => .ok n.toNat
  | .real _ => .error .columnType

/-- The result of arithmetic on cells: exact while whole numbers stay in range, else rounded after
each operand is. -/
def arith (op : Int → Int → Int) (a b : Cell) : Cell :=
  let rounded := Cell.real (roundDouble (op (roundDouble a.value) (roundDouble b.value)))
  match a, b with
  | .int m, .int n => if fitsColumn (op m n) then .int (op m n) else rounded
  | _, _ => rounded

def add : Cell → Cell → Cell := arith (· + ·)

def sub : Cell → Cell → Cell := arith (· - ·)

def growth (before after : Cell) : Cell :=
  let step := after.sub before
  if 0 < step.value then step else .int 0

def isReal : Cell → Bool
  | .int _ => false
  | .real _ => true

/-- The sum of a group: real as soon as one member is, otherwise whole and an overflow outside the
column range. -/
def sum (cells : List Cell) : Except StoreFault Cell :=
  let total := cells.foldr (fun c total => c.value + total) 0
  if cells.any isReal then .ok (.real (roundDouble total))
  else if fitsColumn total then .ok (.int total)
  else .error .integerOverflow

theorem add_int {m n : Int} (h : fitsColumn (m + n) = true) :
    add (.int m) (.int n) = .int (m + n) := by
  simp [add, arith, h]

end Cell

end TrafficMeter.Store
