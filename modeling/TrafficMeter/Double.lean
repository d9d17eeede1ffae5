/-!
Numbers in double precision, which have 53 binary digits. Rounding goes to the nearest one and in
the middle between two to the one whose last digit is even. As text a number has the fewest
decimal digits that read back as it, written out without an exponent.
-/

namespace TrafficMeter

/-- The whole quotient next to `n / d`, an even one if two are equally near. -/
def roundQuotient (n d : Nat) : Nat :=
  let low := n / d
  let rest := n % d
  if 2 * rest < d then low else if d < 2 * rest then low + 1 else low + low % 2

def roundMagnitude (n : Nat) : Nat :=
  if n < Nat.pow 2 53 then n
  else
    let unit := Nat.pow 2 (n.log2 - 52)
    roundQuotient n unit * unit

def roundDouble (n : Int) : Int :=
  if 0 ≤ n then (roundMagnitude n.toNat : Int) else -(roundMagnitude n.natAbs : Int)

/-- A number in double precision that is not negative: `mantissa * 2 ^ exponent`, where the mantissa
of a number other than zero has exactly 53 binary digits. -/
structure Double where
  mantissa : Nat
  exponent : Int
  deriving DecidableEq, Repr

namespace Double

def zero : Double := ⟨0, 0⟩

def scaled (n : Nat) (e : Int) : Nat × Nat :=
  if 0 ≤ e then (n * Nat.pow 2 e.toNat, 1) else (n, Nat.pow 2 e.natAbs)

def ratio (x : Double) : Nat × Nat := scaled x.mantissa x.exponent

def ofRatio (n d : Nat) : Double :=
  if n = 0 then zero
  else
    let guess : Int := (n.log2 : Int) - d.log2 - 52
    let quotient (e : Int) : Nat × Nat :=
      if 0 ≤ e then (n, d * Nat.pow 2 e.toNat) else (n * Nat.pow 2 e.natAbs, d)
    let e := if (quotient guess).1 < Nat.pow 2 52 * (quotient guess).2 then guess - 1 else guess
    let m := roundQuotient (quotient e).1 (quotient e).2
    if m = Nat.pow 2 53 then ⟨Nat.pow 2 52, e + 1⟩ else ⟨m, e⟩

def ofNat (n : Nat) : Double := ofRatio n 1

def add (x y : Double) : Double :=
  ofRatio (x.ratio.1 * y.ratio.2 + y.ratio.1 * x.ratio.2) (x.ratio.2 * y.ratio.2)

/-- The ends of the interval of numbers that round to `x`, in quarters of its last place. -/
def ends (x : Double) : Nat × Nat :=
  (4 * x.mantissa - (if x.mantissa = Nat.pow 2 52 then 1 else 2), 4 * x.mantissa + 2)

/-- Whether the decimal `digits * 10 ^ power` reads back as `x`. The ends of the interval do if the
mantissa is even. -/
def readsBack (x : Double) (digits : Nat) (power : Int) : Bool :=
  let (low, high) := x.ends
  let (n, d) :=
    if 0 ≤ power then (digits * Nat.pow 10 power.toNat, 1) else (digits, Nat.pow 10 power.natAbs)
  let (ln, ld) := scaled low (x.exponent - 2)
  let (hn, hd) := scaled high (x.exponent - 2)
  if x.mantissa % 2 = 0 then ln * d ≤ n * ld && n * hd ≤ hn * d
  else ln * d < n * ld && n * hd < hn * d

def magnitude (n d : Nat) : Int :=
  let guess : Int := ((Nat.toDigits 10 n).length : Int) - (Nat.toDigits 10 d).length
  let reached := if 0 ≤ guess then d * Nat.pow 10 guess.toNat ≤ n else d ≤ n * Nat.pow 10 guess.natAbs
  if reached then guess else guess - 1

/-- A decimal of `places` digits that reads back as `x`, the nearest one. -/
def decimal? (x : Double) (places : Nat) : Option (Nat × Int) :=
  let (n, d) := x.ratio
  let power := magnitude n d + 1 - places
  let (n, d) :=
    if 0 ≤ power then (n, d * Nat.pow 10 power.toNat) else (n * Nat.pow 10 power.natAbs, d)
  let near := roundQuotient n d
  let other := if near = n / d then near + 1 else near - 1
  if x.readsBack near power then some (near, power)
  else if x.readsBack other power then some (other, power)
  else none

def shortest (x : Double) : Nat × Int :=
  ((List.range 17).findSome? fun k => x.decimal? (k + 1)).getD (0, 0)

def writeDecimal (digits : Nat) (power : Int) : String :=
  if 0 ≤ power then toString (digits * Nat.pow 10 power.toNat)
  else
    let places := power.natAbs
    let text := Nat.toDigits 10 digits
    let padded := List.replicate (places + 1 - text.length) '0' ++ text
    let split := padded.length - places
    String.ofList (padded.take split ++ '.' :: padded.drop split)

def text (x : Double) : String :=
  if x.mantissa = 0 then "0" else writeDecimal x.shortest.1 x.shortest.2

end Double

end TrafficMeter
