/-!
Reading decimal integers: an optional sign, then ASCII digits only, within stated bounds.
-/

namespace TrafficMeter.Text

def digit? (c : Char) : Option Nat :=
  if '0' ≤ c ∧ c ≤ '9' then some (c.toNat - '0'.toNat) else none

/-- The value of a digit in a base up to sixteen, letters in either case. -/
def digitIn? (base : Nat) (c : Char) : Option Nat :=
  let value? :=
    if '0' ≤ c ∧ c ≤ '9' then some (c.toNat - '0'.toNat)
    else if 'a' ≤ c ∧ c ≤ 'f' then some (c.toNat - 'a'.toNat + 10)
    else if 'A' ≤ c ∧ c ≤ 'F' then some (c.toNat - 'A'.toNat + 10)
    else none
  value?.filter (· < base)

def naturalIn? (base : Nat) : List Char → Option Nat
  | [] => none
  | text => text.foldlM (fun value c => (digitIn? base c).map (value * base + ·)) 0

def natural? (text : List Char) : Option Nat := naturalIn? 10 text

/-- A numeral in a base, at most `limit`; a plus sign may stand in front. -/
def unsignedIn? (base limit : Nat) : List Char → Option Nat
  | '+' :: digits => (naturalIn? base digits).filter (· ≤ limit)
  | digits => (naturalIn? base digits).filter (· ≤ limit)

def unsigned? (limit : Nat) (text : List Char) : Option Nat := unsignedIn? 10 limit text

def signed? (low high : Int) (text : List Char) : Option Int :=
  let value? : Option Int :=
    match text with
    | '-' :: digits => (natural? digits).map fun n => -(n : Int)
    | '+' :: digits => (natural? digits).map Int.ofNat
    | digits => (natural? digits).map Int.ofNat
  value?.filter fun n => low ≤ n ∧ n ≤ high

end TrafficMeter.Text
