/-!
Reading octets as UTF-8. `scan` cuts the octets into characters and ill-formed stretches, each
stretch as long as some character's beginning allows. `decode?` refuses any such stretch and
`decodeLossy` shows each as one replacement character.
-/

namespace TrafficMeter.Text.Utf8

def continues (b : UInt8) : Bool := 0x80 ≤ b && b ≤ 0xbf

def payload (b : UInt8) : Nat := b.toNat % 64

/-- Whether `second` may follow the leading octet `first`: no overlong form, no surrogate and
nothing past the last code point. -/
def startsWell (first second : UInt8) : Bool :=
  if first == 0xe0 then 0xa0 ≤ second && second ≤ 0xbf
  else if first == 0xed then 0x80 ≤ second && second ≤ 0x9f
  else if first == 0xf0 then 0x90 ≤ second && second ≤ 0xbf
  else if first == 0xf4 then 0x80 ≤ second && second ≤ 0x8f
  else continues second

/-- What begins with the octet `first`: a character, or none where the octets are ill-formed, and
how many octets after `first` belong to it. -/
def head (first : UInt8) (rest : List UInt8) : Option Char × Nat :=
  if first < 0x80 then (some (Char.ofNat first.toNat), 0)
  else if 0xc2 ≤ first && first ≤ 0xdf then
    match rest with
    | b :: _ =>
      if continues b then (some (Char.ofNat ((first.toNat - 0xc0) * 64 + payload b)), 1)
      else (none, 0)
    | [] => (none, 0)
  else if 0xe0 ≤ first && first ≤ 0xef then
    match rest with
    | b :: c :: _ =>
      if !startsWell first b then (none, 0)
      else if !continues c then (none, 1)
      else (some (Char.ofNat (((first.toNat - 0xe0) * 64 + payload b) * 64 + payload c)), 2)
    | [b] => (none, if startsWell first b then 1 else 0)
    | [] => (none, 0)
  else if 0xf0 ≤ first && first ≤ 0xf4 then
    match rest with
    | b :: c :: d :: _ =>
      if !startsWell first b then (none, 0)
      else if !continues c then (none, 1)
      else if !continues d then (none, 2)
      else
        let upper := ((first.toNat - 0xf0) * 64 + payload b) * 64 + payload c
        (some (Char.ofNat (upper * 64 + payload d)), 3)
    | [b, c] => (none, if !startsWell first b then 0 else if continues c then 2 else 1)
    | [b] => (none, if startsWell first b then 1 else 0)
    | [] => (none, 0)
  else (none, 0)

def scan : List UInt8 → List (Option Char)
  | [] => []
  | first :: rest =>
    let (unit, size) := head first rest
    unit :: scan (rest.drop size)
termination_by octets => octets.length
decreasing_by simp only [List.length_drop, List.length_cons]; omega

def decode? (octets : List UInt8) : Option String :=
  ((scan octets).mapM id).map String.ofList

def decodeLossy (octets : List UInt8) : String :=
  String.ofList ((scan octets).map (·.getD '\ufffd'))

end TrafficMeter.Text.Utf8
