/-!
White space. `isBlank` is the character property White_Space; `trim` drops its runs from both ends
of a text. Log lines and command output are cut at the five blanks of `isAsciiBlank` alone.
-/

namespace TrafficMeter.Text

def isBlank (c : Char) : Bool :=
  let n := c.toNat
  (0x9 ≤ n && n ≤ 0xd) || n == 0x20 || n == 0x85 || n == 0xa0 || n == 0x1680 ||
    (0x2000 ≤ n && n ≤ 0x200a) || n == 0x2028 || n == 0x2029 || n == 0x202f || n == 0x205f ||
    n == 0x3000

/-- Space, tab, line feed, form feed and carriage return: the octets that end a word of a log. -/
def isAsciiBlank (b : UInt8) : Bool :=
  b == 32 || b == 9 || b == 10 || b == 12 || b == 13

def trimChars (text : List Char) : List Char :=
  ((text.dropWhile isBlank).reverse.dropWhile isBlank).reverse

def trim (text : String) : String := String.ofList (trimChars text.toList)

end TrafficMeter.Text
