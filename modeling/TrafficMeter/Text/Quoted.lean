import TrafficMeter.Text.Unprintable

/-!
Quoting a text for a message: quotes around it, a backslash before a quote or a backslash, short
names for the common controls, and the number of each other character that has no shape.
-/

namespace TrafficMeter.Text

def numericEscape (c : Char) : List Char :=
  "\\u\x7b".toList ++ Nat.toDigits 16 c.toNat ++ ['\x7d']

def quoteChar (c : Char) : List Char :=
  match c with
  | '\x00' => ['\\', '0']
  | '\t' => ['\\', 't']
  | '\r' => ['\\', 'r']
  | '\n' => ['\\', 'n']
  | '\\' => ['\\', '\\']
  | '"' => ['\\', '"']
  | c => if isUnprintable c then numericEscape c else [c]

def quoted (text : String) : String :=
  String.ofList ('"' :: text.toList.flatMap quoteChar ++ ['"'])

end TrafficMeter.Text
