/-!
Filters of the log: directives with commas between. A directive is a level, or a target and a span
in brackets, either of which may be missing, and may end in an equals sign and a level.
-/

namespace TrafficMeter.LogFilter

/-- How far a directive has been read; where its level begins is counted in characters. -/
inductive Part
  | start
  | target
  | span
  | field (empty : Bool)
  | fields
  | spanned
  | level (start : Nat)

def startsTarget (c : Char) : Bool :=
  c == '-' || c == ':' || c == '_' || c.isAlphanum || 127 < c.toNat

def step (part : Part) (place : Nat) (c : Char) : Option Part :=
  match part with
  | .start => if c == '[' then some .span else if startsTarget c then some .target else none
  | .target =>
    some (if c == '=' then .level (place + 1) else if c == '[' then .span else .target)
  | .span => some (if c == ']' then .spanned else if c == '\x7b' then .field true else .span)
  | .field empty =>
    if c == '\x7d' then (if empty then none else some .fields) else some (.field false)
  | .fields => if c == ']' then some .spanned else none
  | .spanned => if c == '=' then some (.level (place + 1)) else none
  | .level start => some (.level start)

def isLevel (text : String) : Bool :=
  ["", "off", "error", "warn", "info", "debug", "trace", "0", "1", "2", "3", "4", "5"].contains
    text.toLower

def isDirective (directive : List Char) : Bool :=
  let last := directive.zipIdx.foldlM (fun part (c, place) => step part place c) Part.start
  match last with
  | some .target | some .spanned => true
  | some (.level start) => isLevel (String.ofList (directive.drop start))
  | _ => false

/-- Whether a filter is well formed. Directives without a character are skipped. -/
def isWellFormed (filter : String) : Bool :=
  (filter.splitOn ",").all fun directive => directive.isEmpty || isDirective directive.toList

end TrafficMeter.LogFilter
