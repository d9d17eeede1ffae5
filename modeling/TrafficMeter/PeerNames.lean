import TrafficMeter.Keyed

/-!
Display names of peers. A peer without a name of its own shows the first eight characters of its
key.
-/

namespace TrafficMeter

structure PeerNames where
  names : Keyed String String
  deriving DecidableEq, Repr

namespace PeerNames

def empty : PeerNames := ⟨.empty⟩

def ofList (entries : List (String × String)) : PeerNames := ⟨.ofList entries⟩

def shortLength : Nat := 8

/-- A key cut to the shown length, with an ellipsis for what is left out. -/
def shorten (key : String) : String :=
  let chars := key.toList
  if shortLength < chars.length then String.ofList (chars.take shortLength ++ ['…']) else key

def displayName (names : PeerNames) (key : String) : String :=
  match names.names.get? key with
  | some name => if name.isEmpty then shorten key else name
  | none => shorten key

end PeerNames

end TrafficMeter
