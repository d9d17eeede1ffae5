import TrafficMeter.Yaml.Token

/-!
The nodes of a YAML document. An alias stands for the node that its anchor names at the end of the
document; `Document.resolve` looks it up. A text holds one document, which may be empty.
-/

namespace TrafficMeter.Yaml

inductive Node
  | scalar (tag : Option String) (style : Style) (text : String)
  | sequence (tag : Option String) (items : List Node)
  | mapping (tag : Option String) (members : List (Node × Node))
  | alias (number : Nat)

namespace Node

def missing : Node := .scalar none .plain ""

def isMissing : Node → Bool
  | .scalar _ .plain text => text.isEmpty
  | _ => false

end Node

/-- A parser's state: the tokens left, the handles of tags, the number that each anchor name has
last got, and the nodes of the numbers, the latest first. -/
structure Reading where
  tokens : List Token
  handles : List (List Char × List Char)
  anchors : List (List Char × Nat)
  nodes : List (Nat × Node)

namespace Reading

def next (r : Reading) : Option Token := r.tokens.head?

def skip (r : Reading) : Reading := { r with tokens := r.tokens.tail }

/-- Gives an anchor name the next number. A name that comes again takes a new number, and so may
share it with the next new name. -/
def define (r : Reading) (name : List Char) : Nat × Reading :=
  let number := r.anchors.length
  (number, { r with
    anchors := (name, number) :: r.anchors.filter fun (other, _) => other != name })

def keep (r : Reading) (number : Option Nat) (node : Node) : Reading :=
  match number with
  | some number => { r with nodes := (number, node) :: r.nodes }
  | none => r

def tag? (r : Reading) (handle suffix : List Char) : Option String :=
  if handle.isEmpty then some (String.ofList suffix)
  else
    match r.handles.find? fun (known, _) => known == handle with
    | some (_, expansion) => some (String.ofList (expansion ++ suffix))
    | none => none

def properties? (r : Reading) : Option (Option Nat × Option String × Reading) :=
  match r.next with
  | some (.anchor name) =>
    let (number, r) := r.skip.define name
    match r.next with
    | some (.tag handle suffix) => do return (some number, ← r.tag? handle suffix, r.skip)
    | _ => some (some number, none, r)
  | some (.tag handle suffix) => do
    let tag ← r.tag? handle suffix
    let r := r.skip
    match r.next with
    | some (.anchor name) =>
      let (number, r) := r.skip.define name
      return (some number, some tag, r)
    | _ => return (none, some tag, r)
  | _ => some (none, none, r)

end Reading

inductive Place
  | flow
  | block
  | blockMember
  deriving DecidableEq, Repr

mutual

/-- Reads a node. A member of a block mapping may be a sequence without indentation of its own. -/
def node? : Nat → Place → Reading → Option (Node × Reading)
  | 0, _, _ => none
  | fuel + 1, place, r =>
    match r.next with
    | some (.alias name) => do
      let (_, number) ← r.anchors.find? fun (known, _) => known == name
      return (.alias number, r.skip)
    | _ => do
      let (anchor, tag, r) ← r.properties?
      let inBlock := place != .flow
      let (node, r) ←
        match r.next with
        | some (.scalar text style) => some (.scalar tag style (String.ofList text), r.skip)
        | some .flowSequenceStart => do
          let (items, r) ← flowItems? fuel true r.skip
          some (.sequence tag items, r)
        | some .flowMappingStart => do
          let (members, r) ← flowMembers? fuel true r.skip
          some (.mapping tag members, r)
        | some .blockSequenceStart =>
          if inBlock then do
            let (items, r) ← blockItems? fuel r.skip
            some (.sequence tag items, r)
          else bare? anchor tag r
        | some .blockMappingStart =>
          if inBlock then do
            let (members, r) ← blockMembers? fuel r.skip
            some (.mapping tag members, r)
          else bare? anchor tag r
        | some .blockEntry =>
          if place == .blockMember then do
            let (items, r) ← looseItems? fuel r
            some (.sequence tag items, r)
          else bare? anchor tag r
        | _ => bare? anchor tag r
      return (node, r.keep anchor node)

def bare? (anchor : Option Nat) (tag : Option String) (r : Reading) : Option (Node × Reading) :=
  if anchor.isSome || tag.isSome then some (.scalar tag .plain "", r) else none

def blockItems? : Nat → Reading → Option (List Node × Reading)
  | 0, _ => none
  | fuel + 1, r =>
    match r.next with
    | some .blockEntry => do
      let r := r.skip
      let (item, r) ←
        match r.next with
        | some .blockEntry | some .blockEnd => some (Node.missing, r)
        | _ => node? fuel .block r
      let (others, r) ← blockItems? fuel r
      return (item :: others, r)
    | some .blockEnd => some ([], r.skip)
    | _ => none

def looseItems? : Nat → Reading → Option (List Node × Reading)
  | 0, _ => none
  | fuel + 1, r =>
    match r.next with
    | some .blockEntry => do
      let r := r.skip
      let (item, r) ←
        match r.next with
        | some .blockEntry | some .key | some .value | some .blockEnd => some (Node.missing, r)
        | _ => node? fuel .block r
      let (others, r) ← looseItems? fuel r
      return (item :: others, r)
    | _ => some ([], r)

def blockPart? : Nat → Reading → Option (Node × Reading)
  | 0, _ => none
  | fuel + 1, r =>
    match r.next with
    | some .key | some .value | some .blockEnd => some (Node.missing, r)
    | _ => node? fuel .blockMember r

def blockMembers? : Nat → Reading → Option (List (Node × Node) × Reading)
  | 0, _ => none
  | fuel + 1, r =>
    match r.next with
    | some .key => do
      let (key, r) ← blockPart? fuel r.skip
      let (value, r) ←
        match r.next with
        | some .value => blockPart? fuel r.skip
        | _ => some (Node.missing, r)
      let (others, r) ← blockMembers? fuel r
      return ((key, value) :: others, r)
    | some .blockEnd => some ([], r.skip)
    | _ => none

def flowValue? : Nat → Reading → Option (Node × Reading)
  | 0, _ => none
  | fuel + 1, r =>
    match r.next with
    | some .value =>
      let r := r.skip
      match r.next with
      | some .flowEntry | some .flowMappingEnd | some .flowSequenceEnd => some (Node.missing, r)
      | _ => node? fuel .flow r
    | _ => some (Node.missing, r)

/-- The single pair of a sequence item with a key, behind the sign of the key. A key without any
content takes the token after it along. -/
def flowPair? : Nat → Reading → Option (Node × Reading)
  | 0, _ => none
  | fuel + 1, r => do
    let (key, r) ←
      match r.next with
      | some .value | some .flowEntry | some .flowSequenceEnd => some (Node.missing, r.skip)
      | _ => node? fuel .flow r
    let (value, r) ← flowValue? fuel r
    return (.mapping none [(key, value)], r)

def flowItems? : Nat → Bool → Reading → Option (List Node × Reading)
  | 0, _, _ => none
  | fuel + 1, isFirst, r =>
    match r.next with
    | some .flowSequenceEnd => some ([], r.skip)
    | token => do
      let r ← if isFirst then some r else if token == some .flowEntry then some r.skip else none
      match r.next with
      | some .flowSequenceEnd => return ([], r.skip)
      | some .key => do
        let (pair, r) ← flowPair? fuel r.skip
        let (others, r) ← flowItems? fuel false r
        return (pair :: others, r)
      | _ => do
        let (item, r) ← node? fuel .flow r
        let (others, r) ← flowItems? fuel false r
        return (item :: others, r)

def flowMembers? : Nat → Bool → Reading → Option (List (Node × Node) × Reading)
  | 0, _, _ => none
  | fuel + 1, isFirst, r =>
    match r.next with
    | some .flowMappingEnd => some ([], r.skip)
    | token => do
      let r ← if isFirst then some r else if token == some .flowEntry then some r.skip else none
      match r.next with
      | some .flowMappingEnd => return ([], r.skip)
      | some .key => do
        let r := r.skip
        let (key, r) ←
          match r.next with
          | some .value | some .flowEntry | some .flowMappingEnd => some (Node.missing, r)
          | _ => node? fuel .flow r
        let (value, r) ← flowValue? fuel r
        let (others, r) ← flowMembers? fuel false r
        return ((key, value) :: others, r)
      | _ => do
        let (key, r) ← node? fuel .flow r
        let (others, r) ← flowMembers? fuel false r
        return ((key, Node.missing) :: others, r)

end

structure Document where
  root : Option Node
  nodes : List (Nat × Node)

namespace Document

def resolve (d : Document) : Node → Option Node
  | .alias number => (d.nodes.find? (·.1 == number)).map (·.2)
  | node => some node

def defaultHandles : List (List Char × List Char) :=
  [(['!'], ['!']), (['!', '!'], "tag:yaml.org,2002:".toList)]

/-- The directives before a document, and what follows them. A version is 1.1 or 1.2 and given once;
a handle is given once too. -/
def directives? : List Token → Bool → List (List Char × List Char) →
    Option (List (List Char × List Char) × List Token)
  | .version major minor :: rest, versioned, handles =>
    if versioned || major != 1 || (minor != 1 && minor != 2) then none
    else directives? rest true handles
  | .tagHandle handle expansion :: rest, versioned, handles =>
    if handles.any (·.1 == handle) then none
    else directives? rest versioned (handles ++ [(handle, expansion)])
  | rest, _, handles => some (handles, rest)

def startsDocument (tokens : List Token) : Bool :=
  match tokens.head? with
  | some (.version ..) | some (.tagHandle ..) | some .documentStart => true
  | _ => false

def isDone (tokens : List Token) : Bool := (tokens.dropWhile (· == .documentEnd)).isEmpty

def ofTokens? (tokens : List Token) : Option Document := do
  if tokens.isEmpty then return ⟨none, []⟩
  else
    let isExplicit := startsDocument tokens
    let (given, tokens) ← directives? tokens false []
    let handles := given ++ defaultHandles
    let tokens ←
      if !isExplicit then some tokens
      else if tokens.head? == some .documentStart then some tokens.tail
      else none
    let r : Reading := ⟨tokens, handles, [], []⟩
    let (node, r) ←
      if isExplicit && (tokens.isEmpty || tokens.head? == some .documentEnd ||
          startsDocument tokens) then
        some (Node.missing, r)
      else node? (4 * tokens.length + 4) .block r
    if isDone r.tokens then some ⟨some node, r.nodes⟩ else none

def read? (text : String) : Option Document := do ofTokens? (← Token.scan? text.toList)

end Document

end TrafficMeter.Yaml
