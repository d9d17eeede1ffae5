import TrafficMeter.Config.Load
import TrafficMeter.Json.Reader
import TrafficMeter.Text.Blank

/-!
The identities that a proxy configuration lists. They are read from its JSON document, and read
again only when the file has another modification time than the one that was read before.
-/

namespace TrafficMeter

structure ProxyClient where
  email : Option String
  deriving DecidableEq, Repr

structure ProxyInbound where
  clients : Option (List ProxyClient)
  deriving DecidableEq, Repr

structure ProxyDocument where
  inbounds : List ProxyInbound
  deriving DecidableEq, Repr

def optionalField {α : Type} (get : String → Option Json) (name : String)
    (read : Json → Option α) : Option (Option α) :=
  match get name with
  | none | some .null => some none
  | some value => (read value).map some

def listField {α : Type} (get : String → Option Json) (name : String) (read : Json → Option α) :
    Option (List α) :=
  match get name with
  | none => some []
  | some value => do (← value.items?).mapM read

def ProxyClient.ofJson? (value : Json) : Option ProxyClient := do
  let get ← value.record? ["email"]
  return ⟨← optionalField get "email" Json.text?⟩

def ProxyInbound.ofJson? (value : Json) : Option ProxyInbound := do
  let get ← value.record? ["settings"]
  let clients ← optionalField get "settings" fun settings => do
    listField (← settings.record? ["clients"]) "clients" ProxyClient.ofJson?
  return ⟨clients⟩

namespace ProxyDocument

def ofJson? (value : Json) : Option ProxyDocument := do
  let get ← value.record? ["inbounds"]
  return ⟨← listField get "inbounds" ProxyInbound.ofJson?⟩

def emails (d : ProxyDocument) : List String :=
  (d.inbounds.flatMap fun inbound => inbound.clients.getD []).filterMap (·.email)

def firstOccurrences (seen : List String) : List String → List String
  | [] => []
  | id :: rest =>
    if seen.contains id then firstOccurrences seen rest
    else id :: firstOccurrences (id :: seen) rest

/-- The identities of a document: its emails without surrounding blanks, each once. -/
def identities (d : ProxyDocument) : List String :=
  firstOccurrences [] ((d.emails.map Text.trim).filter fun email => !email.isEmpty)

def read (text : String) : Outcome ProxyDocument :=
  match (Json.read? text).bind ofJson? with
  | some document => .ok document
  | none => Outcome.fail .json

end ProxyDocument

structure StampedFile where
  modified : Int
  octets : List UInt8
  deriving DecidableEq, Repr

structure RosterEntry where
  modified : Int
  identities : List String
  deriving DecidableEq, Repr

structure Roster where
  path : String
  entry : Option RosterEntry
  deriving DecidableEq, Repr

namespace Roster

def ofPath (path : String) : Roster := ⟨path, none⟩

def parse (path : String) (octets : List UInt8) : Outcome (List String) := do
  let text ← Outcome.within s!"reading proxy config {path}" (fileText (.ok octets))
  let document ← Outcome.within s!"parsing proxy config {path}" (ProxyDocument.read text)
  return document.identities

/-- The identities of the file as it is now, and the roster that remembers them. -/
def identities (r : Roster) (file : Except OsFault StampedFile) :
    Outcome (List String) × Roster :=
  match file with
  | .error fault =>
    (Outcome.within s!"reading metadata of {r.path}" (Outcome.fail (.os fault)), r)
  | .ok file =>
    match r.entry.filter (·.modified = file.modified) with
    | some entry => (.ok entry.identities, r)
    | none =>
      match parse r.path file.octets with
      | .ok identities => (.ok identities, { r with entry := some ⟨file.modified, identities⟩ })
      | .error failure => (.error failure, r)

end Roster

end TrafficMeter
