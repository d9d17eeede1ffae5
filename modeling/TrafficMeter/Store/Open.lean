import TrafficMeter.Store.Migration

/-!
Opening a database file: its directory is created, the file read or begun, and the schema brought
up to date. A file that holds anything but a database is left alone.
-/

namespace TrafficMeter.Store

inductive Entry
  | directory
  | text (octets : List UInt8)
  | database (db : Database)
  deriving DecidableEq, Repr

def Entry.isFile : Entry → Bool
  | .directory => false
  | _ => true

def stepsOf (path : String) : List String :=
  let parts := path.splitOn "/"
  (List.range parts.length).map fun n => "/".intercalate (parts.take (n + 1))

def parentOf (path : String) : String := "/".intercalate (path.splitOn "/").dropLast

/-- Why a directory and those above it cannot be made, if so. -/
def directoryFault? (lookup : String → Option Entry) (path : String) : Option OsFault :=
  if (lookup path).any Entry.isFile then some .alreadyExists
  else if (stepsOf path).any fun step => (lookup step).any Entry.isFile then some .notADirectory
  else none

def locate (lookup : String → Option Entry) (path : String) : Outcome Database := do
  let parent := parentOf path
  if parent ≠ "" then
    match directoryFault? lookup parent with
    | some fault =>
      Outcome.within s!"creating database directory {parent}" (Outcome.fail (.os fault))
    | none => pure ()
  match lookup path with
  | none | some (.text []) => return .blank
  | some (.database db) => return db
  | some .directory =>
    Outcome.within s!"opening database {path}" (Outcome.fail (.store .cannotOpen))
  | some (.text _) => Outcome.within "setting journal_mode" (Outcome.fail (.store .notADatabase))

namespace Action

def prepare : Action Unit := within "applying schema migrations" migrateUp

end Action

def Database.upToDate (db : Database) : Outcome Database :=
  match Action.prepare.run db with
  | (.ok _, after) => .ok after
  | (.error failure, _) => .error failure

def openAt (lookup : String → Option Entry) (path : String) : Outcome Database := do
  (← locate lookup path).upToDate

def Database.fresh : Database := (Action.prepare.run .blank).2

end TrafficMeter.Store
