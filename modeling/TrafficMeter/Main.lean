import Std.Time.DateTime.Timestamp
import TrafficMeter.Cli.Run
import TrafficMeter.Store.Archive

/-!
The program: it looks up the files that an invocation reads, prints the reply and writes back the
database that the reply leaves.
-/

namespace TrafficMeter

def OsFault.ofError : IO.Error → OsFault
  | .noFileOrDirectory .. => .notFound
  | .inappropriateType (some _) .. => .notADirectory
  | .inappropriateType none .. => .isADirectory
  | .alreadyExists .. => .alreadyExists
  | _ => .permissionDenied

def readFile (path : String) : IO (Except OsFault (List UInt8)) := do
  try
    return .ok (← IO.FS.readBinFile path).toList
  catch fault =>
    return .error (.ofError fault)

def readEntry (path : String) : IO (Option Store.Entry) := do
  match ← readFile path with
  | .ok octets => return some (.ofOctets octets)
  | .error .isADirectory => return some .directory
  | .error _ => return none

namespace Cli

def Parsed.readConfig : Parsed Invocation → IO (String × Except OsFault (List UInt8))
  | .done { config := some path, .. } => return (path, ← readFile path)
  | _ => return ("", .error .notFound)

def survey (arguments : List String) : IO Surroundings := do
  let parsed := parse arguments
  let (path, contents) ← parsed.readConfig
  let now := (← Std.Time.Timestamp.now).toSecondsSinceUnixEpoch.toInt
  let file (asked : String) : Except OsFault (List UInt8) :=
    if asked = path then contents else .error .notFound
  let bare : Surroundings := ⟨file, fun _ => none, now⟩
  match parsed with
  | .done i =>
    match configure bare i with
    | .ok c =>
      let entries ← (Store.stepsOf c.database.path).mapM fun step => return (step, ← readEntry step)
      return { bare with entry := fun asked => (entries.lookup asked).join }
    | .error _ => return bare
  | _ => return bare

def save (path : String) (db : Store.Database) : IO Unit := do
  let parent := Store.parentOf path
  unless parent.isEmpty do IO.FS.createDirAll parent
  IO.FS.writeFile path db.toJson.compact

end Cli

end TrafficMeter

def main (arguments : List String) : IO UInt32 := do
  let reply := TrafficMeter.Cli.reply (← TrafficMeter.Cli.survey arguments) arguments
  if let some (path, db) := reply.saved then TrafficMeter.Cli.save path db
  IO.print reply.output
  IO.eprint reply.errors
  return reply.code.toUInt32
