import TrafficMeter.Agent
import TrafficMeter.Cli.Arguments
import TrafficMeter.Config.Load
import TrafficMeter.Config.LogFilter
import TrafficMeter.Json.Writer

/-!
What the program answers to its arguments: an exit code, what it prints, and the database that it
leaves. Files and the clock are given to it.
-/

namespace TrafficMeter.Cli

structure Surroundings where
  file : String → Except OsFault (List UInt8)
  entry : String → Option Store.Entry
  now : Int

structure Reply where
  code : Nat
  output : String
  errors : String
  saved : Option (String × Store.Database)

def versionText : String := "trafficd 0.1.0 (commit: unknown, linux/x86_64)"

def usageText : String :=
  "Usage: trafficd [--config <PATH>] [--log-level <LEVEL>] [version|compact|runs|dashboard]"

def printed (text : String) : Reply := ⟨0, text ++ "\n", "", none⟩

def padRight (width : Nat) (text : String) : String :=
  text ++ String.ofList (List.replicate (width - text.length) ' ')

def padLeft (width n : Nat) : String :=
  let text := toString n
  String.ofList (List.replicate (width - text.length) ' ') ++ text

/-- The causes of a failure, numbered if there are several. -/
def causeLines : List String → List String
  | [only] => ["    " ++ only]
  | causes => (causes.zip (List.range causes.length)).map fun (cause, n) =>
    padLeft 5 n ++ ": " ++ cause

def failureText (failure : Failure) : String :=
  match failure.trail ++ [failure.cause.message] with
  | [] => "Error: "
  | [outer] => "Error: " ++ outer
  | outer :: causes => "Error: " ++ outer ++ "\n\nCaused by:\n" ++ "\n".intercalate (causeLines causes)

def failed (failure : Failure) : Reply := ⟨1, "", failureText failure ++ "\n", none⟩

def runLine (run : Store.Run) : String :=
  "\t".intercalate [toString run.ts, padRight 12 run.source, padLeft 6 run.millis ++ "ms",
    padLeft 6 run.inserted, run.error.getD "ok"] ++ "\n"

def outcomeJson (o : RetentionOutcome) : Json :=
  .object [("traffic_deleted", .ofNat o.trafficDeleted), ("peers_deleted", .ofNat o.peersDeleted),
    ("traffic_compressed", .ofNat o.trafficCompressed),
    ("peers_compressed", .ofNat o.peersCompressed), ("vacuumed", .bool o.vacuumed)]

def openStore (s : Surroundings) (c : Config) : Outcome Store.Database :=
  Outcome.within s!"opening {c.database.path}" (Store.openAt s.entry c.database.path)

/-- Runs one retention pass and records it. -/
def compact (s : Surroundings) (c : Config) : Reply :=
  match openStore s c with
  | .error failure => failed failure
  | .ok db =>
    let passed := (Compactor.ofConfig c.retention).run s.now db
    let run := Store.Run.ofTick Sampler.retention.source s.now ⟨0⟩
      (passed.result.map (·.rowsRemoved))
    let saved := some (c.database.path, passed.database.recording run)
    match passed.result with
    | .error failure =>
      { failed (.of (.reported s!"retention pass failed: {failure.message}")) with saved := saved }
    | .ok outcome => { printed (outcomeJson outcome).pretty with saved := saved }

def runs (s : Surroundings) (c : Config) (source : Option String) (limit : Nat) : Reply :=
  match Store.openAt s.entry c.database.path with
  | .error failure => failed failure
  | .ok db =>
    { code := 0, output := String.join ((Store.recentRuns source limit db).map runLine), errors := ""
      saved := some (c.database.path, db) }

def dashboard (s : Surroundings) (c : Config) (since : Span) : Reply :=
  let shown : Outcome (Dashboard × Store.Database) := do
    let db ← openStore s c
    let first := earlier s.now since.wholeSeconds
    return (← (Agent.viewOf c).build first s.now db.tables, db)
  match shown with
  | .error failure => failed failure
  | .ok (d, db) => { printed d.toJson.pretty with saved := some (c.database.path, db) }

def configure (s : Surroundings) (i : Invocation) : Outcome Config := do
  match i.config with
  | none => Outcome.fail (.reported "--config is required (use --help for usage)")
  | some path =>
    let c ← Outcome.within s!"loading config from {path}" (Config.load path (s.file path))
    let level := i.logLevel.getD c.logLevel
    if LogFilter.isWellFormed level then return c
    else Outcome.within s!"invalid log level: {level}" (Outcome.fail (.reported "invalid filter"))

def perform (s : Surroundings) (c : Config) : Option Command → Reply
  | some .version => printed versionText
  | some .compact => compact s c
  | some (.runs source limit) => runs s c source limit
  | some (.dashboard since) => dashboard s c since
  | none => failed (.of (.reported "the agent needs a network and a scheduler"))

def invoke (s : Surroundings) (i : Invocation) : Reply :=
  if i.command = some .version then printed versionText
  else
    match configure s i with
    | .error failure => failed failure
    | .ok c => perform s c i.command

def reply (s : Surroundings) (arguments : List String) : Reply :=
  match parse arguments with
  | .help => printed usageText
  | .misused => ⟨2, "", usageText ++ "\n", none⟩
  | .done i => invoke s i

end TrafficMeter.Cli
