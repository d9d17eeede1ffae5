import TrafficMeter.Amount
import TrafficMeter.Keyed
import TrafficMeter.Span
import TrafficMeter.Text.Number

/-!
The arguments of the command line. Options before the command belong to the program, those after it
to the command. An option takes a value, either the next argument or, behind an equals sign, the
rest of its own; none may be given twice.
-/

namespace TrafficMeter.Cli

inductive Command
  | version
  | compact
  | runs (source : Option String) (limit : Nat)
  | dashboard (since : Span)
  deriving DecidableEq, Repr

/-- A use of the program; without a command it runs the agent. -/
structure Invocation where
  config : Option String
  logLevel : Option String
  command : Option Command
  deriving DecidableEq, Repr

inductive Parsed (α : Type)
  | help
  | misused
  | done (value : α)

/-- An option: its name, its letter if it has one, and which values it takes. -/
structure OptionSpec where
  name : String
  letter : Option Char
  accepts : String → Bool

/-- The values of options by name, and the arguments from the first one on that is none. -/
structure Options where
  values : Keyed String String
  rest : List String

def looksLikeOption (argument : String) : Bool :=
  argument.startsWith "-" && argument != "-"

inductive Piece
  | help
  | option (spec : OptionSpec) (value : Option String)
  | unknown
  | word

def attached (spec : Option OptionSpec) (value : Option String) : Piece :=
  match spec with
  | some spec => .option spec value
  | none => .unknown

def Piece.ofArgument (specs : List OptionSpec) (argument : String) : Piece :=
  match argument.toList with
  | '-' :: '-' :: text =>
    let name := String.ofList (text.takeWhile (· != '='))
    let value := (text.dropWhile (· != '=')).tail?.map String.ofList
    if name = "help" then (if value.isNone then .help else .unknown)
    else attached (specs.find? (·.name == name)) value
  | '-' :: letter :: text =>
    if letter = 'h' then .help
    else
      let value := match text with
        | [] => none
        | '=' :: text => some (String.ofList text)
        | text => some (String.ofList text)
      attached (specs.find? (·.letter == some letter)) value
  | _ => .word

def give (values : Keyed String String) (spec : OptionSpec) (value : String) :
    Option (Keyed String String) :=
  if (values.get? spec.name).isNone && spec.accepts value then
    some (values.insert spec.name value)
  else none

/-- Reads options up to the first argument that is none. -/
def options (specs : List OptionSpec) (values : Keyed String String) :
    List String → Parsed Options
  | [] => .done ⟨values, []⟩
  | argument :: rest =>
    if argument = "--" then (if rest.isEmpty then .done ⟨values, []⟩ else .misused)
    else
      match Piece.ofArgument specs argument with
      | .help => .help
      | .unknown => .misused
      | .word => .done ⟨values, argument :: rest⟩
      | .option spec (some value) =>
        match give values spec value with
        | some values => options specs values rest
        | none => .misused
      | .option spec none =>
        match rest with
        | [] => .misused
        | value :: rest =>
          if looksLikeOption value then .misused
          else
            match give values spec value with
            | some values => options specs values rest
            | none => .misused

def commandOptions (specs : List OptionSpec) (arguments : List String) :
    Parsed (Keyed String String) :=
  match options specs .empty arguments with
  | .help => .help
  | .misused => .misused
  | .done parsed => if parsed.rest.isEmpty then .done parsed.values else .misused

def Parsed.map {α β : Type} (f : α → β) : Parsed α → Parsed β
  | .help => .help
  | .misused => .misused
  | .done value => .done (f value)

def limit? (text : String) : Option Nat := Text.unsigned? maxCount text.toList

def defaultLimit : Nat := 20

def defaultSince : Span := .ofSeconds 86400

def anyText : String → Bool := fun _ => true

def programSpecs : List OptionSpec := [
  ⟨"config", some 'c', fun value => !value.isEmpty⟩,
  ⟨"log-level", none, anyText⟩]

def runsSpecs : List OptionSpec := [
  ⟨"source", none, anyText⟩,
  ⟨"limit", none, fun value => (limit? value).isSome⟩]

def dashboardSpecs : List OptionSpec := [⟨"since", none, fun value => (Span.parse? value).isSome⟩]

def commandNames : List String := ["version", "compact", "runs", "dashboard", "help"]

def command (name : String) (arguments : List String) : Parsed Command :=
  match name with
  | "version" => (commandOptions [] arguments).map fun _ => .version
  | "compact" => (commandOptions [] arguments).map fun _ => .compact
  | "runs" => (commandOptions runsSpecs arguments).map fun values =>
    .runs (values.get? "source") (((values.get? "limit").bind limit?).getD defaultLimit)
  | "dashboard" => (commandOptions dashboardSpecs arguments).map fun values =>
    .dashboard (((values.get? "since").bind Span.parse?).getD defaultSince)
  | "help" =>
    match arguments with
    | [] => .help
    | [topic] => if commandNames.contains topic then .help else .misused
    | _ => .misused
  | _ => .misused

def parse (arguments : List String) : Parsed Invocation :=
  match options programSpecs .empty arguments with
  | .help => .help
  | .misused => .misused
  | .done ⟨values, rest⟩ =>
    let invocation : Invocation := ⟨values.get? "config", values.get? "log-level", none⟩
    match rest with
    | [] => .done invocation
    | name :: rest => (command name rest).map fun c => { invocation with command := some c }

end TrafficMeter.Cli
