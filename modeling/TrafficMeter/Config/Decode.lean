import TrafficMeter.Config.Basic
import TrafficMeter.Json.Basic
import TrafficMeter.Yaml.Node

/-!
Reading a configuration from a document. A `Format` says how a kind of document shows records,
lists, texts and numbers; `Config.decode?` needs no more than that. Fields that are left out have
their defaults, and fields that no record knows are skipped.
-/

namespace TrafficMeter

/-- How the values of a kind of document are read. -/
structure Format (ν : Type) where
  /-- A record, for the names of its fields. -/
  record : List String → ν → Option (String → Option ν)
  items : ν → Option (List ν)
  /-- The members of a map from texts. -/
  entries : ν → Option (List (String × ν))
  text : ν → Option String
  bool : ν → Option Bool
  /-- A whole number up to a limit. -/
  natural : Nat → ν → Option Nat
  /-- The name of a variant without content. -/
  variant : ν → Option String

namespace Format

variable {ν α : Type}

def field (fields : String → Option ν) (name : String) (read : ν → Option α) (default : α) :
    Option α :=
  match fields name with
  | some value => read value
  | none => some default

def span (f : Format ν) (value : ν) : Option Span := do Span.parse? (← f.text value)

def texts (f : Format ν) (value : ν) : Option (List String) := do (← f.items value).mapM f.text

def maxSize : Nat := 18446744073709551615

def size (f : Format ν) : ν → Option Nat := f.natural maxSize

def days (f : Format ν) : ν → Option Nat := f.natural 4294967295

def names (f : Format ν) (value : ν) : Option PeerNames := do
  let entries ← (← f.entries value).mapM fun (key, name) => do return (key, ← f.text name)
  return .ofList entries

def mode (f : Format ν) (value : ν) : Option ProxyMode := do
  match ← f.variant value with
  | "per_user" => some .perUser
  | "log_attribution" => some .logAttribution
  | _ => none

def resetPolicy (f : Format ν) (value : ν) : Option ResetPolicy := do
  match ← f.variant value with
  | "clamp_to_zero" => some .clampToZero
  | "count_from_zero" => some .countFromZero
  | _ => none

def database (f : Format ν) (value : ν) : Option DatabaseConfig := do
  let get ← f.record ["path", "busy_timeout"] value
  let default : DatabaseConfig := {}
  return {
    path := ← field get "path" f.text default.path
    busyTimeout := ← field get "busy_timeout" f.span default.busyTimeout }

def proxy (f : Format ν) (value : ν) : Option ProxyConfig := do
  let get ← f.record ["enabled", "mode", "stats_url", "config_path", "timeout", "interval",
    "log_path", "identity_marker", "log_poll_interval", "attribution_interval", "active_window",
    "tags", "ring_capacity"] value
  let default : ProxyConfig := {}
  return {
    enabled := ← field get "enabled" f.bool default.enabled
    mode := ← field get "mode" f.mode default.mode
    statsUrl := ← field get "stats_url" f.text default.statsUrl
    configPath := ← field get "config_path" f.text default.configPath
    timeout := ← field get "timeout" f.span default.timeout
    interval := ← field get "interval" f.span default.interval
    logPath := ← field get "log_path" f.text default.logPath
    identityMarker := ← field get "identity_marker" f.text default.identityMarker
    logPollInterval := ← field get "log_poll_interval" f.span default.logPollInterval
    attributionInterval := ← field get "attribution_interval" f.span default.attributionInterval
    activeWindow := ← field get "active_window" f.span default.activeWindow
    tags := ← field get "tags" f.texts default.tags
    ringCapacity := ← field get "ring_capacity" f.size default.ringCapacity }

def peers (f : Format ν) (value : ν) : Option PeersConfig := do
  let get ← f.record ["enabled", "interface", "wg_binary", "interval", "timeout", "max_batch",
    "names"] value
  let default : PeersConfig := {}
  return {
    enabled := ← field get "enabled" f.bool default.enabled
    interface := ← field get "interface" f.text default.interface
    wgBinary := ← field get "wg_binary" f.text default.wgBinary
    interval := ← field get "interval" f.span default.interval
    timeout := ← field get "timeout" f.span default.timeout
    maxBatch := ← field get "max_batch" f.size default.maxBatch
    names := ← field get "names" f.names default.names }

def counters (f : Format ν) (value : ν) : Option ResetPolicy := do
  let get ← f.record ["reset_policy"] value
  field get "reset_policy" f.resetPolicy .clampToZero

def retention (f : Format ν) (value : ν) : Option RetentionConfig := do
  let get ← f.record ["traffic_days", "peer_days", "compress_after", "startup_delay", "interval"]
    value
  let default : RetentionConfig := {}
  return {
    trafficDays := ← field get "traffic_days" f.days default.trafficDays
    peerDays := ← field get "peer_days" f.days default.peerDays
    compressAfter := ← field get "compress_after" f.span default.compressAfter
    startupDelay := ← field get "startup_delay" f.span default.startupDelay
    interval := ← field get "interval" f.span default.interval }

def dashboard (f : Format ν) (default : Nat) (value : ν) : Option Nat := do
  field (← f.record ["top_limit"] value) "top_limit" f.size default

def health (f : Format ν) (default : String) (value : ν) : Option String := do
  field (← f.record ["addr"] value) "addr" f.text default

end Format

def Config.decode? {ν : Type} (f : Format ν) (value : ν) : Option Config := do
  let get ← f.record ["log_level", "database", "proxy", "peers", "counters", "retention",
    "dashboard", "health"] value
  let default : Config := {}
  return {
    logLevel := ← Format.field get "log_level" f.text default.logLevel
    database := ← Format.field get "database" f.database default.database
    proxy := ← Format.field get "proxy" f.proxy default.proxy
    peers := ← Format.field get "peers" f.peers default.peers
    resetPolicy := ← Format.field get "counters" f.counters default.resetPolicy
    retention := ← Format.field get "retention" f.retention default.retention
    topLimit := ← Format.field get "dashboard" (f.dashboard default.topLimit) default.topLimit
    healthAddr := ← Format.field get "health" (f.health default.healthAddr) default.healthAddr }

namespace Json

/-- The name of a variant: a string, or an object with that one member and no value in it. -/
def variant? : Json → Option String
  | .str text => text
  | .obj [(name, .null)] => name
  | _ => none

def format : Format Json where
  record := Json.record?
  items := Json.items?
  entries value := do
    (← value.members?).mapM fun (name, value) => do return (← name, value)
  text := Json.text?
  bool := Json.bool?
  natural := Json.nat?
  variant := Json.variant?

end Json

namespace Yaml

/-- Whether a scalar may be read as other than a text: it is plain, or a literal block with the
tag. -/
def isTyped (tag : String) : Option String → Style → Bool
  | _, .plain => true
  | some given, .literal => given == "tag:yaml.org,2002:" ++ tag
  | _, _ => false

def bool? (text : String) : Option Bool :=
  if text == "true" || text == "True" || text == "TRUE" then some true
  else if text == "false" || text == "False" || text == "FALSE" then some false
  else none

def natural? (limit : Nat) (text : String) : Option Nat :=
  let unsigned := fun chars : List Char => if chars.head? == some '+' then chars.tail else chars
  let chars := unsigned text.toList
  let based := fun base (digits : List Char) =>
    if digits.head? == some '+' || digits.head? == some '-' then none
    else Text.unsignedIn? base limit digits
  let decimal :=
    if chars.head? == some '+' || chars.head? == some '-' then none
    else if 1 < chars.length && chars.head? == some '0' && chars.tail.all Char.isDigit then none
    else Text.unsignedIn? 10 limit chars
  match chars with
  | '0' :: 'x' :: digits => based 16 digits
  | '0' :: 'o' :: digits => based 8 digits
  | '0' :: 'b' :: digits => based 2 digits
  | _ => decimal

def isNull (text : String) : Bool :=
  text == "" || text == "~" || text == "null" || text == "Null" || text == "NULL"

def localTag? : Option String → Option String
  | none => none
  | some tag =>
    match tag.toList with
    | ['!'] => some "!"
    | '!' :: name => some (String.ofList name)
    | _ => none

namespace Document

def text? (d : Document) (node : Node) : Option String :=
  match d.resolve node with
  | some (.scalar _ _ text) => some text
  | _ => none

/-- The members of a mapping with texts as keys; a node that was left out has none. -/
def entries? (d : Document) (node : Node) : Option (List (String × Node)) :=
  match d.resolve node with
  | some (.mapping _ members) =>
    members.mapM fun (key, value) => do return (← d.text? key, value)
  | some node => if node.isMissing then some [] else none
  | none => none

def record? (d : Document) (fields : List String) (node : Node) :
    Option (String → Option Node) := do
  let entries ← d.entries? node
  if fields.any fun field => 1 < (entries.filter (·.1 == field)).length then none
  else return fun field => (entries.find? (·.1 == field)).map (·.2)

def items? (d : Document) (node : Node) : Option (List Node) :=
  match d.resolve node with
  | some (.sequence _ items) => some items
  | some node => if node.isMissing then some [] else none
  | none => none

def bool? (d : Document) (node : Node) : Option Bool :=
  match d.resolve node with
  | some (.scalar tag style text) => if isTyped "bool" tag style then Yaml.bool? text else none
  | _ => none

def natural? (d : Document) (limit : Nat) (node : Node) : Option Nat :=
  match d.resolve node with
  | some (.scalar tag style text) =>
    if isTyped "int" tag style then Yaml.natural? limit text else none
  | _ => none

/-- The name of a variant: a scalar, or the tag of a null. -/
def variant? (d : Document) (node : Node) : Option String :=
  match d.resolve node with
  | some (.scalar tag style text) =>
    match localTag? tag with
    | some name => if style == .plain && isNull text then some name else none
    | none => some text
  | _ => none

def format (d : Document) : Format Node where
  record := d.record?
  items := d.items?
  entries := d.entries?
  text := d.text?
  bool := d.bool?
  natural := d.natural?
  variant := d.variant?

end Document

end Yaml

namespace Config

def ofJson (value : Json) : Outcome Config :=
  match Config.decode? Json.format value with
  | some config => .ok config
  | none => Outcome.fail .json

def ofYaml (text : String) : Outcome Config :=
  let config? := do
    let document ← Yaml.Document.read? text
    Config.decode? document.format (document.root.getD Yaml.Node.missing)
  match config? with
  | some config => .ok config
  | none => Outcome.fail .yaml

end Config

end TrafficMeter
