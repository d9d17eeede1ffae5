import TrafficMeter.Counters
import TrafficMeter.Failure
import TrafficMeter.PeerNames
import TrafficMeter.Span

/-!
The configuration of the agent, its defaults and its rules. `Config.validate` names the first rule
that a configuration breaks.
-/

namespace TrafficMeter

inductive ProxyMode
  | perUser
  | logAttribution
  deriving DecidableEq, Repr

structure DatabaseConfig where
  path : String := "trafficd.db"
  busyTimeout : Span := .ofSeconds 5
  deriving DecidableEq, Repr

structure ProxyConfig where
  enabled : Bool := false
  mode : ProxyMode := .perUser
  statsUrl : String := ""
  configPath : String := ""
  timeout : Span := .ofSeconds 5
  interval : Span := .ofSeconds 60
  logPath : String := ""
  identityMarker : String := "email: "
  logPollInterval : Span := .ofSeconds 5
  attributionInterval : Span := .ofSeconds 60
  activeWindow : Span := .ofSeconds 120
  tags : List String := []
  ringCapacity : Nat := 1440
  deriving DecidableEq, Repr

structure PeersConfig where
  enabled : Bool := false
  interface : String := "wg0"
  wgBinary : String := "wg"
  interval : Span := .ofSeconds 60
  timeout : Span := .ofSeconds 5
  maxBatch : Nat := 1000
  names : PeerNames := .empty
  deriving DecidableEq, Repr

structure RetentionConfig where
  trafficDays : Nat := 90
  peerDays : Nat := 90
  compressAfter : Span := .ofSeconds 604800
  startupDelay : Span := .ofSeconds 30
  interval : Span := .ofSeconds 86400
  deriving DecidableEq, Repr

structure Config where
  logLevel : String := "info"
  database : DatabaseConfig := {}
  proxy : ProxyConfig := {}
  peers : PeersConfig := {}
  resetPolicy : ResetPolicy := .clampToZero
  retention : RetentionConfig := {}
  topLimit : Nat := 10
  healthAddr : String := ":9090"
  deriving DecidableEq, Repr

/-- The shortest interval between readings of user counters. -/
def minSampleInterval : Span := .ofSeconds 30

def ProxyConfig.effectiveInterval (c : ProxyConfig) : Span :=
  if c.interval < minSampleInterval then minSampleInterval else c.interval

def RetentionConfig.trafficRetention (c : RetentionConfig) : Span := .ofSeconds (c.trafficDays * 86400)

def RetentionConfig.peerRetention (c : RetentionConfig) : Span := .ofSeconds (c.peerDays * 86400)

/-- The first fault whose condition holds. -/
def firstFault? (rules : List (Bool × ConfigFault)) : Option ConfigFault :=
  (rules.find? (·.1)).map (·.2)

namespace ProxyConfig

def fault? (c : ProxyConfig) : Option ConfigFault :=
  firstFault? <| [
    (c.statsUrl.isEmpty, .statsUrl),
    (c.timeout.isZero, .proxyTimeout)] ++
    match c.mode with
    | .perUser => [(c.configPath.isEmpty, .configPath)]
    | .logAttribution => [
      (c.logPath.isEmpty, .logPath),
      (c.tags.isEmpty, .tags),
      (c.identityMarker.isEmpty, .identityMarker),
      (c.logPollInterval.isZero || c.attributionInterval.isZero, .logIntervals),
      (c.activeWindow.isZero, .activeWindow),
      (c.ringCapacity == 0, .ringCapacity)]

end ProxyConfig

def PeersConfig.fault? (c : PeersConfig) : Option ConfigFault :=
  firstFault? [
    (c.interface.isEmpty, .interface),
    (c.interval.isZero, .peerInterval),
    (c.timeout.isZero, .peerTimeout),
    (c.maxBatch == 0, .maxBatch)]

def RetentionConfig.fault? (c : RetentionConfig) : Option ConfigFault :=
  firstFault? [
    (c.trafficDays == 0 || c.peerDays == 0, .retentionDays),
    (c.compressAfter.isZero, .compressAfter),
    (c.trafficRetention ≤ c.compressAfter, .compressAfterTraffic),
    (c.peerRetention ≤ c.compressAfter, .compressAfterPeers),
    (c.interval.isZero, .retentionInterval)]

namespace Config

def fault? (c : Config) : Option ConfigFault :=
  firstFault? [
    (c.database.path.isEmpty, .databasePath),
    (!c.proxy.enabled && !c.peers.enabled, .noSource)] <|>
  (if c.proxy.enabled then c.proxy.fault? else none) <|>
  (if c.peers.enabled then c.peers.fault? else none) <|>
  c.retention.fault? <|>
  firstFault? [(c.topLimit == 0, .topLimit)]

def validate (c : Config) : Outcome Unit :=
  match c.fault? with
  | some fault => Outcome.fail (.config fault)
  | none => .ok ()

end Config

end TrafficMeter
