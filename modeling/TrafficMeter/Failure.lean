import TrafficMeter.Text.Quoted

/-!
Why an operation failed. A failure has one cause, a value of a domain type, and the trail of what
was being done when it arose, outermost first. All wording of causes is in this module; the
whole message reads the trail, then the cause, with a colon between.
-/

namespace TrafficMeter

inductive OsFault
  | notFound
  | permissionDenied
  | alreadyExists
  | notADirectory
  | isADirectory
  | invalidText
  | invalidAddress
  | addressInUse
  | addressNotAvailable
  | unknownHost
  | networkUnreachable
  | connectionRefused
  deriving DecidableEq, Repr

def OsFault.message : OsFault → String
  | .notFound => "No such file or directory (os error 2)"
  | .permissionDenied => "Permission denied (os error 13)"
  | .alreadyExists => "File exists (os error 17)"
  | .notADirectory => "Not a directory (os error 20)"
  | .isADirectory => "Is a directory (os error 21)"
  | .invalidText => "stream did not contain valid UTF-8"
  | .invalidAddress => "invalid socket address"
  | .addressInUse => "Address already in use (os error 98)"
  | .addressNotAvailable => "Cannot assign requested address (os error 99)"
  | .unknownHost => "failed to lookup address information: Temporary failure in name resolution"
  | .networkUnreachable => "Network is unreachable (os error 101)"
  | .connectionRefused => "Connection refused (os error 111)"

inductive StoreFault
  | integerOverflow
  | columnType
  | denied
  | cannotOpen
  | notADatabase
  | noSuchColumn (name : String)
  | noSuchTable (name : String)
  | nameTaken (name : String)
  | notATable (name : String)
  | tooManyParameters
  deriving DecidableEq, Repr

def StoreFault.message : StoreFault → String
  | .integerOverflow => "integer overflow: Error code 1: SQL logic error"
  | .columnType => "Invalid column type Real"
  | .denied => "denied: Error code 1811: A RAISE function within a trigger fired"
  | .cannotOpen => "unable to open database file: Error code 14: Unable to open the database file"
  | .notADatabase => "file is not a database: Error code 26: File opened that is not a database file"
  | .noSuchColumn name => s!"no such column: {name}"
  | .noSuchTable name => s!"no such table: {name}"
  | .nameTaken name => s!"there is already another object named {name}"
  | .notATable name => s!"{name} is not a table"
  | .tooManyParameters => "variable number must be between ?1 and ?32766"

inductive HttpFault
  | relativeUrl
  | unknownScheme (url : String)
  | unreachable (url : String) (reason : OsFault)
  | tooManyRedirects (url : String)
  | timedOut (url : String)
  | brokenOff (url : String)
  | undecodable (url : String)
  deriving DecidableEq, Repr

def HttpFault.message : HttpFault → String
  | .relativeUrl => "builder error: relative URL without a base"
  | .unknownScheme url => s!"builder error for url ({url}): URL scheme is not allowed"
  | .unreachable url reason =>
    s!"error sending request for url ({url}): client error (Connect): tcp connect error: " ++
      reason.message
  | .tooManyRedirects url => s!"error following redirect for url ({url}): too many redirects"
  | .timedOut url => s!"error sending request for url ({url}): operation timed out"
  | .brokenOff url => s!"request or response body error for url ({url})"
  | .undecodable url => s!"error decoding response body for url ({url})"

inductive SourceFault
  | missingSection (path : String)
  | fieldCount (line expected found : Nat)
  | invalidField (line : Nat) (field value : String)
  | commandFailed (status stderr : String)
  deriving DecidableEq, Repr

def SourceFault.message : SourceFault → String
  | .missingSection path => "stats response missing object " ++ Text.quoted path
  | .fieldCount line expected found =>
    s!"dump line {line}: expected {expected} fields, found {found}"
  | .invalidField line field value => s!"dump line {line}: invalid {field} value " ++ Text.quoted value
  | .commandFailed status stderr => s!"command exited with {status}: {stderr}"

inductive ConfigFault
  | databasePath
  | noSource
  | statsUrl
  | proxyTimeout
  | configPath
  | logPath
  | tags
  | identityMarker
  | logIntervals
  | activeWindow
  | ringCapacity
  | interface
  | peerInterval
  | peerTimeout
  | maxBatch
  | retentionDays
  | compressAfter
  | compressAfterTraffic
  | compressAfterPeers
  | retentionInterval
  | topLimit
  deriving DecidableEq, Repr

def ConfigFault.message : ConfigFault → String
  | .databasePath => "database.path is required"
  | .noSource => "at least one of proxy.enabled or peers.enabled must be true"
  | .statsUrl => "proxy.stats_url is required when proxy is enabled"
  | .proxyTimeout => "proxy.timeout must be positive"
  | .configPath => "proxy.config_path is required in per_user mode"
  | .logPath => "proxy.log_path is required in log_attribution mode"
  | .tags => "proxy.tags must name at least one inbound in log_attribution mode"
  | .identityMarker => "proxy.identity_marker must not be empty"
  | .logIntervals => "proxy log and attribution intervals must be positive"
  | .activeWindow => "proxy.active_window must be positive"
  | .ringCapacity => "proxy.ring_capacity must be positive"
  | .interface => "peers.interface is required when peers are enabled"
  | .peerInterval => "peers.interval must be positive"
  | .peerTimeout => "peers.timeout must be positive"
  | .maxBatch => "peers.max_batch must be positive"
  | .retentionDays => "retention days must be positive"
  | .compressAfter => "retention.compress_after must be positive"
  | .compressAfterTraffic => "retention.compress_after must be shorter than retention.traffic_days"
  | .compressAfterPeers => "retention.compress_after must be shorter than retention.peer_days"
  | .retentionInterval => "retention.interval must be positive"
  | .topLimit => "dashboard.top_limit must be positive"

inductive WindowFault
  | reversed (first last : Int)
  | tooLarge (first last : Int)
  | tooManySlots (first last : Int) (limit : Nat) (interval : Int)
  deriving DecidableEq, Repr

def WindowFault.message : WindowFault → String
  | .reversed first last => s!"dashboard window ends ({last}) before it starts ({first})"
  | .tooLarge first last => s!"dashboard window [{first}, {last}] is too large"
  | .tooManySlots first last limit interval =>
    s!"dashboard window [{first}, {last}] exceeds {limit} slots of {interval}s"

inductive SchemaFault
  | dirty (version : Nat)
  | unknownVersion (version : Nat)
  deriving DecidableEq, Repr

def SchemaFault.message : SchemaFault → String
  | .dirty version => s!"migration version {version} is dirty, manual intervention required"
  | .unknownVersion version => s!"migration version {version} not found"

inductive Cause
  | json
  | yaml
  | utf8
  | timeout
  | os (fault : OsFault)
  | store (fault : StoreFault)
  | http (fault : HttpFault)
  | status (code : Nat) (reason url body : String)
  | source (fault : SourceFault)
  | config (fault : ConfigFault)
  | window (fault : WindowFault)
  | schema (fault : SchemaFault)
  | reported (text : String)
  deriving DecidableEq, Repr

def Cause.message : Cause → String
  | .json => "invalid JSON document"
  | .yaml => "invalid YAML document"
  | .utf8 => "invalid utf-8 sequence"
  | .timeout => "deadline has elapsed"
  | .os fault => fault.message
  | .store fault => fault.message
  | .http fault => fault.message
  | .status code reason url body => s!"unexpected status {code} {reason} from {url}: {body}"
  | .source fault => fault.message
  | .config fault => fault.message
  | .window fault => fault.message
  | .schema fault => fault.message
  | .reported text => text

/-- A cause and what was being done when it arose, outermost first. -/
structure Failure where
  trail : List String
  cause : Cause
  deriving DecidableEq, Repr

namespace Failure

def of (cause : Cause) : Failure := ⟨[], cause⟩

/-- The same failure, seen from the activity around it. -/
def within (activity : String) (failure : Failure) : Failure :=
  { failure with trail := activity :: failure.trail }

def message (failure : Failure) : String :=
  ": ".intercalate (failure.trail ++ [failure.cause.message])

end Failure

abbrev Outcome (α : Type) := Except Failure α

namespace Outcome

def fail {α : Type} (cause : Cause) : Outcome α := .error (.of cause)

def within {α : Type} (activity : String) : Outcome α → Outcome α
  | .ok value => .ok value
  | .error failure => .error (failure.within activity)

end Outcome

end TrafficMeter
