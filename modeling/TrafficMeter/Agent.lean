import TrafficMeter.Dashboard
import TrafficMeter.Metrics.Endpoint
import TrafficMeter.Sampler.Attribution
import TrafficMeter.Sampler.Counter
import TrafficMeter.Sampler.LogWatcher
import TrafficMeter.Sampler.Peer
import TrafficMeter.Sampler.Retention
import TrafficMeter.Sampler.Timer
import TrafficMeter.Source.Command
import TrafficMeter.Source.Roster
import TrafficMeter.Store.Open

/-!
The agent: a database, the samplers that its configuration asks for, and retention. All that lies
outside it is a `World`. The samplers share the database and the metrics; each has a memory and a
timer of its own.
-/

namespace TrafficMeter

/-- What the agent finds outside: what paths lead to, files and when they were last changed, the
command that dumps a VPN interface, servers, the addresses that can be listened on, how long a unit
of work takes, and how giving back pages of the database ends. -/
structure World where
  entry : String → Option Store.Entry
  file : String → Except OsFault StampedFile
  command : PeersConfig → CommandOutcome
  server : Http.Transport
  bind : Endpoint → Except OsFault Unit
  elapsed : Span
  vacuum : Except StoreFault Unit := .ok ()

/-- The agent. It has a database once it is started, and timers while it runs. -/
structure Agent where
  config : Config
  metrics : Metrics
  database : Option Store.Database
  startedAt : Int
  roster : Roster
  counter : CounterSampler
  watcher : LogWatcher
  calculator : Calculator
  peer : PeerSampler
  compactor : Compactor
  timers : Keyed Sampler Timer
  watching : Option Timer

namespace Agent

def ofConfig (c : Config) : Agent where
  config := c
  metrics := .none
  database := none
  startedAt := 0
  roster := .ofPath c.proxy.configPath
  counter := .ofPolicy c.resetPolicy
  watcher := .ofLog c.proxy.logPath c.proxy.identityMarker c.proxy.activeWindow
  calculator := .ofPolicy c.resetPolicy c.proxy.ringCapacity
  peer := .ofMaxBatch c.peers.maxBatch
  compactor := .ofConfig c.retention
  timers := .empty
  watching := none

def timer (delay interval : Span) : Timer := .start delay.millis interval.millis

def timersOf (c : Config) : Keyed Sampler Timer :=
  let now : Span := ⟨0⟩
  let proxy :=
    if !c.proxy.enabled then []
    else
      match c.proxy.mode with
      | .perUser => [(.traffic, timer now c.proxy.effectiveInterval)]
      | .logAttribution => [(.attribution, timer now c.proxy.attributionInterval)]
  let peers := if c.peers.enabled then [(.peers, timer now c.peers.interval)] else []
  .ofList <| proxy ++ peers ++
    [(.retention, timer c.retention.startupDelay c.retention.interval)]

def watchingOf (c : Config) : Option Timer :=
  if c.proxy.enabled && c.proxy.mode = .logAttribution then
    some (timer ⟨0⟩ c.proxy.logPollInterval)
  else none

def second (a : Agent) (t : Timer) : Int := a.startedAt + (t.now / 1000 : Nat)

/-- Takes over what a tick of a sampler did, and records its run. -/
def adopt {σ : Type} (a : Agent) (w : World) (sampler : Sampler) (now : Int)
    (remember : Agent → σ → Agent) (t : Ticked σ) : Agent :=
  let t := t.recorded sampler.source now w.elapsed
  { remember a t.memory with
    metrics := a.metrics.recordAll t.events
    database := some t.database }

def tick (a : Agent) (w : World) (sampler : Sampler) (now : Int) : Agent :=
  match a.database with
  | none => a
  | some db =>
    let proxy := a.config.proxy
    match sampler with
    | .traffic =>
      let (identities, roster) := a.roster.identities (w.file proxy.configPath)
      adopt { a with roster } w sampler now (fun a counter => { a with counter })
        (a.counter.tick now w.elapsed identities (proxy.pollUsers w.server) db)
    | .attribution =>
      let active := a.watcher.activeAt now proxy.activeWindow.wholeSeconds
      adopt a w sampler now (fun a calculator => { a with calculator })
        (a.calculator.tick now w.elapsed (proxy.pollAggregate w.server proxy.tags) active db)
    | .peers =>
      adopt a w sampler now (fun a peer => { a with peer })
        (a.peer.tick now w.elapsed (a.config.peers.poll (w.command a.config.peers)) db)
    | .retention =>
      adopt a w sampler now (fun a compactor => { a with compactor })
        (a.compactor.tick now db w.vacuum)

def look (a : Agent) (w : World) (now : Int) : Agent :=
  let log := (w.file a.config.proxy.logPath).map (·.octets)
  { a with watcher := (a.watcher.poll now log).2 }

def settleSampler (w : World) (a : Agent) (sampler : Sampler) : Agent :=
  match a.timers.get? sampler with
  | none => a
  | some timer =>
    let (timer, a) := timer.settle (fun a => some (a.tick w sampler (a.second timer))) a
    { a with timers := a.timers.insert sampler timer }

/-- Lets everything run until it waits, the log watcher first. -/
def settle (a : Agent) (w : World) : Agent :=
  let a := match a.watching with
    | none => a
    | some timer =>
      let (timer, a) := timer.settle (fun a : Agent => some (a.look w (a.second timer))) a
      { a with watching := some timer }
  a.timers.keys.foldl (settleSampler w) a

def start (a : Agent) (w : World) (now : Int) : Outcome Unit × Agent :=
  let opened : Outcome Store.Database := do
    let _ ← Outcome.within "starting health metrics server"
      (Endpoint.listen w.bind a.config.healthAddr)
    Outcome.within "opening time-series store" (Store.openAt w.entry a.config.database.path)
  match opened with
  | .error failure => (.error failure, a)
  | .ok db =>
    let running := { a with
      database := some db
      startedAt := now
      timers := timersOf a.config
      watching := watchingOf a.config }
    (.ok (), running.settle w)

def stop (a : Agent) : Agent := { a with timers := .empty, watching := none }

def advance (a : Agent) (w : World) (millis : Nat) : Agent :=
  let later (timer : Timer) : Timer := timer.advance millis
  let timers := a.timers.entries.map fun (sampler, timer) => (sampler, later timer)
  { a with timers := ⟨timers⟩, watching := a.watching.map later }.settle w

def trigger (a : Agent) (w : World) (sampler : Sampler) : Agent :=
  match a.timers.get? sampler with
  | none => a
  | some timer =>
    settleSampler w { a with timers := a.timers.insert sampler timer.request } sampler

def setPaused (a : Agent) (w : World) (sampler : Sampler) (paused : Bool) : Agent :=
  match a.timers.get? sampler with
  | none => a
  | some timer =>
    settleSampler w { a with
      timers := a.timers.insert sampler (timer.setPaused paused)
      metrics := a.metrics.record (.paused sampler.source (if paused then 1 else 0)) } sampler

def paused? (a : Agent) (sampler : Sampler) : Option Bool :=
  (a.timers.get? sampler).map (·.paused)

def aggregatePoints (a : Agent) : List Store.Point := a.calculator.points

def viewOf (c : Config) : DashboardView :=
  ⟨c.proxy.enabled, c.peers.enabled, c.peers.names, c.topLimit⟩

def dashboard? (a : Agent) (first last : Int) : Option (Outcome Dashboard) :=
  a.database.map fun db => (viewOf a.config).build first last db.tables

end Agent

end TrafficMeter
