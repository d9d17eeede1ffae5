import TrafficMeter.Sampler.Tick
import TrafficMeter.Source.Stats

/-!
Traffic of listed users from their counters. The sampler remembers the last reading of each user
and writes what a reading adds to it. The first reading of a user only sets the baseline, and users
that are no longer listed are forgotten.
-/

namespace TrafficMeter

structure CounterSampler where
  policy : ResetPolicy
  retained : Readings
  deriving DecidableEq, Repr

namespace CounterSampler

def ofPolicy (policy : ResetPolicy) : CounterSampler := ⟨policy, .empty⟩

def sample? (policy : ResetPolicy) (now : Int) (identity : String) (previous : Option Counters)
    (current : Counters) : Option Store.Sample := do
  let delta := Counters.delta policy (← previous) current
  if delta.isZero then none else some ⟨identity, now, delta.uplink, delta.downlink⟩

def readAll (s : CounterSampler) (now : Int) (readings : Readings) :
    List String → List Store.Sample × CounterSampler
  | [] => ([], s)
  | identity :: rest =>
    match readings.get? identity with
    | none => s.readAll now readings rest
    | some current =>
      let sample := sample? s.policy now identity (s.retained.get? identity) current
      let next := { s with retained := s.retained.insert identity current }
      let (samples, last) := next.readAll now readings rest
      (sample.toList ++ samples, last)

/-- Takes in one poll: the samples it yields, and the sampler without those who are not listed. -/
def observe (s : CounterSampler) (now : Int) (roster : List String) (readings : Readings) :
    List Store.Sample × CounterSampler :=
  let (samples, last) := s.readAll now readings roster
  (samples, { last with retained := last.retained.keep fun identity _ => roster.contains identity })

def write (samples : List Store.Sample) : Store.Action Nat :=
  .within "writing traffic samples" (.mergeBatch samples)

/-- One tick. The counters are not polled if the roster cannot be loaded. -/
def tick (s : CounterSampler) (now : Int) (elapsed : Span) (roster : Outcome (List String))
    (poll : Polled Readings) (db : Store.Database) : Ticked CounterSampler :=
  match Outcome.within "loading identity roster" roster with
  | .error failure => .unchanged s db (.error failure) []
  | .ok roster =>
    match Outcome.within "polling per-user counters" poll.result with
    | .error failure => .unchanged s db (.error failure) (poll.events elapsed)
    | .ok readings =>
      let (samples, next) := s.observe now roster readings
      let events := poll.events elapsed ++
        [.retained Sampler.traffic.source next.retained.size]
      if samples.isEmpty then .unchanged next db (.ok 0) events
      else .writing next db events (write samples)

end CounterSampler

end TrafficMeter
