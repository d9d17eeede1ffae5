import TrafficMeter.Config.Basic
import TrafficMeter.Metrics.Basic
import TrafficMeter.Store.Rollup

/-!
Retention. A pass deletes what is older than the retention of each series and then rolls up what is
older than the rollup age, in four stages that each are one transaction. The rollup cutoff is the
start of a bucket, so buckets are only written whole.
-/

namespace TrafficMeter

open Store (Action Series)

structure RetentionOutcome where
  trafficDeleted : Nat
  peersDeleted : Nat
  trafficCompressed : Nat
  peersCompressed : Nat
  vacuumed : Bool
  deriving DecidableEq, Repr

def RetentionOutcome.rowsRemoved (o : RetentionOutcome) : Nat :=
  o.trafficDeleted + o.peersDeleted + o.trafficCompressed + o.peersCompressed

namespace Retention

structure Cutoffs where
  traffic : Int
  peers : Int
  rollup : Int
  deriving DecidableEq, Repr

def Cutoffs.at (now : Int) (c : RetentionConfig) : Cutoffs where
  traffic := earlier now c.trafficRetention.wholeSeconds
  peers := earlier now c.peerRetention.wholeSeconds
  rollup := bucketStart (earlier now c.compressAfter.wholeSeconds) Store.compressedBucketSeconds

inductive Stage
  | expireTraffic
  | expirePeers
  | rollUpTraffic
  | rollUpPeers
  deriving DecidableEq, Repr

def Stage.all : List Stage := [.expireTraffic, .expirePeers, .rollUpTraffic, .rollUpPeers]

/-- Runs a stage; answers the number of raw rows removed. -/
def Stage.run (c : Cutoffs) : Stage → Action Nat
  | .expireTraffic => .within "deleting expired traffic rows" (.hardDeleteBefore .traffic c.traffic)
  | .expirePeers => .within "deleting expired peer rows" (.hardDeleteBefore .peers c.peers)
  | .rollUpTraffic => .within "rolling up traffic rows"
      (.compressBefore .traffic c.rollup Store.compressedBucketSeconds)
  | .rollUpPeers => .within "rolling up peer rows"
      (.compressBefore .peers c.rollup Store.compressedBucketSeconds)

/-- One pass. Free pages are given back if any row was removed; that may still fail, after all
stages are done. -/
def pass (c : Cutoffs) (vacuum : Except StoreFault Unit) : Action RetentionOutcome := do
  let trafficDeleted ← Stage.expireTraffic.run c
  let peersDeleted ← Stage.expirePeers.run c
  let trafficCompressed ← Stage.rollUpTraffic.run c
  let peersCompressed ← Stage.rollUpPeers.run c
  let outcome : RetentionOutcome :=
    { trafficDeleted, peersDeleted, trafficCompressed, peersCompressed, vacuumed := false }
  let outcome := { outcome with vacuumed := 0 < outcome.rowsRemoved }
  if outcome.vacuumed then Action.vacuum vacuum
  return outcome

def events (o : RetentionOutcome) : List Event := [
  .removed Series.traffic.name "delete" o.trafficDeleted,
  .removed Series.peers.name "delete" o.peersDeleted,
  .removed Series.traffic.name "rollup" o.trafficCompressed,
  .removed Series.peers.name "rollup" o.peersCompressed]

end Retention

/-- Retention as it runs: its configuration, and what its last pass that succeeded removed. -/
structure Compactor where
  config : RetentionConfig
  last : Option RetentionOutcome
  deriving DecidableEq, Repr

structure Passed where
  result : Outcome RetentionOutcome
  compactor : Compactor
  events : List Event
  database : Store.Database

namespace Compactor

def ofConfig (config : RetentionConfig) : Compactor := ⟨config, none⟩

def run (c : Compactor) (now : Int) (db : Store.Database)
    (vacuum : Except StoreFault Unit := .ok ()) : Passed :=
  match (Retention.pass (.at now c.config) vacuum).run db with
  | (.ok outcome, after) =>
    ⟨.ok outcome, { c with last := some outcome }, Retention.events outcome, after⟩
  | (.error failure, after) => ⟨.error failure, c, [], after⟩

end Compactor

end TrafficMeter
