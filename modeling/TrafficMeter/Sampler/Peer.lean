import TrafficMeter.Sampler.Tick
import TrafficMeter.Source.Dump

/-!
Snapshots of peer counters. The sampler remembers the counters that it last wrote for each peer and
writes those that changed, up to a number of rows at a time. Peers beyond that number keep their
old memory, so they are written by a later tick; peers that are not reported are forgotten.
-/

namespace TrafficMeter

structure PeerCount where
  rx : Nat
  tx : Nat
  deriving DecidableEq, Repr

def PeerReading.count (p : PeerReading) : PeerCount := ⟨p.rx, p.tx⟩

def PeerReading.sample (p : PeerReading) (now : Int) : Store.PeerSample :=
  ⟨p.peer, now, p.rx, p.tx, p.endpoint⟩

structure PeerSampler where
  maxBatch : Nat
  retained : Keyed String PeerCount
  deriving DecidableEq, Repr

namespace PeerSampler

/-- A sampler that has written nothing yet; it writes at least one row at a time. -/
def ofMaxBatch (maxBatch : Nat) : PeerSampler := ⟨max maxBatch 1, .empty⟩

def selectAll (s : PeerSampler) (now : Int) (room : Nat) :
    List PeerReading → List Store.PeerSample × PeerSampler
  | [] => ([], s)
  | p :: rest =>
    if s.retained.get? p.peer = some p.count || room = 0 then s.selectAll now room rest
    else
      let next := { s with retained := s.retained.insert p.peer p.count }
      let (rows, last) := next.selectAll now (room - 1) rest
      (p.sample now :: rows, last)

/-- Takes in one poll: the snapshots to write, and the sampler without the peers that are gone. -/
def select (s : PeerSampler) (now : Int) (peers : List PeerReading) :
    List Store.PeerSample × PeerSampler :=
  let (rows, last) := s.selectAll now s.maxBatch peers
  let present := peers.map (·.peer)
  (rows, { last with retained := last.retained.keep fun peer _ => present.contains peer })

def write (rows : List Store.PeerSample) : Store.Action Nat :=
  .within "writing peer snapshots" (.appendPeerBatch rows)

def tick (s : PeerSampler) (now : Int) (elapsed : Span) (poll : Polled (List PeerReading))
    (db : Store.Database) : Ticked PeerSampler :=
  match Outcome.within "polling peer counters" poll.result with
  | .error failure => .unchanged s db (.error failure) (poll.events elapsed)
  | .ok peers =>
    let (rows, next) := s.select now peers
    let events := poll.events elapsed ++ [.retained Sampler.peers.source next.retained.size]
    if rows.isEmpty then .unchanged next db (.ok 0) events
    else .writing next db events (write rows)

end PeerSampler

end TrafficMeter
