import TrafficMeter.Store.Database

/-!
Sampler writes. Each batch is one transaction. Appending keeps the row that a key already has;
merging adds to it, so that two ticks within one second both count.
-/

namespace TrafficMeter.Store

structure Sample where
  identity : String
  ts : Int
  uplink : Nat
  downlink : Nat
  deriving DecidableEq, Repr

structure PeerSample where
  peer : String
  ts : Int
  rx : Nat
  tx : Nat
  endpoint : String
  deriving DecidableEq, Repr

def Sample.row (s : Sample) : Row := ⟨s.identity, s.ts, .ofCount s.uplink, .ofCount s.downlink⟩

def PeerSample.snapshot (s : PeerSample) : Snapshot :=
  ⟨⟨s.peer, s.ts, .ofCount s.rx, .ofCount s.tx⟩, s.endpoint⟩

namespace Action

def modifyTables (f : Tables → Tables) : Action Unit :=
  update fun db => { db with tables := f db.tables }

def appendSample (s : Sample) : Action Nat := do
  permit .traffic .insert s.identity
  let taken := holds id (← database).tables.traffic s.row.key
  modifyTables fun t => { t with traffic := insertNew id t.traffic s.row }
  return if taken then 0 else 1

def mergeSample (s : Sample) : Action Nat := do
  permit .traffic .insert s.identity
  if holds id (← database).tables.traffic s.row.key then permit .traffic .update s.identity
  modifyTables fun t => { t with traffic := merge t.traffic s.row }
  return 1

def appendPeerSample (s : PeerSample) : Action Nat := do
  permit .peers .insert s.peer
  let taken := holds Snapshot.toRow (← database).tables.peers s.snapshot.key
  modifyTables fun t => { t with peers := insertNew Snapshot.toRow t.peers s.snapshot }
  return if taken then 0 else 1

/-- Writes a batch in order and adds up the rows. -/
def writeAll {α : Type} (write : α → Action Nat) : List α → Action Nat
  | [] => pure 0
  | a :: rest => do return (← write a) + (← writeAll write rest)

def appendBatch (samples : List Sample) : Action Nat :=
  atomically <| writeAll
    (fun s => within s!"inserting sample for {s.identity}" (appendSample s)) samples

def mergeBatch (samples : List Sample) : Action Nat :=
  atomically <| writeAll
    (fun s => within s!"merging sample for {s.identity}" (mergeSample s)) samples

def appendPeerBatch (samples : List PeerSample) : Action Nat :=
  atomically <| writeAll
    (fun s => within s!"inserting snapshot for {s.peer}" (appendPeerSample s)) samples

def append (s : Sample) : Action Bool := do return (← appendBatch [s]) == 1

end Action

end TrafficMeter.Store
