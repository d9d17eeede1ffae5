import TrafficMeter.Store.Write

/-!
Answers from the byte tables. Traffic rows are amounts and are summed. Peer snapshots are counter
readings, so each contributes its growth over the snapshot before it, and the newest snapshot before
a window anchors the first one inside. Buckets of earlier rollups are added in both cases.
-/

namespace TrafficMeter.Store

structure Point where
  ts : Int
  uplink : Nat
  downlink : Nat
  deriving DecidableEq, Repr

def Point.total (p : Point) : Nat := addCounts p.uplink p.downlink

structure TopEntry where
  identity : String
  uplink : Nat
  downlink : Nat
  deriving DecidableEq, Repr

def TopEntry.total (e : TopEntry) : Nat := addCounts e.uplink e.downlink

def inWindow (first last ts : Int) : Bool := first ≤ ts && ts ≤ last

def selected (identities : List String) (id : String) : Bool :=
  identities.isEmpty || identities.contains id

structure Share (κ : Type) where
  key : κ
  up : Cell
  down : Cell

def groupSum {κ : Type} [DecidableEq κ] (shares : List (Share κ)) (key : κ) :
    Except StoreFault (Cell × Cell) := do
  let group := shares.filter (·.key = key)
  return (← Cell.sum (group.map (·.up)), ← Cell.sum (group.map (·.down)))

def groupPoints (shares : List (Share Int)) : Except StoreFault (List Point) :=
  (sortedKeys (shares.map (·.key))).mapM fun key => do
    let (up, down) ← groupSum shares key
    return ⟨key, ← up.count?, ← down.count?⟩

def raise {α : Type} (activity : String) : Except StoreFault α → Outcome α
  | .ok a => .ok a
  | .error fault => Outcome.within activity (Outcome.fail (.store fault))

def Row.share {κ : Type} (key : Row → κ) (r : Row) : Share κ := ⟨key r, r.up, r.down⟩

namespace Tables

def range (t : Tables) (identity : String) (first last : Int) : Outcome (List Sample) :=
  raise "reading range rows" <|
    (sortByTime id (t.traffic.filter fun r => r.id == identity && inWindow first last r.ts)).mapM
      fun r => do return ⟨r.id, r.ts, ← r.up.count?, ← r.down.count?⟩

def peerRange (t : Tables) (peer : String) (first last : Int) : Outcome (List PeerSample) :=
  raise "reading peer range rows" <|
    (sortByTime Snapshot.toRow
      (t.peers.filter fun r => r.id == peer && inWindow first last r.ts)).mapM
      fun r => do return ⟨r.id, r.ts, ← r.up.count?, ← r.down.count?, r.endpoint⟩

def globalSum (t : Tables) (first last : Int) : Outcome (List Point) :=
  raise "reading global sum rows" <| groupPoints <|
    (t.traffic.filter fun r => inWindow first last r.ts).map (Row.share (·.ts))

/-- The identities whose raw samples since `since` sum to at least `threshold`, in ascending
order. -/
def activeIdentitiesSince (t : Tables) (since : Int) (threshold : Nat) : Outcome (List String) :=
  raise "reading active identities" do
    let shares := (t.traffic.filter fun r => since ≤ r.ts).map (Row.share (·.id))
    let reached ← (sortedKeys (shares.map (·.key))).filterM fun identity => do
      let (up, down) ← groupSum shares identity
      return (Cell.ofCount threshold).value ≤ (up.add down).value
    return reached

/-- The second from which snapshots of a peer are compared in windows from `first` on: that of the
newest snapshot before `first`, or `first` itself. -/
def anchor (t : Tables) (peer : String) (first : Int) : Int :=
  let earlier := (t.peers.filter fun s => s.id == peer && s.ts < first).map (·.ts)
  match earlier.max? with
  | some ts => ts
  | none => first

def anchored (t : Tables) (peer : String) (first last : Int) : List Snapshot :=
  let anchor := t.anchor peer first
  sortByTime Snapshot.toRow
    (t.peers.filter fun s => s.id == peer && s.ts ≤ last && anchor ≤ s.ts)

end Tables

/-- What each snapshot but the first adds to the one before it. -/
def growths : List Snapshot → List Row
  | before :: after :: rest =>
    { after.toRow with
      up := before.up.growth after.up
      down := before.down.growth after.down } :: growths (after :: rest)
  | _ => []

namespace Tables

def peerIds (t : Tables) : List String := sortedKeys (t.peers.map (·.id))

def windowGrowths (t : Tables) (identities : List String) (first last : Int) : List Row :=
  let peers := t.peerIds.filter (selected identities)
  (peers.flatMap fun peer => growths (t.anchored peer first last)).filter fun r => first ≤ r.ts

def contributions (t : Tables) (series : Series) (identities : List String) (first last : Int) :
    List Row :=
  let chosen := fun r : Row => inWindow first last r.ts && selected identities r.id
  match series with
  | .traffic => t.traffic.filter chosen ++ t.trafficBuckets.filter chosen
  | .peers => t.windowGrowths identities first last ++ t.peerBuckets.filter chosen

end Tables

/-- A query binds 32766 parameters at most, three of them for its window and width. -/
def maxIdentities : Nat := 32763

namespace Tables

def bucketed (t : Tables) (series : Series) (identities : List String)
    (first last interval : Int) : Outcome (List Point) :=
  let width := max interval 1
  if maxIdentities < identities.length then
    raise s!"preparing {series.name} bucket query" (.error .tooManyParameters)
  else
    raise s!"reading {series.name} buckets" <| groupPoints <|
      (t.contributions series identities first last).map (Row.share fun r => bucketKey r.ts width)

/-- An identity's place in a ranking: the sums each way, and their sum as far as the database can
tell it. -/
structure Standing where
  identity : String
  up : Cell
  down : Cell

def Standing.precedes (a b : Standing) : Bool :=
  let left := (a.up.add a.down).value
  let right := (b.up.add b.down).value
  right < left || (left == right && a.identity ≤ b.identity)

/-- Reads the first places of a ranking. Where there is no place, nobody's standing is asked for. -/
def ranking (standings : Except StoreFault (List Standing)) (limit : Nat) :
    Except StoreFault (List TopEntry) :=
  if limit = 0 then .ok []
  else do
    (((← standings).mergeSort Standing.precedes).take limit).mapM fun s => do
      return ⟨s.identity, ← s.up.count?, ← s.down.count?⟩

def sumOfSome (rows : List Row) : Except StoreFault (List (Cell × Cell)) :=
  if rows.isEmpty then .ok []
  else do return [(← Cell.sum (rows.map (·.up)), ← Cell.sum (rows.map (·.down)))]

def standing (identity : String) (raw buckets : List (Cell × Cell)) :
    Except StoreFault Standing := do
  let parts := raw ++ buckets
  return ⟨identity, ← Cell.sum (parts.map (·.1)), ← Cell.sum (parts.map (·.2))⟩

def topTotals (t : Tables) (first last : Int) (limit : Nat) : Outcome (List TopEntry) :=
  let raw := t.traffic.filter fun r => inWindow first last r.ts
  let buckets := t.trafficBuckets.filter fun r => inWindow first last r.ts
  let standings := (sortedKeys ((raw ++ buckets).map (·.id))).mapM fun identity => do
    standing identity (← sumOfSome (raw.filter (·.id == identity)))
      (← sumOfSome (buckets.filter (·.id == identity)))
  raise "reading ranking rows" (ranking standings limit)

def spread (cells : List Cell) : List Cell :=
  match cells with
  | [] => []
  | c :: rest =>
    let high := rest.foldl (fun a b => if a.value < b.value then b else a) c
    let low := rest.foldl (fun a b => if b.value < a.value then b else a) c
    [high.sub low]

def peerSpread (t : Tables) (peer : String) (first last : Int) : List (Cell × Cell) :=
  let scope := t.anchored peer first last
  (spread (scope.map (·.up))).zip (spread (scope.map (·.down)))

def peerTopTotals (t : Tables) (first last : Int) (limit : Nat) : Outcome (List TopEntry) :=
  let buckets := t.peerBuckets.filter fun r => inWindow first last r.ts
  let peers := t.peerIds.filter fun peer => !(t.anchored peer first last).isEmpty
  let standings := (sortedKeys (peers ++ buckets.map (·.id))).mapM fun peer => do
    standing peer (t.peerSpread peer first last) (← sumOfSome (buckets.filter (·.id == peer)))
  raise "reading ranking rows" (ranking standings limit)

end Tables

end TrafficMeter.Store
