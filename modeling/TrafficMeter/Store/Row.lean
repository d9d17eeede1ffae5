import TrafficMeter.Store.Cell

/-!
Rows of the byte tables. A row belongs to an identity (a user or a peer) and a second (of the
reading, or the start of a bucket), and no table holds two rows for both. `insertNew` keeps the
first row of a key, `merge` adds the amounts of later ones.
-/

namespace TrafficMeter.Store

structure Row where
  id : String
  ts : Int
  up : Cell
  down : Cell
  deriving DecidableEq, Repr

/-- The counters of a peer as read at one second, received bytes as uplink, sent ones as
downlink. -/
structure Snapshot extends Row where
  endpoint : String
  deriving DecidableEq, Repr

namespace Row

def key (r : Row) : String × Int := (r.id, r.ts)

def absorb (r other : Row) : Row := { r with up := r.up.add other.up, down := r.down.add other.down }

theorem key_absorb (r other : Row) : (r.absorb other).key = r.key := rfl

end Row

def holds {α : Type} (row : α → Row) (table : List α) (key : String × Int) : Bool :=
  table.any fun a => (row a).key == key

def insertNew {α : Type} (row : α → Row) (table : List α) (a : α) : List α :=
  if holds row table (row a).key then table else table ++ [a]

def merge (table : List Row) (a : Row) : List Row :=
  if holds id table a.key then table.map fun r => if r.key = a.key then r.absorb a else r
  else table ++ [a]

def insertKey {κ : Type} [LT κ] [DecidableLT κ] [DecidableEq κ] (k : κ) : List κ → List κ
  | [] => [k]
  | x :: rest =>
    if k < x then k :: x :: rest
    else if k = x then x :: rest
    else x :: insertKey k rest

def sortedKeys {κ : Type} [LT κ] [DecidableLT κ] [DecidableEq κ] (keys : List κ) : List κ :=
  keys.foldr insertKey []

theorem mem_insertKey {κ : Type} [LT κ] [DecidableLT κ] [DecidableEq κ] {k x : κ} {keys : List κ} :
    x ∈ insertKey k keys ↔ x = k ∨ x ∈ keys := by
  induction keys with
  | nil => simp [insertKey]
  | cons y rest ih =>
    simp only [insertKey]
    split
    · simp
    · split
      · next h => subst h; simp
      · simp [ih, or_left_comm]

theorem mem_sortedKeys {κ : Type} [LT κ] [DecidableLT κ] [DecidableEq κ] {x : κ} {keys : List κ} :
    x ∈ sortedKeys keys ↔ x ∈ keys := by
  induction keys with
  | nil => simp [sortedKeys]
  | cons k rest ih => simpa [sortedKeys, mem_insertKey] using or_congr_right ih

/-- Puts a row before the first one that is not older. -/
def insertByTime {α : Type} (row : α → Row) (a : α) : List α → List α
  | [] => [a]
  | x :: rest => if (row a).ts ≤ (row x).ts then a :: x :: rest else x :: insertByTime row a rest

def sortByTime {α : Type} (row : α → Row) (table : List α) : List α :=
  table.foldr (insertByTime row) []

end TrafficMeter.Store
