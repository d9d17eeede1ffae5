import TrafficMeter.Proofs.Sampler.Turns
import TrafficMeter.Proofs.Store.Newest
import TrafficMeter.Sampler.Peer

/-!
Writing only what changed. A snapshot that repeats the counters of the newest one gains nothing, and
a later one measured from either gains the same, so leaving it out shows in no bucket. The sampler's
memory always agrees with the newest snapshots of the table.
-/

namespace TrafficMeter

open Store

def PeerCount.stored (c : PeerCount) : ℕ × ℕ := ((Cell.ofCount c.rx).bytes, (Cell.ofCount c.tx).bytes)

structure PeerPoll where
  now : ℤ
  elapsed : Span
  poll : Polled (List PeerReading)

namespace PeerPoll

def reported (p : PeerPoll) : List PeerReading := p.poll.result.toOption.getD []

def snapshots (p : PeerPoll) (readings : List PeerReading) : List Snapshot :=
  (readings.map (·.sample p.now)).map PeerSample.snapshot

theorem snapshots_fresh {p : PeerPoll} {peers : List Snapshot} {readings : List PeerReading}
    (hd : (readings.map (·.peer)).Nodup) (hold : ∀ s ∈ peers, s.ts < p.now) :
    Fresh peers (p.snapshots readings) p.now where
  older := hold
  second := by
    intro a ha
    obtain ⟨_, hs, rfl⟩ := List.mem_map.mp ha
    obtain ⟨r, -, rfl⟩ := List.mem_map.mp hs
    rfl
  distinct := by
    rw [snapshots, List.map_map, List.map_map]
    exact hd

theorem mem_snapshots {p : PeerPoll} {readings : List PeerReading} {r : PeerReading}
    (h : r ∈ readings) : (r.sample p.now).snapshot ∈ p.snapshots readings :=
  List.mem_map_of_mem (List.mem_map_of_mem h)

theorem snapshots_ids (p : PeerPoll) (readings : List PeerReading) :
    (p.snapshots readings).map (·.id) = readings.map (·.peer) := by
  rw [snapshots, List.map_map, List.map_map]
  rfl

theorem effect_fresh {p : PeerPoll} {t : Tables} {readings : List PeerReading}
    (f : Fresh t.peers (p.snapshots readings) p.now) (h : DistinctKeys Snapshot.toRow t.peers) :
    (Call.appendPeers (readings.map (·.sample p.now))).effect t =
      { t with peers := t.peers ++ p.snapshots readings } :=
  congrArg (fun peers => { t with peers := peers }) (f.foldl_insertNew h)

theorem gains_snapshots {p : PeerPoll} {peers : List Snapshot} {readings : List PeerReading}
    (f : Fresh peers (p.snapshots readings) p.now) (test : String × ℤ → Bool) :
    gains (peers ++ p.snapshots readings) test = gains peers test +
      ((readings.filter fun r => test (r.peer, p.now)).map fun r =>
        gainOver ((newest? peers r.peer).map fun b => b.bytes) (r.sample p.now).snapshot).sum := by
  rw [f.gains_append, snapshots, List.filter_map, List.filter_map, List.map_map, List.map_map]
  rfl

end PeerPoll

theorem sum_filter_of_zero {α : Type} {l : List α} {keep : α → Bool} {amount : α → ℕ × ℕ}
    (h : ∀ a ∈ l, keep a = false → amount a = 0) :
    ((l.filter keep).map amount).sum = (l.map amount).sum := by
  induction l with
  | nil => rfl
  | cons a rest ih =>
    have hrest := ih fun b hb => h b (List.mem_cons_of_mem a hb)
    cases hk : keep a with
    | true => rw [List.filter_cons_of_pos hk, List.map_cons, List.map_cons, List.sum_cons,
        List.sum_cons, hrest]
    | false =>
      have hzero := h a List.mem_cons_self hk
      rw [List.filter_cons_of_neg (Bool.eq_false_iff.mp hk), List.map_cons, List.sum_cons, hzero,
        zero_add, hrest]

namespace PeerSampler

def changed (s : PeerSampler) (readings : List PeerReading) : List PeerReading :=
  readings.filter fun r => s.retained.get? r.peer ≠ some r.count

def deferred (s : PeerSampler) (readings : List PeerReading) : ℕ :=
  (s.changed readings).length - s.maxBatch

theorem mem_changed {s : PeerSampler} {readings : List PeerReading} {r : PeerReading} :
    r ∈ s.changed readings ↔ r ∈ readings ∧ s.retained.get? r.peer ≠ some r.count := by
  rw [changed, List.mem_filter, decide_eq_true_eq]

theorem changed_distinct (s : PeerSampler) {readings : List PeerReading}
    (hd : (readings.map (·.peer)).Nodup) : ((s.changed readings).map (·.peer)).Nodup :=
  hd.sublist (List.filter_sublist.map _)

theorem not_changed {s : PeerSampler} {readings : List PeerReading}
    (hd : (readings.map (·.peer)).Nodup) {r : PeerReading} (hr : r ∈ readings)
    (hsame : s.retained.get? r.peer = some r.count) :
    r.peer ∉ (s.changed readings).map (·.peer) := by
  intro hm
  obtain ⟨q, hq, hid⟩ := List.mem_map.mp hm
  obtain ⟨hq, hchanged⟩ := mem_changed.mp hq
  obtain rfl : q = r := List.inj_on_of_nodup_map hd hq hr hid
  exact hchanged hsame

theorem snapshots_changed (s : PeerSampler) (p : PeerPoll) :
    p.snapshots (s.changed p.reported) ⊆ p.snapshots p.reported :=
  List.map_subset _ (List.map_subset _ (List.filter_subset_self _))

section Selection

variable {s : PeerSampler} {now : ℤ} {room : ℕ} {readings : List PeerReading}

/-- What changed is written in the order of the readings, as far as there is room, and remembered; of
the others the memory stays as it was. -/
theorem selectAll_taken (hd : (readings.map (·.peer)).Nodup) :
    (s.selectAll now room readings).1 = ((s.changed readings).take room).map (·.sample now) ∧
    (∀ r ∈ (s.changed readings).take room,
      (s.selectAll now room readings).2.retained.get? r.peer = some r.count) ∧
    ∀ peer, peer ∉ ((s.changed readings).take room).map (·.peer) →
      (s.selectAll now room readings).2.retained.get? peer = s.retained.get? peer := by
  induction readings generalizing s room with
  | nil =>
    have hnone : (s.changed []).take room = [] := List.take_nil
    rw [hnone]
    exact ⟨rfl, List.forall_mem_nil _, fun _ _ => rfl⟩
  | cons r rest ih =>
    obtain ⟨hr, hrest⟩ := List.nodup_cons.mp hd
    by_cases hsame : s.retained.get? r.peer = some r.count
    · have hskip : s.changed (r :: rest) = s.changed rest :=
        List.filter_cons_of_neg (by simp [hsame])
      have hnext : s.selectAll now room (r :: rest) = s.selectAll now room rest := by
        rw [selectAll, if_pos (by simp [hsame])]
      rw [hskip, hnext]
      exact ih hrest
    · have htake : s.changed (r :: rest) = r :: s.changed rest :=
        List.filter_cons_of_pos (by simp [hsame])
      rw [htake]
      cases room with
      | zero =>
        have hnext : s.selectAll now 0 (r :: rest) = s.selectAll now 0 rest := by
          rw [selectAll, if_pos (by simp)]
        rw [hnext]
        exact @ih s 0 hrest
      | succ room =>
        -- The other readings are of other peers, so they differ from the new memory as from the old.
        have hchanged : ({ s with retained := s.retained.insert r.peer r.count } :
            PeerSampler).changed rest = s.changed rest := by
          apply List.filter_congr
          intro q hq
          have hne : ¬ q.peer = r.peer := fun he => hr (List.mem_map.mpr ⟨q, hq, he⟩)
          simp [hne]
        obtain ⟨hrows, hin, hout⟩ :=
          @ih { s with retained := s.retained.insert r.peer r.count } room hrest
        rw [hchanged] at hrows hin hout
        have hnew : r.peer ∉ ((s.changed rest).take room).map (·.peer) := fun hm =>
          hr ((((List.take_sublist room _).trans List.filter_sublist).map _).subset hm)
        rw [selectAll, if_neg (by simp [hsame]), List.take_succ_cons]
        dsimp only
        rw [Nat.add_sub_cancel]
        refine ⟨?_, ?_, ?_⟩
        · rw [hrows, List.map_cons]
        · intro q hq
          rcases List.mem_cons.mp hq with rfl | hq
          · rw [hout q.peer hnew]
            simp
          · exact hin q hq
        · intro peer hp
          rw [List.map_cons, List.mem_cons, not_or] at hp
          rw [hout peer hp.2]
          simp [hp.1]

theorem selectAll_roomy (hd : (readings.map (·.peer)).Nodup)
    (hroom : (s.changed readings).length ≤ room) :
    (s.selectAll now room readings).1 = (s.changed readings).map (·.sample now) ∧
    ∀ r ∈ readings, (s.selectAll now room readings).2.retained.get? r.peer = some r.count := by
  obtain ⟨hrows, hin, hout⟩ := @selectAll_taken s now room readings hd
  rw [List.take_of_length_le hroom] at hrows hin hout
  refine ⟨hrows, ?_⟩
  intro r hr
  by_cases hsame : s.retained.get? r.peer = some r.count
  · rw [hout _ (not_changed hd hr hsame), hsame]
  · exact hin r (mem_changed.mpr ⟨hr, hsame⟩)

theorem select_roomy (hd : (readings.map (·.peer)).Nodup) (hroom : s.deferred readings = 0) :
    (s.select now readings).1 = (s.changed readings).map (·.sample now) ∧
    ∀ peer count, (s.select now readings).2.retained.get? peer = some count →
      ∃ r ∈ readings, r.peer = peer ∧ r.count = count := by
  obtain ⟨hrows, hin⟩ := @selectAll_roomy s now s.maxBatch readings hd
    (Nat.sub_eq_zero_iff_le.mp hroom)
  refine ⟨hrows, ?_⟩
  intro peer count hc
  change (Keyed.keep _ fun peer _ => (readings.map (·.peer)).contains peer).get? peer = _ at hc
  rw [Keyed.get?_keep] at hc
  split at hc
  · rename_i hp
    obtain ⟨r, hr, rfl⟩ := List.mem_map.mp (List.contains_iff_mem.mp hp)
    rw [hin r hr] at hc
    exact ⟨r, hr, rfl, Option.some.inj hc⟩
  · cases hc

end Selection

def posts (s : PeerSampler) (p : PeerPoll) : List PeerSample :=
  (s.select p.now p.reported).1

def remember? (s : PeerSampler) (p : PeerPoll) : Option PeerSampler :=
  p.poll.result.toOption.map fun readings => (s.select p.now readings).2

def turn (s : PeerSampler) (p : PeerPoll) (db : Database) : Ticked PeerSampler :=
  s.tick p.now p.elapsed p.poll db

theorem turn_follows (s : PeerSampler) (p : PeerPoll) (db : Database) :
    Ticked.Follows s db (.appendPeers (s.posts p)) (s.remember? p) (s.turn p db) := by
  unfold turn tick remember? posts PeerPoll.reported
  cases p.poll.result with
  | error failure => exact .failed _ _
  | ok readings =>
    simp only [Outcome.within, Except.toOption, Option.map_some, Option.getD_some]
    split
    · rename_i hempty
      rw [List.isEmpty_iff.mp hempty]
      exact .quiet _ _ rfl rfl
    · exact .writing _ _ "writing peer snapshots"

def run (maxBatch : ℕ) (db : Database) : List (Turn PeerPoll) → Ticked PeerSampler :=
  Ticked.after turn (.unchanged (.ofMaxBatch maxBatch) db (.ok 0) [])

theorem run_cons (maxBatch : ℕ) (db : Database) (next : Turn PeerPoll)
    (history : List (Turn PeerPoll)) :
    run maxBatch db (next :: history) = (run maxBatch db history).memory.turn next.given
      { (run maxBatch db history).database with guards := next.guards } := rfl

theorem run_of_ok {maxBatch : ℕ} {db : Database} {next : Turn PeerPoll}
    {earlier : List (Turn PeerPoll)} (hok : (run maxBatch db (next :: earlier)).result.isOk) :
    (run maxBatch db (next :: earlier)).memory =
      ((run maxBatch db earlier).memory.select next.given.now next.given.reported).2 ∧
    (run maxBatch db (next :: earlier)).database.tables =
      (Call.appendPeers ((run maxBatch db earlier).memory.posts next.given)).effect
        (run maxBatch db earlier).database.tables := by
  have hturn := turn_follows (run maxBatch db earlier).memory next.given
    { (run maxBatch db earlier).database with guards := next.guards }
  rw [← run_cons] at hturn
  rcases hturn.cases with ⟨failure, hr, -⟩ | ⟨-, ht⟩
  · rw [hr] at hok
    cases hok
  · refine ⟨?_, ht⟩
    cases hresult : next.given.poll.result with
    | error failure =>
      obtain ⟨⟨failure, hr⟩, -⟩ := hturn.of_none (by rw [remember?, hresult]; rfl)
      rw [hr] at hok
      cases hok
    | ok readings =>
      rw [hturn.memory_eq, remember?, PeerPoll.reported, hresult]
      rfl

/-- The store to compare with: a snapshot of every reported peer is appended at every poll. -/
def everySnapshot (db : Database) : List (Turn PeerPoll) → Database
  | [] => { db with guards := [] }
  | next :: earlier =>
    (Call.appendPeers (next.given.reported.map (·.sample next.given.now))).after
      (everySnapshot db earlier)

/-- A sampler's memory agrees with the newest snapshots of its table, and those that the table lacks
would add nothing. -/
structure Mirrors (s : PeerSampler) (sparse full : List Snapshot) : Prop where
  memory : ∀ peer count, s.retained.get? peer = some count →
    (newest? sparse peer).map (fun b => b.bytes) = some count.stored
  newest : ∀ peer, (newest? sparse peer).map (fun b => b.bytes) =
    (newest? full peer).map fun b => b.bytes
  gained : ∀ test, gains sparse test = gains full test

namespace Mirrors

variable {s : PeerSampler} {sparse full : List Snapshot} {p : PeerPoll}

theorem fresh (maxBatch : ℕ) (peers : List Snapshot) :
    Mirrors (.ofMaxBatch maxBatch) peers peers where
  memory := fun _ _ h => by cases h
  newest := fun _ => rfl
  gained := fun _ => rfl

theorem newest_reported (m : Mirrors s sparse full) (hs : DistinctKeys Snapshot.toRow sparse)
    (hd : (p.reported.map (·.peer)).Nodup) (hold : ∀ a ∈ sparse, a.ts < p.now) {r : PeerReading}
    (hr : r ∈ p.reported) :
    (newest? (sparse ++ p.snapshots (s.changed p.reported)) r.peer).map (fun b => b.bytes) =
      some r.count.stored := by
  have hfresh := @PeerPoll.snapshots_fresh p sparse _ (changed_distinct s hd) hold
  by_cases hsame : s.retained.get? r.peer = some r.count
  · rw [Fresh.newest?_other]
    · exact m.memory r.peer r.count hsame
    · rw [PeerPoll.snapshots_ids]
      exact not_changed hd hr hsame
  · have hin : r ∈ s.changed p.reported := mem_changed.mpr ⟨hr, hsame⟩
    have hnew := hfresh.newest?_new hs (PeerPoll.mem_snapshots hin)
    exact congrArg (Option.map fun b => b.bytes) hnew

theorem step (m : Mirrors s sparse full) (hs : DistinctKeys Snapshot.toRow sparse)
    (hf : DistinctKeys Snapshot.toRow full) (hd : (p.reported.map (·.peer)).Nodup)
    (hroom : s.deferred p.reported = 0) (hsparse : ∀ a ∈ sparse, a.ts < p.now)
    (hfull : ∀ a ∈ full, a.ts < p.now) :
    Mirrors (s.select p.now p.reported).2 (sparse ++ p.snapshots (s.changed p.reported))
      (full ++ p.snapshots p.reported) := by
  have hfresh := @PeerPoll.snapshots_fresh p full _ hd hfull
  constructor
  · intro peer count hc
    obtain ⟨r, hr, rfl, rfl⟩ := (select_roomy hd hroom).2 peer count hc
    exact m.newest_reported hs hd hsparse hr
  · intro peer
    by_cases hin : peer ∈ p.reported.map (·.peer)
    · obtain ⟨r, hr, rfl⟩ := List.mem_map.mp hin
      have hnew := hfresh.newest?_new hf (PeerPoll.mem_snapshots hr)
      rw [m.newest_reported hs hd hsparse hr]
      exact (congrArg (Option.map fun b => b.bytes) hnew).symm
    · have hout : peer ∉ (s.changed p.reported).map (·.peer) :=
        fun hm => hin ((List.filter_sublist.map _).subset hm)
      rw [Fresh.newest?_other, Fresh.newest?_other, m.newest]
      · rwa [PeerPoll.snapshots_ids]
      · rwa [PeerPoll.snapshots_ids]
  · intro test
    rw [PeerPoll.gains_snapshots (PeerPoll.snapshots_fresh (changed_distinct s hd) hsparse),
      PeerPoll.gains_snapshots hfresh, m.gained]
    congr 1
    simp only [← m.newest]
    rw [changed, List.filter_comm]
    apply sum_filter_of_zero
    intro r _ hsame
    -- The newest snapshot has the same counters, so there is nothing to gain over it.
    have hkept : s.retained.get? r.peer = some r.count := by simpa using hsame
    rw [m.memory r.peer r.count hkept]
    exact tsub_self _

end Mirrors

/-- Runs in which the clock goes up from the snapshots that are there, no poll reports a peer twice,
and whatever is to be written is written at once. -/
structure Steady (maxBatch : ℕ) (db : Database) (history : List (Turn PeerPoll)) : Prop where
  older : ∀ s ∈ db.tables.peers, ∀ next ∈ history, s.ts < next.given.now
  rising : history.Pairwise fun later earlier => earlier.given.now < later.given.now
  distinct : ∀ next ∈ history, (next.given.reported.map (·.peer)).Nodup
  roomy : ∀ next earlier, next :: earlier <:+ history →
    (run maxBatch db earlier).memory.deferred next.given.reported = 0
  written : ∀ next earlier, next :: earlier <:+ history → next.given.poll.result.isOk →
    (run maxBatch db (next :: earlier)).result.isOk

structure Compared (db : Database) (history : List (Turn PeerPoll)) (t : Ticked PeerSampler)
    (every : Database) : Prop where
  sparse : t.database.tables.Sound
  full : every.tables.Sound
  free : every.guards = []
  buckets : t.database.tables.peerBuckets = every.tables.peerBuckets
  subset : t.database.tables.peers ⊆ every.tables.peers
  complete : every.tables.peers = db.tables.peers ++
    history.reverse.flatMap fun next => next.given.snapshots next.given.reported
  mirrors : Mirrors t.memory t.database.tables.peers every.tables.peers

section Runs

variable {maxBatch : ℕ} {db : Database} {next : Turn PeerPoll} {earlier history : List (Turn PeerPoll)}

theorem Steady.tail (h : Steady maxBatch db (next :: earlier)) : Steady maxBatch db earlier where
  older := fun s hs other ho => h.older s hs other (List.mem_cons_of_mem next ho)
  rising := (List.pairwise_cons.mp h.rising).2
  distinct := fun other ho => h.distinct other (List.mem_cons_of_mem next ho)
  roomy := fun other before hb => h.roomy other before (hb.trans (List.suffix_cons next earlier))
  written := fun other before hb => h.written other before (hb.trans (List.suffix_cons next earlier))

theorem Compared.older {t : Ticked PeerSampler} {every : Database}
    (c : Compared db earlier t every) (h : Steady maxBatch db (next :: earlier)) :
    ∀ s ∈ every.tables.peers, s.ts < next.given.now := by
  intro s hs
  rw [c.complete] at hs
  rcases List.mem_append.mp hs with hs | hs
  · exact h.older s hs next List.mem_cons_self
  · obtain ⟨other, ho, hs⟩ := List.mem_flatMap.mp hs
    have ho : other ∈ earlier := List.mem_reverse.mp ho
    have hd := h.distinct other (List.mem_cons_of_mem next ho)
    rw [(@PeerPoll.snapshots_fresh _ [] _ hd (List.forall_mem_nil _)).second s hs]
    exact (List.pairwise_cons.mp h.rising).1 other ho

theorem Compared.everySnapshot_cons {t : Ticked PeerSampler}
    (c : Compared db earlier t (everySnapshot db earlier))
    (h : Steady maxBatch db (next :: earlier)) :
    everySnapshot db (next :: earlier) = { everySnapshot db earlier with
      tables := { (everySnapshot db earlier).tables with
        peers := (everySnapshot db earlier).tables.peers ++
          next.given.snapshots next.given.reported } } := by
  have hfresh := PeerPoll.snapshots_fresh (h.distinct next List.mem_cons_self) (c.older h)
  rw [← PeerPoll.effect_fresh hfresh c.full.peers]
  exact congrArg Prod.snd ((Call.yields (.appendPeers _) trivial).free c.free)

theorem Compared.run_ok {every : Database} (c : Compared db earlier (run maxBatch db earlier) every)
    (h : Steady maxBatch db (next :: earlier)) (hp : next.given.poll.result.isOk) :
    (run maxBatch db (next :: earlier)).memory =
      ((run maxBatch db earlier).memory.select next.given.now next.given.reported).2 ∧
    (run maxBatch db (next :: earlier)).database.tables =
      { (run maxBatch db earlier).database.tables with
        peers := (run maxBatch db earlier).database.tables.peers ++ next.given.snapshots
          ((run maxBatch db earlier).memory.changed next.given.reported) } := by
  have hd := h.distinct next List.mem_cons_self
  obtain ⟨hm, ht⟩ := run_of_ok (h.written next earlier List.suffix_rfl hp)
  have hsparse : ∀ s ∈ (run maxBatch db earlier).database.tables.peers,
      s.ts < next.given.now := fun s hs => c.older h s (c.subset hs)
  refine ⟨hm, ?_⟩
  rw [ht, posts, (select_roomy hd (h.roomy next earlier List.suffix_rfl)).1]
  exact PeerPoll.effect_fresh (PeerPoll.snapshots_fresh (changed_distinct _ hd) hsparse)
    c.sparse.peers

theorem run_failed (hp : ¬ next.given.poll.result.isOk) :
    next.given.reported = [] ∧
    (run maxBatch db (next :: earlier)).memory = (run maxBatch db earlier).memory ∧
    (run maxBatch db (next :: earlier)).database.tables =
      (run maxBatch db earlier).database.tables := by
  have hturn := turn_follows (run maxBatch db earlier).memory next.given
    { (run maxBatch db earlier).database with guards := next.guards }
  cases hresult : next.given.poll.result with
  | ok readings =>
    rw [hresult] at hp
    exact absurd rfl hp
  | error failure =>
    obtain ⟨-, hm, ht⟩ := hturn.of_none (by rw [remember?, hresult]; rfl)
    refine ⟨?_, hm, ht⟩
    rw [PeerPoll.reported, hresult]
    rfl

theorem Steady.compared (hs : db.tables.Sound) (h : Steady maxBatch db history) :
    Compared db history (run maxBatch db history) (everySnapshot db history) := by
  induction history with
  | nil => exact ⟨hs, hs, rfl, rfl, List.Subset.refl _, (List.append_nil _).symm, .fresh _ _⟩
  | cons next earlier ih =>
    have c := ih h.tail
    have hfull := c.older h
    have hsparse := fun a ha => hfull a (c.subset ha)
    have hevery := c.everySnapshot_cons h
    have hsound : (run maxBatch db (next :: earlier)).database.tables.Sound :=
      (turn_follows _ _ _).sound c.sparse
    have hcomplete : (everySnapshot db (next :: earlier)).tables.peers = db.tables.peers ++
        (next :: earlier).reverse.flatMap fun next => next.given.snapshots next.given.reported := by
      rw [hevery, c.complete, List.reverse_cons, List.flatMap_append, List.flatMap_singleton,
        List.append_assoc]
    -- a poll that fails brings neither store anything, and the memory stays
    by_cases hp : next.given.poll.result.isOk
    · obtain ⟨hm, ht⟩ := c.run_ok h hp
      exact {
        sparse := hsound
        full := c.full.after _
        free := (Call.after_guards _ _).trans c.free
        buckets := by rw [ht, hevery]; exact c.buckets
        subset := by
          rw [ht, hevery]
          exact List.append_subset.mpr ⟨fun s hs => List.mem_append_left _ (c.subset hs),
            fun s hs => List.mem_append_right _ (snapshots_changed _ _ hs)⟩
        complete := hcomplete
        mirrors := by
          rw [ht, hm, hevery]
          exact c.mirrors.step c.sparse.peers c.full.peers (h.distinct next List.mem_cons_self)
            (h.roomy next earlier List.suffix_rfl) hsparse hfull }
    · obtain ⟨hnone, hm, ht⟩ := @run_failed maxBatch db next earlier hp
      have hsame : (everySnapshot db (next :: earlier)).tables =
          (everySnapshot db earlier).tables := by
        rw [hevery, hnone]
        simp [PeerPoll.snapshots]
      exact {
        sparse := hsound
        full := c.full.after _
        free := (Call.after_guards _ _).trans c.free
        buckets := by rw [ht, hsame]; exact c.buckets
        subset := by rw [ht, hsame]; exact c.subset
        complete := hcomplete
        mirrors := by rw [ht, hm, hsame]; exact c.mirrors }

/-- Leaving out unchanged snapshots does not show. Whatever window, selection and interval is asked
for, every bucket holds what it would hold with all of them. -/
theorem unchanged_snapshots_invisible (hs : db.tables.Sound) (h : Steady maxBatch db history)
    (identities : List String) (first last interval : ℤ)
    (fits : ∀ start, Storable (moved ((everySnapshot db history).tables.bucket .peers identities
      first last (max interval 1) start))) :
    (everySnapshot db history).tables.peers = db.tables.peers ++
      (history.reverse.flatMap fun next => next.given.snapshots next.given.reported) ∧
    (identities.length ≤ maxIdentities → ∃ sparse full,
      (run maxBatch db history).database.tables.bucketed .peers identities first last interval =
        .ok sparse ∧
      (everySnapshot db history).tables.bucketed .peers identities first last interval =
        .ok full ∧
      ∀ start, amountAt sparse start = amountAt full start) ∧
    (maxIdentities < identities.length → ∃ failure,
      (run maxBatch db history).database.tables.bucketed .peers identities first last interval =
        .error failure ∧
      (everySnapshot db history).tables.bucketed .peers identities first last interval =
        .error failure) := by
  have c := h.compared hs
  refine ⟨c.complete, bucketed_agree c.sparse c.full ?_ fits⟩
  intro start
  have hgains := c.mirrors.gained fun k => inWindow first last k.2 && selected identities k.1 &&
    decide (bucketKey k.2 (max interval 1) = start)
  rw [moved_bucket_peers c.sparse, moved_bucket_peers c.full, c.buckets]
  exact congrArg (· + _) hgains

end Runs

theorem forall_turns {ι : Type} {history : List (Turn ι)} {P : Turn ι → List (Turn ι) → Prop}
    (h : ∀ l ∈ history.tails, ∀ next ∈ l.head?, P next l.tail) (next : Turn ι)
    (earlier : List (Turn ι)) (hs : next :: earlier <:+ history) : P next earlier :=
  h (next :: earlier) ((List.mem_tails _ _).mpr hs) next rfl

def peerTurn (now : ℤ) (result : Outcome (List PeerReading)) : Turn PeerPoll :=
  ⟨⟨now, ⟨0⟩, ⟨result, []⟩⟩, []⟩

def idleTurns : List (Turn PeerPoll) :=
  [peerTurn 700 (.ok [⟨"p", 40, 90, "a", 0⟩, ⟨"q", 60, 60, "b", 0⟩]),
    peerTurn 600 (.ok [⟨"q", 50, 50, "b", 0⟩, ⟨"p", 20, 30, "a", 0⟩]),
    peerTurn 520 (.ok [⟨"q", 50, 50, "b", 0⟩]),
    peerTurn 470 (Outcome.fail .timeout),
    peerTurn 420 (.ok [⟨"p", 20, 30, "a", 0⟩, ⟨"q", 50, 50, "b", 0⟩]),
    peerTurn 360 (.ok [⟨"p", 150, 30, "a", 0⟩, ⟨"q", 50, 50, "b", 0⟩]),
    peerTurn 300 (.ok [⟨"p", 150, 30, "a", 0⟩, ⟨"q", 45, 41, "b", 0⟩])]

def resetDatabase : Database := { Database.blank with tables := resetTables }

theorem idleTurns_steady : Steady 2 resetDatabase idleTurns where
  older := by decide +kernel
  rising := by decide +kernel
  distinct := by decide +kernel
  roomy := forall_turns (by decide +kernel)
  written := forall_turns (by decide +kernel)

theorem unchanged_snapshots_invisible_when_idle :
    Steady 2 resetDatabase idleTurns ∧ ∃ sparse full,
      (run 2 resetDatabase idleTurns).database.tables.bucketed .peers [] 330 700 120 =
        .ok sparse ∧
      (everySnapshot resetDatabase idleTurns).tables.bucketed .peers [] 330 700 120 = .ok full ∧
      (∀ start, amountAt sparse start = amountAt full start) ∧
      amountAt full 600 = (30, 70) := by
  have fits : Storable (moved ((everySnapshot resetDatabase idleTurns).tables.movements .peers)) := by
    decide +kernel
  obtain ⟨-, hok, -⟩ := unchanged_snapshots_invisible resetTables_sound idleTurns_steady [] 330 700
    120 fun _ => (fits.mono (moved_filter_le _ _)).mono (moved_filter_le _ _)
  obtain ⟨sparse, full, hsparse, hfull, hsame⟩ := hok (by decide)
  have hpoints : (everySnapshot resetDatabase idleTurns).tables.bucketed .peers [] 330 700 120 =
      .ok [⟨360, 5, 9⟩, ⟨480, 0, 0⟩, ⟨600, 30, 70⟩] := rfl
  refine ⟨idleTurns_steady, sparse, full, hsparse, hfull, hsame, ?_⟩
  rw [hpoints] at hfull
  cases hfull
  rfl

end PeerSampler

end TrafficMeter
