import TrafficMeter.Proofs.Sampler.ChangedSnapshots

/-!
What the sampler of peers remembers and what the table has. A table keeps the first snapshot of a peer
and second, while the memory takes over every one that is selected; so the newest snapshot of a peer
has the remembered counters unless its second was taken when they were to be written.
-/

namespace TrafficMeter

open Store

def Store.PeerSample.count (x : PeerSample) : PeerCount := ⟨x.rx, x.tx⟩

namespace Store

section Newest

variable {peers added : List Snapshot}

theorem filter_foldl_insertNew {peer : String} (h : peer ∉ added.map (·.id)) :
    (added.foldl (insertNew Snapshot.toRow) peers).filter (·.id == peer) =
      peers.filter (·.id == peer) := by
  apply filter_foldl
  intro a ha table
  apply filter_insertNew_of_not
  rw [beq_eq_false_iff_ne]
  rintro rfl
  exact h (List.mem_map_of_mem ha)

theorem newest?_foldl_other {peer : String} (h : peer ∉ added.map (·.id)) :
    newest? (added.foldl (insertNew Snapshot.toRow) peers) peer = newest? peers peer := by
  rw [newest?, filter_foldl_insertNew h, newest?]

theorem newest?_foldl_own (hd : (added.map (·.id)).Nodup) {a : Snapshot} (ha : a ∈ added) :
    newest? (added.foldl (insertNew Snapshot.toRow) peers) a.id =
      newest? (insertNew Snapshot.toRow peers a) a.id := by
  obtain ⟨before, after, rfl⟩ := List.append_of_mem ha
  rw [List.map_append, List.map_cons, List.nodup_middle, List.nodup_cons, List.mem_append,
    not_or] at hd
  obtain ⟨⟨hbefore, hafter⟩, -⟩ := hd
  have hown : ∀ b : Snapshot, b.key = a.key → (b.id == a.id) = true := by
    intro b hb
    exact beq_iff_eq.mpr (congrArg Prod.fst hb)
  rw [List.foldl_append, List.foldl_cons, newest?_foldl_other hafter, newest?, filter_insertNew hown,
    filter_foldl_insertNew hbefore, ← filter_insertNew hown, newest?]

theorem newest?_insertNew (h : DistinctKeys Snapshot.toRow peers) {a : Snapshot}
    (hold : ∀ s ∈ peers, s.ts ≤ a.ts) :
    ∃ b, newest? (insertNew Snapshot.toRow peers a) a.id = some b ∧ b.ts = a.ts ∧
      (holds Snapshot.toRow peers a.key = false → b = a) ∧
      (holds Snapshot.toRow peers a.key = true → b ∈ peers) := by
  cases hh : holds Snapshot.toRow peers a.key with
  | true =>
    obtain ⟨b, hb, hkey⟩ := List.mem_map.mp (holds_iff.mp hh)
    have hts : b.ts = a.ts := congrArg Prod.snd hkey
    refine ⟨b, ?_, hts, fun hnew => Bool.noConfusion hnew, fun _ => hb⟩
    rw [insertNew, if_pos hh, newest?_eq_some_iff h]
    refine ⟨⟨hb, congrArg Prod.fst hkey⟩, ?_⟩
    intro c hc _
    exact hts ▸ hold c hc
  | false =>
    have hd := h.insertNew a
    refine ⟨a, ?_, rfl, fun _ => rfl, fun hold => Bool.noConfusion hold⟩
    rw [newest?_eq_some_iff hd, insertNew, if_neg (by simp [hh])]
    refine ⟨⟨by simp, rfl⟩, ?_⟩
    intro c hc _
    rcases List.mem_append.mp hc with hc | hc
    · exact hold c hc
    · rw [List.mem_singleton.mp hc]

end Newest

end Store

namespace PeerSampler

section Selection

variable {s : PeerSampler} {now : ℤ} {room : ℕ} {readings : List PeerReading} {peer : String}
  {count : PeerCount}

theorem selectAll_cases
    (h : (s.selectAll now room readings).2.retained.get? peer = some count) :
    (∃ x ∈ (s.selectAll now room readings).1, x.peer = peer ∧ x.count = count) ∨
      s.retained.get? peer = some count ∧
        peer ∉ (s.selectAll now room readings).1.map (·.peer) := by
  induction readings generalizing s room with
  | nil => exact Or.inr ⟨h, List.not_mem_nil⟩
  | cons r rest ih =>
    rw [selectAll] at h ⊢
    by_cases hskip : (s.retained.get? r.peer = some r.count || room = 0) = true
    · rw [if_pos hskip] at h ⊢
      exact ih h
    · rw [if_neg hskip] at h ⊢
      dsimp only at h ⊢
      rcases ih h with ⟨x, hx, hpeer, hcount⟩ | ⟨hkept, hout⟩
      · exact Or.inl ⟨x, List.mem_cons_of_mem _ hx, hpeer, hcount⟩
      · rw [Keyed.get?_insert] at hkept
        by_cases hp : peer = r.peer
        · rw [if_pos hp] at hkept
          exact Or.inl ⟨r.sample now, List.mem_cons_self, hp.symm, Option.some.inj hkept⟩
        · rw [if_neg hp] at hkept
          refine Or.inr ⟨hkept, ?_⟩
          rw [List.map_cons, List.mem_cons, not_or]
          exact ⟨hp, hout⟩

theorem selectAll_sublist :
    (s.selectAll now room readings).1.Sublist (readings.map (·.sample now)) := by
  induction readings generalizing s room with
  | nil => exact List.nil_sublist _
  | cons r rest ih =>
    rw [selectAll]
    split
    · exact (ih).cons _
    · exact (ih).cons_cons _

theorem select_cases (h : (s.select now readings).2.retained.get? peer = some count) :
    (∃ x ∈ (s.select now readings).1, x.peer = peer ∧ x.count = count) ∨
      s.retained.get? peer = some count ∧ peer ∉ (s.select now readings).1.map (·.peer) := by
  change (Keyed.keep _ fun peer _ => (readings.map (·.peer)).contains peer).get? peer = _ at h
  rw [Keyed.get?_keep] at h
  split at h
  · exact selectAll_cases h
  · cases h

end Selection

/-- Runs in which the clock never goes back, no poll reports a peer twice and every turn succeeds. -/
structure Smooth (maxBatch : ℕ) (db : Database) (history : List (Turn PeerPoll)) : Prop where
  older : ∀ s ∈ db.tables.peers, ∀ next ∈ history, s.ts ≤ next.given.now
  forward : history.Pairwise fun later earlier => earlier.given.now ≤ later.given.now
  distinct : ∀ next ∈ history, (next.given.reported.map (·.peer)).Nodup
  succeeds : ∀ next earlier, next :: earlier <:+ history →
    (run maxBatch db (next :: earlier)).result.isOk

section Runs

variable {maxBatch : ℕ} {db : Database} {next : Turn PeerPoll} {earlier history : List (Turn PeerPoll)}

theorem Smooth.tail (h : Smooth maxBatch db (next :: earlier)) : Smooth maxBatch db earlier where
  older := fun s hs other ho => h.older s hs other (List.mem_cons_of_mem next ho)
  forward := (List.pairwise_cons.mp h.forward).2
  distinct := fun other ho => h.distinct other (List.mem_cons_of_mem next ho)
  succeeds := fun other before hb => h.succeeds other before (hb.trans (List.suffix_cons next earlier))

theorem posts_ts {s : PeerSampler} {p : PeerPoll} {x : PeerSample} (h : x ∈ s.posts p) :
    x.ts = p.now := by
  obtain ⟨r, -, rfl⟩ := List.mem_map.mp (selectAll_sublist.subset h)
  rfl

theorem posts_distinct {s : PeerSampler} {p : PeerPoll} (hd : (p.reported.map (·.peer)).Nodup) :
    (((s.posts p).map PeerSample.snapshot).map (·.id)).Nodup := by
  have hsub := (@selectAll_sublist s p.now s.maxBatch p.reported).map fun x : PeerSample => x.peer
  rw [List.map_map] at hsub ⊢
  exact hd.sublist hsub

theorem snapshots_until {bound : ℤ} (hdb : ∀ s ∈ db.tables.peers, s.ts ≤ bound)
    (hturns : ∀ next ∈ history, next.given.now ≤ bound) :
    ∀ s ∈ (run maxBatch db history).database.tables.peers, s.ts ≤ bound := by
  induction history with
  | nil => exact hdb
  | cons next earlier ih =>
    have hearlier := ih fun other ho => hturns other (List.mem_cons_of_mem next ho)
    have hturn := turn_follows (run maxBatch db earlier).memory next.given
      { (run maxBatch db earlier).database with guards := next.guards }
    rw [← run_cons] at hturn
    intro s hs
    rcases hturn.cases with ⟨failure, -, ht⟩ | ⟨-, ht⟩
    · rw [ht] at hs
      exact hearlier s hs
    · rw [ht] at hs
      simp only [Call.effect, foldl_insertNew, List.mem_append] at hs
      rcases hs with hs | hs
      · exact hearlier s hs
      · obtain ⟨x, hx, rfl⟩ := List.mem_map.mp (newcomers_subset _ _ _ hs)
        have hnow : x.snapshot.ts = next.given.now := posts_ts hx
        rw [hnow]
        exact hturns next List.mem_cons_self

theorem run_sound (hs : db.tables.Sound) (history : List (Turn PeerPoll)) :
    (run maxBatch db history).database.tables.Sound := by
  induction history with
  | nil => exact hs
  | cons next earlier ih => exact (turn_follows _ _ _).sound ih

/-- The newest snapshot of a remembered peer is of the second of the turn that selected it last. It has
the remembered counters, unless the table had a snapshot of the peer and that second by then; that
one is left as it was. -/
theorem remembered_counters_newest (hs : db.tables.Sound) (h : Smooth maxBatch db history)
    {peer : String} {count : PeerCount}
    (hc : (run maxBatch db history).memory.retained.get? peer = some count) :
    ∃ next earlier, next :: earlier <:+ history ∧
      (∃ x ∈ (run maxBatch db earlier).memory.posts next.given, x.peer = peer ∧ x.count = count) ∧
      ∃ b, newest? (run maxBatch db history).database.tables.peers peer = some b ∧
        b.ts = next.given.now ∧
        (holds Snapshot.toRow (run maxBatch db earlier).database.tables.peers (peer, b.ts) = false →
          b.bytes = count.stored) ∧
        (holds Snapshot.toRow (run maxBatch db earlier).database.tables.peers (peer, b.ts) = true →
          b ∈ (run maxBatch db earlier).database.tables.peers) := by
  induction history with
  | nil => cases hc
  | cons next earlier ih =>
    obtain ⟨hm, ht⟩ := run_of_ok (h.succeeds next earlier List.suffix_rfl)
    have hpeers : (run maxBatch db (next :: earlier)).database.tables.peers =
        (((run maxBatch db earlier).memory.posts next.given).map PeerSample.snapshot).foldl
          (insertNew Snapshot.toRow) (run maxBatch db earlier).database.tables.peers :=
      congrArg Tables.peers ht
    have hd := h.distinct next List.mem_cons_self
    rw [hm] at hc
    rcases select_cases hc with ⟨x, hx, rfl, rfl⟩ | ⟨hkept, hout⟩
    · have hmem := List.mem_map_of_mem (f := PeerSample.snapshot) hx
      have hnow : x.ts = next.given.now := posts_ts hx
      have hold : ∀ s ∈ (run maxBatch db earlier).database.tables.peers, s.ts ≤ x.snapshot.ts := by
        intro s hin
        change s.ts ≤ x.ts
        rw [hnow]
        exact snapshots_until (fun a ha => h.older a ha next List.mem_cons_self)
          (List.pairwise_cons.mp h.forward).1 s hin
      obtain ⟨b, hb, hts, hfree, htaken⟩ := newest?_insertNew (run_sound hs earlier).peers hold
      rw [← newest?_foldl_own (posts_distinct hd) hmem, ← hpeers] at hb
      have hkey : x.snapshot.key = (x.peer, b.ts) := by rw [hts]; rfl
      rw [hkey] at hfree htaken
      refine ⟨next, earlier, List.suffix_rfl, ⟨x, hx, rfl, rfl⟩, b, hb, hts.trans hnow, ?_, htaken⟩
      intro hholds
      rw [hfree hholds]
      rfl
    · obtain ⟨other, before, hsuffix, hpost, b, hb, hrest⟩ := ih h.tail hkept
      refine ⟨other, before, hsuffix.trans (List.suffix_cons next earlier), hpost, b, ?_, hrest⟩
      rw [hpeers, newest?_foldl_other, hb]
      rw [List.map_map]
      exact hout

end Runs

/-- A peer that has to wait and is written by a second tick of the same second, and one that changes
later; the newest turn first. -/
def crowdedTurns : List (Turn PeerPoll) :=
  [peerTurn 120 (.ok [⟨"p", 7, 7, "a", 0⟩, ⟨"q", 2, 2, "b", 0⟩, ⟨"r", 3, 3, "c", 0⟩]),
    peerTurn 60 (.ok [⟨"p", 5, 5, "a", 0⟩, ⟨"q", 2, 2, "b", 0⟩, ⟨"r", 3, 3, "c", 0⟩]),
    peerTurn 60 (.ok [⟨"p", 5, 5, "a", 0⟩, ⟨"q", 2, 2, "b", 0⟩, ⟨"r", 3, 3, "c", 0⟩])]

theorem crowdedTurns_smooth : Smooth 2 .blank crowdedTurns where
  older := by decide +kernel
  forward := by decide +kernel
  distinct := by decide +kernel
  succeeds := forall_turns (by decide +kernel)

theorem remembered_counters_newest_after_wait :
    Smooth 2 .blank crowdedTurns ∧
    (run 2 .blank crowdedTurns).memory.retained.get? "r" = some ⟨3, 3⟩ ∧
    ∃ next earlier b, next :: earlier <:+ crowdedTurns ∧
      newest? (run 2 .blank crowdedTurns).database.tables.peers "r" = some b ∧
      b.ts = next.given.now ∧ b.ts = 60 ∧ b.bytes = (3, 3) := by
  have hc : (run 2 .blank crowdedTurns).memory.retained.get? "r" = some ⟨3, 3⟩ := by decide +kernel
  have hnewest : newest? (run 2 .blank crowdedTurns).database.tables.peers "r" =
      some ⟨⟨"r", 60, .int 3, .int 3⟩, "c"⟩ := by decide +kernel
  obtain ⟨next, earlier, hsuffix, -, b, hb, hts, -⟩ :=
    remembered_counters_newest Tables.Sound.empty crowdedTurns_smooth hc
  rw [hnewest] at hb
  cases hb
  exact ⟨crowdedTurns_smooth, hc, next, earlier, _, hsuffix, hnewest, hts, rfl, rfl⟩

def hastyTurns : List (Turn PeerPoll) :=
  [peerTurn 120 (.ok [⟨"p", 2, 2, "a", 0⟩]), peerTurn 60 (.ok [⟨"p", 2, 2, "a", 0⟩]),
    peerTurn 60 (.ok [⟨"p", 1, 1, "a", 0⟩])]

/-- Memory and table can part: the later counters of a second are remembered and never written. -/
theorem later_counters_of_second_lost :
    ∃ history, Smooth 1000 .blank history ∧
      ∃ peer count, (run 1000 .blank history).memory.retained.get? peer = some count ∧
        (newest? (run 1000 .blank history).database.tables.peers peer).map (fun b => b.bytes) ≠
          some count.stored := by
  refine ⟨hastyTurns, ⟨?_, ?_, ?_, forall_turns ?_⟩, "p", ⟨2, 2⟩, ?_, ?_⟩
  all_goals decide +kernel

end PeerSampler

end TrafficMeter
