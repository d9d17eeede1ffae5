import TrafficMeter.Proofs.Sampler.ChangedSnapshots

/-!
Peers that have to wait. Every turn that leaves a peer without a snapshot writes as many snapshots as
it may, so the peers that are still without one can be counted. They have waited behind others that
changed again and again; each change costs one place.
-/

namespace TrafficMeter

open Store

theorem Store.mem_ids_insertNew {peers : List Snapshot} {a : Snapshot} {peer : String} :
    peer ∈ (insertNew Snapshot.toRow peers a).map (·.id) ↔
      peer ∈ peers.map (·.id) ∨ peer = a.id := by
  unfold insertNew
  by_cases hh : holds Snapshot.toRow peers a.toRow.key = true
  · rw [if_pos hh]
    constructor
    · exact Or.inl
    · rintro (hold | rfl)
      · exact hold
      · obtain ⟨b, hb, hkey⟩ := List.mem_map.mp (holds_iff.mp hh)
        exact List.mem_map.mpr ⟨b, hb, congrArg Prod.fst hkey⟩
  · rw [if_neg hh, List.map_append, List.mem_append, List.map_singleton, List.mem_singleton]

theorem Store.mem_ids_foldl_insertNew {peers added : List Snapshot} {peer : String} :
    peer ∈ (added.foldl (insertNew Snapshot.toRow) peers).map (·.id) ↔
      peer ∈ peers.map (·.id) ∨ peer ∈ added.map (·.id) := by
  induction added generalizing peers with
  | nil => simp
  | cons a rest ih =>
    rw [List.foldl_cons, ih, mem_ids_insertNew, List.map_cons, List.mem_cons, or_assoc]

namespace PeerSampler

section Batches

variable {s : PeerSampler} {now : ℤ} {readings : List PeerReading}

def batch (s : PeerSampler) (readings : List PeerReading) : List PeerReading :=
  (s.changed readings).take s.maxBatch

def overdue (s : PeerSampler) (readings : List PeerReading) : List PeerReading :=
  (s.changed readings).drop s.maxBatch

def unmet (s : PeerSampler) (readings : List PeerReading) : List PeerReading :=
  (s.changed readings).filter fun r => s.retained.get? r.peer = none

def stale (s : PeerSampler) (readings : List PeerReading) : List PeerReading :=
  (s.changed readings).filter fun r => ¬ s.retained.get? r.peer = none

theorem batch_append_overdue (s : PeerSampler) (readings : List PeerReading) :
    s.batch readings ++ s.overdue readings = s.changed readings := List.take_append_drop _ _

theorem batch_subset (s : PeerSampler) (readings : List PeerReading) :
    s.batch readings ⊆ s.changed readings := (List.take_sublist _ _).subset

theorem overdue_subset (s : PeerSampler) (readings : List PeerReading) :
    s.overdue readings ⊆ s.changed readings := (List.drop_sublist _ _).subset

theorem selectAll_maxBatch (s : PeerSampler) (now : ℤ) (room : ℕ) (readings : List PeerReading) :
    (s.selectAll now room readings).2.maxBatch = s.maxBatch := by
  induction readings generalizing s room with
  | nil => rfl
  | cons r rest ih =>
    rw [selectAll]
    split
    · exact ih s room
    · exact ih { s with retained := s.retained.insert r.peer r.count } (room - 1)

theorem select_memory (hd : (readings.map (·.peer)).Nodup) :
    (s.select now readings).1 = (s.batch readings).map (·.sample now) ∧
    (∀ r ∈ s.batch readings, (s.select now readings).2.retained.get? r.peer = some r.count) ∧
    ∀ peer ∈ readings.map (·.peer), peer ∉ (s.batch readings).map (·.peer) →
      (s.select now readings).2.retained.get? peer = s.retained.get? peer := by
  obtain ⟨hrows, hin, hout⟩ := @selectAll_taken s now s.maxBatch readings hd
  have hkeep : ∀ peer ∈ readings.map (·.peer), (s.select now readings).2.retained.get? peer =
      (s.selectAll now s.maxBatch readings).2.retained.get? peer := by
    intro peer hp
    change (Keyed.keep _ fun peer _ => (readings.map (·.peer)).contains peer).get? peer = _
    rw [Keyed.get?_keep, if_pos (List.contains_iff_mem.mpr hp)]
  refine ⟨hrows, ?_, ?_⟩
  · intro r hr
    have hmem := (mem_changed.mp (batch_subset s readings hr)).1
    rw [hkeep r.peer (List.mem_map_of_mem hmem)]
    exact hin r hr
  · intro peer hp hnot
    rw [hkeep peer hp]
    exact hout peer hnot

theorem batch_disjoint_overdue (hd : (readings.map (·.peer)).Nodup) {r : PeerReading}
    (hr : r ∈ s.overdue readings) : r.peer ∉ (s.batch readings).map (·.peer) := by
  have hall := changed_distinct s hd
  rw [← batch_append_overdue, List.map_append] at hall
  intro hm
  exact List.disjoint_of_nodup_append hall hm (List.mem_map_of_mem hr)

theorem select_overdue (hd : (readings.map (·.peer)).Nodup) {r : PeerReading}
    (hr : r ∈ s.overdue readings) :
    (s.select now readings).2.retained.get? r.peer = s.retained.get? r.peer := by
  obtain ⟨-, -, hout⟩ := @select_memory s now readings hd
  have hmem := (mem_changed.mp (overdue_subset s readings hr)).1
  exact hout r.peer (List.mem_map_of_mem hmem) (batch_disjoint_overdue hd hr)

/-- Of the readings of a poll, just those that have to wait differ from the memory that it leaves. -/
theorem changed_select (hd : (readings.map (·.peer)).Nodup) :
    (s.select now readings).2.changed readings = s.overdue readings := by
  obtain ⟨-, hin, hout⟩ := @select_memory s now readings hd
  have hstill : (s.select now readings).2.changed readings = (s.changed readings).filter fun r =>
      (s.select now readings).2.retained.get? r.peer ≠ some r.count := by
    rw [changed, changed, List.filter_filter]
    apply List.filter_congr
    intro r hr
    by_cases hsame : s.retained.get? r.peer = some r.count
    · have hnot : r.peer ∉ (s.batch readings).map (·.peer) := fun hm =>
        not_changed hd hr hsame (List.map_subset _ (batch_subset s readings) hm)
      rw [hout r.peer (List.mem_map_of_mem hr) hnot]
      simp [hsame]
    · simp [hsame]
  rw [hstill, ← batch_append_overdue, List.filter_append]
  have hnone : (s.batch readings).filter (fun r =>
      (s.select now readings).2.retained.get? r.peer ≠ some r.count) = [] := by
    rw [List.filter_eq_nil_iff]
    intro r hr
    simp [hin r hr]
  have hall : (s.overdue readings).filter (fun r =>
      (s.select now readings).2.retained.get? r.peer ≠ some r.count) = s.overdue readings := by
    rw [List.filter_eq_self]
    intro r hr
    rw [select_overdue hd hr]
    exact decide_eq_true (mem_changed.mp (overdue_subset s readings hr)).2
  rw [hnone, hall, List.nil_append]

theorem filter_changed_select (hd : (readings.map (·.peer)).Nodup)
    (keep : Option PeerCount → Bool) :
    ((s.select now readings).2.changed readings).filter
        (fun r => keep ((s.select now readings).2.retained.get? r.peer)) =
      (s.overdue readings).filter fun r => keep (s.retained.get? r.peer) := by
  rw [changed_select hd]
  apply List.filter_congr
  intro r hr
  rw [select_overdue hd hr]

theorem unmet_select (hd : (readings.map (·.peer)).Nodup) :
    (s.select now readings).2.unmet readings =
      (s.overdue readings).filter fun r => s.retained.get? r.peer = none :=
  filter_changed_select hd fun known => known = none

theorem stale_select (hd : (readings.map (·.peer)).Nodup) :
    (s.select now readings).2.stale readings =
      (s.overdue readings).filter fun r => ¬ s.retained.get? r.peer = none :=
  filter_changed_select hd fun known => ¬ known = none

def rewritten (s : PeerSampler) (readings : List PeerReading) : ℕ :=
  ((s.batch readings).filter fun r => ¬ s.retained.get? r.peer = none).length

theorem stale_select_add (hd : (readings.map (·.peer)).Nodup) :
    ((s.select now readings).2.stale readings).length + s.rewritten readings =
      (s.stale readings).length := by
  rw [stale_select hd, rewritten, stale, ← batch_append_overdue, List.filter_append,
    List.length_append, Nat.add_comm]

theorem unmet_select_add (hd : (readings.map (·.peer)).Nodup) :
    ((s.select now readings).2.unmet readings).length + (s.batch readings).length =
      (s.unmet readings).length + s.rewritten readings := by
  have hsplit := @List.length_eq_length_filter_add _ (s.batch readings)
    fun r => decide (s.retained.get? r.peer = none)
  have hunmet : (s.unmet readings).length =
      ((s.batch readings).filter fun r => s.retained.get? r.peer = none).length +
        ((s.overdue readings).filter fun r => s.retained.get? r.peer = none).length := by
    rw [unmet, ← batch_append_overdue, List.filter_append, List.length_append]
  have hrewritten : s.rewritten readings =
      ((s.batch readings).filter fun r => !decide (s.retained.get? r.peer = none)).length := by
    simp only [rewritten, decide_not]
  rw [unmet_select hd]
  omega

/-- A turn that leaves a peer without a snapshot writes as many snapshots as it may. -/
theorem batch_length (hd : (readings.map (·.peer)).Nodup) :
    (s.batch readings).length ≤ s.maxBatch ∧
    ((s.select now readings).2.unmet readings ≠ [] →
      (s.batch readings).length = s.maxBatch ∧ s.unmet readings ≠ []) := by
  refine ⟨List.length_take_le _ _, ?_⟩
  intro hne
  rw [unmet_select hd] at hne
  obtain ⟨r, hr⟩ := List.exists_mem_of_ne_nil _ hne
  obtain ⟨hover, hnone⟩ := List.mem_filter.mp hr
  constructor
  · have hpos := List.length_pos_of_mem hover
    rw [overdue, List.length_drop] at hpos
    exact List.length_take_of_le (by omega)
  · exact List.ne_nil_of_mem (List.mem_filter.mpr ⟨overdue_subset s readings hover, hnone⟩)

theorem unmet_eq (s : PeerSampler) (readings : List PeerReading) :
    s.unmet readings = readings.filter fun r => s.retained.get? r.peer = none := by
  rw [unmet, changed, List.filter_filter]
  apply List.filter_congr
  intro r _
  by_cases hnone : s.retained.get? r.peer = none
  · simp [hnone]
  · simp [hnone]

theorem unmet_peers (s : PeerSampler) (readings : List PeerReading) :
    (s.unmet readings).map (·.peer) =
      (readings.map (·.peer)).filter fun peer => s.retained.get? peer = none := by
  rw [unmet_eq, List.filter_map]
  rfl

theorem get?_select_eq_none (hd : (readings.map (·.peer)).Nodup) {peer : String}
    (hp : peer ∈ readings.map (·.peer)) :
    (s.select now readings).2.retained.get? peer = none ↔
      s.retained.get? peer = none ∧ peer ∈ (s.overdue readings).map (·.peer) := by
  obtain ⟨-, hin, hout⟩ := @select_memory s now readings hd
  obtain ⟨r, hr, rfl⟩ := List.mem_map.mp hp
  constructor
  · intro hnone
    have hnot : r.peer ∉ (s.batch readings).map (·.peer) := by
      intro hm
      obtain ⟨q, hq, hid⟩ := List.mem_map.mp hm
      rw [← hid, hin q hq] at hnone
      cases hnone
    rw [hout r.peer hp hnot] at hnone
    have hchanged : r ∈ s.changed readings := mem_changed.mpr ⟨hr, by simp [hnone]⟩
    rw [← batch_append_overdue] at hchanged
    rcases List.mem_append.mp hchanged with hm | hm
    · exact absurd (List.mem_map_of_mem hm) hnot
    · exact ⟨hnone, List.mem_map_of_mem hm⟩
  · rintro ⟨hnone, hm⟩
    obtain ⟨q, hq, hid⟩ := List.mem_map.mp hm
    rw [← hid, select_overdue hd hq, hid, hnone]

def news (readings last : List PeerReading) : List PeerReading :=
  readings.filter fun r => (r.peer, r.count) ∉ last.map fun q => (q.peer, q.count)

theorem stale_le (s : PeerSampler) {last : List PeerReading}
    (hd : (readings.map (·.peer)).Nodup) :
    (s.stale readings).length ≤ (s.stale last).length + (news readings last).length := by
  have hsub : (s.stale readings).Sublist readings :=
    List.filter_sublist.trans List.filter_sublist
  rw [@List.length_eq_length_filter_add _ (s.stale readings)
    fun r => decide ((r.peer, r.count) ∈ last.map fun q => (q.peer, q.count))]
  apply Nat.add_le_add
  · -- What the other poll had too was stale there already.
    have hdistinct : (((s.stale readings).filter fun r =>
        (r.peer, r.count) ∈ last.map fun q => (q.peer, q.count)).map
          fun r => (r.peer, r.count)).Nodup := by
      apply List.Nodup.of_map Prod.fst
      rw [List.map_map]
      exact hd.sublist ((List.filter_sublist.trans hsub).map _)
    have hold : (((s.stale readings).filter fun r =>
        (r.peer, r.count) ∈ last.map fun q => (q.peer, q.count)).map
          fun r => (r.peer, r.count)) ⊆ (s.stale last).map fun q => (q.peer, q.count) := by
      intro key hkey
      obtain ⟨r, hr, rfl⟩ := List.mem_map.mp hkey
      obtain ⟨hstale, hlast⟩ := List.mem_filter.mp hr
      obtain ⟨q, hq, hkey⟩ := List.mem_map.mp (of_decide_eq_true hlast)
      obtain ⟨hpeer, hcount⟩ := Prod.mk.inj hkey
      refine List.mem_map.mpr ⟨q, ?_, hkey⟩
      simp only [stale, changed, List.mem_filter, hpeer, hcount] at hstale ⊢
      exact ⟨⟨hq, hstale.1.2⟩, hstale.2⟩
    have hlen := (List.subperm_of_subset hdistinct hold).length_le
    rwa [List.length_map, List.length_map] at hlen
  · simp only [news, ← decide_not]
    exact (hsub.filter _).length_le

end Batches

/-- Runs in which every poll reports the same peers in the same order and every turn succeeds. -/
structure SamePeers (ids : List String) (maxBatch : ℕ) (db : Database)
    (history : List (Turn PeerPoll)) : Prop where
  distinct : ids.Nodup
  same : ∀ next ∈ history, next.given.reported.map (·.peer) = ids
  succeeds : ∀ next earlier, next :: earlier <:+ history →
    (run maxBatch db (next :: earlier)).result.isOk

def unwritten (ids : List String) (t : Tables) : List String :=
  ids.filter fun peer => peer ∉ t.peers.map (·.id)

def rewrites (maxBatch : ℕ) (db : Database) : List (Turn PeerPoll) → ℕ
  | [] => 0
  | next :: earlier => rewrites maxBatch db earlier +
    (run maxBatch db earlier).memory.rewritten next.given.reported

def changes : List (Turn PeerPoll) → ℕ
  | next :: last :: earlier =>
    changes (last :: earlier) + (news next.given.reported last.given.reported).length
  | _ => 0

section Runs

variable {ids : List String} {maxBatch : ℕ} {db : Database} {next : Turn PeerPoll}
  {earlier history : List (Turn PeerPoll)}

theorem SamePeers.suffix (h : SamePeers ids maxBatch db history) (hs : earlier <:+ history) :
    SamePeers ids maxBatch db earlier where
  distinct := h.distinct
  same := fun other ho => h.same other (hs.subset ho)
  succeeds := fun other before hb => h.succeeds other before (hb.trans hs)

theorem SamePeers.tail (h : SamePeers ids maxBatch db (next :: earlier)) :
    SamePeers ids maxBatch db earlier := h.suffix (List.suffix_cons next earlier)

theorem SamePeers.nodup (h : SamePeers ids maxBatch db (next :: earlier)) :
    (next.given.reported.map (·.peer)).Nodup :=
  (h.same next List.mem_cons_self).symm ▸ h.distinct

theorem SamePeers.memory (h : SamePeers ids maxBatch db (next :: earlier)) :
    (run maxBatch db (next :: earlier)).memory =
      ((run maxBatch db earlier).memory.select next.given.now next.given.reported).2 :=
  (run_of_ok (h.succeeds next earlier List.suffix_rfl)).1

theorem SamePeers.maxBatch_eq (h : SamePeers ids maxBatch db history) :
    (run maxBatch db history).memory.maxBatch = max maxBatch 1 := by
  induction history with
  | nil => rfl
  | cons next earlier ih =>
    rw [h.memory]
    exact (selectAll_maxBatch _ _ _ _).trans (ih h.tail)

theorem SamePeers.written_iff (h : SamePeers ids maxBatch db history) {peer : String}
    (hp : peer ∈ ids) : peer ∈ (run maxBatch db history).database.tables.peers.map (·.id) ↔
      peer ∈ db.tables.peers.map (·.id) ∨
        (run maxBatch db history).memory.retained.get? peer ≠ none := by
  induction history with
  | nil =>
    constructor
    · exact Or.inl
    · rintro (hold | hknown)
      · exact hold
      · exact absurd rfl hknown
  | cons next earlier ih =>
    obtain ⟨-, ht⟩ := run_of_ok (h.succeeds next earlier List.suffix_rfl)
    obtain ⟨hrows, hin, hout⟩ := @select_memory (run maxBatch db earlier).memory next.given.now
      next.given.reported h.nodup
    have hpeers : (run maxBatch db (next :: earlier)).database.tables.peers =
        (((run maxBatch db earlier).memory.posts next.given).map PeerSample.snapshot).foldl
          (insertNew Snapshot.toRow) (run maxBatch db earlier).database.tables.peers :=
      congrArg Tables.peers ht
    have hids : (((run maxBatch db earlier).memory.posts next.given).map
        PeerSample.snapshot).map (·.id) =
          ((run maxBatch db earlier).memory.batch next.given.reported).map (·.peer) := by
      rw [posts, hrows, List.map_map, List.map_map]
      rfl
    rw [hpeers, mem_ids_foldl_insertNew, hids, ih h.tail, h.memory, or_assoc]
    apply or_congr_right
    -- a peer of this batch is written and known by now, any other one is as it was
    by_cases hm : peer ∈ ((run maxBatch db earlier).memory.batch next.given.reported).map (·.peer)
    · obtain ⟨r, hr, rfl⟩ := List.mem_map.mp hm
      rw [hin r hr]
      simp [hm]
    · rw [hout peer ((h.same next List.mem_cons_self).symm ▸ hp) hm]
      simp [hm]

theorem SamePeers.unmet_length (h : SamePeers ids maxBatch db (next :: earlier))
    (s : PeerSampler) : (s.unmet next.given.reported).length =
      (ids.filter fun peer => s.retained.get? peer = none).length := by
  rw [← h.same next List.mem_cons_self, ← unmet_peers, List.length_map]

/-- A run has written as many snapshots as it could, unless it has written all the peers. -/
theorem SamePeers.unknown_length (h : SamePeers ids maxBatch db history) :
    (ids.filter fun peer => (run maxBatch db history).memory.retained.get? peer = none).length =
      ids.length + rewrites maxBatch db history - max maxBatch 1 * history.length := by
  induction history with
  | nil =>
    have hall : (ids.filter fun peer => (run maxBatch db []).memory.retained.get? peer = none) =
        ids := by
      rw [List.filter_eq_self]
      intro peer _
      exact decide_eq_true rfl
    rw [hall]
    rfl
  | cons next earlier ih =>
    have hbefore := ih h.tail
    have hsum := @unmet_select_add (run maxBatch db earlier).memory next.given.now
      next.given.reported h.nodup
    obtain ⟨hle, hfull⟩ := @batch_length (run maxBatch db earlier).memory next.given.now
      next.given.reported h.nodup
    rw [h.tail.maxBatch_eq, ← List.length_pos_iff, ← List.length_pos_iff] at hfull
    rw [h.tail.maxBatch_eq] at hle
    rw [← h.memory] at hsum hfull
    rw [h.unmet_length, h.unmet_length] at hsum hfull
    -- Whoever is left over now was so before, and the batch between was full.
    rw [rewrites, List.length_cons, Nat.mul_succ]
    omega

theorem SamePeers.stale_add_rewrites (h : SamePeers ids maxBatch db (next :: earlier)) :
    ((run maxBatch db (next :: earlier)).memory.stale next.given.reported).length +
      rewrites maxBatch db (next :: earlier) ≤ changes (next :: earlier) := by
  induction earlier generalizing next with
  | nil =>
    have hsum := @stale_select_add (run maxBatch db []).memory next.given.now
      next.given.reported h.nodup
    have hnone : (run maxBatch db []).memory.stale next.given.reported = [] := by
      rw [stale, List.filter_eq_nil_iff]
      intro r _ hr
      exact of_decide_eq_true hr rfl
    rw [hnone, ← h.memory, List.length_nil] at hsum
    simp only [rewrites, changes]
    omega
  | cons last earlier ih =>
    have hbefore := ih h.tail
    have hsum := @stale_select_add (run maxBatch db (last :: earlier)).memory next.given.now
      next.given.reported h.nodup
    -- writing a stale reading again takes it away, and only a change brings a new one
    have hle := @stale_le next.given.reported (run maxBatch db (last :: earlier)).memory
      last.given.reported h.nodup
    rw [← h.memory] at hsum
    rw [rewrites, changes]
    omega

theorem SamePeers.rewrites_le (h : SamePeers ids maxBatch db history) :
    rewrites maxBatch db history ≤ changes history := by
  cases history with
  | nil => exact le_rfl
  | cons next earlier => exact (Nat.le_add_left _ _).trans h.stale_add_rewrites

theorem SamePeers.unknown_iff (h : SamePeers ids maxBatch db history) {peer : String}
    (hp : peer ∈ ids) : (run maxBatch db history).memory.retained.get? peer = none ↔
      ∀ next earlier, next :: earlier <:+ history →
        peer ∈ ((run maxBatch db earlier).memory.overdue next.given.reported).map (·.peer) := by
  induction history with
  | nil =>
    constructor
    · intro _ next earlier hsuffix
      exact absurd (List.suffix_nil.mp hsuffix) (List.cons_ne_nil next earlier)
    · intro _
      rfl
  | cons next earlier ih =>
    have hreported : peer ∈ next.given.reported.map (·.peer) :=
      (h.same next List.mem_cons_self).symm ▸ hp
    rw [h.memory, get?_select_eq_none h.nodup hreported, ih h.tail]
    constructor
    · rintro ⟨hbefore, hnow⟩ other before hsuffix
      rcases List.suffix_cons_iff.mp hsuffix with heq | hsuffix
      · obtain ⟨rfl, rfl⟩ := List.cons.inj heq
        exact hnow
      · exact hbefore other before hsuffix
    · intro hall
      refine ⟨?_, hall next earlier List.suffix_rfl⟩
      intro other before hsuffix
      exact hall other before (hsuffix.trans (List.suffix_cons next earlier))

theorem SamePeers.unwritten_eq (h : SamePeers ids maxBatch db history)
    (hdb : ∀ s ∈ db.tables.peers, s.id ∉ ids) :
    unwritten ids (run maxBatch db history).database.tables =
      ids.filter fun peer => (run maxBatch db history).memory.retained.get? peer = none := by
  apply List.filter_congr
  intro peer hp
  have hnew : peer ∉ db.tables.peers.map (·.id) := by
    intro hm
    obtain ⟨s, hs, rfl⟩ := List.mem_map.mp hm
    exact hdb s hs hp
  rw [decide_eq_decide, h.written_iff hp]
  simp [hnew]

/-- Every change of a peer can cost the others one place in a batch. With as many places as there are
peers and changes, every peer is written. In a table without snapshots of the peers, those that are
not written can be counted: a run has written as many snapshots as it could, and what it wrote again
the others have missed. A peer is among them if others came before it at every turn. -/
theorem deferred_peers_written (hbatch : 1 ≤ maxBatch) (h : SamePeers ids maxBatch db history) :
    ((ids.length + changes history + maxBatch - 1) / maxBatch ≤ history.length →
      ∀ peer ∈ ids, ∃ s ∈ (run maxBatch db history).database.tables.peers, s.id = peer) ∧
    rewrites maxBatch db history ≤ changes history ∧
    ((∀ s ∈ db.tables.peers, s.id ∉ ids) →
      (unwritten ids (run maxBatch db history).database.tables).length =
        ids.length + rewrites maxBatch db history - maxBatch * history.length ∧
      ∀ peer ∈ ids, peer ∈ unwritten ids (run maxBatch db history).database.tables ↔
        ∀ next earlier, next :: earlier <:+ history →
          peer ∈ (((run maxBatch db earlier).memory.changed next.given.reported).drop
            maxBatch).map (·.peer)) := by
  have hcount := h.unknown_length
  rw [max_eq_left hbatch] at hcount
  refine ⟨?_, h.rewrites_le, ?_⟩
  · intro hturns peer hp
    have hroom : ids.length + changes history ≤ maxBatch * history.length := by
      have := (Nat.div_le_iff_le_mul_add_pred hbatch).mp hturns
      omega
    have hrewrites := h.rewrites_le
    rw [Nat.sub_eq_zero_of_le (by omega), List.length_eq_zero_iff, List.filter_eq_nil_iff] at hcount
    obtain ⟨s, hs, hid⟩ := List.mem_map.mp
      ((h.written_iff hp).mpr (Or.inr fun hnone => hcount peer hp (decide_eq_true hnone)))
    exact ⟨s, hs, hid⟩
  · intro hdb
    rw [h.unwritten_eq hdb]
    refine ⟨hcount, ?_⟩
    intro peer hp
    rw [List.mem_filter, decide_eq_true_eq, h.unknown_iff hp]
    have hoverdue : ∀ next earlier, next :: earlier <:+ history →
        (run maxBatch db earlier).memory.overdue next.given.reported =
          ((run maxBatch db earlier).memory.changed next.given.reported).drop maxBatch := by
      intro next earlier hsuffix
      have hearlier := h.suffix ((List.suffix_cons next earlier).trans hsuffix)
      rw [overdue, hearlier.maxBatch_eq, max_eq_left hbatch]
    constructor
    · rintro ⟨-, hall⟩ next earlier hsuffix
      rw [← hoverdue next earlier hsuffix]
      exact hall next earlier hsuffix
    · intro hall
      refine ⟨hp, ?_⟩
      intro next earlier hsuffix
      rw [hoverdue next earlier hsuffix]
      exact hall next earlier hsuffix

end Runs

def idle (peer : String) : PeerReading := ⟨peer, 1, 1, "", 0⟩

def queuedTurns : List (Turn PeerPoll) :=
  [peerTurn 180 (.ok (⟨"p", 2, 1, "", 0⟩ :: ["q", "r", "s", "t"].map idle)),
    peerTurn 120 (.ok (⟨"p", 2, 1, "", 0⟩ :: ["q", "r", "s", "t"].map idle)),
    peerTurn 60 (.ok (["p", "q", "r", "s", "t"].map idle))]

theorem queuedTurns_same : SamePeers ["p", "q", "r", "s", "t"] 2 .blank queuedTurns where
  distinct := by decide
  same := by decide +kernel
  succeeds := forall_turns (by decide +kernel)

theorem deferred_peers_written_after_queue :
    SamePeers ["p", "q", "r", "s", "t"] 2 .blank queuedTurns ∧ changes queuedTurns = 1 ∧
    ∀ peer ∈ ["p", "q", "r", "s", "t"],
      ∃ s ∈ (run 2 .blank queuedTurns).database.tables.peers, s.id = peer := by
  have hchanges : changes queuedTurns = 1 := by decide +kernel
  obtain ⟨hall, -, -⟩ := deferred_peers_written (show 1 ≤ 2 by decide) queuedTurns_same
  exact ⟨queuedTurns_same, hchanges, hall (by rw [hchanges]; decide)⟩

def busyTurns : List (Turn PeerPoll) :=
  [peerTurn 120 (.ok [⟨"p", 2, 2, "", 0⟩, idle "q"]), peerTurn 60 (.ok [idle "p", idle "q"])]

theorem busy_peer_keeps_other_waiting :
    ∃ history, SamePeers ["p", "q"] 1 .blank history ∧
      history.Pairwise (fun later earlier => earlier.given.now < later.given.now) ∧
      (["p", "q"].length + 1 - 1) / 1 ≤ history.length ∧
      unwritten ["p", "q"] (run 1 .blank history).database.tables = ["q"] := by
  refine ⟨busyTurns, ⟨?_, ?_, forall_turns ?_⟩, ?_, ?_, ?_⟩
  all_goals decide +kernel

end PeerSampler

end TrafficMeter
