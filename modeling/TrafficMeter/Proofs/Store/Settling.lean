import TrafficMeter.Proofs.Store.Rollups

/-!
Maintenance that finds nothing to do. A store is settled for a call if the call would take nothing
from it; then it changes nothing, whatever guards there are. A call settles the store for itself and
leaves it settled for all calls that came before.
-/

namespace TrafficMeter.Store

namespace Tables

/-- No raw row of a series is left for maintenance up to a cutoff. -/
def Clear (t : Tables) (cutoff : ℤ) : Series → Prop
  | .traffic => ∀ r ∈ t.traffic, cutoff ≤ r.ts
  | .peers => ∀ s ∈ t.peers, superseded t.peers cutoff s = false

def Fresh (t : Tables) (cutoff : ℤ) (series : Series) : Prop :=
  ∀ b ∈ Action.bucketsOf series t, cutoff < b.ts + compressedBucketSeconds

section Clear

variable {t u : Tables} {series : Series} {cutoff other width : ℤ}

theorem Clear.mono (h : t.Clear cutoff series) (htraffic : u.traffic ⊆ t.traffic)
    (hpeers : u.peers ⊆ t.peers) : u.Clear cutoff series := by
  cases series with
  | traffic => exact fun r hr => h r (htraffic hr)
  | peers =>
    intro s hs
    have hkept := superseded_eq_false_iff.mp (h s (hpeers hs))
    exact superseded_eq_false_iff.mpr fun hlt a ha => hkept hlt a (hpeers ha)

theorem clear_prune (t : Tables) (cutoff : ℤ) (series : Series) :
    (t.prune cutoff series).Clear cutoff series := by
  cases series with
  | traffic =>
    intro r hr
    simpa using (List.mem_filter.mp hr).2
  | peers =>
    intro s hs
    obtain ⟨hin, hkept⟩ := List.mem_filter.mp hs
    rw [Bool.not_eq_true', superseded_eq_false_iff] at hkept
    exact superseded_eq_false_iff.mpr fun hlt a ha => hkept hlt a (List.mem_filter.mp ha).1

theorem Clear.le_of_rollable (h : t.Clear cutoff series) (hd : DistinctKeys Snapshot.toRow t.peers)
    {r : Row} (hr : r ∈ t.rollable other series) : cutoff ≤ r.ts := by
  cases series with
  | traffic => exact h r (List.mem_filter.mp hr).1
  | peers =>
    obtain ⟨before, hbefore, after, hafter, hid, -, hsub, rfl⟩ := mem_rollable_peers hr
    have hasc : Ascending (historyBefore t.peers other after.id) :=
      segment_ascending hd after.id (· < other)
    have hpair : Ascending [before, after] := List.Pairwise.sublist hsub hasc
    have hlt : before.ts < after.ts := List.rel_of_pairwise_cons hpair List.mem_cons_self
    change cutoff ≤ after.ts
    by_contra hearly
    have hkept := superseded_eq_false_iff.mp (h before hbefore) (by omega) after hafter hid.symm
      (by omega)
    omega

theorem Clear.rollable_nil (h : t.Clear cutoff series) (hd : DistinctKeys Snapshot.toRow t.peers) :
    t.rollable cutoff series = [] := by
  rw [List.eq_nil_iff_forall_not_mem]
  intro r hr
  have hge := h.le_of_rollable hd hr
  have hlt := rollable_earlier hr
  omega

theorem Clear.lt_of_rolledUp (h : t.Clear cutoff series) (hd : DistinctKeys Snapshot.toRow t.peers)
    {b : Row} (hb : .ok b ∈ t.rolledUp series other compressedBucketSeconds) :
    cutoff < b.ts + compressedBucketSeconds := by
  obtain ⟨r, hr, hkey⟩ := mem_rolledUp hb
  have hstart : b.ts = bucketKey r.ts compressedBucketSeconds := congrArg Prod.snd hkey
  have hge := h.le_of_rollable hd hr
  have hend := lt_bucketKey_add (show 0 < compressedBucketSeconds by decide) r.ts
  omega

end Clear

end Tables

section Filter

variable {α : Type} {gone : α → Bool} {l : List α}

theorem filter_none (h : ∀ a ∈ l, gone a = false) : l.filter gone = [] :=
  List.filter_eq_nil_iff.mpr fun a ha => by simp [h a ha]

theorem filter_not_none (h : ∀ a ∈ l, gone a = false) : (l.filter fun a => !gone a) = l :=
  List.filter_eq_self.mpr fun a ha => by simp [h a ha]

end Filter

namespace Action

variable {db : Database} {series : Series} {cutoff : ℤ}

theorem forM_none {α : Type} {gone : α → Bool} {l : List α} (h : ∀ a ∈ l, gone a = false)
    (action : α → Action PUnit) : (l.filter gone).forM action db = (.ok PUnit.unit, db) := by
  rw [filter_none h]
  rfl

theorem modifyTables_same {f : Tables → Tables} (h : f db.tables = db.tables) :
    modifyTables f db = (.ok (), db) := by
  change (Except.ok (), { db with tables := f db.tables }) = _
  rw [h]

theorem deleteTraffic_none {gone : Row → Bool} (h : ∀ r ∈ db.tables.traffic, gone r = false) :
    deleteTraffic gone db = (.ok 0, db) := by
  refine bind_ok.mpr ⟨db, db, rfl, bind_ok.mpr ⟨(), db, forM_none h _, ?_⟩⟩
  refine bind_ok.mpr ⟨(), db, modifyTables_same ?_, ?_⟩
  · rw [filter_not_none h]
  · rw [filter_none h]
    rfl

theorem deleteSuperseded_none
    (h : ∀ s ∈ db.tables.peers, superseded db.tables.peers cutoff s = false) :
    deleteSuperseded cutoff db = (.ok 0, db) := by
  refine bind_ok.mpr ⟨db, db, rfl, bind_ok.mpr ⟨(), db, forM_none h _, ?_⟩⟩
  refine bind_ok.mpr ⟨(), db, modifyTables_same ?_, ?_⟩
  · rw [filter_not_none h]
  · rw [filter_none h]
    rfl

theorem deleteRaw_clear (h : db.tables.Clear cutoff series) :
    deleteRaw series cutoff db = (.ok 0, db) := by
  cases series with
  | traffic => exact deleteTraffic_none fun r hr => decide_eq_false (not_lt.mpr (h r hr))
  | peers => exact deleteSuperseded_none h

theorem deleteBuckets_fresh (h : db.tables.Fresh cutoff series) :
    deleteBuckets series cutoff db = (.ok (), db) := by
  have hkept : ∀ b ∈ bucketsOf series db.tables,
      decide (b.ts + compressedBucketSeconds ≤ cutoff) = false :=
    fun b hb => decide_eq_false (not_le.mpr (h b hb))
  have hall := filter_not_none hkept
  refine bind_ok.mpr ⟨db, db, rfl, bind_ok.mpr ⟨(), db, forM_none hkept _, ?_⟩⟩
  cases series with
  | traffic => exact modifyTables_same (congrArg (fun rows => { db.tables with trafficBuckets := rows }) hall)
  | peers => exact modifyTables_same (congrArg (fun rows => { db.tables with peerBuckets := rows }) hall)

end Action

namespace Call

/-- Maintenance that has nothing left to take. -/
def Settled (t : Tables) : Call → Prop
  | .hardDelete series cutoff => t.Clear cutoff series ∧ t.Fresh cutoff series
  | .compress series cutoff _ => t.Clear cutoff series
  | .append _ | .merge _ | .appendPeers _ => False

theorem Settled.run {db : Database} {call : Call} (h : call.Settled db.tables)
    (hd : DistinctKeys Snapshot.toRow db.tables.peers) : call.action.run db = (.ok 0, db) := by
  cases call with
  | hardDelete series cutoff =>
    refine Action.atomically_ok.mpr (Action.bind_ok.mpr ⟨0, db, ?_, ?_⟩)
    · exact Action.within_ok.mpr (Action.deleteRaw_clear h.1)
    · refine Action.bind_ok.mpr ⟨(), db, ?_, rfl⟩
      exact Action.within_ok.mpr (Action.deleteBuckets_fresh h.2)
  | compress series cutoff width =>
    refine Action.atomically_ok.mpr (Action.bind_ok.mpr ⟨(), db, ?_, ?_⟩)
    · refine Action.within_ok.mpr (Action.bind_ok.mpr ⟨db, db, rfl, ?_⟩)
      have hnone : db.tables.rolledUp series cutoff (max width 1) = [] :=
        rolledUp_of_rollable_nil (h.rollable_nil hd)
      rw [hnone]
      exact congrFun (Action.mergeBuckets_ok series []) db
    · exact Action.within_ok.mpr (Action.deleteRaw_clear h)
  | append samples => exact h.elim
  | merge samples => exact h.elim
  | appendPeers samples => exact h.elim

def Upkeep : Call → Prop
  | .hardDelete _ _ => True
  | .compress _ _ width => width = compressedBucketSeconds
  | .append _ | .merge _ | .appendPeers _ => False

section Upkeep

variable {t : Tables} {call other : Call}

theorem Upkeep.raw (h : call.Upkeep) (t : Tables) :
    (∃ p, (call.effect t).traffic = t.traffic.filter p) ∧
      ∃ q, (call.effect t).peers = t.peers.filter q := by
  have hall : ∀ {α : Type} (l : List α), l = l.filter fun _ => true := fun l => by simp
  cases call with
  | hardDelete series cutoff =>
    cases series with
    | traffic => exact ⟨⟨_, rfl⟩, _, hall _⟩
    | peers => exact ⟨⟨_, hall _⟩, _, rfl⟩
  | compress series cutoff width =>
    cases series with
    | traffic => exact ⟨⟨_, rfl⟩, _, hall _⟩
    | peers => exact ⟨⟨_, hall _⟩, _, rfl⟩
  | append samples => exact h.elim
  | merge samples => exact h.elim
  | appendPeers samples => exact h.elim

theorem Upkeep.distinct (h : call.Upkeep) (hd : DistinctKeys Snapshot.toRow t.peers) :
    DistinctKeys Snapshot.toRow (call.effect t).peers := by
  obtain ⟨-, q, hq⟩ := h.raw t
  rw [hq]
  exact hd.filter q

theorem Upkeep.clear (h : call.Upkeep) {cutoff : ℤ} {series : Series} (hc : t.Clear cutoff series) :
    (call.effect t).Clear cutoff series := by
  obtain ⟨⟨p, hp⟩, q, hq⟩ := h.raw t
  apply hc.mono
  · rw [hp]
    exact List.filter_subset_self _
  · rw [hq]
    exact List.filter_subset_self _

theorem mem_buckets_compress {rolled series : Series} {cutoff width : ℤ} {b : Row}
    (hb : b ∈ Action.bucketsOf series (t.compress cutoff width rolled)) :
    (∃ old ∈ Action.bucketsOf series t, old.key = b.key) ∨
      ∃ new, .ok new ∈ t.rolledUp series cutoff (max width 1) ∧ new.key = b.key := by
  have hmerged : ∀ table : List Row, b ∈ ((t.rolledUp series cutoff (max width 1)).filterMap
      Except.toOption).foldl Store.merge table → (∃ old ∈ table, old.key = b.key) ∨
      ∃ new, .ok new ∈ t.rolledUp series cutoff (max width 1) ∧ new.key = b.key := by
    intro table hin
    rcases key_mem_foldl_merge.mp (List.mem_map_of_mem hin) with hold | hnew
    · exact Or.inl (List.mem_map.mp hold)
    · obtain ⟨new, hnew, hkey⟩ := List.mem_map.mp hnew
      obtain ⟨bucket, hbucket, hok⟩ := List.mem_filterMap.mp hnew
      cases bucket with
      | error fault => cases hok
      | ok r =>
        cases hok
        exact Or.inr ⟨new, hbucket, hkey⟩
  cases rolled with
  | traffic =>
    cases series with
    | traffic => exact hmerged _ hb
    | peers => exact Or.inl ⟨b, hb, rfl⟩
  | peers =>
    cases series with
    | traffic => exact Or.inl ⟨b, hb, rfl⟩
    | peers => exact hmerged _ hb

theorem mem_buckets_hardDelete {deleted series : Series} {cutoff : ℤ} {b : Row}
    (hb : b ∈ Action.bucketsOf series (effect t (.hardDelete deleted cutoff))) :
    b ∈ Action.bucketsOf series t := by
  cases deleted with
  | traffic =>
    cases series with
    | traffic => exact (List.mem_filter.mp hb).1
    | peers => exact hb
  | peers =>
    cases series with
    | traffic => exact hb
    | peers => exact (List.mem_filter.mp hb).1

/-- Maintenance adds no bucket that is too old to be kept, if the raw rows are not. -/
theorem Upkeep.fresh (h : call.Upkeep) {cutoff : ℤ} {series : Series}
    (hd : DistinctKeys Snapshot.toRow t.peers) (hc : t.Clear cutoff series)
    (hf : t.Fresh cutoff series) : (call.effect t).Fresh cutoff series := by
  intro b hb
  cases call with
  | hardDelete deleted other => exact hf b (mem_buckets_hardDelete hb)
  | compress rolled other width =>
    obtain rfl : width = compressedBucketSeconds := h
    rcases mem_buckets_compress hb with ⟨old, hold, hkey⟩ | ⟨new, hnew, hkey⟩
    · have hts : old.ts = b.ts := congrArg Prod.snd hkey
      rw [← hts]
      exact hf old hold
    · have hts : new.ts = b.ts := congrArg Prod.snd hkey
      rw [← hts]
      exact hc.lt_of_rolledUp hd hnew
  | append samples => exact h.elim
  | merge samples => exact h.elim
  | appendPeers samples => exact h.elim

/-- What is settled stays so under more maintenance. -/
theorem Settled.effect (h : call.Settled t) (ho : other.Upkeep)
    (hd : DistinctKeys Snapshot.toRow t.peers) : call.Settled (other.effect t) := by
  cases call with
  | hardDelete series cutoff => exact ⟨ho.clear h.1, ho.fresh hd h.1 h.2⟩
  | compress series cutoff width => exact ho.clear h
  | append samples => exact h.elim
  | merge samples => exact h.elim
  | appendPeers samples => exact h.elim

theorem Upkeep.settles (h : call.Upkeep) (t : Tables) : call.Settled (call.effect t) := by
  cases call with
  | hardDelete series cutoff =>
    have hclear := Tables.clear_prune t cutoff series
    cases series with
    | traffic =>
      refine ⟨hclear, fun b hb => ?_⟩
      simpa using (List.mem_filter.mp hb).2
    | peers =>
      refine ⟨hclear, fun b hb => ?_⟩
      simpa using (List.mem_filter.mp hb).2
  | compress series cutoff width => exact Tables.clear_prune _ cutoff series
  | append samples => exact h.elim
  | merge samples => exact h.elim
  | appendPeers samples => exact h.elim

end Upkeep

end Call

end TrafficMeter.Store
