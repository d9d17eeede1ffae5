import TrafficMeter.Proofs.Store.Agreement

/-!
Writes and maintenance side by side. Writes of samples from a moment on and maintenance up to that
moment commute, outcomes included: every order that keeps the order of the writes and that of the
maintenance ends where all writes before all maintenance end.
-/

namespace TrafficMeter.Store

namespace Call

def WritesFrom (moment : ℤ) : Call → Prop
  | .append samples | .merge samples => ∀ s ∈ samples, moment ≤ s.ts
  | .appendPeers samples => ∀ s ∈ samples, moment ≤ s.ts
  | .hardDelete _ _ | .compress _ _ _ => False

def MaintainsBefore (moment : ℤ) : Call → Prop
  | .hardDelete _ cutoff | .compress _ cutoff _ => cutoff ≤ moment
  | .append _ | .merge _ | .appendPeers _ => False

instance (moment : ℤ) : (call : Call) → Decidable (call.WritesFrom moment)
  | .append samples | .merge samples => inferInstanceAs (Decidable (∀ s ∈ samples, moment ≤ s.ts))
  | .appendPeers samples => inferInstanceAs (Decidable (∀ s ∈ samples, moment ≤ s.ts))
  | .hardDelete _ _ | .compress _ _ _ => inferInstanceAs (Decidable False)

instance (moment : ℤ) : (call : Call) → Decidable (call.MaintainsBefore moment)
  | .hardDelete _ cutoff | .compress _ cutoff _ => inferInstanceAs (Decidable (cutoff ≤ moment))
  | .append _ | .merge _ | .appendPeers _ => inferInstanceAs (Decidable False)

end Call

/-- What maintenance comes to: tests that the raw rows left behind pass, and the buckets. -/
structure Thinning where
  traffic : Row → Bool
  peers : Snapshot → Bool
  trafficBuckets : List Row
  peerBuckets : List Row

namespace Thinning

variable {moment : ℤ} {k : Thinning}

def thin (k : Thinning) (t : Tables) : Tables :=
  ⟨t.traffic.filter k.traffic, t.peers.filter k.peers, k.trafficBuckets, k.peerBuckets⟩

structure KeepsFrom (moment : ℤ) (k : Thinning) : Prop where
  traffic : ∀ r : Row, moment ≤ r.ts → k.traffic r = true
  peers : ∀ s : Snapshot, moment ≤ s.ts → k.peers s = true

def upTo (t : Tables) (cutoff : ℤ) (f : List Row → List Row) : Series → Thinning
  | .traffic =>
    ⟨fun r => !decide (r.ts < cutoff), fun _ => true, f t.trafficBuckets, t.peerBuckets⟩
  | .peers =>
    ⟨fun _ => true, fun s => !superseded t.peers cutoff s, t.trafficBuckets, f t.peerBuckets⟩

theorem upTo_keepsFrom {cutoff : ℤ} (hc : cutoff ≤ moment) (t : Tables) (f : List Row → List Row)
    (series : Series) : (upTo t cutoff f series).KeepsFrom moment := by
  cases series with
  | traffic =>
    refine ⟨fun r hr => ?_, fun _ _ => rfl⟩
    have hlater : ¬ r.ts < cutoff := not_lt.mpr (hc.trans hr)
    simp [upTo, hlater]
  | peers =>
    refine ⟨fun _ _ => rfl, fun s hs => ?_⟩
    have hkept : superseded t.peers cutoff s = false := superseded_of_later (hc.trans hs)
    simp [upTo, hkept]

theorem thin_upTo {t u : Tables} {cutoff : ℤ} (h : t.SameBefore moment u) (hc : cutoff ≤ moment)
    (f : List Row → List Row) (series : Series) :
    (upTo t cutoff f series).thin u = (u.withBuckets f series).prune cutoff series := by
  cases series with
  | traffic => simp [upTo, thin, Tables.prune, Tables.withBuckets, h.trafficBuckets, h.peerBuckets]
  | peers =>
    simp [upTo, thin, Tables.prune, Tables.withBuckets, h.trafficBuckets, h.peerBuckets,
      h.superseded_eq hc]

def Relates (k : Thinning) (db other : Database) : Prop :=
  other = { db with tables := k.thin db.tables }

theorem Relates.guards {db other : Database} (h : k.Relates db other) : db.guards = other.guards := by
  rw [h]

section Writes

open TrafficMeter.Store.Action

theorem modifyTables_agree {f : Tables → Tables} (hf : ∀ t, f (k.thin t) = k.thin (f t)) :
    Agree k.Relates (modifyTables f) (modifyTables f) := by
  refine Agree.modifyTables fun db other h => ?_
  subst h
  change { db with tables := f (k.thin db.tables) } = _
  rw [hf]

variable (hk : k.KeepsFrom moment)

include hk

theorem passes_key {a : Row} (ha : moment ≤ a.ts) (r : Row) (h : r.key = a.key) :
    k.traffic r = true := by
  have hts : r.ts = a.ts := congrArg Prod.snd h
  apply hk.traffic
  rwa [hts]

theorem passes_peer_key {a : Snapshot} (ha : moment ≤ a.ts) (s : Snapshot) (h : s.key = a.key) :
    k.peers s = true := by
  have hts : s.ts = a.ts := congrArg Prod.snd h
  apply hk.peers
  rwa [hts]

theorem holds_traffic {s : Sample} (hs : moment ≤ s.ts) {db other : Database}
    (h : k.Relates db other) :
    holds id other.tables.traffic s.row.key = holds id db.tables.traffic s.row.key := by
  rw [h]
  exact holds_filter (passes_key hk (show moment ≤ s.row.ts from hs))

theorem appendSample_agree {s : Sample} (hs : moment ≤ s.ts) :
    Agree k.Relates (appendSample s) (appendSample s) := by
  refine (Agree.permit (fun _ _ => Relates.guards) _ _ _).bind fun _ => Agree.read fun db other h => ?_
  dsimp only
  rw [holds_traffic hk hs h]
  refine Agree.bind (modifyTables_agree fun t => ?_) fun _ => Agree.pure _
  have hrows : (insertNew id t.traffic s.row).filter k.traffic =
      insertNew id (t.traffic.filter k.traffic) s.row := filter_insertNew (passes_key hk hs)
  simp only [thin, hrows]

theorem mergeSample_agree {s : Sample} (hs : moment ≤ s.ts) :
    Agree k.Relates (mergeSample s) (mergeSample s) := by
  refine (Agree.permit (fun _ _ => Relates.guards) _ _ _).bind fun _ => Agree.read fun db other h => ?_
  have hdone : Agree k.Relates
      (do modifyTables fun t => { t with traffic := merge t.traffic s.row }; return 1)
      (do modifyTables fun t => { t with traffic := merge t.traffic s.row }; return 1) := by
    refine Agree.bind (modifyTables_agree fun t => ?_) fun _ => Agree.pure 1
    have hrows : (merge t.traffic s.row).filter k.traffic =
        merge (t.traffic.filter k.traffic) s.row := filter_merge (passes_key hk hs)
    simp only [thin, hrows]
  dsimp only
  rw [holds_traffic hk hs h]
  split
  · exact (Agree.permit (fun _ _ => Relates.guards) _ _ _).bind fun _ => hdone
  · exact hdone

theorem appendPeerSample_agree {s : PeerSample} (hs : moment ≤ s.ts) :
    Agree k.Relates (appendPeerSample s) (appendPeerSample s) := by
  have hpass := passes_peer_key hk (show moment ≤ s.snapshot.ts from hs)
  refine (Agree.permit (fun _ _ => Relates.guards) _ _ _).bind fun _ => Agree.read fun db other h => ?_
  have htaken : holds Snapshot.toRow other.tables.peers s.snapshot.key =
      holds Snapshot.toRow db.tables.peers s.snapshot.key := by
    rw [h]
    exact holds_filter hpass
  dsimp only
  rw [htaken]
  refine Agree.bind (modifyTables_agree fun t => ?_) fun _ => Agree.pure _
  simp only [thin, filter_insertNew hpass]

/-- Writes from the moment on do not see whether the store is thinned. -/
theorem writes_agree {call : Call} (hw : call.WritesFrom moment) :
    Agree k.Relates call.action call.action := by
  cases call with
  | append samples =>
    exact (Agree.writeAll fun s hs => (appendSample_agree hk (hw s hs)).within _).atomically
  | merge samples =>
    exact (Agree.writeAll fun s hs => (mergeSample_agree hk (hw s hs)).within _).atomically
  | appendPeers samples =>
    exact (Agree.writeAll fun s hs => (appendPeerSample_agree hk (hw s hs)).within _).atomically
  | hardDelete series cutoff => exact hw.elim
  | compress series cutoff width => exact hw.elim

end Writes

end Thinning

namespace Call

variable {moment : ℤ} {call : Call} {t u : Tables}

theorem MaintainsBefore.blind (hm : call.MaintainsBefore moment) : call.action.Blind moment := by
  cases call with
  | hardDelete series cutoff => exact Action.hardDeleteBefore_blind series hm
  | compress series cutoff width => exact Action.compressBefore_blind series hm width
  | append samples => exact hm.elim
  | merge samples => exact hm.elim
  | appendPeers samples => exact hm.elim

/-- Maintenance thins all stores alike that are the same before the moment. -/
theorem MaintainsBefore.thins (hm : call.MaintainsBefore moment) (t : Tables) :
    ∃ k : Thinning, k.KeepsFrom moment ∧
      ∀ u, t.SameBefore moment u → call.effect u = k.thin u := by
  cases call with
  | hardDelete series cutoff =>
    refine ⟨_, Thinning.upTo_keepsFrom hm t (fun buckets => buckets.filter fun r =>
      !decide (r.ts + compressedBucketSeconds ≤ cutoff)) series, fun u h => ?_⟩
    rw [Thinning.thin_upTo h hm]
    cases series with
    | traffic => rfl
    | peers => rfl
  | compress series cutoff width =>
    refine ⟨_, Thinning.upTo_keepsFrom hm t (((t.rolledUp series cutoff (max width 1)).filterMap
      Except.toOption).foldl Store.merge) series, fun u h => ?_⟩
    rw [Thinning.thin_upTo h hm, h.rolledUp_eq hm]
    rfl
  | append samples => exact hm.elim
  | merge samples => exact hm.elim
  | appendPeers samples => exact hm.elim

theorem WritesFrom.sameBefore (hw : call.WritesFrom moment) (t : Tables) :
    Tables.SameBefore moment t (call.effect t) := by
  cases call with
  | append samples =>
    refine ⟨?_, rfl, rfl, rfl⟩
    symm
    refine filter_foldl (fun r hr table => ?_) t.traffic
    obtain ⟨s, hs, rfl⟩ := List.mem_map.mp hr
    exact filter_insertNew_of_not (decide_eq_false (not_lt.mpr (hw s hs)))
  | merge samples =>
    refine ⟨?_, rfl, rfl, rfl⟩
    symm
    refine filter_foldl (fun r hr table => filter_merge_of_not fun a ha => ?_) t.traffic
    obtain ⟨s, hs, rfl⟩ := List.mem_map.mp hr
    have hts : a.ts = s.ts := congrArg Prod.snd ha
    rw [hts]
    exact decide_eq_false (not_lt.mpr (hw s hs))
  | appendPeers samples =>
    refine ⟨rfl, ?_, rfl, rfl⟩
    symm
    refine filter_foldl (fun p hp table => ?_) t.peers
    obtain ⟨s, hs, rfl⟩ := List.mem_map.mp hp
    exact filter_insertNew_of_not (decide_eq_false (not_lt.mpr (hw s hs)))
  | hardDelete series cutoff => exact hw.elim
  | compress series cutoff width => exact hw.elim

theorem WritesFrom.after_sameBefore (hw : call.WritesFrom moment) (db : Database) :
    db.SameBefore moment (call.after db) := by
  rcases call.after_cases db with ha | ⟨-, ha⟩
  · rw [ha]
    exact ⟨rfl, rfl, rfl, rfl, rfl⟩
  · rw [ha]
    exact ⟨rfl, hw.sameBefore db.tables⟩

end Call

section Swap

variable {moment : ℤ} {write upkeep : Call}

theorem swap_write (hw : write.WritesFrom moment) (hm : upkeep.MaintainsBefore moment) (db : Database) :
    (upkeep.action.run (write.after db)).1 = (upkeep.action.run db).1 ∧
      (write.action.run (upkeep.after db)).1 = (write.action.run db).1 ∧
      write.after (upkeep.after db) = upkeep.after (write.after db) := by
  have hsame := hw.after_sameBefore db
  have hupkeep : (upkeep.action.run db).1 = (upkeep.action.run (write.after db)).1 :=
    (hm.blind db _ hsame).1
  refine ⟨hupkeep.symm, ?_⟩
  rcases upkeep.run_cases db with ⟨failure, hr⟩ | ⟨-, hr⟩
  · -- Refused before the write, it is refused after it, and neither attempt leaves a trace.
    rcases upkeep.run_cases (write.after db) with ⟨failure', hr'⟩ | ⟨-, hr'⟩
    · have hfirst : upkeep.after db = db := congrArg Prod.snd hr
      have hsecond : upkeep.after (write.after db) = write.after db := by
        rw [Call.after, hr']
      rw [hfirst, hsecond]
      exact ⟨rfl, rfl⟩
    · rw [hr, hr'] at hupkeep
      cases hupkeep
  · rcases upkeep.run_cases (write.after db) with ⟨failure', hr'⟩ | ⟨-, hr'⟩
    · rw [hr, hr'] at hupkeep
      cases hupkeep
    · obtain ⟨k, hk, hthin⟩ := hm.thins db.tables
      have hfirst : upkeep.after db = { db with tables := upkeep.effect db.tables } :=
        congrArg Prod.snd hr
      have hsecond : upkeep.after (write.after db) =
          { write.after db with tables := upkeep.effect (write.after db).tables } := by
        rw [Call.after, hr']
      -- both tables are the same before the moment, so they are thinned by the same tests
      rw [hthin _ ⟨rfl, rfl, rfl, rfl⟩] at hfirst
      rw [hthin _ hsame.tables] at hsecond
      obtain ⟨hwrite, hafter⟩ := Thinning.writes_agree hk hw db _ hfirst
      exact ⟨hwrite.symm, hafter.trans hsecond.symm⟩

end Swap

def outcomes : List Call → Database → List (Call × Except Failure ℕ)
  | [], _ => []
  | call :: rest, db => (call, (call.action.run db).1) :: outcomes rest (call.after db)

inductive Interleaving {α : Type} : List α → List α → List α → Prop
  | nil : Interleaving [] [] []
  | left {a : α} {as bs cs : List α} : Interleaving as bs cs → Interleaving (a :: as) bs (a :: cs)
  | right {b : α} {as bs cs : List α} : Interleaving as bs cs → Interleaving as (b :: bs) (b :: cs)

section Runs

variable {moment : ℤ} {writes : List Call}

theorem swap_writes (hw : ∀ call ∈ writes, call.WritesFrom moment) {upkeep : Call}
    (hm : upkeep.MaintainsBefore moment) (db : Database) :
    (upkeep.action.run (runAll writes db)).1 = (upkeep.action.run db).1 ∧
      outcomes writes (upkeep.after db) = outcomes writes db ∧
      runAll writes (upkeep.after db) = upkeep.after (runAll writes db) := by
  induction writes generalizing db with
  | nil => exact ⟨rfl, rfl, rfl⟩
  | cons write rest ih =>
    obtain ⟨hupkeep, hwrite, hafter⟩  := swap_write (hw write List.mem_cons_self) hm db
    obtain ⟨hlater, hrest, hend⟩ := ih (fun call hc => hw call (List.mem_cons_of_mem write hc))
      (write.after db)
    refine ⟨hlater.trans hupkeep, ?_, ?_⟩
    · rw [outcomes, outcomes, hwrite, hafter, hrest]
    · change runAll rest (write.after (upkeep.after db)) = _
      rw [hafter, hend]
      rfl

/-- However writes from a moment on and maintenance up to it interleave, the database ends as if all
writes had come first, and every call has the outcome that it would have had then. -/
theorem writes_commute_with_maintenance {maintenance calls : List Call}
    (hw : ∀ call ∈ writes, call.WritesFrom moment)
    (hm : ∀ call ∈ maintenance, call.MaintainsBefore moment)
    (hmix : Interleaving writes maintenance calls) (db : Database) :
    runAll calls db = runAll maintenance (runAll writes db) ∧
      Interleaving (outcomes writes db) (outcomes maintenance (runAll writes db))
        (outcomes calls db) := by
  induction hmix generalizing db with
  | nil => exact ⟨rfl, .nil⟩
  | @left write writes maintenance calls _ ih =>
    obtain ⟨hend, hout⟩ := ih (fun call hc => hw call (List.mem_cons_of_mem write hc)) hm
      (write.after db)
    exact ⟨hend, .left hout⟩
  | @right upkeep writes maintenance calls _ ih =>
    obtain ⟨hend, hout⟩ := ih hw (fun call hc => hm call (List.mem_cons_of_mem upkeep hc))
      (upkeep.after db)
    obtain ⟨hupkeep, hwrites, hafter⟩ := swap_writes hw (hm upkeep List.mem_cons_self) db
    rw [hafter] at hend hout
    rw [hwrites] at hout
    refine ⟨hend, ?_⟩
    rw [outcomes, outcomes, hupkeep]
    exact .right hout

def morningWrites : List Call :=
  [.merge [⟨"a", 28800, 7, 7⟩], .appendPeers [⟨"p", 28810, 300, 500, "e"⟩],
    .merge [⟨"a", 28800, 3, 0⟩, ⟨"b", 28801, 1, 1⟩]]

def morningUpkeep : List Call :=
  [.compress .traffic 28800 28800, .compress .peers 28800 28800, .hardDelete .peers 28800]

def morningCalls : List Call :=
  [.compress .traffic 28800 28800, .merge [⟨"a", 28800, 7, 7⟩], .compress .peers 28800 28800,
    .appendPeers [⟨"p", 28810, 300, 500, "e"⟩], .hardDelete .peers 28800,
    .merge [⟨"a", 28800, 3, 0⟩, ⟨"b", 28801, 1, 1⟩]]

def morningStore : Database :=
  { Database.blank with
    tables :=
      { traffic := [⟨"a", 100, .int 10, .int 1⟩, ⟨"b", 28799, .int 5, .int 5⟩]
        peers := [⟨⟨"p", 28000, .int 1600, .int 400⟩, "e"⟩, ⟨⟨"p", 100, .int 1000, .int 100⟩, "e"⟩]
        trafficBuckets := [⟨"a", 0, .int 1, .int 1⟩]
        peerBuckets := [⟨"p", -28800, .int 9, .int 9⟩, ⟨"p", 0, .int 2, .int 2⟩] }
    guards := [⟨.peerBuckets, .insert, none⟩] }

theorem writes_commute_with_maintenance_in_the_morning :
    (∀ call ∈ morningWrites, call.WritesFrom 28800) ∧
      (∀ call ∈ morningUpkeep, call.MaintainsBefore 28800) ∧
      Interleaving morningWrites morningUpkeep morningCalls ∧
      runAll morningCalls morningStore = runAll morningUpkeep (runAll morningWrites morningStore) ∧
      Interleaving (outcomes morningWrites morningStore)
        (outcomes morningUpkeep (runAll morningWrites morningStore))
        (outcomes morningCalls morningStore) ∧
      (outcomes morningCalls morningStore).map (fun call => call.2.toOption) =
        [some 2, some 1, none, some 1, some 1, some 2] := by
  have hw : ∀ call ∈ morningWrites, call.WritesFrom 28800 := by decide
  have hm : ∀ call ∈ morningUpkeep, call.MaintainsBefore 28800 := by decide
  have hmix : Interleaving morningWrites morningUpkeep morningCalls :=
    .right (.left (.right (.left (.right (.left .nil)))))
  obtain ⟨hend, hout⟩ := writes_commute_with_maintenance hw hm hmix morningStore
  exact ⟨hw, hm, hmix, hend, hout, by decide +kernel⟩

end Runs

end TrafficMeter.Store
