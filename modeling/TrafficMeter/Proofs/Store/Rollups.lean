import TrafficMeter.Proofs.Store.Buckets
import TrafficMeter.Proofs.Store.Windows

/-!
Rollups. What a rollup leaves behind holds what was there before it, each expired movement under the
slot of its bucket instead of its own key. A test that cannot tell the two apart sees no difference.
-/

namespace TrafficMeter.Store

section Prune

variable {peers : List Snapshot} {cutoff : ℤ}

theorem superseded_iff {s : Snapshot} : superseded peers cutoff s = true ↔
    s.ts < cutoff ∧ ∃ a ∈ peers, a.id = s.id ∧ a.ts < cutoff ∧ s.ts < a.ts := by
  simp only [superseded, Bool.and_eq_true, decide_eq_true_eq, List.any_eq_true, beq_iff_eq, and_assoc]

theorem superseded_eq_false_iff {s : Snapshot} : superseded peers cutoff s = false ↔
    (s.ts < cutoff → ∀ a ∈ peers, a.id = s.id → a.ts < cutoff → a.ts ≤ s.ts) := by
  rw [Bool.eq_false_iff, ne_eq, superseded_iff]
  push Not
  rfl

theorem superseded_of_later {s : Snapshot} (h : cutoff ≤ s.ts) :
    superseded peers cutoff s = false :=
  superseded_eq_false_iff.mpr fun hlt => absurd hlt (not_lt.mpr h)

theorem eq_of_not_superseded (h : DistinctKeys Snapshot.toRow peers) {s a : Snapshot}
    (hs : s ∈ peers) (ha : a ∈ peers) (hid : s.id = a.id) (hslt : s.ts < cutoff)
    (halt : a.ts < cutoff) (hskept : superseded peers cutoff s = false)
    (hakept : superseded peers cutoff a = false) : s = a := by
  have hle := superseded_eq_false_iff.mp hakept halt s hs hid hslt
  have hge := superseded_eq_false_iff.mp hskept hslt a ha hid.symm halt
  exact h.eq_of_key hs ha (Prod.ext hid (le_antisymm hle hge))

theorem exists_newest {s : Snapshot} (hs : s ∈ peers) (hlt : s.ts < cutoff) :
    ∃ a ∈ peers, a.id = s.id ∧ superseded peers cutoff a = false := by
  have hmem : s ∈ peers.toFinset.filter fun a => a.id = s.id ∧ a.ts < cutoff := by
    simp [hs, hlt]
  obtain ⟨a, ha, hmax⟩ := Finset.exists_max_image _ (fun a : Snapshot => a.ts) ⟨s, hmem⟩
  simp only [Finset.mem_filter, List.mem_toFinset] at ha hmax
  refine ⟨a, ha.1, ha.2.1, superseded_eq_false_iff.mpr ?_⟩
  intro _ b hb hid hbc
  exact hmax b ⟨hb, hid.trans ha.2.1, hbc⟩

theorem previous?_prune (h : DistinctKeys Snapshot.toRow peers) {s : Snapshot} (hs : cutoff ≤ s.ts) :
    previous? (peers.filter fun a => !superseded peers cutoff a) s = previous? peers s := by
  cases hp : previous? peers s with
  | none =>
    rw [previous?_eq_none_iff] at hp ⊢
    exact fun c hc => hp c (List.mem_filter.mp hc).1
  | some b =>
    obtain ⟨⟨hb, hid, hlt⟩, hmax⟩ := (previous?_eq_some_iff h).mp hp
    have hkept : superseded peers cutoff b = false :=
      superseded_eq_false_iff.mpr fun _ a ha haid hac => hmax a ha (haid.trans hid) (by omega)
    rw [previous?_eq_some_iff (h.filter _)]
    refine ⟨⟨List.mem_filter.mpr ⟨hb, by simp [hkept]⟩, hid, hlt⟩, ?_⟩
    exact fun c hc => hmax c (List.mem_filter.mp hc).1

theorem previous?_anchor {s : Snapshot} (hs : s ∈ peers) (hlt : s.ts < cutoff) :
    previous? (peers.filter fun a => !superseded peers cutoff a) s = none := by
  rw [previous?_eq_none_iff]
  intro c hc hid
  obtain ⟨-, hkept⟩ := List.mem_filter.mp hc
  rw [Bool.not_eq_true', superseded_eq_false_iff] at hkept
  by_contra hcs
  have := hkept (by omega) s hs hid.symm hlt
  omega

/-- Deleting superseded snapshots takes away the increments before the cutoff, no others. -/
theorem increments_prune (h : DistinctKeys Snapshot.toRow peers) :
    increments (peers.filter fun s => !superseded peers cutoff s) =
      (increments peers).filter fun r => !decide (r.ts < cutoff) := by
  have hlater := increments_filter peers fun k => !decide (k.2 < cutoff)
  have hkeep : ((increments peers).filter fun r => !decide (r.ts < cutoff)) =
      (peers.filter fun s => !decide (s.ts < cutoff)).filterMap
        fun s => (previous? peers s).map (rise · s) := hlater
  rw [hkeep, increments, List.filterMap_filter, List.filterMap_filter]
  apply List.filterMap_congr
  intro s hs
  by_cases hlt : s.ts < cutoff
  · rw [previous?_anchor hs hlt]
    simp [hlt]
  · have hsup : superseded peers cutoff s = false := superseded_of_later (not_lt.mp hlt)
    rw [previous?_prune h (not_lt.mp hlt)]
    simp [hlt, hsup]

end Prune

theorem flows_prune {t : Tables} (h : t.Sound) (cutoff : ℤ) (series : Series) :
    (t.prune cutoff series).flows series =
      (t.flows series).filter fun r => !decide (r.ts < cutoff) := by
  cases series with
  | traffic => rfl
  | peers => exact increments_prune h.peers

/-- The movements that a rollup takes out of the raw rows. -/
def Tables.expired (t : Tables) (cutoff : ℤ) (series : Series) : List Row :=
  (t.flows series).filter fun r => r.ts < cutoff

theorem movedAt_expired (t : Tables) (cutoff : ℤ) (series : Series) (test : String × ℤ → Bool) :
    movedAt test (t.expired cutoff series) +
        movedAt test ((t.flows series).filter fun r => !decide (r.ts < cutoff)) =
      movedAt test (t.flows series) := by
  rw [← movedAt_append]
  exact movedAt_perm test (List.filter_append_perm _ _)

def Tables.rollable (t : Tables) (cutoff : ℤ) : Series → List Row
  | .traffic => t.traffic.filter fun r => r.ts < cutoff
  | .peers => t.peerIds.flatMap fun peer => growths (historyBefore t.peers cutoff peer)

section Rollable

variable {t : Tables} {series : Series} {cutoff width : ℤ}

theorem mem_rollable_peers {r : Row} (h : r ∈ t.rollable cutoff .peers) :
    ∃ before ∈ t.peers, ∃ after ∈ t.peers, before.id = after.id ∧ after.ts < cutoff ∧
      [before, after].Sublist (historyBefore t.peers cutoff after.id) ∧ r = rise before after := by
  obtain ⟨peer, -, hr⟩ := List.mem_flatMap.mp h
  obtain ⟨before, after, hsub, rfl⟩ := mem_growths hr
  obtain ⟨hbefore, hid, -⟩ := mem_historyBefore.mp (hsub.subset List.mem_cons_self)
  obtain ⟨hafter, hid', hlt⟩ := mem_historyBefore.mp
    (hsub.subset (List.mem_cons_of_mem before List.mem_cons_self))
  rw [← hid'] at hsub
  exact ⟨before, hbefore, after, hafter, hid.trans hid'.symm, hlt, hsub, rfl⟩

theorem rollable_earlier {r : Row} (h : r ∈ t.rollable cutoff series) : r.ts < cutoff := by
  cases series with
  | traffic => exact of_decide_eq_true (List.mem_filter.mp h).2
  | peers =>
    obtain ⟨before, -, after, -, -, hlt, -, rfl⟩ := mem_rollable_peers h
    exact hlt

theorem mem_rolledUp {b : Row} (h : .ok b ∈ t.rolledUp series cutoff width) :
    ∃ r ∈ t.rollable cutoff series, b.key = r.slot width := by
  have hslot : b.key ∈ slots (t.rollable cutoff series) width := by
    cases series with
    | traffic => exact mem_rollUp h
    | peers => exact mem_rollUp (List.mem_filter.mp h).1
  obtain ⟨r, hr, hkey⟩ := mem_slots.mp hslot
  exact ⟨r, hr, hkey.symm⟩

theorem rolledUp_of_rollable_nil (h : t.rollable cutoff series = []) :
    t.rolledUp series cutoff width = [] := by
  cases series with
  | traffic => exact congrArg (rollUp · width) h
  | peers => exact congrArg (fun rows => (rollUp rows width).filter grown) h

theorem rolledUp_congr {u : Tables} (h : t.rollable cutoff series = u.rollable cutoff series) :
    t.rolledUp series cutoff width = u.rolledUp series cutoff width := by
  cases series with
  | traffic => exact congrArg (rollUp · width) h
  | peers => exact congrArg (fun rows => (rollUp rows width).filter grown) h

/-- What a rollup sums are the movements that it takes out of the raw rows. -/
theorem rollable_perm (h : t.Sound) (cutoff : ℤ) (series : Series) :
    (t.rollable cutoff series).Perm (t.expired cutoff series) := by
  cases series with
  | traffic => exact List.Perm.refl _
  | peers =>
    have hparts := growths_parts_perm h.peers (sortedKeys_nodup (t.peers.map (·.id)))
      (fun _ ts => decide (ts < cutoff)) (fun _ => true) ?_
    · refine (List.Perm.of_eq ?_).trans (hparts.trans (List.Perm.of_eq ?_))
      · rw [List.filter_eq_self.mpr fun _ _ => rfl]
        rfl
      · apply List.filter_congr
        intro r hr
        have hid : r.id ∈ sortedKeys (t.peers.map (·.id)) := id_mem_peerIds hr
        simp [hid]
    · intro s _ hq _ b hb
      obtain ⟨⟨-, -, hlt⟩, -⟩ := (previous?_eq_some_iff h.peers).mp hb
      simp only [decide_eq_true_eq] at hq ⊢
      exact hlt.trans hq

end Rollable

theorem movedAt_filter {rows : List Row} {p : Row → Bool}
    (h : ∀ r ∈ rows, p r = false → r.bytes = 0) (test : String × ℤ → Bool) :
    movedAt test (rows.filter p) = movedAt test rows := by
  induction rows with
  | nil => rfl
  | cons r rest ih =>
    have hrest := ih fun s hs => h s (List.mem_cons_of_mem r hs)
    cases hp : p r with
    | true => rw [List.filter_cons_of_pos hp, movedAt_cons, movedAt_cons, hrest]
    | false =>
      have hzero := h r List.mem_cons_self hp
      rw [List.filter_cons_of_neg (by simp [hp]), movedAt_cons, hrest, hzero, ite_self, zero_add]

theorem bytes_eq_zero_of_not_grown {r : Row} (hr : r.Whole) (h : grown (.ok r) = false) :
    r.bytes = 0 := by
  simp only [grown, decide_eq_false_iff_not, Cell.add_value_pos hr.1 hr.2] at h
  apply Prod.ext
  · change r.up.bytes = 0
    omega
  · change r.down.bytes = 0
    omega

/-- The buckets of a rollup hold the expired movements, each under its slot. -/
theorem rolledUp_spec {t : Tables} (h : t.Sound) {series : Series} (cutoff width : ℤ)
    (fits : Tallied (t.flows series)) :
    ∃ rows : List Row, t.rolledUp series cutoff width = rows.map .ok ∧ (∀ r ∈ rows, r.Whole) ∧
      (∀ test, movedAt test rows =
        moved ((t.expired cutoff series).filter fun r => test (r.slot width))) ∧
      (series = .traffic → rows.map Row.key = slots (t.expired cutoff series) width) := by
  have hexp : Tallied (t.expired cutoff series) := fits.filter _
  cases series with
  | traffic =>
    exact ⟨rolled (t.expired cutoff .traffic) width, rollUp_tallied hexp, rolled_whole,
      movedAt_rolled hexp, fun _ => rolled_keys⟩
  | peers =>
    have hp := rollable_perm h cutoff .peers
    have hrolled : t.rolledUp .peers cutoff width =
        (((rolled (t.rollable cutoff .peers) width).map .ok).filter grown) := by
      rw [← rollUp_tallied (hexp.perm hp.symm)]
      rfl
    rw [List.filter_map] at hrolled
    refine ⟨_, hrolled, ?_, ?_, fun hs => by cases hs⟩
    · exact fun r hr => rolled_whole r (List.mem_filter.mp hr).1
    · intro test
      have hempty : ∀ r ∈ rolled (t.rollable cutoff .peers) width,
          (grown ∘ Except.ok) r = false → r.bytes = 0 :=
        fun r hr => bytes_eq_zero_of_not_grown (rolled_whole r hr)
      rw [movedAt_filter hempty, movedAt_rolled (hexp.perm hp.symm)]
      exact moved_perm (hp.filter _)

theorem Tables.Sound.bucketsOf {t : Tables} (h : t.Sound) (series : Series) :
    DistinctKeys id (Action.bucketsOf series t) := by
  cases series with
  | traffic => exact h.trafficBuckets
  | peers => exact h.peerBuckets

section Compress

variable {t : Tables} {series : Series} {cutoff width : ℤ}

theorem compress_movements (h : t.Sound) {rows : List Row}
    (hrows : t.rolledUp series cutoff (max width 1) = rows.map .ok) :
    (t.compress cutoff width series).movements series =
      ((t.flows series).filter fun r => !decide (r.ts < cutoff)) ++
        rows.foldl merge (Action.bucketsOf series t) := by
  have hstored : ∀ r ∈ rows, r.Stored := by
    intro r hr
    apply rolledUp_stored h.samples h.counters
    rw [hrows]
    exact List.mem_map_of_mem hr
  have hsound := h.merged hstored series
  rw [Tables.movements, Tables.compress, hrows, filterMap_ok, flows_prune hsound]
  cases series with
  | traffic => rfl
  | peers => rfl

/-- A rollup succeeds in summing and keeps the movements within range. Tests that do not tell the
expired ones from their slots find as much as before. -/
theorem compress_spec (h : t.Sound) (fits : Tallied (t.movements series)) (cutoff width : ℤ) :
    Call.Summable t (.compress series cutoff width) ∧
      Tallied ((t.compress cutoff width series).movements series) ∧
      ∀ test, (∀ r ∈ t.expired cutoff series, test (r.slot (max width 1)) = test r.key) →
        movedAt test ((t.compress cutoff width series).movements series) =
          movedAt test (t.movements series) := by
  obtain ⟨rows, hrows, hrw, hmoved, -⟩ := rolledUp_spec h cutoff (max width 1) fits.left
  have hall : moved rows = moved (t.expired cutoff series) := by
    have := hmoved fun _ => true
    rwa [movedAt_true, List.filter_eq_self.mpr fun _ _ => rfl] at this
  have hstorable : Storable (moved (Action.bucketsOf series t) + moved rows) := by
    apply fits.storable.mono
    rw [hall, add_comm, Tables.movements, moved_append]
    exact add_le_add_left (moved_filter_le _ _) _
  obtain ⟨hmw, hmerged⟩ := foldl_merge_whole (h.bucketsOf series) fits.right.whole hrw hstorable
  have hkeep : ∀ test, (∀ r ∈ t.expired cutoff series, test (r.slot (max width 1)) = test r.key) →
      movedAt test ((t.compress cutoff width series).movements series) =
        movedAt test (t.movements series) := by
    intro test hblind
    have hslots : movedAt test rows = movedAt test (t.expired cutoff series) := by
      rw [hmoved test]
      exact congrArg moved (List.filter_congr hblind)
    rw [compress_movements h hrows, movedAt_append, hmerged test, hslots, Tables.movements,
      movedAt_append, ← movedAt_expired t cutoff series test]
    ac_rfl
  refine ⟨⟨rows, hrows⟩, ⟨?_, ?_⟩, hkeep⟩
  · intro r hr
    rw [compress_movements h hrows] at hr
    rcases List.mem_append.mp hr with hr | hr
    · exact fits.left.whole r (List.mem_filter.mp hr).1
    · exact hmw r hr
  · have := hkeep (fun _ => true) fun _ _ => rfl
    rw [movedAt_true, movedAt_true] at this
    rw [this]
    exact fits.storable

theorem mem_keys_compress (h : t.Sound) (fits : Tallied (t.movements .traffic))
    {key : String × ℤ} :
    key ∈ ((t.compress cutoff width .traffic).movements .traffic).map Row.key ↔
      (∃ r ∈ t.traffic, ¬ r.ts < cutoff ∧ r.key = key) ∨ key ∈ t.trafficBuckets.map Row.key ∨
        ∃ r ∈ t.expired cutoff .traffic, r.slot (max width 1) = key := by
  obtain ⟨rows, hrows, -, -, hkeys⟩ := rolledUp_spec h cutoff (max width 1) fits.left
  rw [compress_movements h hrows, List.map_append, List.mem_append, key_mem_foldl_merge, hkeys rfl,
    mem_slots]
  apply or_congr_left
  simp only [List.mem_map, List.mem_filter, Bool.not_eq_true', decide_eq_false_iff_not, and_assoc]
  rfl

theorem compress_occurs (h : t.Sound) (fits : Tallied (t.movements .traffic))
    {test : String × ℤ → Bool}
    (hblind : ∀ r ∈ t.expired cutoff .traffic, test (r.slot (max width 1)) = test r.key) :
    (∃ k ∈ ((t.compress cutoff width .traffic).movements .traffic).map Row.key, test k) ↔
      ∃ k ∈ (t.movements .traffic).map Row.key, test k := by
  have hraw : ∀ r ∈ t.traffic, r.key ∈ (t.movements .traffic).map Row.key :=
    fun r hr => List.mem_map_of_mem (List.mem_append_left _ hr)
  simp only [mem_keys_compress h fits]
  constructor
  · rintro ⟨k, ⟨r, hr, -, rfl⟩ | hk | ⟨r, hr, rfl⟩, htest⟩
    · exact ⟨r.key, hraw r hr, htest⟩
    · refine ⟨k, ?_, htest⟩
      rw [Tables.movements, List.map_append]
      exact List.mem_append_right _ hk
    · rw [hblind r hr] at htest
      exact ⟨r.key, hraw r (List.mem_filter.mp hr).1, htest⟩
  · rintro ⟨k, hk, htest⟩
    rw [Tables.movements, List.map_append] at hk
    rcases List.mem_append.mp hk with hk | hk
    · obtain ⟨r, hr, rfl⟩ := List.mem_map.mp hk
      by_cases hlt : r.ts < cutoff
      · have hexp : r ∈ t.expired cutoff .traffic := List.mem_filter.mpr ⟨hr, by simpa using hlt⟩
        rw [← hblind r hexp] at htest
        exact ⟨r.slot (max width 1), Or.inr (Or.inr ⟨r, hexp, rfl⟩), htest⟩
      · exact ⟨r.key, Or.inl ⟨r, hr, hlt, rfl⟩, htest⟩
    · exact ⟨k, Or.inr (Or.inl hk), htest⟩

end Compress

theorem compressBefore_cases {db : Database} (h : db.tables.Sound) {series : Series}
    (fits : Tallied (db.tables.movements series)) (cutoff width : ℤ) :
    (db.guards ≠ [] ∧ ∃ failure,
      (Action.compressBefore series cutoff width).run db = (.error failure, db)) ∨
    (Action.compressBefore series cutoff width).run db =
      (.ok (db.tables.outdated cutoff series),
        { db with tables := db.tables.compress cutoff width series }) := by
  obtain ⟨hsummable, -, -⟩ := compress_spec h fits cutoff width
  rcases Call.run_cases (.compress series cutoff width) db with ⟨failure, hr⟩ | ⟨-, hr⟩
  · refine Or.inl ⟨fun hg => ?_, failure, hr⟩
    have hfree := (Call.yields (.compress series cutoff width) hsummable).free hg
    have heq := congrArg Prod.fst (hr.symm.trans hfree)
    cases heq
  · exact Or.inr hr

theorem compress_traffic_newer {t : Tables} {cutoff width : ℤ} :
    ∀ r ∈ (t.compress cutoff width .traffic).traffic, cutoff ≤ r.ts := by
  intro r hr
  have hkept := (List.mem_filter.mp hr).2
  simpa using hkept

theorem compress_peers_anchor {t : Tables} (h : t.Sound) {cutoff width : ℤ} :
    ∀ s ∈ (t.compress cutoff width .peers).peers, ∀ a ∈ (t.compress cutoff width .peers).peers,
      s.id = a.id → s.ts < cutoff → a.ts < cutoff → s = a := by
  intro s hs a ha hid hslt halt
  obtain ⟨hs, hskept⟩ := List.mem_filter.mp hs
  obtain ⟨ha, hakept⟩ := List.mem_filter.mp ha
  rw [Bool.not_eq_true'] at hskept hakept
  exact eq_of_not_superseded h.peers hs ha hid hslt halt hskept hakept

end TrafficMeter.Store
