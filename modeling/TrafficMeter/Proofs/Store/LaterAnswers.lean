import TrafficMeter.Proofs.Store.Rollups

/-!
Answers about the time after a cutoff. They depend on the rows from the cutoff on and on the newest
snapshot of each peer before it. Maintenance before the cutoff touches neither, so it shows in no
window that starts at the cutoff or later, aligned or not.
-/

namespace TrafficMeter.Store

/-- Two stores with the same rows from a moment on and the same newest snapshots before it. -/
structure Tables.SameFrom (cutoff : ℤ) (t u : Tables) : Prop where
  traffic : (t.traffic.filter fun r => !decide (r.ts < cutoff)) =
    u.traffic.filter fun r => !decide (r.ts < cutoff)
  peers : (t.peers.filter fun s => !superseded t.peers cutoff s) =
    u.peers.filter fun s => !superseded u.peers cutoff s
  buckets : ∀ series, ((Action.bucketsOf series t).filter fun r => !decide (r.ts < cutoff)) =
    (Action.bucketsOf series u).filter fun r => !decide (r.ts < cutoff)

/-- All questions about a window from `first` on, or about all time from `first` on, have the same
answers. -/
structure Tables.SameAnswers (first : ℤ) (t u : Tables) : Prop where
  range : ∀ identity last, t.range identity first last = u.range identity first last
  peerRange : ∀ peer last, t.peerRange peer first last = u.peerRange peer first last
  globalSum : ∀ last, t.globalSum first last = u.globalSum first last
  activeIdentities : ∀ threshold,
    t.activeIdentitiesSince first threshold = u.activeIdentitiesSince first threshold
  bucketed : ∀ series identities last interval,
    t.bucketed series identities first last interval =
      u.bucketed series identities first last interval
  topTotals : ∀ last limit, t.topTotals first last limit = u.topTotals first last limit
  peerTopTotals : ∀ last limit, t.peerTopTotals first last limit = u.peerTopTotals first last limit

section Peers

variable {t : Tables} {cutoff first : ℤ}

/-- The anchor of a later window is never superseded. -/
theorem anchor_prune (t : Tables) (peer : String) (h : cutoff ≤ first) :
    (t.prune cutoff .peers).anchor peer first = t.anchor peer first := by
  have hsub : ∀ s ∈ (t.prune cutoff .peers).peers, s ∈ t.peers :=
    fun s hs => (List.mem_filter.mp hs).1
  rcases anchor_cases t peer first with ⟨s, hs, hid, hlt, ha, hmax⟩ | ⟨ha, hnone⟩
  · have hkept : superseded t.peers cutoff s = false :=
      superseded_eq_false_iff.mpr fun _ a hin haid hac => hmax a hin (haid.trans hid) (by omega)
    have hin : s ∈ (t.prune cutoff .peers).peers := List.mem_filter.mpr ⟨hs, by simp [hkept]⟩
    rw [ha]
    rcases anchor_cases (t.prune cutoff .peers) peer first with
      ⟨b, hb, hbid, hblt, hab, hbmax⟩ | ⟨-, hnone⟩
    · rw [hab]
      exact le_antisymm (hmax b (hsub b hb) hbid hblt) (hbmax s hin hid hlt)
    · have := hnone s hin hid
      omega
  · rw [ha]
    rcases anchor_cases (t.prune cutoff .peers) peer first with
      ⟨b, hb, hbid, hblt, -, -⟩ | ⟨hab, -⟩
    · have := hnone b (hsub b hb) hbid
      omega
    · exact hab

theorem anchored_prune (t : Tables) (peer : String) (last : ℤ) (h : cutoff ≤ first) :
    (t.prune cutoff .peers).anchored peer first last = t.anchored peer first last := by
  unfold Tables.anchored
  dsimp only
  rw [anchor_prune t peer h]
  refine congrArg _ (filter_filter_of_imp fun s hs hscope => ?_)
  simp only [Bool.and_eq_true, beq_iff_eq, decide_eq_true_eq] at hscope
  obtain ⟨⟨rfl, -⟩, hanchor⟩ := hscope
  rw [Bool.not_eq_true', superseded_eq_false_iff]
  intro _ a ha hid hac
  have hle := le_anchor ha (show a.ts < first by omega)
  rw [hid] at hle
  omega

theorem peerIds_prune (t : Tables) (cutoff : ℤ) : (t.prune cutoff .peers).peerIds = t.peerIds := by
  apply sortedKeys_congr
  intro peer
  simp only [List.mem_map]
  constructor
  · rintro ⟨s, hs, rfl⟩
    exact ⟨s, (List.mem_filter.mp hs).1, rfl⟩
  · rintro ⟨s, hs, rfl⟩
    by_cases hlt : s.ts < cutoff
    · obtain ⟨a, ha, hid, hkept⟩ := exists_newest hs hlt
      exact ⟨a, List.mem_filter.mpr ⟨ha, by simp [hkept]⟩, hid⟩
    · have hkept : superseded t.peers cutoff s = false := superseded_of_later (not_lt.mp hlt)
      exact ⟨s, List.mem_filter.mpr ⟨hs, by simp [hkept]⟩, rfl⟩

theorem anchored_congr {t u : Tables} (h : t.peers = u.peers) (peer : String) (first last : ℤ) :
    t.anchored peer first last = u.anchored peer first last := by
  cases t
  cases u
  cases h
  rfl

end Peers

namespace Tables.SameFrom

variable {cutoff first : ℤ} {t u v : Tables}

theorem refl (cutoff : ℤ) (t : Tables) : SameFrom cutoff t t := ⟨rfl, rfl, fun _ => rfl⟩

theorem trans (h : SameFrom cutoff t u) (k : SameFrom cutoff u v) : SameFrom cutoff t v :=
  ⟨h.traffic.trans k.traffic, h.peers.trans k.peers, fun s => (h.buckets s).trans (k.buckets s)⟩

section Reads

variable (h : SameFrom cutoff t u) (hc : cutoff ≤ first)

include h

theorem trafficRows {p : Row → Bool} (hp : ∀ r, p r = true → cutoff ≤ r.ts) :
    t.traffic.filter p = u.traffic.filter p :=
  filter_of_filter h.traffic fun r hr => by simpa using hp r hr

theorem bucketRows (series : Series) {p : Row → Bool} (hp : ∀ r, p r = true → cutoff ≤ r.ts) :
    (Action.bucketsOf series t).filter p = (Action.bucketsOf series u).filter p :=
  filter_of_filter (h.buckets series) fun r hr => by simpa using hp r hr

theorem peerRows {p : Snapshot → Bool} (hp : ∀ s, p s = true → cutoff ≤ s.ts) :
    t.peers.filter p = u.peers.filter p := by
  have hlater : ∀ v : Tables, (v.peers.filter fun s => !superseded v.peers cutoff s).filter p =
      v.peers.filter p := by
    intro v
    apply filter_filter_of_imp
    intro s _ hps
    rw [superseded_of_later (hp s hps)]
    rfl
  rw [← hlater t, h.peers, hlater u]

theorem peerIds : t.peerIds = u.peerIds := by
  rw [← peerIds_prune t cutoff, ← peerIds_prune u cutoff]
  exact congrArg (fun peers : List Snapshot => sortedKeys (peers.map (·.id))) h.peers

include hc

theorem anchored (peer : String) (last : ℤ) :
    t.anchored peer first last = u.anchored peer first last := by
  rw [← anchored_prune t peer last hc, ← anchored_prune u peer last hc]
  exact anchored_congr h.peers peer first last

theorem contributions (series : Series) (identities : List String) (last : ℤ) :
    t.contributions series identities first last = u.contributions series identities first last := by
  have hwindow : ∀ r : Row, (inWindow first last r.ts && selected identities r.id) = true →
      cutoff ≤ r.ts := by
    intro r hr
    rw [Bool.and_eq_true, inWindow_iff] at hr
    exact hc.trans hr.1.1
  cases series with
  | traffic =>
    have hraw := h.trafficRows hwindow
    have hbuckets := h.bucketRows .traffic hwindow
    exact congrArg₂ (· ++ ·) hraw hbuckets
  | peers =>
    have hbuckets := h.bucketRows .peers hwindow
    have hgrowths : t.windowGrowths identities first last = u.windowGrowths identities first last := by
      simp only [Tables.windowGrowths, h.peerIds, h.anchored hc]
    exact congrArg₂ (· ++ ·) hgrowths hbuckets

theorem answers : SameAnswers first t u where
  range identity last := by
    have hrows := h.trafficRows (p := fun r => r.id == identity && inWindow first last r.ts)
      fun r hr => by
        rw [Bool.and_eq_true, inWindow_iff] at hr
        exact hc.trans hr.2.1
    simp only [Tables.range, hrows]
  peerRange peer last := by
    have hrows := h.peerRows (p := fun s => s.id == peer && inWindow first last s.ts)
      fun s hs => by
        rw [Bool.and_eq_true, inWindow_iff] at hs
        exact hc.trans hs.2.1
    simp only [Tables.peerRange, hrows]
  globalSum last := by
    have hwindow : ∀ r : Row, inWindow first last r.ts = true → cutoff ≤ r.ts :=
      fun r hr => hc.trans (inWindow_iff.mp hr).1
    have hrows := h.trafficRows hwindow
    simp only [Tables.globalSum, hrows]
  activeIdentities threshold := by
    have hrows := h.trafficRows (p := fun r => first ≤ r.ts)
      fun r hr => hc.trans (of_decide_eq_true hr)
    simp only [Tables.activeIdentitiesSince, hrows]
  bucketed series identities last interval := by
    simp only [Tables.bucketed, h.contributions hc]
  topTotals last limit := by
    have hwindow : ∀ r : Row, inWindow first last r.ts = true → cutoff ≤ r.ts :=
      fun r hr => hc.trans (inWindow_iff.mp hr).1
    have hraw := h.trafficRows hwindow
    have hbuckets : t.trafficBuckets.filter _ = _ := h.bucketRows .traffic hwindow
    simp only [Tables.topTotals, hraw, hbuckets]
    rfl
  peerTopTotals last limit := by
    have hwindow : ∀ r : Row, inWindow first last r.ts = true → cutoff ≤ r.ts :=
      fun r hr => hc.trans (inWindow_iff.mp hr).1
    have hbuckets : t.peerBuckets.filter _ = _ := h.bucketRows .peers hwindow
    simp only [Tables.peerTopTotals, Tables.peerSpread, h.peerIds, h.anchored hc, hbuckets]
    rfl

end Reads

theorem prune (cutoff : ℤ) (t : Tables) (series : Series) :
    SameFrom cutoff (t.prune cutoff series) t := by
  cases series with
  | traffic => exact ⟨filter_filter_of_imp fun _ _ hr => hr, rfl, fun s => by cases s <;> rfl⟩
  | peers =>
    refine ⟨rfl, ?_, fun s => by cases s <;> rfl⟩
    apply List.filter_eq_self.mpr
    intro s hs
    obtain ⟨hin, hkept⟩ := List.mem_filter.mp hs
    rw [Bool.not_eq_true', superseded_eq_false_iff] at hkept ⊢
    exact fun hlt a ha => hkept hlt a (List.mem_filter.mp ha).1

theorem withBuckets {f : List Row → List Row} (t : Tables) (series : Series)
    (hf : ∀ rows : List Row, ((f rows).filter fun r => !decide (r.ts < cutoff)) =
      rows.filter fun r => !decide (r.ts < cutoff)) :
    SameFrom cutoff (t.withBuckets f series) t := by
  cases series with
  | traffic => exact ⟨rfl, rfl, fun s => by cases s with | traffic => exact hf _ | peers => rfl⟩
  | peers => exact ⟨rfl, rfl, fun s => by cases s with | traffic => rfl | peers => exact hf _⟩

theorem dropBuckets (cutoff : ℤ) (t : Tables) (series : Series) :
    SameFrom cutoff (t.dropBuckets cutoff series) t := by
  apply withBuckets
  intro rows
  apply filter_filter_of_imp
  intro r _ hr
  rw [Bool.not_eq_true', decide_eq_false_iff_not] at hr ⊢
  unfold compressedBucketSeconds
  omega

end Tables.SameFrom

section Rollup

variable {cutoff : ℤ}

def Tables.NonNegative (t : Tables) : Series → Prop
  | .traffic => ∀ r ∈ t.traffic, 0 ≤ r.ts
  | .peers => ∀ s ∈ t.peers, 0 ≤ s.ts

instance (t : Tables) : (series : Series) → Decidable (t.NonNegative series)
  | .traffic => inferInstanceAs (Decidable (∀ r ∈ t.traffic, 0 ≤ r.ts))
  | .peers => inferInstanceAs (Decidable (∀ s ∈ t.peers, 0 ≤ s.ts))

theorem Tables.NonNegative.mono {t u : Tables} {series : Series} (h : t.NonNegative series)
    (htraffic : u.traffic ⊆ t.traffic) (hpeers : u.peers ⊆ t.peers) : u.NonNegative series := by
  cases series with
  | traffic => exact fun r hr => h r (htraffic hr)
  | peers => exact fun s hs => h s (hpeers hs)

theorem rollable_nonneg {t : Tables} {series : Series} (hts : t.NonNegative series) {r : Row}
    (h : r ∈ t.rollable cutoff series) : 0 ≤ r.ts := by
  cases series with
  | traffic => exact hts r (List.mem_filter.mp h).1
  | peers =>
    obtain ⟨before, -, after, hafter, -, -, -, rfl⟩ := mem_rollable_peers h
    exact hts after hafter

theorem rolledUp_earlier {t : Tables} {series : Series} (hts : t.NonNegative series) {width : ℤ}
    (hw : 1 ≤ width) {b : Row} (hb : .ok b ∈ t.rolledUp series cutoff width) : b.ts < cutoff := by
  obtain ⟨r, hr, hkey⟩ := mem_rolledUp hb
  have hstart : b.ts = bucketKey r.ts width := congrArg Prod.snd hkey
  have hle := bucketKey_le (rollable_nonneg hts hr) hw
  have hlt := rollable_earlier hr
  omega

theorem Tables.SameFrom.compress {t : Tables} {series : Series} (hnonneg : t.NonNegative series)
    (cutoff width : ℤ) : SameFrom cutoff (t.compress cutoff width series) t := by
  refine (SameFrom.prune cutoff _ series).trans (SameFrom.withBuckets t series fun table => ?_)
  apply filter_foldl
  intro b hb table
  apply filter_merge_of_not
  intro r hkey
  have hts : r.ts = b.ts := congrArg Prod.snd hkey
  rw [hts, Bool.not_eq_false', decide_eq_true_eq]
  obtain ⟨bucket, hin, hok⟩ := List.mem_filterMap.mp hb
  cases bucket with
  | error fault => cases hok
  | ok r =>
    cases hok
    exact rolledUp_earlier hnonneg (le_max_right width 1) hin

end Rollup

/-- Maintenance before a cutoff does not show in any answer about the time from the cutoff on, aligned
or not, whether it succeeds or is refused. -/
theorem maintenance_keeps_later_answers {db : Database} {series : Series}
    (hts : db.tables.NonNegative series) {cutoff first : ℤ} (hc : cutoff ≤ first) (width : ℤ) :
    let expired := (Action.hardDeleteBefore series cutoff).run db
    let rolled := (Action.compressBefore series cutoff width).run db
    expired.2.tables.SameAnswers first db.tables ∧ rolled.2.tables.SameAnswers first db.tables ∧
      (db.guards = [] → expired.1 = .ok (db.tables.outdated cutoff series)) ∧
      ∀ n, rolled.1 = .ok n → n = db.tables.outdated cutoff series := by
  have hexpired : Tables.SameFrom cutoff ((Call.hardDelete series cutoff).after db).tables db.tables := by
    rcases Call.after_cases (.hardDelete series cutoff) db with ha | ⟨-, ha⟩
    · rw [ha]
      exact .refl cutoff _
    · rw [ha]
      exact (Tables.SameFrom.dropBuckets cutoff _ series).trans (.prune cutoff _ series)
  have hrolled : Tables.SameFrom cutoff ((Call.compress series cutoff width).after db).tables db.tables := by
    rcases Call.after_cases (.compress series cutoff width) db with ha | ⟨-, ha⟩
    · rw [ha]
      exact .refl cutoff _
    · rw [ha]
      exact .compress hts cutoff width
  have hyields : Action.Yields _ db _ _ := (Call.hardDelete series cutoff).yields trivial
  refine ⟨hexpired.answers hc, hrolled.answers hc, fun hg => congrArg Prod.fst (hyields.free hg), ?_⟩
  intro n hn
  rcases (Call.compress series cutoff width).run_cases db with ⟨failure, hr⟩ | ⟨-, hr⟩
  · have herror := congrArg Prod.fst hr
    exact absurd (hn.symm.trans herror) (by simp)
  · have hanswer := congrArg Prod.fst hr
    exact Except.ok.inj (hn.symm.trans hanswer)

def idleTables : Tables where
  traffic := []
  peers :=
    [⟨⟨"idle", 200, .int 1500, .int 200⟩, "a"⟩, ⟨⟨"idle", 100, .int 1000, .int 100⟩, "a"⟩,
      ⟨⟨"idle", 40000, .int 2000, .int 300⟩, "a"⟩]
  trafficBuckets := []
  peerBuckets := [⟨"idle", 28800, .int 7, .int 7⟩, ⟨"idle", 0, .int 1, .int 1⟩]

theorem maintenance_keeps_later_answers_when_idle :
    let db := { Database.blank with tables := idleTables }
    let expired := (Action.hardDeleteBefore .peers 30001).run db
    let rolled := (Action.compressBefore .peers 30001 7).run db
    expired.1 = .ok 1 ∧ rolled.1 = .ok 1 ∧
      idleTables.bucketed .peers [] 30002 50000 60 = .ok [⟨39960, 500, 100⟩] ∧
      expired.2.tables.bucketed .peers [] 30002 50000 60 = .ok [⟨39960, 500, 100⟩] ∧
      rolled.2.tables.bucketed .peers [] 30002 50000 60 = .ok [⟨39960, 500, 100⟩] ∧
      expired.2.tables.peerTopTotals 30002 50000 5 = idleTables.peerTopTotals 30002 50000 5 := by
  have hts : idleTables.NonNegative .peers := by decide
  have hold : idleTables.bucketed .peers [] 30002 50000 60 = .ok [⟨39960, 500, 100⟩] := by
    decide +kernel
  obtain ⟨hexpired, hrolled, hok, -⟩ := @maintenance_keeps_later_answers
    { Database.blank with tables := idleTables } .peers hts 30001 30002 (by decide) 7
  refine ⟨hok rfl, by decide +kernel, hold, ?_, ?_, hexpired.peerTopTotals 50000 5⟩
  · exact (hexpired.bucketed .peers [] 50000 60).trans hold
  · exact (hrolled.bucketed .peers [] 50000 60).trans hold

end TrafficMeter.Store
