import TrafficMeter.Proofs.Store.Buckets
import TrafficMeter.Proofs.Store.Readable
import TrafficMeter.Proofs.Store.Windows

/-!
Keys and the order of answers. No call gives a table two rows of one key. Ranges list the rows of
their identity and window by rising seconds, and sums have one point for each key, by rising keys: a
bucket starts at a multiple of the interval, less than one interval from a stored row of the window.
-/

namespace TrafficMeter.Store

def Row.sample (r : Row) : Sample := ⟨r.id, r.ts, r.up.bytes, r.down.bytes⟩

def Snapshot.sample (s : Snapshot) : PeerSample := ⟨s.id, s.ts, s.up.bytes, s.down.bytes, s.endpoint⟩

def Tables.stored (t : Tables) : Series → List Row
  | .traffic => t.traffic ++ t.trafficBuckets
  | .peers => t.peers.map Snapshot.toRow ++ t.peerBuckets

section Reading

theorem map_eq_of_mapM {α β γ ε : Type} {f : α → Except ε β} (image : β → γ) (source : α → γ)
    (hf : ∀ a b, f a = .ok b → image b = source a) {l : List α} {out : List β}
    (h : l.mapM f = .ok out) : out.map image = l.map source := by
  induction l generalizing out with
  | nil =>
    cases h
    rfl
  | cons a rest ih =>
    rw [List.mapM_cons] at h
    obtain ⟨b, hb, hothers⟩ := except_bind_ok.mp h
    obtain ⟨others, hrest, hall⟩ := except_bind_ok.mp hothers
    cases hall
    rw [List.map_cons, List.map_cons, hf a b hb, ih hrest]

theorem raise_ok {α : Type} {activity : String} {e : Except StoreFault α} {a : α}
    (h : raise activity e = .ok a) : e = .ok a := by
  cases e with
  | error fault => cases h
  | ok b =>
    cases h
    rfl

theorem counts_ok {α : Type} {up down : Cell} (build : ℕ → ℕ → α) {a : α}
    (h : (do return build (← up.count?) (← down.count?) : Except StoreFault α) = .ok a) :
    a = build up.bytes down.bytes := by
  cases up with
  | real m => cases h
  | int m =>
    cases down with
    | real n => cases h
    | int n =>
      cases h
      rfl

theorem groupPoints_keys {shares : List (Share ℤ)} {points : List Point}
    (h : groupPoints shares = .ok points) :
    points.map (·.ts) = sortedKeys (shares.map (·.key)) := by
  rw [← List.map_id (sortedKeys _)]
  refine map_eq_of_mapM Point.ts id ?_ h
  intro key p hp
  obtain ⟨sums, -, hread⟩ := except_bind_ok.mp hp
  rw [counts_ok (Point.mk key) hread]
  rfl

end Reading

section Answers

variable {t : Tables}

/-- What an answer sums was stored in its window. -/
theorem contributed {series : Series} {identities : List String} {first last : ℤ} {r : Row}
    (h : r ∈ t.contributions series identities first last) :
    (∃ s ∈ t.stored series, s.key = r.key) ∧ first ≤ r.ts ∧ r.ts ≤ last := by
  have hchosen : ∀ rows : List Row, r ∈ rows.filter (fun r =>
      inWindow first last r.ts && selected identities r.id) →
      r ∈ rows ∧ first ≤ r.ts ∧ r.ts ≤ last := by
    intro rows hr
    obtain ⟨hm, hw⟩ := List.mem_filter.mp hr
    exact ⟨hm, inWindow_iff.mp (Bool.and_eq_true_iff.mp hw).1⟩
  cases series with
  | traffic =>
    rcases List.mem_append.mp h with hr | hr
    · obtain ⟨hm, hw⟩ := hchosen _ hr
      exact ⟨⟨r, List.mem_append_left _ hm, rfl⟩, hw⟩
    · obtain ⟨hm, hw⟩ := hchosen _ hr
      exact ⟨⟨r, List.mem_append_right _ hm, rfl⟩, hw⟩
  | peers =>
    rcases List.mem_append.mp h with hr | hr
    · obtain ⟨hgrown, hfirst⟩ := List.mem_filter.mp hr
      obtain ⟨peer, -, hgrowth⟩ := List.mem_flatMap.mp hgrown
      obtain ⟨before, after, hsub, rfl⟩ := mem_growths hgrowth
      have hafter : after ∈ t.anchored peer first last := hsub.subset (by simp)
      obtain ⟨hm, hkept⟩ := List.mem_filter.mp ((sortByTime_perm Snapshot.toRow _).mem_iff.mp hafter)
      simp only [Bool.and_eq_true, decide_eq_true_eq] at hkept hfirst
      exact ⟨⟨after.toRow, List.mem_append_left _ (List.mem_map_of_mem hm), rfl⟩, hfirst, hkept.1.2⟩
    · obtain ⟨hm, hw⟩ := hchosen _ hr
      exact ⟨⟨r, List.mem_append_right _ hm, rfl⟩, hw⟩

theorem range_ordered (hs : t.Sound) {identity : String} {first last : ℤ} {samples : List Sample}
    (h : t.range identity first last = .ok samples) :
    samples.Pairwise (fun a b => a.ts < b.ts) ∧
      samples.Perm ((t.traffic.filter fun r => r.id == identity && inWindow first last r.ts).map
        Row.sample) := by
  have hread := map_eq_of_mapM id Row.sample (fun r _ => counts_ok (Sample.mk r.id r.ts)) (raise_ok h)
  rw [List.map_id] at hread
  rw [hread]
  constructor
  · exact List.pairwise_map.mpr (segment_strict hs.traffic identity (inWindow first last))
  · exact (sortByTime_perm id _).map _

theorem peerRange_ordered (hs : t.Sound) {peer : String} {first last : ℤ}
    {samples : List PeerSample} (h : t.peerRange peer first last = .ok samples) :
    samples.Pairwise (fun a b => a.ts < b.ts) ∧
      samples.Perm ((t.peers.filter fun s => s.id == peer && inWindow first last s.ts).map
        Snapshot.sample) := by
  have hread := map_eq_of_mapM id Snapshot.sample
    (fun s _ => counts_ok fun up down => PeerSample.mk s.id s.ts up down s.endpoint) (raise_ok h)
  rw [List.map_id] at hread
  rw [hread]
  constructor
  · exact List.pairwise_map.mpr (segment_strict hs.peers peer (inWindow first last))
  · exact (sortByTime_perm Snapshot.toRow _).map _

theorem points_ordered {points : List Point} {keys : List ℤ}
    (h : points.map (·.ts) = sortedKeys keys) : points.Pairwise fun a b => a.ts < b.ts := by
  have hkeys := sortedKeys_pairwise keys
  rw [← h] at hkeys
  exact List.pairwise_map.mp hkeys

theorem globalSum_ordered {first last : ℤ} {points : List Point}
    (h : t.globalSum first last = .ok points) :
    points.Pairwise (fun a b => a.ts < b.ts) ∧
      ∀ ts, ts ∈ points.map (·.ts) ↔ ∃ r ∈ t.traffic, r.ts = ts ∧ first ≤ ts ∧ ts ≤ last := by
  have hkeys := groupPoints_keys (raise_ok h)
  refine ⟨points_ordered hkeys, ?_⟩
  intro ts
  rw [hkeys, mem_sortedKeys]
  simp only [List.map_map, List.mem_map, List.mem_filter, inWindow_iff, Function.comp_apply,
    Row.share]
  constructor
  · rintro ⟨r, ⟨hr, hw⟩, rfl⟩
    exact ⟨r, hr, rfl, hw⟩
  · rintro ⟨r, hr, rfl, hw⟩
    exact ⟨r, ⟨hr, hw⟩, rfl⟩

theorem bucketed_keys {series : Series} {identities : List String} {first last interval : ℤ}
    {points : List Point} (hi : 1 ≤ interval)
    (h : t.bucketed series identities first last interval = .ok points) :
    points.map (·.ts) = sortedKeys ((t.contributions series identities first last).map fun r =>
      bucketKey r.ts interval) := by
  unfold Tables.bucketed at h
  dsimp only at h
  rw [max_eq_left hi] at h
  split at h
  · cases h
  · have hkeys := groupPoints_keys (raise_ok h)
    rw [List.map_map] at hkeys
    exact hkeys

theorem bucketed_ordered (hs : t.Sound) {series : Series} {identities : List String}
    {first last interval : ℤ} {points : List Point} (hi : 1 ≤ interval)
    (h : t.bucketed series identities first last interval = .ok points) :
    points.Pairwise (fun a b => a.ts < b.ts) ∧
    (∀ p ∈ points, interval ∣ p.ts ∧
      ∃ r ∈ t.stored series, first ≤ r.ts ∧ r.ts ≤ last ∧ |p.ts - r.ts| < interval) ∧
    ∀ r ∈ t.windowed series identities first last,
      ∃ p ∈ points, p.ts = bucketKey r.ts interval := by
  have hkeys := bucketed_keys hi h
  refine ⟨points_ordered hkeys, ?_, ?_⟩
  · intro p hp
    have hkey : p.ts ∈ points.map (·.ts) := List.mem_map_of_mem hp
    rw [hkeys, mem_sortedKeys] at hkey
    obtain ⟨r, hr, hstart⟩ := List.mem_map.mp hkey
    obtain ⟨⟨s, hstored, hsame⟩, hfirst, hlast⟩ := contributed hr
    have hts : s.ts = r.ts := congrArg Prod.snd hsame
    rw [← hstart]
    refine ⟨dvd_bucketKey r.ts interval, s, hstored, hts ▸ hfirst, hts ▸ hlast, ?_⟩
    rw [hts]
    exact bucketKey_near hi r.ts
  · intro r hr
    rw [← (contributions_perm hs.peers series identities first last).mem_iff] at hr
    have hkey : bucketKey r.ts interval ∈ points.map (·.ts) := by
      rw [hkeys, mem_sortedKeys]
      exact List.mem_map.mpr ⟨r, hr, rfl⟩
    obtain ⟨p, hp, hts⟩ := List.mem_map.mp hkey
    exact ⟨p, hp, hts⟩

end Answers

/-- After any run from empty tables no table has two rows of one key, and whatever can be read comes in
order. Ranges are exactly the rows of their identity and window, sums have one point for each second,
and buckets one for each multiple of the interval that some row of the window belongs to. -/
theorem answers_ordered_after_run {db : Database} (h : db.tables = .empty) (calls : List Call) :
    let t := (runAll calls db).tables
    (DistinctKeys id t.traffic ∧ DistinctKeys Snapshot.toRow t.peers ∧
      DistinctKeys id t.trafficBuckets ∧ DistinctKeys id t.peerBuckets) ∧
    (∀ identity first last samples, t.range identity first last = .ok samples →
      samples.Pairwise (fun a b => a.ts < b.ts) ∧
      samples.Perm ((t.traffic.filter fun r => r.id == identity && inWindow first last r.ts).map
        Row.sample)) ∧
    (∀ peer first last samples, t.peerRange peer first last = .ok samples →
      samples.Pairwise (fun a b => a.ts < b.ts) ∧
      samples.Perm ((t.peers.filter fun s => s.id == peer && inWindow first last s.ts).map
        Snapshot.sample)) ∧
    (∀ first last points, t.globalSum first last = .ok points →
      points.Pairwise (fun a b => a.ts < b.ts) ∧
      ∀ ts, ts ∈ points.map (·.ts) ↔ ∃ r ∈ t.traffic, r.ts = ts ∧ first ≤ ts ∧ ts ≤ last) ∧
    ∀ series identities first last interval points, 1 ≤ interval →
      t.bucketed series identities first last interval = .ok points →
      points.Pairwise (fun a b => a.ts < b.ts) ∧
      (∀ p ∈ points, interval ∣ p.ts ∧
        ∃ r ∈ t.stored series, first ≤ r.ts ∧ r.ts ≤ last ∧ |p.ts - r.ts| < interval) ∧
      ∀ r ∈ t.windowed series identities first last,
        ∃ p ∈ points, p.ts = bucketKey r.ts interval := by
  intro t
  have hstart : db.tables.Sound := h ▸ Tables.Sound.empty
  have hs : t.Sound := hstart.runAll calls
  refine ⟨⟨hs.traffic, hs.peers, hs.trafficBuckets, hs.peerBuckets⟩, ?_, ?_, ?_, ?_⟩
  · intro identity first last samples hread
    exact range_ordered hs hread
  · intro peer first last samples hread
    exact peerRange_ordered hs hread
  · intro first last points hread
    exact globalSum_ordered hread
  · intro series identities first last interval points hi hread
    exact bucketed_ordered hs hi hread

def scatteredCalls : List Call :=
  [.append [⟨"a", 100, 10, 1⟩, ⟨"b", 100, 2, 2⟩, ⟨"a", -40, 1, 1⟩], .merge [⟨"a", 100, 5, 5⟩],
    .compress .traffic 60 30, .append [⟨"a", -45, 7, 7⟩, ⟨"a", 20, 3, 0⟩, ⟨"a", 20, 9, 9⟩],
    .compress .traffic 0 30, .appendPeers [⟨"p", 90, 8, 9, "e"⟩, ⟨"p", -10, 5, 5, "e"⟩],
    .appendPeers [⟨"p", 90, 1, 1, "e"⟩], .compress .peers 91 30, .hardDelete .peers 60]

theorem answers_ordered_after_scattered_calls :
    let t := (runAll scatteredCalls .blank).tables
    DistinctKeys id t.trafficBuckets ∧
    t.range "a" 0 200 = .ok [⟨"a", 20, 3, 0⟩, ⟨"a", 100, 15, 6⟩] ∧
    ([⟨"a", 20, 3, 0⟩, ⟨"a", 100, 15, 6⟩] : List Sample).Pairwise (fun a b => a.ts < b.ts) ∧
    t.bucketed .traffic [] (-60) 200 30 = .ok [⟨-30, 8, 8⟩, ⟨0, 3, 0⟩, ⟨90, 17, 8⟩] ∧
    ([⟨-30, 8, 8⟩, ⟨0, 3, 0⟩, ⟨90, 17, 8⟩] : List Point).Pairwise fun a b => a.ts < b.ts := by
  intro t
  obtain ⟨⟨-, -, hbuckets, -⟩, hrange, -, -, hbucketed⟩ :=
    @answers_ordered_after_run .blank rfl scatteredCalls
  have hsamples : t.range "a" 0 200 = .ok [⟨"a", 20, 3, 0⟩, ⟨"a", 100, 15, 6⟩] := by decide +kernel
  have hpoints : t.bucketed .traffic [] (-60) 200 30 =
      .ok [⟨-30, 8, 8⟩, ⟨0, 3, 0⟩, ⟨90, 17, 8⟩] := by decide +kernel
  exact ⟨hbuckets, hsamples, (hrange _ _ _ _ hsamples).1, hpoints,
    (hbucketed _ _ _ _ _ _ (by decide) hpoints).1⟩

end TrafficMeter.Store
