import TrafficMeter.Proofs.Store.Rankings
import TrafficMeter.Proofs.Store.Rollups

/-!
Answers before and after a rollup. A window and an interval that are aligned to the width of the
buckets see every bucket as a whole, so they cannot tell a movement from its bucket: an aligned
answer does not show whether the rows behind it have been rolled up.
-/

namespace TrafficMeter.Store

/-- A window and an interval that do not cut through buckets of `width` seconds. -/
structure Aligned (width first last interval : ℤ) : Prop where
  some_width : 1 ≤ width
  starts : width ∣ first
  ends : width ∣ last + 1
  steps : width ∣ interval
  some_step : 0 < interval

section Alignment

variable {width first last interval ts : ℤ}

theorem Aligned.inWindow_bucketKey (h : Aligned width first last interval) (hts : 0 ≤ ts) :
    inWindow first last (bucketKey ts width) = inWindow first last ts := by
  have hpos : 0 < width := h.some_width
  obtain ⟨m, hm⟩ := h.starts
  obtain ⟨n, hn⟩ := h.ends
  have hlow : first ≤ ts / width * width ↔ first ≤ ts := by
    rw [hm, mul_comm width m, mul_le_mul_iff_left₀ hpos]
    exact Int.le_ediv_iff_mul_le hpos
  have hhigh : ts / width * width ≤ last ↔ ts ≤ last := by
    have hq : ts / width * width < last + 1 ↔ ts < last + 1 := by
      rw [hn, mul_comm width n, mul_lt_mul_iff_left₀ hpos]
      exact Int.ediv_lt_iff_lt_mul hpos
    rwa [Int.lt_add_one_iff, Int.lt_add_one_iff] at hq
  rw [Bool.eq_iff_iff, inWindow_iff, inWindow_iff, bucketKey_eq hts, hlow, hhigh]

theorem Aligned.bucketKey_bucketKey (h : Aligned width first last interval) (hts : 0 ≤ ts) :
    bucketKey (bucketKey ts width) interval = bucketKey ts interval := by
  have hpos : 0 < width := h.some_width
  obtain ⟨n, hn⟩ := h.steps
  have hnonneg : 0 ≤ ts / width * width := mul_nonneg (Int.ediv_nonneg hts hpos.le) hpos.le
  have hdiv : ts / width * width / interval = ts / interval := by
    calc ts / width * width / interval
        = ts / width * width / (n * width) := by rw [hn, mul_comm width n]
      _ = ts / width / n := Int.mul_ediv_mul_of_pos_left _ _ hpos
      _ = ts / interval := by rw [Int.ediv_ediv_of_nonneg hpos.le, ← hn]
  rw [bucketKey_eq hts width, bucketKey_eq hnonneg, bucketKey_eq hts interval, hdiv]

end Alignment

section Groups

variable {κ : Type} [DecidableEq κ] {t : Tables} {series : Series} {width first last interval : ℤ}

def counts (identities : List String) (first last : ℤ) (group : String × ℤ → κ) (x : κ)
    (key : String × ℤ) : Bool :=
  inWindow first last key.2 && selected identities key.1 && decide (group key = x)

theorem windowed_group (t : Tables) (series : Series) (identities : List String) (first last : ℤ)
    (group : String × ℤ → κ) (x : κ) :
    ((t.windowed series identities first last).filter fun r => group r.key = x) =
      (t.movements series).filter fun r => counts identities first last group x r.key := by
  unfold Tables.windowed
  rw [List.filter_filter]
  exact List.filter_congr fun r _ => Bool.and_comm _ _

theorem mem_windowed_groups {identities : List String} {group : String × ℤ → κ} {x : κ} :
    (x ∈ (t.windowed series identities first last).map fun r => group r.key) ↔
      ∃ k ∈ (t.movements series).map Row.key, counts identities first last group x k := by
  simp only [Tables.windowed, counts, List.mem_map, List.mem_filter, Bool.and_eq_true,
    decide_eq_true_eq]
  constructor
  · rintro ⟨r, ⟨hr, hin⟩, hx⟩
    exact ⟨r.key, ⟨r, hr, rfl⟩, hin, hx⟩
  · rintro ⟨_, ⟨r, hr, rfl⟩, hin, hx⟩
    exact ⟨r, ⟨hr, hin⟩, hx⟩

theorem Aligned.counts_slot (h : Aligned width first last interval) (identities : List String)
    {group : String × ℤ → κ} {r : Row} (hts : 0 ≤ r.ts) (hg : group (r.slot width) = group r.key)
    (x : κ) :
    counts identities first last group x (r.slot (max width 1)) =
      counts identities first last group x r.key := by
  have hwindow : inWindow first last (r.slot width).2 = inWindow first last r.key.2 :=
    h.inWindow_bucketKey hts
  rw [max_eq_left h.some_width, counts, hwindow, hg]
  rfl

/-- Groups of an aligned answer hold the same before and after a rollup. -/
theorem moved_group_compress (h : t.Sound) (hts : ∀ r ∈ t.flows series, 0 ≤ r.ts)
    (fits : Tallied (t.movements series)) (ha : Aligned width first last interval) (cutoff : ℤ)
    (identities : List String) (group : String × ℤ → κ)
    (hg : ∀ r ∈ t.flows series, group (r.slot width) = group r.key) (x : κ) :
    moved (((t.compress cutoff width series).windowed series identities first last).filter
        fun r => group r.key = x) =
      moved ((t.windowed series identities first last).filter fun r => group r.key = x) := by
  obtain ⟨-, -, hkeep⟩ := compress_spec h fits cutoff width
  rw [windowed_group, windowed_group]
  refine hkeep (counts identities first last group x) fun r hr => ?_
  have hflow := (List.mem_filter.mp hr).1
  exact ha.counts_slot identities (hts r hflow) (hg r hflow) x

theorem mem_groups_compress (h : t.Sound) (hts : ∀ r ∈ t.flows .traffic, 0 ≤ r.ts)
    (fits : Tallied (t.movements .traffic)) (ha : Aligned width first last interval) (cutoff : ℤ)
    (identities : List String) (group : String × ℤ → κ)
    (hg : ∀ r ∈ t.flows .traffic, group (r.slot width) = group r.key) (x : κ) :
    (x ∈ ((t.compress cutoff width .traffic).windowed .traffic identities first last).map
        fun r => group r.key) ↔
      x ∈ (t.windowed .traffic identities first last).map fun r => group r.key := by
  rw [mem_windowed_groups, mem_windowed_groups]
  refine compress_occurs h fits fun r hr => ?_
  have hflow := (List.mem_filter.mp hr).1
  exact ha.counts_slot identities (hts r hflow) (hg r hflow) x

end Groups

section Bucketed

variable {t : Tables} {series : Series} {width first last interval : ℤ}

theorem bucketed_ok (h : t.Sound) (fits : Tallied (t.movements series)) {identities : List String}
    (hn : identities.length ≤ maxIdentities) (hi : 0 < interval) :
    t.bucketed series identities first last interval =
      .ok (tally (t.windowed series identities first last) fun r => bucketKey r.ts interval) :=
  bucketed_eq_tally h hn hi fun _ => (fits.filter _).filter _

theorem Aligned.group_bucketKey (ha : Aligned width first last interval)
    (hts : ∀ r ∈ t.flows series, 0 ≤ r.ts) :
    ∀ r ∈ t.flows series, bucketKey (r.slot width).2 interval = bucketKey r.key.2 interval :=
  fun r hr => ha.bucketKey_bucketKey (hts r hr)

theorem flows_peers_nonneg (hts : ∀ s ∈ t.peers, 0 ≤ s.ts) : ∀ r ∈ t.flows .peers, 0 ≤ r.ts := by
  intro r hr
  obtain ⟨s, hs, hr⟩ := List.mem_filterMap.mp hr
  obtain ⟨b, -, rfl⟩ := Option.map_eq_some_iff.mp hr
  exact hts s hs

end Bucketed

/-- A peer rollup leaves one old snapshot of each peer, and it does not show in aligned answers:
every bucket has the amounts that it had. -/
theorem peer_rollup_invisible {db : Database} (h : db.tables.Sound)
    (hts : ∀ s ∈ db.tables.peers, 0 ≤ s.ts) (hfits : Storable (moved (db.tables.movements .peers)))
    (cutoff : ℤ) {width first last interval : ℤ} (ha : Aligned width first last interval)
    (identities : List String) :
    ∃ outcome after, (Action.compressBefore .peers cutoff width).run db = (outcome, after) ∧
      (db.guards = [] → outcome = .ok (db.tables.outdated cutoff .peers) ∧
        ∀ s ∈ after.tables.peers, ∀ a ∈ after.tables.peers,
          s.id = a.id → s.ts < cutoff → a.ts < cutoff → s = a) ∧
      (identities.length ≤ maxIdentities → ∃ old new,
        db.tables.bucketed .peers identities first last interval = .ok old ∧
        after.tables.bucketed .peers identities first last interval = .ok new ∧
        ∀ start, amountAt new start = amountAt old start) ∧
      (maxIdentities < identities.length → ∃ failure,
        db.tables.bucketed .peers identities first last interval = .error failure ∧
        after.tables.bucketed .peers identities first last interval = .error failure) := by
  have fits := h.tallied (List.Subset.refl _) hfits
  have hold : identities.length ≤ maxIdentities →
      db.tables.bucketed .peers identities first last interval = .ok _ :=
    fun hn => bucketed_ok h fits hn ha.some_step
  rcases compressBefore_cases h fits cutoff width with ⟨hg, failure, hrun⟩ | hrun
  · refine ⟨_, _, hrun, fun hnone => absurd hnone hg, fun hn => ?_, fun hn => ?_⟩
    · exact ⟨_, _, hold hn, hold hn, fun _ => rfl⟩
    · exact ⟨_, bucketed_tooMany hn _ _ _, bucketed_tooMany hn _ _ _⟩
  · refine ⟨_, _, hrun, fun _ => ⟨rfl, compress_peers_anchor h⟩, fun hn => ?_, fun hn => ?_⟩
    · obtain ⟨-, hfits, -⟩ := compress_spec h fits cutoff width
      have hsound := h.effect (.compress .peers cutoff width)
      have hflows := flows_peers_nonneg hts
      refine ⟨_, _, hold hn, bucketed_ok hsound hfits hn ha.some_step, fun start => ?_⟩
      rw [amountAt_tally, amountAt_tally]
      exact moved_group_compress h hflows fits ha cutoff identities (fun k => bucketKey k.2 interval)
        (ha.group_bucketKey hflows) start
    · exact ⟨_, bucketed_tooMany hn _ _ _, bucketed_tooMany hn _ _ _⟩

theorem peer_rollup_invisible_at_reset : ∃ after old new,
    (Action.compressBefore .peers 200 60).run { Database.blank with tables := resetTables } =
      (.ok 1, after) ∧
    resetTables.bucketed .peers ["p"] 120 299 60 = .ok old ∧
    after.tables.bucketed .peers ["p"] 120 299 60 = .ok new ∧
    ∀ start, amountAt new start = amountAt old start := by
  have ha : Aligned 60 120 299 60 := by constructor <;> decide
  have fits : Storable (moved (resetTables.movements .peers)) := by decide
  obtain ⟨outcome, after, hrun, hfree, hok, -⟩ :=
    @peer_rollup_invisible { Database.blank with tables := resetTables } resetTables_sound
      (by decide) fits 200 60 120 299 60 ha ["p"]
  obtain ⟨old, new, hold, hnew, hsame⟩ := hok (by decide)
  rw [(hfree rfl).1] at hrun
  exact ⟨after, old, new, hrun, hold, hnew, hsame⟩

theorem standings_compress {t : Tables} {width first last interval : ℤ} (h : t.Sound)
    (hts : ∀ r ∈ t.traffic, 0 ≤ r.ts) (fits : Tallied (t.movements .traffic))
    (ha : Aligned width first last interval) (cutoff : ℤ) :
    (t.compress cutoff width .traffic).standings first last = t.standings first last := by
  have hflows : ∀ r ∈ t.flows .traffic, 0 ≤ r.ts := hts
  have hkeys := sortedKeys_congr
    (mem_groups_compress h hflows fits ha cutoff [] Prod.fst fun _ _ => rfl)
  have hmoved := moved_group_compress h hflows fits ha cutoff [] Prod.fst fun _ _ => rfl
  unfold Tables.standings
  refine Eq.trans (congrArg (List.map _) hkeys) (List.map_congr_left fun identity _ => ?_)
  exact congrArg (place identity) (hmoved identity)

theorem bucketed_compress {t : Tables} {width first last interval : ℤ} (h : t.Sound)
    (hts : ∀ r ∈ t.traffic, 0 ≤ r.ts) (fits : Tallied (t.movements .traffic))
    (ha : Aligned width first last interval) (cutoff : ℤ) (identities : List String) :
    (t.compress cutoff width .traffic).bucketed .traffic identities first last interval =
      t.bucketed .traffic identities first last interval := by
  by_cases hn : identities.length ≤ maxIdentities
  · obtain ⟨-, hfits, -⟩ := compress_spec h fits cutoff width
    have hsound := h.effect (.compress .traffic cutoff width)
    have hflows : ∀ r ∈ t.flows .traffic, 0 ≤ r.ts := hts
    have hgroup := ha.group_bucketKey hflows
    refine (bucketed_ok hsound hfits hn ha.some_step).trans
      (Eq.trans ?_ (bucketed_ok h fits hn ha.some_step).symm)
    apply congrArg Except.ok
    apply tally_congr
    · exact mem_groups_compress h hflows fits ha cutoff identities
        (fun k => bucketKey k.2 interval) hgroup
    · exact moved_group_compress h hflows fits ha cutoff identities
        (fun k => bucketKey k.2 interval) hgroup
  · rw [bucketed_tooMany (not_le.mp hn), bucketed_tooMany (not_le.mp hn)]

theorem topTotals_compress {t : Tables} {width first last interval : ℤ} (h : t.Sound)
    (hts : ∀ r ∈ t.traffic, 0 ≤ r.ts) (fits : Tallied (t.movements .traffic))
    (ha : Aligned width first last interval) (cutoff : ℤ) (limit : ℕ) :
    (t.compress cutoff width .traffic).topTotals first last limit = t.topTotals first last limit := by
  obtain ⟨-, hfits, -⟩ := compress_spec h fits cutoff width
  rw [topTotals_tallied (fits.filter _), topTotals_tallied (hfits.filter _),
    standings_compress h hts fits ha cutoff]

/-- A traffic rollup leaves no raw traffic from before the cutoff, and it does not show in aligned
answers, neither in the charts nor in the ranking. -/
theorem traffic_rollup_invisible {db : Database} (h : db.tables.Sound)
    (hts : ∀ r ∈ db.tables.traffic, 0 ≤ r.ts)
    (hfits : Storable (moved (db.tables.movements .traffic)))
    (cutoff : ℤ) {width first last interval : ℤ} (ha : Aligned width first last interval) :
    ∃ outcome after, (Action.compressBefore .traffic cutoff width).run db = (outcome, after) ∧
      (db.guards = [] → outcome = .ok (db.tables.outdated cutoff .traffic) ∧
        ∀ r ∈ after.tables.traffic, cutoff ≤ r.ts) ∧
      (∀ identities, after.tables.bucketed .traffic identities first last interval =
        db.tables.bucketed .traffic identities first last interval) ∧
      (∀ identities, identities.length ≤ maxIdentities → ∃ points,
        db.tables.bucketed .traffic identities first last interval = .ok points) ∧
      ∀ limit, after.tables.topTotals first last limit = db.tables.topTotals first last limit ∧
        ∃ entries, db.tables.topTotals first last limit = .ok entries := by
  have fits := h.tallied (List.Subset.refl _) hfits
  have hpoints : ∀ identities, identities.length ≤ maxIdentities → ∃ points,
      db.tables.bucketed .traffic identities first last interval = .ok points :=
    fun identities hn => ⟨_, bucketed_ok h fits hn ha.some_step⟩
  have hentries : ∀ limit, ∃ entries, db.tables.topTotals first last limit = .ok entries :=
    fun limit => ⟨_, topTotals_tallied (fits.filter _) limit⟩
  rcases compressBefore_cases h fits cutoff width with ⟨hg, failure, hrun⟩ | hrun
  · exact ⟨_, _, hrun, fun hnone => absurd hnone hg, fun _ => rfl, hpoints,
      fun limit => ⟨rfl, hentries limit⟩⟩
  · exact ⟨_, _, hrun, fun _ => ⟨rfl, compress_traffic_newer⟩,
      bucketed_compress h hts fits ha cutoff, hpoints,
      fun limit => ⟨topTotals_compress h hts fits ha cutoff limit, hentries limit⟩⟩

def mixedTables : Tables where
  traffic :=
    [⟨"a", 70, .int 10, .int 5⟩, ⟨"b", 250, .int 2, .int 2⟩, ⟨"a", 130, .int 7, .int 1⟩,
      ⟨"b", 100, .int 3, .int 3⟩]
  peers := []
  trafficBuckets := [⟨"a", 60, .int 100, .int 0⟩]
  peerBuckets := []

theorem mixedTables_sound : mixedTables.Sound := by constructor <;> decide

theorem traffic_rollup_invisible_at_mixed : ∃ after points entries,
    (Action.compressBefore .traffic 140 60).run { Database.blank with tables := mixedTables } =
      (.ok 3, after) ∧
    mixedTables.bucketed .traffic ["a", "b"] 60 179 120 = .ok points ∧
    after.tables.bucketed .traffic ["a", "b"] 60 179 120 = .ok points ∧
    mixedTables.topTotals 60 179 5 = .ok entries ∧
    after.tables.topTotals 60 179 5 = .ok entries := by
  have ha : Aligned 60 60 179 120 := by constructor <;> decide
  have fits : Storable (moved (mixedTables.movements .traffic)) := by decide
  obtain ⟨outcome, after, hrun, hfree, hchart, hpoints, hrank⟩ :=
    @traffic_rollup_invisible { Database.blank with tables := mixedTables } mixedTables_sound
      (by decide) fits 140 60 60 179 120 ha
  obtain ⟨points, hold⟩ := hpoints ["a", "b"] (by decide)
  obtain ⟨hsame, entries, hentries⟩ := hrank 5
  rw [(hfree rfl).1] at hrun
  exact ⟨after, points, entries, hrun, hold, (hchart _).trans hold, hentries, hsame.trans hentries⟩

end TrafficMeter.Store
