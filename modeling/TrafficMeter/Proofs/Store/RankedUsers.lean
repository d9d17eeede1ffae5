import TrafficMeter.Proofs.Store.Rankings
import TrafficMeter.Proofs.Text.OctetOrder

/-!
The ranking of users beside the chart. Both sum the same rows of a window, the ranking identity by
identity and the chart bucket by bucket, so wherever the sums can be told they tell the same bytes.
-/

namespace TrafficMeter.Store

def told (points : List Point) : ℕ × ℕ := (points.map fun p => (p.uplink, p.downlink)).sum

theorem told_tally (rows : List Row) (key : Row → ℤ) : told (tally rows key) = moved rows := by
  unfold told tally
  rw [List.map_map]
  refine (sum_moved_groups rows key (sortedKeys_nodup _)).trans ?_
  have hall : ∀ r ∈ rows, decide (key r ∈ sortedKeys (rows.map key)) = true := by
    intro r hr
    exact decide_eq_true (mem_sortedKeys.mpr (List.mem_map_of_mem hr))
  rw [List.filter_eq_self.mpr hall]

theorem sum_moved_ids (rows : List Row) :
    ((sortedKeys (rows.map (·.id))).map fun identity =>
      moved (rows.filter (·.id == identity))).sum = moved rows := by
  have hsum := sum_moved_groups rows (·.id) (sortedKeys_nodup (rows.map (·.id)))
  have hall : ∀ r ∈ rows, decide (r.id ∈ sortedKeys (rows.map (·.id))) = true := by
    intro r hr
    exact decide_eq_true (mem_sortedKeys.mpr (List.mem_map_of_mem hr))
  rw [List.filter_eq_self.mpr hall] at hsum
  exact hsum

namespace Tables.Standing

def weight (s : Tables.Standing) : ℤ := (s.up.add s.down).value

def entry (s : Tables.Standing) : TopEntry := ⟨s.identity, s.up.bytes, s.down.bytes⟩

theorem precedes_iff {a b : Tables.Standing} : a.precedes b = true ↔
    b.weight < a.weight ∨ a.weight = b.weight ∧ a.identity ≤ b.identity := by
  simp only [precedes, weight, Bool.or_eq_true, Bool.and_eq_true, decide_eq_true_eq, beq_iff_eq]

theorem precedes_trans (a b c : Tables.Standing) (hab : a.precedes b = true)
    (hbc : b.precedes c = true) : a.precedes c = true := by
  rw [precedes_iff] at *
  rcases hab with hab | ⟨hab, hid⟩
  · left
    rcases hbc with hbc | ⟨hbc, -⟩
    · omega
    · omega
  · rcases hbc with hbc | ⟨hbc, hid'⟩
    · left
      omega
    · right
      exact ⟨hab.trans hbc, le_trans hid hid'⟩

theorem precedes_total (a b : Tables.Standing) : (a.precedes b || b.precedes a) = true := by
  rw [Bool.or_eq_true, precedes_iff, precedes_iff]
  rcases lt_trichotomy a.weight b.weight with h | h | h
  · exact Or.inr (Or.inl h)
  · rcases le_total a.identity b.identity with hid | hid
    · exact Or.inl (Or.inr ⟨h, hid⟩)
    · exact Or.inr (Or.inr ⟨h.symm, hid⟩)
  · exact Or.inl (Or.inl h)

end Tables.Standing

/-- Whether one entry has its place before another: it moved more, or as much and its identity has the
smaller octets. -/
def TopEntry.Outranks (a b : TopEntry) : Prop :=
  b.uplink + b.downlink < a.uplink + a.downlink ∨
    a.uplink + a.downlink = b.uplink + b.downlink ∧ Text.utf8 a.identity < Text.utf8 b.identity

namespace Tables

variable {t : Tables} {first last : ℤ}

def ranked (t : Tables) (first last : ℤ) : List TopEntry :=
  ((t.standings first last).mergeSort Standing.precedes).map Standing.entry

def shareOf (t : Tables) (first last : ℤ) (identity : String) : List Row :=
  (t.windowed .traffic [] first last).filter (·.id == identity)

theorem windowed_single (t : Tables) (first last : ℤ) (identity : String) :
    t.windowed .traffic [identity] first last = t.shareOf first last identity := by
  rw [windowed_selected]
  exact List.filter_congr fun r _ => selected_single identity r.id

theorem mem_window_ids {identity : String} :
    identity ∈ (t.windowed .traffic [] first last).map (·.id) ↔
      ∃ r ∈ t.traffic ++ t.trafficBuckets, r.id = identity ∧ first ≤ r.ts ∧ r.ts ≤ last := by
  have hwindow : ∀ r, r ∈ t.windowed .traffic [] first last ↔
      r ∈ t.traffic ++ t.trafficBuckets ∧ first ≤ r.ts ∧ r.ts ≤ last := by
    intro r
    unfold windowed
    rw [List.mem_filter, Bool.and_eq_true, inWindow_iff]
    exact and_congr_right fun _ => and_iff_left rfl
  rw [List.mem_map]
  constructor
  · rintro ⟨r, hr, hid⟩
    obtain ⟨hm, hw⟩ := (hwindow r).mp hr
    exact ⟨r, hm, hid, hw⟩
  · rintro ⟨r, hm, hid, hw⟩
    exact ⟨r, (hwindow r).mpr ⟨hm, hw⟩, hid⟩

/-- A window whose bytes both ways fit a column together. -/
structure Weighable (t : Tables) (first last : ℤ) : Prop where
  sound : t.Sound
  fits : (((moved (t.windowed .traffic [] first last)).1 +
    (moved (t.windowed .traffic [] first last)).2 : ℕ) : ℤ) ≤ maxTime

namespace Weighable

theorem tallied (h : t.Weighable first last) : Tallied (t.windowed .traffic [] first last) := by
  have hfits := h.fits
  have hstorable : Storable (moved (t.windowed .traffic [] first last)) := by
    constructor
    · omega
    · omega
  exact h.sound.tallied (List.filter_subset_self _) hstorable

theorem standing (h : t.Weighable first last) {s : Standing} (hs : s ∈ t.standings first last) :
    s.weight = (s.entry.uplink + s.entry.downlink : ℕ) ∧
      (s.entry.uplink, s.entry.downlink) = moved (t.shareOf first last s.identity) := by
  obtain ⟨identity, -, rfl⟩ := List.mem_map.mp hs
  obtain ⟨hup, hdown⟩ := (h.tallied.filter (·.id == identity)).storable
  have hle := moved_filter_le (t.windowed .traffic [] first last) (·.id == identity)
  have hfits := h.fits
  obtain ⟨hle₁, hle₂⟩ := hle
  have hbytes₁ := Cell.bytes_ofCount_of_le hup
  have hbytes₂ := Cell.bytes_ofCount_of_le hdown
  have hsum := Cell.add_whole (Cell.ofCount_whole _) (Cell.ofCount_whole _)
    (show (((Cell.ofCount (moved ((t.windowed .traffic [] first last).filter
        (·.id == identity))).1).bytes + (Cell.ofCount (moved ((t.windowed .traffic [] first
          last).filter (·.id == identity))).2).bytes : ℕ) : ℤ) ≤ maxTime by
      rw [hbytes₁, hbytes₂]
      omega)
  constructor
  · change (Cell.add _ _).value = _
    rw [place, hsum, (Cell.ofCount_whole _).value_eq, Cell.bytes_ofCount_of_le]
    · rfl
    · rw [hbytes₁, hbytes₂]
      omega
  · exact Prod.ext hbytes₁ hbytes₂

theorem topTotals (h : t.Weighable first last) (limit : ℕ) :
    t.topTotals first last limit = .ok ((t.ranked first last).take limit) := by
  rw [topTotals_tallied h.tallied, ranked, List.map_take]
  rfl

theorem ranked_outranks (h : t.Weighable first last) :
    (t.ranked first last).Pairwise TopEntry.Outranks := by
  have hperm := List.mergeSort_perm (t.standings first last) Standing.precedes
  have hids : (t.standings first last).Pairwise fun a b => a.identity ≠ b.identity := by
    apply List.pairwise_map.mpr
    exact sortedKeys_nodup _
  have hdistinct := hperm.symm.pairwise hids fun hne => Ne.symm hne
  have hsorted := List.pairwise_mergeSort Standing.precedes_trans Standing.precedes_total
    (t.standings first last)
  apply List.pairwise_map.mpr
  apply (hsorted.and hdistinct).imp_of_mem
  intro a b ha hb hab
  have hweight := (h.standing (hperm.mem_iff.mp ha)).1
  have hweight' := (h.standing (hperm.mem_iff.mp hb)).1
  rcases Standing.precedes_iff.mp hab.1 with hlt | ⟨heq, hid⟩
  · left
    omega
  · right
    refine ⟨by omega, ?_⟩
    exact (Text.lt_iff_utf8_lt _ _).mp (lt_of_le_of_ne hid hab.2)

end Weighable

theorem mem_ranked {identity : String} :
    (∃ e ∈ t.ranked first last, e.identity = identity) ↔
      identity ∈ (t.windowed .traffic [] first last).map (·.id) := by
  have hperm := List.mergeSort_perm (t.standings first last) Standing.precedes
  constructor
  · rintro ⟨_, he, rfl⟩
    obtain ⟨s, hs, rfl⟩ := List.mem_map.mp he
    obtain ⟨identity, hid, rfl⟩ := List.mem_map.mp (hperm.mem_iff.mp hs)
    exact mem_sortedKeys.mp hid
  · intro hid
    have hs : place identity _ ∈ t.standings first last :=
      List.mem_map_of_mem (mem_sortedKeys.mpr hid)
    exact ⟨_, List.mem_map_of_mem (hperm.mem_iff.mpr hs), rfl⟩

namespace Weighable

variable {interval : ℤ}

theorem bucketed (h : t.Weighable first last) {identities : List String}
    (hn : identities.length ≤ maxIdentities) (hi : 1 ≤ interval)
    (hall : Tallied (t.windowed .traffic identities first last)) :
    ∃ points, t.bucketed .traffic identities first last interval = .ok points ∧
      told points = moved (t.windowed .traffic identities first last) := by
  refine ⟨_, bucketed_eq_tally h.sound hn hi fun start => hall.filter _, ?_⟩
  exact told_tally _ _

theorem told_ranked (h : t.Weighable first last) :
    ((t.ranked first last).map fun e => (e.uplink, e.downlink)).sum =
      moved (t.windowed .traffic [] first last) := by
  have hperm := List.mergeSort_perm (t.standings first last) Standing.precedes
  have hbytes : ((t.standings first last).map fun s => (s.entry.uplink, s.entry.downlink)) =
      (t.standings first last).map fun s => moved (t.shareOf first last s.identity) := by
    apply List.map_congr_left
    intro s hs
    exact (h.standing hs).2
  rw [ranked, List.map_map]
  refine ((hperm.map _).sum_eq).trans ?_
  refine Eq.trans (congrArg List.sum hbytes) ?_
  rw [standings, List.map_map]
  exact sum_moved_ids _

theorem globalSum (h : t.Weighable first last)
    (hraw : ∀ r ∈ t.trafficBuckets, ¬ (first ≤ r.ts ∧ r.ts ≤ last)) :
    t.globalSum first last =
      .ok (tally (t.windowed .traffic [] first last) fun r => bucketKey r.ts 1) := by
  have hnone : t.trafficBuckets.filter (fun r => inWindow first last r.ts) = [] := by
    apply List.filter_eq_nil_iff.mpr
    intro r hr hw
    exact hraw r hr (inWindow_iff.mp hw)
  have hwindow : t.windowed .traffic [] first last =
      t.traffic.filter fun r => inWindow first last r.ts := by
    have hall : ∀ rows : List Row, rows.filter (fun r =>
        inWindow first last r.ts && selected [] r.id) =
          rows.filter fun r => inWindow first last r.ts := by
      intro rows
      exact List.filter_congr fun r _ => Bool.and_true _
    unfold windowed movements
    rw [hall, List.filter_append]
    exact (congrArg _ hnone).trans (List.append_nil _)
  have hsecond : ∀ r : Row, bucketKey r.ts 1 = r.ts := by
    intro r
    rw [bucketKey, Int.tdiv_one, mul_one]
  have htallied := h.tallied
  rw [hwindow] at htallied ⊢
  simp only [hsecond]
  unfold Tables.globalSum
  rw [groupPoints_tallied fun k => htallied.filter _]
  rfl

end Weighable

end Tables

/-- The ranking of users tells what the chart tells. It lists exactly the users with a row in the window,
heaviest first and then by octets, and a limit cuts it off. Each entry is what the chart of that user
adds up to, and all entries are what the chart of everybody adds up to, in buckets of any size. A
window without rolled up buckets has the same points by second as the sums over all users. -/
theorem ranking_agrees_with_chart {t : Tables} {first last : ℤ} (h : t.Weighable first last) :
    ∃ all : List TopEntry,
      (∀ limit, t.topTotals first last limit = .ok (all.take limit)) ∧
      all.Pairwise TopEntry.Outranks ∧
      (∀ identity, (∃ e ∈ all, e.identity = identity) ↔
        ∃ r ∈ t.traffic ++ t.trafficBuckets, r.id = identity ∧ first ≤ r.ts ∧ r.ts ≤ last) ∧
      (∀ interval, 1 ≤ interval →
        (∀ e ∈ all, ∃ points,
          t.bucketed .traffic [e.identity] first last interval = .ok points ∧
          told points = (e.uplink, e.downlink)) ∧
        ∃ points, t.bucketed .traffic [] first last interval = .ok points ∧
          told points = (all.map fun e => (e.uplink, e.downlink)).sum) ∧
      ((∀ r ∈ t.trafficBuckets, ¬ (first ≤ r.ts ∧ r.ts ≤ last)) → ∃ points,
        t.bucketed .traffic [] first last 1 = .ok points ∧
        t.globalSum first last = .ok points) := by
  refine ⟨t.ranked first last, h.topTotals, h.ranked_outranks, ?_, ?_, ?_⟩
  · intro identity
    rw [Tables.mem_ranked, Tables.mem_window_ids]
  · intro interval hi
    constructor
    · intro e he
      obtain ⟨s, hs, rfl⟩ := List.mem_map.mp he
      have hstanding := (List.mergeSort_perm _ _).mem_iff.mp hs
      have hall : Tallied (t.windowed .traffic [s.identity] first last) := by
        rw [Tables.windowed_single]
        exact h.tallied.filter _
      obtain ⟨points, hpoints, htold⟩ := @Tables.Weighable.bucketed t first last interval h [s.identity]
        (show 1 ≤ maxIdentities by decide) hi hall
      refine ⟨points, hpoints, htold.trans ?_⟩
      rw [Tables.windowed_single]
      exact (h.standing hstanding).2.symm
    · obtain ⟨points, hpoints, htold⟩ := h.bucketed (Nat.zero_le _) hi h.tallied
      exact ⟨points, hpoints, htold.trans h.told_ranked.symm⟩
  · intro hraw
    have hpoints := bucketed_eq_tally h.sound (Nat.zero_le _) le_rfl
      fun start => h.tallied.filter fun r => bucketKey r.ts 1 = start
    exact ⟨_, hpoints, h.globalSum hraw⟩

def tiedTables : Tables where
  traffic :=
    [⟨"é", 70, .int 10, .int 5⟩, ⟨"z", 130, .int 7, .int 1⟩, ⟨"a", 100, .int 3, .int 3⟩,
      ⟨"z", 250, .int 90, .int 90⟩, ⟨"é", 179, .int 0, .int 4⟩]
  peers := []
  trafficBuckets := [⟨"a", 60, .int 13, .int 0⟩, ⟨"z", 0, .int 50, .int 50⟩]
  peerBuckets := []

theorem tiedTables_weighable : tiedTables.Weighable 60 179 := by
  refine ⟨?_, by decide⟩
  constructor <;> decide

theorem ranking_agrees_with_chart_at_tie :
    tiedTables.Weighable 60 179 ∧
    tiedTables.topTotals 60 179 2 = .ok [⟨"a", 16, 3⟩, ⟨"é", 10, 9⟩] ∧
    ∃ (all : List TopEntry) (points : List Point),
      tiedTables.topTotals 60 179 2 = .ok (all.take 2) ∧ all.Pairwise TopEntry.Outranks ∧
      (∃ e ∈ all, e.identity = "z") ∧
      tiedTables.bucketed .traffic [] 60 179 50 = .ok points ∧
      told points = (all.map fun e => (e.uplink, e.downlink)).sum := by
  obtain ⟨all, hlimit, hranked, hlisted, hchart, -⟩ :=
    ranking_agrees_with_chart tiedTables_weighable
  obtain ⟨-, points, hpoints, htold⟩ := hchart 50 (by decide)
  refine ⟨tiedTables_weighable, ?_, all, points, hlimit 2, hranked, ?_, hpoints, htold⟩
  · cbv
  · exact (hlisted "z").mpr ⟨⟨"z", 130, .int 7, .int 1⟩, by decide, rfl, by decide, by decide⟩

end TrafficMeter.Store
