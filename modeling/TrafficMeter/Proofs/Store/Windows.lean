import TrafficMeter.Proofs.Store.Calls
import TrafficMeter.Proofs.Store.History

/-!
Bucketed answers. `Tables.movements` lists what every stored row of a series stands for, without
regard to any window; an answer sums those of its window, bucket by bucket. Main statement: windows
can be split anywhere, because cutting a window never changes which snapshot precedes another.
-/

namespace TrafficMeter.Store

/-- What the raw rows of a series stand for: samples themselves, snapshots their growth. -/
def Tables.flows (t : Tables) : Series → List Row
  | .traffic => t.traffic
  | .peers => increments t.peers

def Tables.movements (t : Tables) (series : Series) : List Row :=
  t.flows series ++ Action.bucketsOf series t

theorem Tables.Sound.tallied {t : Tables} (h : t.Sound) {series : Series} {rows : List Row}
    (hsub : rows ⊆ t.movements series) (fits : Storable (moved rows)) : Tallied rows := by
  apply tallied_of_stored _ fits
  intro r hr
  rcases List.mem_append.mp (hsub hr) with hr | hr
  · cases series with
    | traffic => exact h.samples r hr
    | peers =>
      obtain ⟨s, hs, hr⟩ := List.mem_filterMap.mp hr
      obtain ⟨b, hb, rfl⟩ := Option.map_eq_some_iff.mp hr
      exact (rise_whole (h.counters b (previous?_mem hb)) (h.counters s hs)).1.stored
  · cases series with
    | traffic => exact h.trafficAmounts r hr
    | peers => exact h.peerAmounts r hr

def Tables.windowed (t : Tables) (series : Series) (identities : List String) (first last : ℤ) :
    List Row :=
  (t.movements series).filter fun r => inWindow first last r.ts && selected identities r.id

def Tables.bucket (t : Tables) (series : Series) (identities : List String)
    (first last interval start : ℤ) : List Row :=
  (t.windowed series identities first last).filter fun r => bucketKey r.ts interval = start

section Selected

variable {t : Tables} {series : Series} {identities : List String} {first last : ℤ}

theorem Tables.selected_of_ne_nil (h : identities ≠ []) (id : String) :
    selected identities id = decide (id ∈ identities) := by
  simp [selected, List.isEmpty_eq_false_iff.mpr h]

theorem Tables.selected_single (identity id : String) :
    selected [identity] id = decide (id = identity) := by
  simp [selected]

theorem Tables.windowed_selected : t.windowed series identities first last =
    (t.windowed series [] first last).filter fun r => selected identities r.id := by
  unfold windowed
  rw [List.filter_filter]
  apply List.filter_congr
  intro r _
  rw [Bool.eq_iff_iff]
  simp [selected, and_comm]

end Selected

theorem inWindow_iff {first last ts : ℤ} : inWindow first last ts = true ↔ first ≤ ts ∧ ts ≤ last := by
  simp [inWindow]

section Anchor

variable {t : Tables}

theorem anchor_cases (t : Tables) (peer : String) (first : ℤ) :
    (∃ s ∈ t.peers, s.id = peer ∧ s.ts < first ∧ t.anchor peer first = s.ts ∧
      ∀ c ∈ t.peers, c.id = peer → c.ts < first → c.ts ≤ s.ts) ∨
    t.anchor peer first = first ∧ ∀ c ∈ t.peers, c.id = peer → first ≤ c.ts := by
  have hmem : ∀ ts, ts ∈ (t.peers.filter fun a => a.id == peer && decide (a.ts < first)).map
      (·.ts) ↔ ∃ c ∈ t.peers, (c.id = peer ∧ c.ts < first) ∧ c.ts = ts := by
    intro ts
    simp [and_assoc]
  unfold Tables.anchor
  dsimp only
  split
  · rename_i ts hmax
    obtain ⟨hm, hle⟩ := List.max?_eq_some_iff.mp hmax
    obtain ⟨s, hs, ⟨hid, hlt⟩, rfl⟩ := (hmem ts).mp hm
    refine Or.inl ⟨s, hs, hid, hlt, rfl, fun c hc hcid hclt => ?_⟩
    exact hle c.ts ((hmem c.ts).mpr ⟨c, hc, ⟨hcid, hclt⟩, rfl⟩)
  · rename_i hnone
    refine Or.inr ⟨rfl, fun c hc hcid => ?_⟩
    by_contra hlt
    have hin := (hmem c.ts).mpr ⟨c, hc, ⟨hcid, not_le.mp hlt⟩, rfl⟩
    rw [List.max?_eq_none_iff.mp hnone] at hin
    cases hin

theorem anchor_le (t : Tables) (peer : String) (first : ℤ) : t.anchor peer first ≤ first := by
  rcases anchor_cases t peer first with ⟨s, -, -, hlt, ha, -⟩ | ⟨ha, -⟩
  · omega
  · exact ha.le

theorem le_anchor {s : Snapshot} {first : ℤ} (hs : s ∈ t.peers) (hlt : s.ts < first) :
    s.ts ≤ t.anchor s.id first := by
  rcases anchor_cases t s.id first with ⟨b, -, -, -, ha, hmax⟩ | ⟨-, hnone⟩
  · rw [ha]
    exact hmax s hs rfl hlt
  · have := hnone s hs rfl
    omega

theorem anchor_le_previous (h : DistinctKeys Snapshot.toRow t.peers) {s b : Snapshot} {first : ℤ}
    (hs : first ≤ s.ts) (hb : previous? t.peers s = some b) : t.anchor s.id first ≤ b.ts := by
  obtain ⟨⟨hbm, hid, -⟩, hmax⟩ := (previous?_eq_some_iff h).mp hb
  rcases anchor_cases t s.id first with ⟨c, hc, hcid, hclt, ha, -⟩ | ⟨ha, hnone⟩
  · rw [ha]
    exact hmax c hc hcid (by omega)
  · rw [ha]
    exact hnone b hbm hid

end Anchor

theorem id_mem_peerIds {t : Tables} {r : Row} (h : r ∈ increments t.peers) : r.id ∈ t.peerIds := by
  obtain ⟨s, hs, hr⟩ := List.mem_filterMap.mp h
  obtain ⟨b, -, rfl⟩ := Option.map_eq_some_iff.mp hr
  exact mem_sortedKeys.mpr (List.mem_map_of_mem hs)

/-- The growth that a window query sees is that of the whole table, cut to the window. -/
theorem windowGrowths_perm {t : Tables} (h : DistinctKeys Snapshot.toRow t.peers)
    (identities : List String) (first last : ℤ) :
    (t.windowGrowths identities first last).Perm ((increments t.peers).filter fun r =>
      inWindow first last r.ts && selected identities r.id) := by
  have hids : (t.peerIds.filter (selected identities)).Nodup := (sortedKeys_nodup _).filter _
  have hparts := growths_parts_perm h hids
    (fun peer ts => decide (ts ≤ last) && decide (t.anchor peer first ≤ ts))
    (fun ts => decide (first ≤ ts)) ?_
  · refine (List.Perm.of_eq ?_).trans (hparts.trans (List.Perm.of_eq ?_))
    · simp only [Tables.windowGrowths, Tables.anchored, Bool.and_assoc]
    · apply List.filter_congr
      intro r hr
      have ha := anchor_le t r.id first
      rw [Bool.eq_iff_iff]
      simp only [Bool.and_eq_true, decide_eq_true_eq, List.mem_filter, id_mem_peerIds hr,
        true_and, inWindow_iff]
      constructor
      · rintro ⟨⟨⟨hl, -⟩, hf⟩, hsel⟩
        exact ⟨⟨hf, hl⟩, hsel⟩
      · rintro ⟨⟨hf, hl⟩, hsel⟩
        exact ⟨⟨⟨hl, ha.trans hf⟩, hf⟩, hsel⟩
  · intro s _ hq hk b hb
    obtain ⟨⟨-, -, hlt⟩, -⟩ := (previous?_eq_some_iff h).mp hb
    simp only [Bool.and_eq_true, decide_eq_true_eq] at hq hk ⊢
    exact ⟨by omega, anchor_le_previous h hk hb⟩

theorem contributions_perm {t : Tables} (h : DistinctKeys Snapshot.toRow t.peers) (series : Series)
    (identities : List String) (first last : ℤ) :
    (t.contributions series identities first last).Perm
      (t.windowed series identities first last) := by
  cases series with
  | traffic =>
    apply List.Perm.of_eq
    simp only [Tables.contributions, Tables.windowed, Tables.movements, List.filter_append]
    rfl
  | peers =>
    simp only [Tables.contributions, Tables.windowed, Tables.movements, List.filter_append]
    exact (windowGrowths_perm h identities first last).append_right _

/-- Where no bucket's sum leaves the column range, an answer is the tally of its movements. -/
theorem bucketed_eq_tally {t : Tables} (h : t.Sound) {series : Series} {identities : List String}
    {first last interval : ℤ} (hn : identities.length ≤ maxIdentities) (hi : 1 ≤ interval)
    (fits : ∀ start, Tallied (t.bucket series identities first last interval start)) :
    t.bucketed series identities first last interval =
      .ok (tally (t.windowed series identities first last) fun r => bucketKey r.ts interval) := by
  have hp := contributions_perm h.peers series identities first last
  have hw : max interval 1 = interval := max_eq_left hi
  have hpoints : groupPoints ((t.contributions series identities first last).map
      (Row.share fun r => bucketKey r.ts interval)) = .ok (tally _ _) :=
    groupPoints_tallied fun start => (fits start).perm (hp.filter _).symm
  simp only [Tables.bucketed, hw, if_neg (not_lt.mpr hn), hpoints, raise]
  refine congrArg Except.ok (tally_congr ?_ ?_)
  · exact fun k => (hp.map _).mem_iff
  · exact fun k => moved_perm (hp.filter _)

theorem bucketed_within {t : Tables} (h : t.Sound) {series : Series} {identities : List String}
    {first last interval : ℤ} (hn : identities.length ≤ maxIdentities)
    (fits : ∀ start,
      Storable (moved (t.bucket series identities first last (max interval 1) start))) :
    t.bucketed series identities first last interval =
      .ok (tally (t.windowed series identities first last)
        fun r => bucketKey r.ts (max interval 1)) := by
  have hwidth : t.bucketed series identities first last interval =
      t.bucketed series identities first last (max interval 1) := by
    unfold Tables.bucketed
    rw [max_eq_left (le_max_right interval 1)]
  rw [hwidth]
  refine bucketed_eq_tally h hn (le_max_right interval 1) fun start => ?_
  exact h.tallied (fun r hr => (List.mem_filter.mp (List.mem_filter.mp hr).1).1) (fits start)

theorem bucketed_tooMany {t : Tables} {series : Series} {identities : List String}
    (hn : maxIdentities < identities.length) (first last interval : ℤ) :
    t.bucketed series identities first last interval =
      raise s!"preparing {series.name} bucket query" (.error .tooManyParameters) := by
  simp only [Tables.bucketed, if_pos hn]

section Gains

variable {peers : List Snapshot}

def gain (peers : List Snapshot) (s : Snapshot) : ℕ × ℕ :=
  match previous? peers s with
  | some before => s.bytes - before.bytes
  | none => 0

theorem movedAt_increments (hw : ∀ s ∈ peers, s.Whole) (test : String × ℤ → Bool) :
    movedAt test (increments peers) = ((peers.filter fun s => test s.key).map (gain peers)).sum := by
  rw [movedAt, increments_filter]
  have hsub : ∀ s ∈ peers.filter fun s => test s.key, s ∈ peers :=
    fun s hs => (List.mem_filter.mp hs).1
  generalize peers.filter (fun s => test s.key) = chosen at hsub
  induction chosen with
  | nil => rfl
  | cons s rest ih =>
    have hr := ih fun a ha => hsub a (List.mem_cons_of_mem s ha)
    have hs := hsub s List.mem_cons_self
    rw [List.map_cons, List.sum_cons, ← hr, gain]
    cases hp : previous? peers s with
    | none => simp [hp]
    | some b => simp [hp, (rise_whole (hw b (previous?_mem hp)) (hw s hs)).2]

end Gains

section Split

variable {t : Tables} {series : Series} {identities : List String} {first mid last interval : ℤ}

theorem bucket_left (h : mid ≤ last) (start : ℤ) :
    t.bucket series identities first mid interval start =
      (t.bucket series identities first last interval start).filter fun r => decide (r.ts ≤ mid) := by
  simp only [Tables.bucket, Tables.windowed, List.filter_filter]
  apply List.filter_congr
  intro r _
  rw [Bool.eq_iff_iff]
  simp only [inWindow, Bool.and_eq_true, decide_eq_true_eq]
  constructor
  · rintro ⟨hk, ⟨hf, hm⟩, hs⟩
    exact ⟨hm, hk, ⟨hf, hm.trans h⟩, hs⟩
  · rintro ⟨hm, hk, ⟨hf, -⟩, hs⟩
    exact ⟨hk, ⟨hf, hm⟩, hs⟩

theorem bucket_right (h : first ≤ mid) (start : ℤ) :
    t.bucket series identities (mid + 1) last interval start =
      (t.bucket series identities first last interval start).filter fun r => !decide (r.ts ≤ mid) := by
  simp only [Tables.bucket, Tables.windowed, List.filter_filter]
  apply List.filter_congr
  intro r _
  rw [Bool.eq_iff_iff]
  simp only [inWindow, Bool.and_eq_true, Bool.not_eq_true', decide_eq_true_eq,
    decide_eq_false_iff_not]
  constructor
  · rintro ⟨hk, ⟨hm, hl⟩, hs⟩
    exact ⟨by omega, hk, ⟨by omega, hl⟩, hs⟩
  · rintro ⟨hm, hk, ⟨-, hl⟩, hs⟩
    exact ⟨hk, ⟨by omega, hl⟩, hs⟩

theorem moved_bucket_peers (h : t.Sound) (start : ℤ) :
    moved (t.bucket .peers identities first last interval start) =
      ((t.peers.filter fun s => inWindow first last s.ts && selected identities s.id &&
          decide (bucketKey s.ts interval = start)).map (gain t.peers)).sum +
        moved (t.peerBuckets.filter fun r => inWindow first last r.ts && selected identities r.id &&
          decide (bucketKey r.ts interval = start)) := by
  have hg : moved ((increments t.peers).filter fun r => inWindow first last r.ts &&
        selected identities r.id && decide (bucketKey r.ts interval = start)) =
      ((t.peers.filter fun s => inWindow first last s.ts && selected identities s.id &&
        decide (bucketKey s.ts interval = start)).map (gain t.peers)).sum :=
    movedAt_increments h.counters fun k => inWindow first last k.2 && selected identities k.1 &&
      decide (bucketKey k.2 interval = start)
  rw [← hg, ← moved_append, ← List.filter_append]
  unfold Tables.bucket Tables.windowed Tables.movements
  rw [List.filter_filter]
  exact congrArg moved (List.filter_congr fun r _ => Bool.and_comm _ _)

/-- A window can be split anywhere, since every bucket holds its movements. Every raw snapshot in the
window counts what it gained on the snapshot before it, wherever that one lies. -/
theorem bucketed_split (h : t.Sound) (hi : 1 ≤ interval) (hfm : first ≤ mid) (hml : mid < last)
    (fits : ∀ start, Storable (moved (t.bucket series identities first last interval start))) :
    (identities.length ≤ maxIdentities → ∃ whole left right,
      t.bucketed series identities first last interval = .ok whole ∧
      t.bucketed series identities first mid interval = .ok left ∧
      t.bucketed series identities (mid + 1) last interval = .ok right ∧
      (∀ start, amountAt whole start = amountAt left start + amountAt right start) ∧
      (∀ start, amountAt whole start =
        moved (t.bucket series identities first last interval start)) ∧
      (series = .peers → ∀ start, amountAt whole start =
        ((t.peers.filter fun s => inWindow first last s.ts && selected identities s.id &&
            decide (bucketKey s.ts interval = start)).map (gain t.peers)).sum +
          moved (t.peerBuckets.filter fun r => inWindow first last r.ts &&
            selected identities r.id && decide (bucketKey r.ts interval = start)))) ∧
    (maxIdentities < identities.length → ∃ failure,
      t.bucketed series identities first last interval = .error failure ∧
      t.bucketed series identities first mid interval = .error failure ∧
      t.bucketed series identities (mid + 1) last interval = .error failure) := by
  have hwhole : ∀ start, Tallied (t.bucket series identities first last interval start) := by
    intro start
    have hsub : t.bucket series identities first last interval start ⊆ t.movements series :=
      fun r hr => (List.mem_filter.mp (List.mem_filter.mp hr).1).1
    exact h.tallied hsub (fits start)
  constructor
  · intro hn
    have hleft : ∀ start, Tallied (t.bucket series identities first mid interval start) := by
      intro start
      rw [bucket_left hml.le]
      exact (hwhole start).filter _
    have hright : ∀ start, Tallied (t.bucket series identities (mid + 1) last interval start) := by
      intro start
      rw [bucket_right hfm]
      exact (hwhole start).filter _
    refine ⟨_, _, _, bucketed_eq_tally h hn hi hwhole, bucketed_eq_tally h hn hi hleft,
      bucketed_eq_tally h hn hi hright, ?_, ?_, ?_⟩
    · intro start
      rw [amountAt_tally, amountAt_tally, amountAt_tally]
      have hsum := moved_filter_add (t.bucket series identities first last interval start)
        fun r => decide (r.ts ≤ mid)
      rw [← bucket_left hml.le, ← bucket_right hfm] at hsum
      exact hsum.symm
    · intro start
      exact amountAt_tally _ _ start
    · rintro rfl start
      rw [amountAt_tally]
      exact moved_bucket_peers h start
  · intro hn
    exact ⟨_, bucketed_tooMany hn _ _ _, bucketed_tooMany hn _ _ _, bucketed_tooMany hn _ _ _⟩

end Split

def resetTables : Tables where
  traffic := []
  peers :=
    [⟨⟨"p", 230, .int 100, .int 10⟩, "a"⟩, ⟨⟨"p", 40, .int 1000, .int 500⟩, "a"⟩,
      ⟨⟨"q", 120, .int 40, .int 40⟩, "b"⟩, ⟨⟨"p", 110, .int 1300, .int 600⟩, "a"⟩,
      ⟨⟨"p", 290, .int 150, .int 30⟩, "a"⟩]
  trafficBuckets := []
  peerBuckets := [⟨"q", 100, .int 7, .int 0⟩]

theorem resetTables_sound : resetTables.Sound := by constructor <;> decide

theorem bucketed_split_at_reset :
    Storable (moved (resetTables.movements .peers)) ∧ ∃ whole left right,
      resetTables.bucketed .peers [] 100 299 60 = .ok whole ∧
      resetTables.bucketed .peers [] 100 150 60 = .ok left ∧
      resetTables.bucketed .peers [] 151 299 60 = .ok right ∧
      ∀ start, amountAt whole start = amountAt left start + amountAt right start := by
  have fits : Storable (moved (resetTables.movements .peers)) := by decide
  obtain ⟨hok, -⟩ := @bucketed_split resetTables .peers [] 100 150 299 60 resetTables_sound
    (by decide) (by decide) (by decide)
    fun _ => (fits.mono (moved_filter_le _ _)).mono (moved_filter_le _ _)
  obtain ⟨whole, left, right, hw, hl, hr, hsum, -⟩ := hok (by decide)
  exact ⟨fits, whole, left, right, hw, hl, hr, hsum⟩

end TrafficMeter.Store
