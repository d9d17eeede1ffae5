import TrafficMeter.Proofs.Store.OrderedAnswers

/-!
Selections of identities. A selection filters what a window moved, and a peer is measured against its
own snapshots only, so an answer for several identities is made of the answers for each of them.
-/

namespace TrafficMeter.Store

theorem mem_tally_starts {rows : List Row} {key : Row → ℤ} {start : ℤ} :
    start ∈ (tally rows key).map (·.ts) ↔ ∃ r ∈ rows, key r = start := by
  rw [tally, List.map_map]
  change start ∈ (sortedKeys (rows.map key)).map (fun k => k) ↔ _
  rw [List.map_id', mem_sortedKeys, List.mem_map]

namespace Tables

variable {t : Tables} {series : Series} {identities other : List String} {first last interval : ℤ}

theorem contributions_congr
    (h : ∀ r ∈ t.stored series, selected identities r.id = selected other r.id) (first last : ℤ) :
    t.contributions series identities first last = t.contributions series other first last := by
  have hchosen : ∀ rows : List Row, rows ⊆ t.stored series →
      rows.filter (fun r => inWindow first last r.ts && selected identities r.id) =
        rows.filter (fun r => inWindow first last r.ts && selected other r.id) := by
    intro rows hsub
    apply List.filter_congr
    intro r hr
    rw [h r (hsub hr)]
  cases series with
  | traffic =>
    have hraw := hchosen t.traffic (List.subset_append_left _ _)
    have hbuckets := hchosen t.trafficBuckets (List.subset_append_right _ _)
    exact congrArg₂ (· ++ ·) hraw hbuckets
  | peers =>
    have hpeers : t.peerIds.filter (selected identities) = t.peerIds.filter (selected other) := by
      apply List.filter_congr
      intro peer hpeer
      obtain ⟨s, hs, rfl⟩ := List.mem_map.mp (mem_sortedKeys.mp hpeer)
      exact h s.toRow (List.mem_append_left _ (List.mem_map_of_mem hs))
    have hgrowths : t.windowGrowths identities first last = t.windowGrowths other first last := by
      simp only [windowGrowths, hpeers]
    have hbuckets := hchosen t.peerBuckets (List.subset_append_right _ _)
    exact congrArg₂ (· ++ ·) hgrowths hbuckets

theorem bucketed_congr (h : ∀ r ∈ t.stored series, selected identities r.id = selected other r.id)
    (hn : identities.length ≤ maxIdentities) (hm : other.length ≤ maxIdentities) :
    t.bucketed series identities first last interval =
      t.bucketed series other first last interval := by
  simp only [bucketed, if_neg (not_lt.mpr hn), if_neg (not_lt.mpr hm), contributions_congr h]

/-- A bucket of a selection holds what the buckets of its distinct members hold. -/
theorem moved_bucket_members (hne : identities ≠ []) (start : ℤ) :
    moved (t.bucket series identities first last interval start) =
      (identities.dedup.map fun id =>
        moved (t.bucket series [id] first last interval start)).sum := by
  have hbucket : ∀ ids : List String, t.bucket series ids first last interval start =
      (t.bucket series [] first last interval start).filter fun r => selected ids r.id := by
    intro ids
    unfold bucket
    rw [windowed_selected, List.filter_filter, List.filter_filter]
    exact List.filter_congr fun r _ => Bool.and_comm _ _
  have hgroups := sum_moved_groups (t.bucket series [] first last interval start) Row.id
    identities.nodup_dedup
  simp only [List.mem_dedup] at hgroups
  simp only [hbucket identities, selected_of_ne_nil hne, ← hgroups]
  refine congrArg List.sum (List.map_congr_left fun id _ => ?_)
  rw [hbucket [id]]
  simp only [selected_single]

theorem mem_windowed_members (hne : identities ≠ []) {r : Row} :
    r ∈ t.windowed series identities first last ↔
      ∃ id ∈ identities, r ∈ t.windowed series [id] first last := by
  have hmember : ∀ id, r ∈ t.windowed series [id] first last ↔
      r ∈ t.windowed series [] first last ∧ r.id = id := by
    intro id
    rw [windowed_selected, List.mem_filter, selected_single, decide_eq_true_eq]
  simp only [hmember]
  rw [windowed_selected, List.mem_filter, selected_of_ne_nil hne, decide_eq_true_eq]
  constructor
  · rintro ⟨hr, hid⟩
    exact ⟨r.id, hid, hr, rfl⟩
  · rintro ⟨_, hid, hr, rfl⟩
    exact ⟨hr, hid⟩

end Tables

/-- An answer for several identities has the buckets of the answers for each of them, and every bucket
holds what theirs hold together. Only which stored identities are selected matters, and to select none
is to select all of them. -/
theorem bucketed_additive {t : Tables} {series : Series} {identities : List String}
    (hne : identities ≠ []) (hn : identities.length ≤ maxIdentities) (first last interval : ℤ) :
    (t.Sound → (∀ start,
        Storable (moved (t.bucket series identities first last (max interval 1) start))) →
      ∃ (whole : List Point) (part : String → List Point),
        t.bucketed series identities first last interval = .ok whole ∧
        (∀ id ∈ identities, t.bucketed series [id] first last interval = .ok (part id)) ∧
        ∀ start,
          amountAt whole start = (identities.dedup.map fun id => amountAt (part id) start).sum ∧
          (start ∈ whole.map (·.ts) ↔ ∃ id ∈ identities, start ∈ (part id).map (·.ts))) ∧
    (∀ other, other ≠ [] → other.length ≤ maxIdentities →
      (∀ r ∈ t.stored series, r.id ∈ other ↔ r.id ∈ identities) →
      t.bucketed series other first last interval =
        t.bucketed series identities first last interval) ∧
    ((∀ r ∈ t.stored series, r.id ∈ identities) →
      t.bucketed series [] first last interval =
        t.bucketed series identities first last interval) := by
  refine ⟨fun h fits => ?_, fun other hother hm hsame => ?_, fun hall => ?_⟩
  · have hpart : ∀ id ∈ identities, t.bucketed series [id] first last interval =
        .ok (tally (t.windowed series [id] first last)
          fun r => bucketKey r.ts (max interval 1)) := by
      intro id hid
      refine bucketed_within h (show 1 ≤ maxIdentities by decide) fun start => (fits start).mono ?_
      rw [Tables.moved_bucket_members hne]
      exact List.le_sum_of_mem (List.mem_map_of_mem (List.mem_dedup.mpr hid))
    refine ⟨_, fun id => _, bucketed_within h hn fits, hpart, fun start => ⟨?_, ?_⟩⟩
    · simp only [amountAt_tally]
      exact Tables.moved_bucket_members hne start
    · simp only [mem_tally_starts, Tables.mem_windowed_members hne]
      constructor
      · rintro ⟨r, ⟨id, hid, hr⟩, hkey⟩
        exact ⟨id, hid, r, hr, hkey⟩
      · rintro ⟨id, hid, r, hr, hkey⟩
        exact ⟨r, ⟨id, hid, hr⟩, hkey⟩
  · apply Tables.bucketed_congr _ hm hn
    intro r hr
    rw [Tables.selected_of_ne_nil hother, Tables.selected_of_ne_nil hne]
    exact decide_eq_decide.mpr (hsame r hr)
  · apply Tables.bucketed_congr _ (Nat.zero_le _) hn
    intro r hr
    rw [Tables.selected_of_ne_nil hne, decide_eq_true (hall r hr)]
    rfl

theorem bucketed_additive_over_named_peers :
    Storable (moved (resetTables.movements .peers)) ∧
    (∃ (whole : List Point) (part : String → List Point),
      resetTables.bucketed .peers ["q", "x", "p", "q"] 100 299 60 = .ok whole ∧
      resetTables.bucketed .peers ["q"] 100 299 60 = .ok (part "q") ∧
      ∀ start, amountAt whole start = amountAt (part "x") start +
        (amountAt (part "p") start + amountAt (part "q") start)) ∧
    resetTables.bucketed .peers ["p", "q"] 100 299 60 =
      resetTables.bucketed .peers ["q", "x", "p", "q"] 100 299 60 ∧
    resetTables.bucketed .peers [] 100 299 60 =
      resetTables.bucketed .peers ["q", "x", "p", "q"] 100 299 60 := by
  have fits : Storable (moved (resetTables.movements .peers)) := by decide
  obtain ⟨hparts, hsame, hall⟩ := @bucketed_additive resetTables .peers ["q", "x", "p", "q"]
    (by decide) (by decide) 100 299 60
  obtain ⟨whole, part, hwhole, hpart, hsum⟩ := hparts resetTables_sound
    fun _ => (fits.mono (moved_filter_le _ _)).mono (moved_filter_le _ _)
  refine ⟨fits, ⟨whole, part, hwhole, hpart "q" (by decide), fun start => ?_⟩, ?_, hall (by decide)⟩
  · have hdistinct : ["q", "x", "p", "q"].dedup = ["x", "p", "q"] := by decide
    rw [(hsum start).1, hdistinct]
    simp
  · exact hsame ["p", "q"] (by decide) (by decide) (by decide)

end TrafficMeter.Store
