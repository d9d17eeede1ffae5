import TrafficMeter.Proofs.Store.Windows

/-!
Snapshots newer than a table. Appending them leaves what older snapshots gained as it was, and each of
them is measured from the newest one that its peer had before.
-/

namespace TrafficMeter.Store

theorem newcomers_eq_self {α : Type} {row : α → Row} {table added : List α}
    (h : DistinctKeys row (table ++ added)) : newcomers row table added = added := by
  induction added generalizing table with
  | nil => rfl
  | cons a rest ih =>
    have hfree : ¬ holds row table (row a).key = true := by
      rw [holds_iff]
      intro hm
      unfold DistinctKeys at h
      rw [List.map_append] at h
      exact List.disjoint_of_nodup_append h hm (List.mem_map_of_mem List.mem_cons_self)
    rw [newcomers, if_neg hfree, ih]
    rwa [List.append_assoc]

def newest? (peers : List Snapshot) (peer : String) : Option Snapshot :=
  (sortByTime Snapshot.toRow (peers.filter (·.id == peer))).getLast?

theorem newest?_eq_some_iff {peers : List Snapshot} (h : DistinctKeys Snapshot.toRow peers)
    {peer : String} {b : Snapshot} :
    newest? peers peer = some b ↔
      (b ∈ peers ∧ b.id = peer) ∧ ∀ c ∈ peers, c.id = peer → c.ts ≤ b.ts := by
  have ha : Ascending (sortByTime Snapshot.toRow (peers.filter (·.id == peer))) := by
    simpa using segment_ascending h peer fun _ => true
  rw [newest?, ha.getLast?_eq_some_iff]
  simp only [(sortByTime_perm _ _).mem_iff, List.mem_filter, beq_iff_eq, and_imp]

/-- What a snapshot counts beyond a reading, each way; nothing without one. -/
def gainOver (before : Option (ℕ × ℕ)) (s : Snapshot) : ℕ × ℕ := before.elim 0 (s.bytes - ·)

theorem gain_eq (peers : List Snapshot) (s : Snapshot) :
    gain peers s = gainOver ((previous? peers s).map fun b => b.bytes) s := by
  unfold gain gainOver
  cases previous? peers s <;> rfl

def gains (peers : List Snapshot) (test : String × ℤ → Bool) : ℕ × ℕ :=
  ((peers.filter fun s => test s.key).map (gain peers)).sum

structure Fresh (peers added : List Snapshot) (now : ℤ) : Prop where
  older : ∀ s ∈ peers, s.ts < now
  second : ∀ a ∈ added, a.ts = now
  distinct : (added.map (·.id)).Nodup

namespace Fresh

variable {peers added : List Snapshot} {now : ℤ}

theorem filter (f : Fresh peers added now) (p : Snapshot → Bool) :
    Fresh peers (added.filter p) now where
  older := f.older
  second := fun a ha => f.second a (List.mem_filter.mp ha).1
  distinct := f.distinct.sublist (List.filter_sublist.map _)

theorem distinctKeys (f : Fresh peers added now) (h : DistinctKeys Snapshot.toRow peers) :
    DistinctKeys Snapshot.toRow (peers ++ added) := by
  unfold DistinctKeys at *
  rw [List.map_append]
  refine h.append ?_ ?_
  · refine List.Nodup.of_map Prod.fst ?_
    rw [List.map_map]
    exact f.distinct
  · intro key hold hnew
    obtain ⟨s, hs, rfl⟩ := List.mem_map.mp hold
    obtain ⟨a, ha, hkey⟩ := List.mem_map.mp hnew
    have hts : a.ts = s.ts := congrArg Prod.snd hkey
    have := f.older s hs
    have := f.second a ha
    omega

theorem foldl_insertNew (f : Fresh peers added now) (h : DistinctKeys Snapshot.toRow peers) :
    added.foldl (insertNew Snapshot.toRow) peers = peers ++ added := by
  rw [Store.foldl_insertNew, newcomers_eq_self (f.distinctKeys h)]

theorem ts_le (f : Fresh peers added now) : ∀ s ∈ peers ++ added, s.ts ≤ now := by
  intro s hs
  rcases List.mem_append.mp hs with hs | hs
  · exact (f.older s hs).le
  · exact (f.second s hs).le

theorem newest?_new (f : Fresh peers added now) (h : DistinctKeys Snapshot.toRow peers)
    {a : Snapshot} (ha : a ∈ added) : newest? (peers ++ added) a.id = some a := by
  rw [newest?_eq_some_iff (f.distinctKeys h)]
  refine ⟨⟨List.mem_append_right peers ha, rfl⟩, ?_⟩
  intro c hc _
  rw [f.second a ha]
  exact f.ts_le c hc

theorem newest?_other {peer : String} (h : peer ∉ added.map (·.id)) :
    newest? (peers ++ added) peer = newest? peers peer := by
  have hnone : added.filter (·.id == peer) = [] := by
    rw [List.filter_eq_nil_iff]
    intro a ha hid
    exact h (List.mem_map.mpr ⟨a, ha, beq_iff_eq.mp hid⟩)
  rw [newest?, List.filter_append, hnone, List.append_nil, newest?]

theorem previous?_old (f : Fresh peers added now) {s : Snapshot} (hs : s ∈ peers) :
    previous? (peers ++ added) s = previous? peers s := by
  have hnone : added.filter (fun a => a.id == s.id && decide (a.ts < s.ts)) = [] := by
    rw [List.filter_eq_nil_iff]
    intro a ha hp
    simp only [Bool.and_eq_true, decide_eq_true_eq] at hp
    have := f.older s hs
    have := f.second a ha
    omega
  unfold previous? historyBefore
  rw [List.filter_append, hnone, List.append_nil]

theorem previous?_new (f : Fresh peers added now) {a : Snapshot} (ha : a ∈ added) :
    previous? (peers ++ added) a = newest? peers a.id := by
  have hnone : added.filter (fun b => b.id == a.id && decide (b.ts < a.ts)) = [] := by
    rw [List.filter_eq_nil_iff]
    intro b hb hp
    simp only [Bool.and_eq_true, decide_eq_true_eq, f.second b hb, f.second a ha] at hp
    omega
  have hold : peers.filter (fun b => b.id == a.id && decide (b.ts < a.ts)) =
      peers.filter (·.id == a.id) := by
    apply List.filter_congr
    intro b hb
    simp [f.second a ha, f.older b hb]
  unfold previous? historyBefore newest?
  rw [List.filter_append, hnone, List.append_nil, hold]

theorem gains_append (f : Fresh peers added now) (test : String × ℤ → Bool) :
    gains (peers ++ added) test = gains peers test + ((added.filter fun a => test a.key).map
      fun a => gainOver ((newest? peers a.id).map fun b => b.bytes) a).sum := by
  unfold gains
  rw [List.filter_append, List.map_append, List.sum_append]
  congr 2
  · apply List.map_congr_left
    intro s hs
    rw [gain_eq, gain_eq, f.previous?_old (List.mem_filter.mp hs).1]
  · apply List.map_congr_left
    intro a ha
    rw [gain_eq, f.previous?_new (List.mem_filter.mp ha).1]

end Fresh

/-- Stores of which every bucket holds the same give the same answers, as long as one of them is
within range. -/
theorem bucketed_agree {t u : Tables} (ht : t.Sound) (hu : u.Sound) {series : Series}
    {identities : List String} {first last interval : ℤ}
    (hmoved : ∀ start, moved (t.bucket series identities first last (max interval 1) start) =
      moved (u.bucket series identities first last (max interval 1) start))
    (fits : ∀ start,
      Storable (moved (u.bucket series identities first last (max interval 1) start))) :
    (identities.length ≤ maxIdentities → ∃ one other,
      t.bucketed series identities first last interval = .ok one ∧
      u.bucketed series identities first last interval = .ok other ∧
      ∀ start, amountAt one start = amountAt other start) ∧
    (maxIdentities < identities.length → ∃ failure,
      t.bucketed series identities first last interval = .error failure ∧
      u.bucketed series identities first last interval = .error failure) := by
  constructor
  · intro hn
    refine ⟨_, _, bucketed_within ht hn fun start => hmoved start ▸ fits start,
      bucketed_within hu hn fits, ?_⟩
    intro start
    rw [amountAt_tally, amountAt_tally]
    exact hmoved start
  · intro hn
    exact ⟨_, bucketed_tooMany hn _ _ _, bucketed_tooMany hn _ _ _⟩

end TrafficMeter.Store
