import TrafficMeter.Proofs.Store.OrderedAnswers
import TrafficMeter.Proofs.Store.RankedUsers

/-!
The ranking of peers beside the chart. The ranking measures a peer from its smallest to its largest
counter, the chart from each snapshot to the next. The steps of counters that never fall add up to
the way from the first to the last, which are then the smallest and the largest.
-/

namespace TrafficMeter.Store

def span (counters : List ℕ) : ℕ := counters.max?.getD 0 - counters.min?.getD 0

theorem span_cons (n : ℕ) (rest : List ℕ) :
    span (n :: rest) = rest.foldl max n - rest.foldl min n := by
  simp only [span, List.max?_cons', List.min?_cons', Option.getD_some]

theorem foldl_min_of_le {n : ℕ} {l : List ℕ} (h : ∀ m ∈ l, n ≤ m) : l.foldl min n = n := by
  induction l with
  | nil => rfl
  | cons m rest ih =>
    rw [List.foldl_cons, min_eq_left (h m List.mem_cons_self)]
    exact ih fun k hk => h k (List.mem_cons_of_mem m hk)

theorem span_step {a b : ℕ} {rest : List ℕ} (hab : a ≤ b) (hb : ∀ n ∈ rest, b ≤ n) :
    span (a :: b :: rest) = (b - a) + span (b :: rest) := by
  have ha : ∀ n ∈ b :: rest, a ≤ n := by
    intro n hn
    rcases List.mem_cons.mp hn with rfl | hn
    · exact hab
    · exact hab.trans (hb n hn)
  have hmax : b ≤ rest.foldl max b := by
    rw [List.foldl_max]
    exact le_max_left _ _
  rw [span_cons, span_cons, foldl_min_of_le ha, foldl_min_of_le hb, List.foldl_cons,
    max_eq_right hab]
  omega

namespace Cell

theorem foldl_pick {pick : Cell → Cell → Cell} {op : ℕ → ℕ → ℕ}
    (hpick : ∀ a b : Cell, a.Whole → b.Whole →
      (pick a b).Whole ∧ (pick a b).bytes = op a.bytes b.bytes)
    {cells : List Cell} {c : Cell} (hc : c.Whole) (h : ∀ d ∈ cells, d.Whole) :
    (cells.foldl pick c).Whole ∧
      (cells.foldl pick c).bytes = (cells.map bytes).foldl op c.bytes := by
  induction cells generalizing c with
  | nil => exact ⟨hc, rfl⟩
  | cons d rest ih =>
    obtain ⟨hw, hb⟩ := hpick c d hc (h d List.mem_cons_self)
    rw [List.foldl_cons, List.map_cons, List.foldl_cons, ← hb]
    exact ih hw fun e he => h e (List.mem_cons_of_mem d he)

theorem spread_whole {cells : List Cell} (h : ∀ c ∈ cells, c.Whole) (hne : cells ≠ []) :
    Tables.spread cells = [.ofCount (span (cells.map bytes))] := by
  cases cells with
  | nil => exact absurd rfl hne
  | cons c rest =>
    have hc := h c List.mem_cons_self
    have hrest := fun d hd => h d (List.mem_cons_of_mem c hd)
    have hlarger : ∀ a b : Cell, a.Whole → b.Whole →
        (if a.value < b.value then b else a).Whole ∧
          (if a.value < b.value then b else a).bytes = max a.bytes b.bytes := by
      intro a b ha hb
      rw [ha.value_eq, hb.value_eq]
      split
      · exact ⟨hb, by omega⟩
      · exact ⟨ha, by omega⟩
    have hsmaller : ∀ a b : Cell, a.Whole → b.Whole →
        (if b.value < a.value then b else a).Whole ∧
          (if b.value < a.value then b else a).bytes = min a.bytes b.bytes := by
      intro a b ha hb
      rw [ha.value_eq, hb.value_eq]
      split
      · exact ⟨hb, by omega⟩
      · exact ⟨ha, by omega⟩
    obtain ⟨highWhole, high⟩ := foldl_pick hlarger hc hrest
    obtain ⟨lowWhole, low⟩ := foldl_pick hsmaller hc hrest
    have hle : (rest.map bytes).foldl min c.bytes ≤ (rest.map bytes).foldl max c.bytes := by
      rw [List.foldl_min, List.foldl_max]
      exact (min_le_left _ _).trans (le_max_left _ _)
    have hspan : ((span ((c :: rest).map bytes) : ℕ) : ℤ) ≤ maxTime := by
      have := highWhole.bytes_le
      rw [List.map_cons, span_cons, ← high]
      omega
    rw [Tables.spread, sub_whole lowWhole highWhole, ofCount_of_le hspan, List.map_cons, span_cons,
      high, low]
    simp only [List.cons.injEq, Cell.int.injEq, and_true]
    omega

end Cell

def spans (snapshots : List Snapshot) : ℕ × ℕ :=
  (span (snapshots.map (·.up.bytes)), span (snapshots.map (·.down.bytes)))

/-- The steps of counters that never fall add up to their span. -/
theorem moved_growths {history : List Snapshot} (hw : ∀ s ∈ history, s.Whole)
    (hrise : history.Pairwise fun a b => a.bytes ≤ b.bytes) :
    moved (growths history) = spans history := by
  induction history with
  | nil => rfl
  | cons a rest ih =>
    cases rest with
    | nil =>
      simp only [spans, List.map_cons, List.map_nil, span_cons, List.foldl_nil, Nat.sub_self]
      rfl
    | cons b rest =>
      obtain ⟨ha, hrest⟩ := List.pairwise_cons.mp hrise
      have hlater := ih (fun s hs => hw s (List.mem_cons_of_mem a hs)) hrest
      have hab := ha b List.mem_cons_self
      have hb := (List.pairwise_cons.mp hrest).1
      have hstep := (rise_whole (hw a List.mem_cons_self) (hw b (by simp))).2
      have hups : ∀ n ∈ rest.map (·.up.bytes), b.up.bytes ≤ n := by
        intro n hn
        obtain ⟨s, hs, rfl⟩ := List.mem_map.mp hn
        exact (hb s hs).1
      have hdowns : ∀ n ∈ rest.map (·.down.bytes), b.down.bytes ≤ n := by
        intro n hn
        obtain ⟨s, hs, rfl⟩ := List.mem_map.mp hn
        exact (hb s hs).2
      have hup := span_step hab.1 hups
      have hdown := span_step hab.2 hdowns
      change moved (rise a b :: growths (b :: rest)) = _
      rw [moved_cons, hstep, hlater]
      exact Prod.ext hup.symm hdown.symm

namespace Tables

variable {t : Tables} {first last : ℤ} {peer : String}

/-- A snapshot that counts for a window: one up to its end, and no older than any from before it. -/
def Compares (t : Tables) (peer : String) (first last : ℤ) (s : Snapshot) : Prop :=
  s ∈ t.peers ∧ s.id = peer ∧ s.ts ≤ last ∧ ∀ c ∈ t.peers, c.id = peer → c.ts < first → c.ts ≤ s.ts

theorem mem_anchored {s : Snapshot} :
    s ∈ t.anchored peer first last ↔ t.Compares peer first last s := by
  have hmem : s ∈ t.anchored peer first last ↔
      s ∈ t.peers ∧ s.id = peer ∧ s.ts ≤ last ∧ t.anchor peer first ≤ s.ts := by
    unfold anchored
    rw [(sortByTime_perm _ _).mem_iff, List.mem_filter]
    simp only [Bool.and_eq_true, beq_iff_eq, decide_eq_true_eq, and_assoc]
  rw [hmem]
  refine and_congr_right fun hs => and_congr_right fun hid => and_congr_right fun _ => ?_
  rcases anchor_cases t peer first with ⟨b, hb, hbid, hlt, ha, hmax⟩ | ⟨ha, hnone⟩
  · rw [ha]
    exact ⟨fun hle c hc hcid hclt => (hmax c hc hcid hclt).trans hle, fun h => h b hb hbid hlt⟩
  · rw [ha]
    refine iff_of_true (hnone s hs hid) fun c hc hcid hclt => ?_
    have := hnone c hc hcid
    omega

theorem Compares.mem_peerIds {s : Snapshot} (h : t.Compares peer first last s) :
    peer ∈ t.peerIds :=
  mem_sortedKeys.mpr (List.mem_map.mpr ⟨s, h.1, h.2.1⟩)

/-- From the last snapshot before the window to its end no counter of the peer is reset. -/
def NeverFalls (t : Tables) (peer : String) (first last : ℤ) : Prop :=
  ∀ a b, t.Compares peer first last a → t.Compares peer first last b →
    a.ts ≤ b.ts → a.bytes ≤ b.bytes

instance (t : Tables) (peer : String) (first last : ℤ) : Decidable (t.NeverFalls peer first last) :=
  decidable_of_iff (∀ a ∈ t.anchored peer first last, ∀ b ∈ t.anchored peer first last,
      a.ts ≤ b.ts → a.up.bytes ≤ b.up.bytes ∧ a.down.bytes ≤ b.down.bytes) <| by
    simp only [mem_anchored]
    exact ⟨fun h a b ha hb => h a ha b hb, fun h a ha b hb => h a b ha hb⟩

def rolledOf (t : Tables) (peer : String) (first last : ℤ) : List Row :=
  (t.peerBuckets.filter fun r => inWindow first last r.ts).filter (·.id == peer)

def counted (t : Tables) (peer : String) (first last : ℤ) : ℕ × ℕ :=
  spans (t.anchored peer first last) + moved (t.rolledOf peer first last)

def rankedPeers (t : Tables) (first last : ℤ) : List String :=
  sortedKeys ((t.peerIds.filter fun peer => !(t.anchored peer first last).isEmpty) ++
    (t.peerBuckets.filter fun r => inWindow first last r.ts).map (·.id))

theorem mem_rankedPeers : peer ∈ t.rankedPeers first last ↔
    (∃ s, t.Compares peer first last s) ∨
      ∃ r ∈ t.peerBuckets, r.id = peer ∧ first ≤ r.ts ∧ r.ts ≤ last := by
  have hraw : (peer ∈ t.peerIds ∧ t.anchored peer first last ≠ []) ↔
      ∃ s, t.Compares peer first last s := by
    simp only [ne_eq, List.eq_nil_iff_forall_not_mem, not_forall, not_not, mem_anchored]
    constructor
    · exact And.right
    · rintro ⟨s, hs⟩
      exact ⟨hs.mem_peerIds, s, hs⟩
  rw [rankedPeers, mem_sortedKeys, List.mem_append, List.mem_filter, Bool.not_eq_true',
    List.isEmpty_eq_false_iff, hraw]
  refine or_congr_right ?_
  simp only [List.mem_map, List.mem_filter, inWindow_iff]
  constructor
  · rintro ⟨r, ⟨hr, hw⟩, hid⟩
    exact ⟨r, hr, hid, hw⟩
  · rintro ⟨r, hr, hid, hw⟩
    exact ⟨r, ⟨hr, hw⟩, hid⟩

section Standings

variable (h : t.Sound)

include h

theorem anchored_whole {s : Snapshot} (hs : s ∈ t.anchored peer first last) : s.Whole :=
  h.counters s (mem_anchored.mp hs).1

theorem peerSpread_eq : t.peerSpread peer first last =
    (if t.anchored peer first last = [] then [] else [spans (t.anchored peer first last)]).map
      cells := by
  have hups : ∀ c ∈ (t.anchored peer first last).map (·.up), c.Whole := by
    intro c hc
    obtain ⟨s, hs, rfl⟩ := List.mem_map.mp hc
    exact (anchored_whole h hs).1
  have hdowns : ∀ c ∈ (t.anchored peer first last).map (·.down), c.Whole := by
    intro c hc
    obtain ⟨s, hs, rfl⟩ := List.mem_map.mp hc
    exact (anchored_whole h hs).2
  unfold peerSpread
  by_cases hnone : t.anchored peer first last = []
  · simp only [hnone]
    rfl
  · have hne : ∀ f : Snapshot → Cell, (t.anchored peer first last).map f ≠ [] :=
      fun f hf => hnone (List.map_eq_nil_iff.mp hf)
    simp only [if_neg hnone, Cell.spread_whole hups (hne _), Cell.spread_whole hdowns (hne _),
      List.map_map]
    rfl

theorem standing_counted (fits : Storable (t.counted peer first last)) :
    (do
      standing peer (t.peerSpread peer first last) (← sumOfSome (t.rolledOf peer first last))) =
        .ok (place peer (t.counted peer first last)) := by
  have hbuckets : Tallied (t.rolledOf peer first last) := by
    refine tallied_of_stored (fun r hr => ?_) (fits.mono le_add_self)
    exact h.peerAmounts r (List.mem_filter.mp (List.mem_filter.mp hr).1).1
  have hsum : ((if t.anchored peer first last = [] then [] else
      [spans (t.anchored peer first last)]) ++ summed (t.rolledOf peer first last)).sum =
        t.counted peer first last := by
    rw [List.sum_append, summed_sum, counted]
    by_cases hnone : t.anchored peer first last = []
    · rw [if_pos hnone, hnone]
      rfl
    · rw [if_neg hnone, List.sum_singleton]
  rw [peerSpread_eq h, sumOfSome_tallied hbuckets]
  change Tables.standing peer _ _ = _
  rw [standing_cells (hsum ▸ fits), hsum]

def peerStandings (t : Tables) (first last : ℤ) : List Standing :=
  (t.rankedPeers first last).map fun peer => place peer (t.counted peer first last)

def rankedCounts (t : Tables) (first last : ℤ) : List TopEntry :=
  ((t.peerStandings first last).mergeSort Standing.precedes).map Standing.entry

theorem peerTopTotals_eq
    (fits : ∀ peer ∈ t.rankedPeers first last, Storable (t.counted peer first last)) (limit : ℕ) :
    t.peerTopTotals first last limit = .ok ((t.rankedCounts first last).take limit) := by
  have hstandings : (t.rankedPeers first last).mapM (fun peer => do
      standing peer (t.peerSpread peer first last) (← sumOfSome (t.rolledOf peer first last))) =
        .ok (t.peerStandings first last) :=
    mapM_eq_ok fun peer hp => standing_counted h (fits peer hp)
  have hwhole : ∀ s ∈ t.peerStandings first last, s.up.Whole ∧ s.down.Whole := by
    intro s hs
    obtain ⟨peer, -, rfl⟩ := List.mem_map.mp hs
    exact ⟨Cell.ofCount_whole _, Cell.ofCount_whole _⟩
  have hranking := ranking_ok hwhole limit
  rw [← hstandings] at hranking
  rw [rankedCounts, ← List.map_take]
  exact congrArg (raise "reading ranking rows") hranking

end Standings

theorem mem_rankedCounts
    (fits : ∀ peer ∈ t.rankedPeers first last, Storable (t.counted peer first last)) {e : TopEntry} :
    e ∈ t.rankedCounts first last ↔
      e.identity ∈ t.rankedPeers first last ∧
        (e.uplink, e.downlink) = t.counted e.identity first last := by
  have hentry : ∀ peer ∈ t.rankedPeers first last,
      (place peer (t.counted peer first last)).entry =
        ⟨peer, (t.counted peer first last).1, (t.counted peer first last).2⟩ := by
    intro peer hp
    obtain ⟨hup, hdown⟩ := fits peer hp
    simp only [place, Standing.entry, Cell.bytes_ofCount_of_le hup, Cell.bytes_ofCount_of_le hdown]
  simp only [rankedCounts, peerStandings, List.mem_map, (List.mergeSort_perm _ _).mem_iff,
    exists_exists_and_eq_and]
  constructor
  · rintro ⟨peer, hp, rfl⟩
    rw [hentry peer hp]
    exact ⟨hp, rfl⟩
  · rintro ⟨hp, hcount⟩
    refine ⟨e.identity, hp, ?_⟩
    rw [hentry _ hp, ← hcount]

theorem rankedCounts_distinct : ((t.rankedCounts first last).map (·.identity)).Nodup := by
  have hperm := (List.mergeSort_perm (t.peerStandings first last) Standing.precedes).map (·.identity)
  have hids : ((t.peerStandings first last).map (·.identity)).Nodup := by
    rw [peerStandings, List.map_map]
    exact (sortedKeys_nodup _).map fun _ _ hid => hid
  rw [rankedCounts, List.map_map]
  exact hperm.nodup_iff.mpr hids

section Chart

theorem anchored_ascending (h : t.Sound) (peer : String) (first last : ℤ) :
    Ascending (t.anchored peer first last) := by
  unfold anchored
  simp only [Bool.and_assoc]
  exact segment_ascending h.peers peer fun ts =>
    decide (ts ≤ last) && decide (t.anchor peer first ≤ ts)

theorem le_of_later (h : t.Sound) {before after : Snapshot}
    (hsub : [before, after].Sublist (t.anchored peer first last)) : first ≤ after.ts := by
  have hpair : Ascending [before, after] := List.Pairwise.sublist hsub (anchored_ascending h _ _ _)
  have hlt := List.pairwise_pair.mp hpair
  obtain ⟨-, -, -, hnewest⟩ := mem_anchored.mp (hsub.subset (by simp : before ∈ [before, after]))
  obtain ⟨hin, hid, -, -⟩ := mem_anchored.mp (hsub.subset (by simp : after ∈ [before, after]))
  by_contra hearly
  have := hnewest after hin hid (not_le.mp hearly)
  omega

theorem anchored_of_unknown (h : peer ∉ t.peerIds) : t.anchored peer first last = [] := by
  rw [List.eq_nil_iff_forall_not_mem]
  intro s hs
  exact h (mem_anchored.mp hs).mem_peerIds

/-- What a window sees of one peer are the steps between the snapshots that it compares. -/
theorem windowGrowths_single (h : t.Sound) :
    t.windowGrowths [peer] first last = growths (t.anchored peer first last) := by
  have hids : t.peerIds.Nodup := sortedKeys_nodup _
  have hpeers : t.peerIds.filter (selected [peer]) = if peer ∈ t.peerIds then [peer] else [] := by
    rw [← filter_eq_of_nodup hids peer]
    exact List.filter_congr fun id _ => selected_single peer id
  have hunion : (t.peerIds.filter (selected [peer])).flatMap
      (fun id => growths (t.anchored id first last)) = growths (t.anchored peer first last) := by
    rw [hpeers]
    by_cases hknown : peer ∈ t.peerIds
    · simp [hknown]
    · rw [if_neg hknown, anchored_of_unknown hknown]
      rfl
  unfold windowGrowths
  dsimp only
  rw [hunion, List.filter_eq_self]
  intro r hr
  obtain ⟨before, after, hsub, rfl⟩ := mem_growths hr
  exact decide_eq_true (le_of_later h hsub)

theorem moved_windowed_single (h : t.Sound) (hrise : t.NeverFalls peer first last) :
    moved (t.windowed .peers [peer] first last) = t.counted peer first last := by
  have hpairs : (t.anchored peer first last).Pairwise fun a b => a.bytes ≤ b.bytes := by
    refine (sortByTime_pairwise Snapshot.toRow _).imp_of_mem ?_
    intro a b ha hb hab
    exact hrise a b (mem_anchored.mp ha) (mem_anchored.mp hb) hab
  have hbuckets : t.peerBuckets.filter (fun r => inWindow first last r.ts && selected [peer] r.id) =
      t.rolledOf peer first last := by
    rw [rolledOf, List.filter_filter]
    refine List.filter_congr fun r _ => ?_
    rw [selected_single]
    exact Bool.and_comm _ _
  rw [← moved_perm (contributions_perm h.peers .peers [peer] first last), counted,
    ← moved_growths (fun s hs => anchored_whole h hs) hpairs, ← windowGrowths_single h, ← hbuckets]
  exact moved_append _ _

end Chart

end Tables

/-- The ranking of peers tells what the chart tells of a peer that was not reset. Every peer has one
entry, if it has a snapshot that the window compares or a bucket in the window, and none otherwise.
Unless its counters fall between the last snapshot before the window and its end, the entry is what
the chart of the peer adds up to, in buckets of any size. -/
theorem peer_ranking_agrees_with_chart {t : Tables} (h : t.Sound) {first last : ℤ}
    (fits : ∀ peer ∈ t.rankedPeers first last, Storable (t.counted peer first last)) :
    ∃ all : List TopEntry,
      (∀ limit, t.peerTopTotals first last limit = .ok (all.take limit)) ∧
      (all.map (·.identity)).Nodup ∧
      ∀ peer,
        ((∃ e ∈ all, e.identity = peer) ↔ (∃ s, t.Compares peer first last s) ∨
          ∃ r ∈ t.peerBuckets, r.id = peer ∧ first ≤ r.ts ∧ r.ts ≤ last) ∧
        (t.NeverFalls peer first last → ∀ e ∈ all, e.identity = peer →
          ∀ interval, 1 ≤ interval → ∃ points,
            t.bucketed .peers [peer] first last interval = .ok points ∧
            told points = (e.uplink, e.downlink)) := by
  refine ⟨_, Tables.peerTopTotals_eq h fits, Tables.rankedCounts_distinct, fun peer => ?_⟩
  constructor
  · rw [← Tables.mem_rankedPeers]
    constructor
    · rintro ⟨e, he, rfl⟩
      exact ((Tables.mem_rankedCounts fits).mp he).1
    · intro hp
      exact ⟨⟨peer, (t.counted peer first last).1, (t.counted peer first last).2⟩,
        (Tables.mem_rankedCounts fits).mpr ⟨hp, rfl⟩, rfl⟩
  · rintro hrise e he rfl interval hi
    obtain ⟨hp, hcount⟩ := (Tables.mem_rankedCounts fits).mp he
    have hmoved := Tables.moved_windowed_single h hrise
    have htallied : Tallied (t.windowed .peers [e.identity] first last) :=
      h.tallied (List.filter_subset_self _) (hmoved ▸ fits _ hp)
    have hone : [e.identity].length ≤ maxIdentities := show 1 ≤ maxIdentities by decide
    refine ⟨_, bucketed_eq_tally h hone hi fun start => htallied.filter _, ?_⟩
    rw [told_tally, hmoved, hcount]

def grownTables : Tables where
  traffic := []
  peers :=
    [⟨⟨"p", 230, .int 1300, .int 700⟩, "a"⟩, ⟨⟨"p", 40, .int 1000, .int 500⟩, "a"⟩,
      ⟨⟨"q", 120, .int 40, .int 40⟩, "b"⟩, ⟨⟨"p", 110, .int 1300, .int 600⟩, "a"⟩,
      ⟨⟨"q", 180, .int 10, .int 50⟩, "b"⟩, ⟨⟨"s", 50, .int 5, .int 5⟩, "c"⟩,
      ⟨⟨"p", 400, .int 2, .int 2⟩, "a"⟩]
  trafficBuckets := []
  peerBuckets := [⟨"p", 100, .int 7, .int 0⟩, ⟨"r", 200, .int 3, .int 4⟩]

theorem grownTables_sound : grownTables.Sound := by constructor <;> decide

theorem peer_ranking_agrees_with_chart_around_reset :
    (∀ peer ∈ grownTables.rankedPeers 100 299, Storable (grownTables.counted peer 100 299)) ∧
    grownTables.NeverFalls "p" 100 299 ∧ ¬ grownTables.NeverFalls "q" 100 299 ∧
    grownTables.peerTopTotals 100 299 9 =
      .ok [⟨"p", 307, 200⟩, ⟨"q", 30, 10⟩, ⟨"r", 3, 4⟩, ⟨"s", 0, 0⟩] ∧
    ∃ (all : List TopEntry) (points : List Point),
      grownTables.peerTopTotals 100 299 9 = .ok (all.take 9) ∧
      (∃ e ∈ all, e.identity = "s") ∧
      ∃ e ∈ all, e.identity = "p" ∧
        grownTables.bucketed .peers ["p"] 100 299 60 = .ok points ∧
        told points = (e.uplink, e.downlink) := by
  have fits : ∀ peer ∈ grownTables.rankedPeers 100 299,
      Storable (grownTables.counted peer 100 299) := by decide +kernel
  have hrise : grownTables.NeverFalls "p" 100 299 := by decide +kernel
  obtain ⟨all, hlimit, -, hpeers⟩ := peer_ranking_agrees_with_chart grownTables_sound fits
  obtain ⟨e, he, hid⟩ := (hpeers "p").1.mpr (.inr ⟨_, List.mem_cons_self, rfl, by decide, by decide⟩)
  obtain ⟨points, hpoints, htold⟩ := (hpeers "p").2 hrise e he hid 60 (by decide)
  have hidle : grownTables.Compares "s" 100 299 ⟨⟨"s", 50, .int 5, .int 5⟩, "c"⟩ :=
    Tables.mem_anchored.mp (by decide +kernel)
  refine ⟨fits, hrise, by decide +kernel, ?_, all, points, hlimit 9, ?_, e, he, hid, hpoints, htold⟩
  · cbv
  · exact (hpeers "s").1.mpr (.inl ⟨_, hidle⟩)

end TrafficMeter.Store
