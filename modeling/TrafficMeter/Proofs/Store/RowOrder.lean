import TrafficMeter.Proofs.Store.LaterAnswers

/-!
The order of rows. Sums do not depend on it, and sorting by time leaves no choice among the rows of
one identity, as no two of them share a second. So tables with the same rows give the same answers.
-/

namespace TrafficMeter.Store

structure Tables.SameRows (t u : Tables) : Prop where
  traffic : t.traffic.Perm u.traffic
  peers : t.peers.Perm u.peers
  trafficBuckets : t.trafficBuckets.Perm u.trafficBuckets
  peerBuckets : t.peerBuckets.Perm u.peerBuckets

section Sums

theorem Cell.sum_perm {a b : List Cell} (h : a.Perm b) : Cell.sum a = Cell.sum b := by
  have htotal : ∀ cells : List Cell,
      cells.foldr (fun c total => c.value + total) 0 = (cells.map Cell.value).sum := by
    intro cells
    rw [List.sum_eq_foldr, List.foldr_map]
  unfold Cell.sum
  simp only [htotal, (h.map Cell.value).sum_eq, h.any_eq]

theorem groupSum_perm {κ : Type} [DecidableEq κ] {a b : List (Share κ)} (h : a.Perm b) (k : κ) :
    groupSum a k = groupSum b k := by
  have hgroup := h.filter fun s => decide (s.key = k)
  simp only [groupSum, Cell.sum_perm (hgroup.map _)]

theorem groupPoints_perm {a b : List (Share ℤ)} (h : a.Perm b) : groupPoints a = groupPoints b := by
  have hkeys : sortedKeys (a.map (·.key)) = sortedKeys (b.map (·.key)) :=
    sortedKeys_congr fun _ => (h.map _).mem_iff
  simp only [groupPoints, hkeys, groupSum_perm h]

theorem sumOfSome_perm {a b : List Row} (h : a.Perm b) : Tables.sumOfSome a = Tables.sumOfSome b := by
  simp only [Tables.sumOfSome, h.isEmpty_eq, Cell.sum_perm (h.map _)]

end Sums

/-- The rows of one identity can be put in the order of their seconds in one way only. -/
theorem sortByTime_eq_of_perm {α : Type} {row : α → Row} {table other : List α}
    (h : DistinctKeys row table) (hp : table.Perm other) (identity : String) (q : ℤ → Bool) :
    sortByTime row (table.filter fun a => (row a).id == identity && q (row a).ts) =
      sortByTime row (other.filter fun a => (row a).id == identity && q (row a).ts) := by
  have hother : DistinctKeys row other := (hp.map fun a => (row a).key).nodup_iff.mp h
  refine List.Perm.eq_of_pairwise ?_ (segment_strict h identity q)
    (segment_strict hother identity q) ?_
  · intro a b _ _ hab hba
    exact absurd hab hba.asymm
  · exact (sortByTime_perm row _).trans ((hp.filter _).trans (sortByTime_perm row _).symm)

namespace Tables.SameRows

variable {t u : Tables} (h : t.SameRows u)

include h

theorem peerIds : t.peerIds = u.peerIds :=
  sortedKeys_congr fun _ => (h.peers.map _).mem_iff

theorem anchor (peer : String) (first : ℤ) : t.anchor peer first = u.anchor peer first := by
  have hmem := fun s => h.peers.mem_iff (a := s)
  rcases anchor_cases t peer first with ⟨s, hs, hid, hlt, ha, hmax⟩ | ⟨ha, hnone⟩
  · rcases anchor_cases u peer first with ⟨b, hb, hbid, hblt, hab, hbmax⟩ | ⟨-, hnone⟩
    · have hle := hmax b ((hmem b).mpr hb) hbid hblt
      have hge := hbmax s ((hmem s).mp hs) hid hlt
      omega
    · have := hnone s ((hmem s).mp hs) hid
      omega
  · rcases anchor_cases u peer first with ⟨b, hb, hbid, hblt, -, -⟩ | ⟨hab, -⟩
    · have := hnone b ((hmem b).mpr hb) hbid
      omega
    · rw [ha, hab]

section Sound

variable (ht : t.Sound)

include ht

theorem anchored (peer : String) (first last : ℤ) :
    t.anchored peer first last = u.anchored peer first last := by
  unfold Tables.anchored
  simp only [h.anchor, Bool.and_assoc]
  exact sortByTime_eq_of_perm ht.peers h.peers peer fun ts =>
    decide (ts ≤ last) && decide (u.anchor peer first ≤ ts)

theorem contributions (series : Series) (identities : List String) (first last : ℤ) :
    (t.contributions series identities first last).Perm
      (u.contributions series identities first last) := by
  cases series with
  | traffic => exact (h.traffic.filter _).append (h.trafficBuckets.filter _)
  | peers =>
    have hgrowths : t.windowGrowths identities first last =
        u.windowGrowths identities first last := by
      simp only [Tables.windowGrowths, h.peerIds, h.anchored ht]
    exact (List.Perm.of_eq hgrowths).append (h.peerBuckets.filter _)

theorem answers (first : ℤ) : SameAnswers first t u where
  range identity last := by
    have hrows : sortByTime id
        (t.traffic.filter fun r => r.id == identity && inWindow first last r.ts) = _ :=
      sortByTime_eq_of_perm ht.traffic h.traffic identity (inWindow first last)
    unfold Tables.range
    rw [hrows]
    rfl
  peerRange peer last := by
    have hrows := sortByTime_eq_of_perm ht.peers h.peers peer (inWindow first last)
    unfold Tables.peerRange
    rw [hrows]
  globalSum last := by
    simp only [Tables.globalSum, groupPoints_perm ((h.traffic.filter _).map _)]
  activeIdentities threshold := by
    have hshares := (h.traffic.filter fun r => decide (first ≤ r.ts)).map (Row.share (·.id))
    have hkeys : sortedKeys _ = sortedKeys _ :=
      sortedKeys_congr fun _ => (hshares.map (·.key)).mem_iff
    simp only [Tables.activeIdentitiesSince, hkeys, groupSum_perm hshares]
  bucketed series identities last interval := by
    simp only [Tables.bucketed,
      groupPoints_perm ((h.contributions ht series identities first last).map _)]
  topTotals last limit := by
    have hraw := h.traffic.filter fun r => inWindow first last r.ts
    have hbuckets := h.trafficBuckets.filter fun r => inWindow first last r.ts
    have hids : sortedKeys _ = sortedKeys _ :=
      sortedKeys_congr fun _ => ((hraw.append hbuckets).map (·.id)).mem_iff
    simp only [Tables.topTotals, hids, sumOfSome_perm (hraw.filter _),
      sumOfSome_perm (hbuckets.filter _)]
  peerTopTotals last limit := by
    have hbuckets := h.peerBuckets.filter fun r => inWindow first last r.ts
    have hids : ∀ ids : List String, sortedKeys (ids ++ _) = sortedKeys (ids ++ _) := fun ids =>
      sortedKeys_congr fun _ => ((hbuckets.map (·.id)).append_left ids).mem_iff
    simp only [Tables.peerTopTotals, Tables.peerSpread, h.peerIds, h.anchored ht, hids,
      sumOfSome_perm (hbuckets.filter _)]

end Sound

end Tables.SameRows

end TrafficMeter.Store
