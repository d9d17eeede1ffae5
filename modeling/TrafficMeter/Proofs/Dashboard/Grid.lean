import TrafficMeter.Dashboard
import TrafficMeter.Proofs.Store.BucketStarts

/-!
The chart of a dashboard. Its slots cover the window and nothing more than the slots of its ends, so
every point that the store answers with lies in one of them, at its start. A running total is then
the sum of the points up to its slot, and the last one the sum of all.
-/

namespace TrafficMeter

open Store (Series Point Tables TopEntry)

namespace Dashboard

section Slots

theorem slotWidth_pos (span : ℤ) : 0 < slotWidth span := by
  unfold slotWidth
  split_ifs <;> decide

variable {first last width : ℤ}

theorem sub_start_tdiv (hw : 0 < width) (q : ℤ) {ts : ℤ} (h : q * width ≤ ts) :
    (ts - q * width).tdiv width = ts / width - q := by
  rw [Int.tdiv_eq_ediv_of_nonneg (by omega), Int.sub_mul_ediv_right _ _ hw.ne']

theorem slots?_eq (h : 0 ≤ first) (hle : first ≤ last) (hm : last ≤ maxTime) (hw : 0 < width) :
    slots? first last width =
      if last / width - first / width + 1 ≤ maxSlots then
        some (last / width - first / width + 1).toNat
      else none := by
  obtain ⟨hstart, -⟩ := start_bounds hw first
  have hnonneg := start_nonneg h hw
  have hmono : first / width ≤ last / width := Int.ediv_le_ediv hw hle
  unfold slots?
  dsimp only
  rw [bucketStart_eq h (hle.trans hm) hw, sub_start_tdiv hw _ (by omega)]
  by_cases hcount : last / width - first / width + 1 ≤ maxSlots
  · rw [if_pos hcount]
    exact if_pos ⟨by omega, by omega, hcount⟩
  · rw [if_neg hcount]
    exact if_neg fun hall => hcount hall.2.2

theorem slots?_some (h : 0 ≤ first) (hle : first ≤ last) (hm : last ≤ maxTime) (hw : 0 < width)
    {slots : ℕ} (hslots : slots? first last width = some slots) :
    (slots : ℤ) = last / width - first / width + 1 ∧ slots ≤ maxSlots := by
  have hmono : first / width ≤ last / width := Int.ediv_le_ediv hw hle
  rw [slots?_eq h hle hm hw] at hslots
  split at hslots
  · cases hslots
    omega
  · cases hslots

theorem last_start {slots : ℕ} (hcount : (slots : ℤ) = last / width - first / width + 1)
    (hpos : slots ≠ 0) :
    first / width * width + ((slots - 1 : ℕ) : ℤ) * width = last / width * width := by
  rw [← add_mul]
  exact congrArg (· * width) (by omega)

/-- No rung of the widths has more than 4096 slots for a window of at most 4095 days. -/
theorem slotCount_le (hle : first ≤ last) (hspan : last - first ≤ 4095 * 86400) :
    last / slotWidth (last - first) - first / slotWidth (last - first) + 1 ≤ maxSlots := by
  unfold slotWidth maxSlots
  split_ifs <;> omega

theorem lt_slotCount (hspan : 4096 * 86400 ≤ last - first) :
    maxSlots < last / slotWidth (last - first) - first / slotWidth (last - first) + 1 := by
  unfold slotWidth maxSlots
  split_ifs <;> omega

end Slots

section Totals

def capped (amount : ℕ × ℕ) : Counters := ⟨min amount.1 maxCount, min amount.2 maxCount⟩

def carried (points : List Point) : ℕ × ℕ := (points.map fun p => (p.uplink, p.downlink)).sum

theorem carried_cons (p : Point) (points : List Point) :
    carried (p :: points) = (p.uplink, p.downlink) + carried points := rfl

theorem capped_add (a b : ℕ × ℕ) : (capped a).add (capped b) = capped (a + b) := by
  simp only [capped, Counters.add, addCounts, Prod.fst_add, Prod.snd_add, Counters.mk.injEq]
  omega

theorem capped_add_bytes (a : ℕ × ℕ) (p : Point) :
    (capped a).add (bytes p) = capped (a + (p.uplink, p.downlink)) := by
  simp only [capped, bytes, Counters.add, addCounts, Prod.fst_add, Prod.snd_add, Counters.mk.injEq]
  omega

theorem foldl_add_bytes (points : List Point) (a : ℕ × ℕ) :
    points.foldl (fun sum p => sum.add (bytes p)) (capped a) = capped (a + carried points) := by
  induction points generalizing a with
  | nil => rfl
  | cons p rest ih => rw [List.foldl_cons, capped_add_bytes, ih, carried_cons, add_assoc]

theorem capped_le {a b : ℕ × ℕ} (h : a ≤ b) :
    (capped a).uplink ≤ (capped b).uplink ∧ (capped a).downlink ≤ (capped b).downlink := by
  obtain ⟨hup, hdown⟩ := Prod.mk_le_mk.mp h
  exact ⟨min_le_min_right maxCount hup, min_le_min_right maxCount hdown⟩

variable (origin interval : ℤ) (points : List Point)

def before (slot : ℕ) : ℕ × ℕ :=
  carried (points.filter fun p =>
    0 ≤ slotOf origin interval p ∧ slotOf origin interval p < slot)

theorem slotTotal_eq (slot : ℕ) : slotTotal origin interval points slot =
    capped (carried (points.filter fun p => slotOf origin interval p = slot)) := by
  have h := foldl_add_bytes (points.filter fun p => slotOf origin interval p = slot) 0
  rw [zero_add] at h
  exact h

theorem before_succ (slot : ℕ) : before origin interval points (slot + 1) =
    before origin interval points slot +
      carried (points.filter fun p => slotOf origin interval p = slot) := by
  unfold before
  induction points with
  | nil => rfl
  | cons p rest ih =>
    -- a point is in an earlier slot, in this one, or in neither sum
    simp only [List.filter_cons, decide_eq_true_eq]
    by_cases hearlier : 0 ≤ slotOf origin interval p ∧ slotOf origin interval p < slot
    · rw [if_pos hearlier, if_pos ⟨hearlier.1, by omega⟩, if_neg (by omega), carried_cons,
        carried_cons, ih, add_assoc]
    · by_cases hhere : slotOf origin interval p = slot
      · rw [if_neg hearlier, if_pos ⟨by omega, by omega⟩, if_pos hhere, carried_cons, carried_cons,
          ih, add_left_comm]
      · rw [if_neg hearlier, if_neg (by omega), if_neg hhere, ih]

end Totals

section Chart

variable (origin interval : ℤ) (found : Series → List Point)

theorem before_mono (points : List Point) : Monotone (before origin interval points) := by
  apply monotone_nat_of_le_succ
  intro slot
  rw [before_succ]
  exact le_self_add

theorem before_zero (points : List Point) : before origin interval points 0 = 0 := by
  have hnone : points.filter (fun p =>
      0 ≤ slotOf origin interval p ∧ slotOf origin interval p < (0 : ℕ)) = [] := by
    apply List.filter_eq_nil_iff.mpr
    intro p _
    simp only [decide_eq_true_eq]
    omega
  rw [before, hnone]
  rfl

def cumulated (slot : ℕ) : ChartPoint where
  ts := origin + slot * interval
  proxy := capped (before origin interval (found .traffic) (slot + 1))
  peers := capped (before origin interval (found .peers) (slot + 1))

/-- The totals that the loop carries are those of the slots that it has passed. -/
theorem runningFrom_eq (slot count : ℕ) :
    runningFrom origin interval (found .traffic) (found .peers) slot
      (capped (before origin interval (found .traffic) slot))
      (capped (before origin interval (found .peers) slot)) count =
    (List.range' slot count).map (cumulated origin interval found) := by
  induction count generalizing slot with
  | zero => rfl
  | succ count ih =>
    have hproxy := before_succ origin interval (found .traffic) slot
    have hpeers := before_succ origin interval (found .peers) slot
    rw [List.range'_succ, List.map_cons, ← ih]
    simp only [runningFrom, cumulated, slotTotal_eq, capped_add, hproxy, hpeers]

theorem chart_eq (first : ℤ) (slots : ℕ) :
    chart first interval slots (found .traffic) (found .peers) =
      (List.range slots).map (cumulated (bucketStart first interval) interval found) := by
  have h := runningFrom_eq (bucketStart first interval) interval found 0 slots
  rw [before_zero, before_zero, ← List.range_eq_range'] at h
  exact h

end Chart

section Placed

/-- The points are at the starts of slots of the window. -/
def Placed (first last width : ℤ) (points : List Point) : Prop :=
  ∀ p ∈ points, ∃ q, p.ts = q * width ∧ first / width ≤ q ∧ q ≤ last / width

variable {first last width : ℤ} {points : List Point}

theorem Placed.nil : Placed first last width [] := nofun

theorem placed_of_bucketed {t : Tables} {series : Series} (h : 0 ≤ first) (hw : 0 < width)
    (hanswer : t.bucketed series [] first last width = .ok points) :
    Placed first last width points := by
  intro p hp
  have hkey : p.ts ∈ points.map (·.ts) := List.mem_map_of_mem hp
  rw [Store.bucketed_keys hw hanswer, Store.mem_sortedKeys] at hkey
  obtain ⟨r, hr, hstart⟩ := List.mem_map.mp hkey
  obtain ⟨-, hfirst, hlast⟩ := Store.contributed hr
  refine ⟨r.ts / width, ?_, Int.ediv_le_ediv hw hfirst, Int.ediv_le_ediv hw hlast⟩
  -- keys are cut toward zero and slots downward, which is the same from second 0 on
  rw [← hstart, Store.bucketKey_eq (h.trans hfirst)]

theorem slotOf_eq {o q : ℤ} {p : Point} (hts : p.ts = q * width) (hw : 0 < width) (ho : 0 ≤ o)
    (hq : o ≤ q) (hm : p.ts ≤ maxTime) : slotOf (o * width) width p = q - o := by
  have hstart : 0 ≤ o * width := mul_nonneg ho hw.le
  have hle : o * width ≤ q * width := Int.mul_le_mul_of_nonneg_right hq hw.le
  have hlow : minTime ≤ 0 := by decide
  rw [slotOf, clampTime_of_mem (by omega) (by omega), hts,
    sub_start_tdiv hw o hle, Int.mul_ediv_cancel _ hw.ne']

theorem Placed.before_eq (hp : Placed first last width points) (h : 0 ≤ first)
    (hm : last ≤ maxTime) (hw : 0 < width) (slot : ℕ) :
    before (first / width * width) width points (slot + 1) =
      carried (points.filter fun p => p.ts ≤ first / width * width + slot * width) := by
  unfold before
  refine congrArg carried (List.filter_congr ?_)
  intro p hmem
  obtain ⟨q, hts, hfirst, hlast⟩ := hp p hmem
  have hend : q * width ≤ last := (Int.le_ediv_iff_mul_le hw).mp hlast
  have ho : 0 ≤ first / width := Int.ediv_nonneg h hw.le
  rw [slotOf_eq hts hw ho hfirst (by omega), hts, ← add_mul]
  have hscale : q * width ≤ (first / width + slot) * width ↔ q ≤ first / width + slot :=
    mul_le_mul_iff_left₀ hw
  rw [decide_eq_decide, hscale]
  omega

theorem Placed.filter_last (hp : Placed first last width points) (hw : 0 < width) {slot : ℕ}
    (hslot : (slot : ℤ) = last / width - first / width) :
    points.filter (fun p => p.ts ≤ first / width * width + slot * width) = points := by
  apply List.filter_eq_self.mpr
  intro p hmem
  obtain ⟨q, hts, -, hlast⟩ := hp p hmem
  rw [decide_eq_true_eq, hts, ← add_mul]
  exact Int.mul_le_mul_of_nonneg_right (by omega) hw.le

end Placed

end Dashboard

def perSource {α : Type} (proxy peers : α) : Series → α
  | .traffic => proxy
  | .peers => peers

def ChartPoint.totals (slot : ChartPoint) : Series → Counters := perSource slot.proxy slot.peers

namespace Dashboard

theorem cumulated_totals (origin interval : ℤ) (found : Series → List Point) (slot : ℕ)
    (source : Series) : (cumulated origin interval found slot).totals source =
      capped (before origin interval (found source) (slot + 1)) := by
  cases source with
  | traffic => rfl
  | peers => rfl

def total (d : Dashboard) : Series → Counters := perSource d.proxyTotal d.peersTotal

def top (d : Dashboard) : Series → List Consumer := perSource d.topUsers d.topPeers

/-- The slots lie on a grid, from the bucket of the window's start to that of its end. -/
structure Covers (d : Dashboard) (first last : ℤ) : Prop where
  width : d.interval = slotWidth (last - first)
  nonempty : 1 ≤ d.series.length
  bounded : d.series.length ≤ maxSlots
  starts : ∀ i, ∀ h : i < d.series.length,
    d.series[i].ts = first / d.interval * d.interval + i * d.interval
  opens : ∀ slot, d.series.head? = some slot → slot.ts ≤ first ∧ first < slot.ts + d.interval
  closes : ∀ slot, d.series.getLast? = some slot → slot.ts ≤ last ∧ last < slot.ts + d.interval

/-- What is shown of a source are the running totals of points. -/
structure AddsUp (d : Dashboard) (source : Series) (points : List Point) : Prop where
  slots : ∀ slot ∈ d.series,
    slot.totals source = capped (carried (points.filter fun p => p.ts ≤ slot.ts))
  rising : d.series.Pairwise fun a b => (a.totals source).uplink ≤ (b.totals source).uplink ∧
    (a.totals source).downlink ≤ (b.totals source).downlink
  whole : d.total source = capped (carried points)

theorem AddsUp.zero {d : Dashboard} {source : Series} (h : d.AddsUp source []) :
    d.total source = ⟨0, 0⟩ ∧ ∀ slot ∈ d.series, slot.totals source = ⟨0, 0⟩ :=
  ⟨h.whole, h.slots⟩

end Dashboard

namespace DashboardView

open Dashboard

def shows (v : DashboardView) : Series → Bool := perSource v.proxy v.peers

def ranked (v : DashboardView) (t : Tables) (first last : ℤ) : Series → Outcome (List TopEntry) :=
  perSource (t.topTotals first last v.limit) (t.peerTopTotals first last v.limit)

def laidOut (v : DashboardView) (first last : ℤ) (slots : ℕ) (found : Series → List Point)
    (heaviest : Series → List TopEntry) : Dashboard :=
  let interval := slotWidth (last - first)
  let series := chart first interval slots (found .traffic) (found .peers)
  { first, last, interval, series
    proxyTotal := (series.getLast?.map (·.proxy)).getD default
    peersTotal := (series.getLast?.map (·.peers)).getD default
    topUsers := (heaviest .traffic).map fun e => consumer e.identity e
    topPeers := (heaviest .peers).map fun e => consumer (v.names.displayName e.identity) e }

structure Found (v : DashboardView) (t : Tables) (first last : ℤ) (source : Series)
    (points : List Point) (entries : List TopEntry) : Prop where
  shown : v.shows source = true →
    t.bucketed source [] first last (slotWidth (last - first)) = .ok points ∧
    v.ranked t first last source = .ok entries
  hidden : v.shows source = false → points = [] ∧ entries = []

variable {v : DashboardView} {t : Tables} {first last : ℤ}

section Building

theorem whenOn_ok_iff {α : Type} {on : Bool} {activity : String} {answer : Outcome (List α)}
    {l : List α} : whenOn on activity answer = .ok l ↔
      (on = true → answer = .ok l) ∧ (on = false → l = []) := by
  cases on with
  | false => simp [whenOn, eq_comm]
  | true => cases answer <;> simp [whenOn, Outcome.within]

theorem build_ok_iff {slots : ℕ} {d : Dashboard} (hle : first ≤ last)
    (hm : last - first ≤ maxTime)
    (hslots : slots? first last (slotWidth (last - first)) = some slots) :
    v.build first last t = .ok d ↔ ∃ found heaviest,
      (∀ source, v.Found t first last source (found source) (heaviest source)) ∧
      d = v.laidOut first last slots found heaviest := by
  rw [build, if_neg (not_lt.mpr hle), if_neg (not_lt.mpr hm)]
  dsimp only
  rw [hslots]
  simp only [Store.except_bind_ok, whenOn_ok_iff]
  constructor
  · rintro ⟨proxy, hproxy, users, husers, peers, hpeers, entries, hentries, hd⟩
    cases hd
    refine ⟨perSource proxy peers, perSource users entries, ?_, rfl⟩
    intro source
    cases source with
    | traffic => exact ⟨fun h => ⟨hproxy.1 h, husers.1 h⟩, fun h => ⟨hproxy.2 h, husers.2 h⟩⟩
    | peers => exact ⟨fun h => ⟨hpeers.1 h, hentries.1 h⟩, fun h => ⟨hpeers.2 h, hentries.2 h⟩⟩
  · rintro ⟨found, heaviest, hfound, rfl⟩
    obtain ⟨hproxy, hnoProxy⟩ := hfound .traffic
    obtain ⟨hpeers, hnoPeers⟩ := hfound .peers
    exact ⟨found .traffic, ⟨fun h => (hproxy h).1, fun h => (hnoProxy h).1⟩,
      heaviest .traffic, ⟨fun h => (hproxy h).2, fun h => (hnoProxy h).2⟩,
      found .peers, ⟨fun h => (hpeers h).1, fun h => (hnoPeers h).1⟩,
      heaviest .peers, ⟨fun h => (hpeers h).2, fun h => (hnoPeers h).2⟩, rfl⟩

theorem build_rejects (h : last < first ∨ maxTime < last - first ∨
    slots? first last (slotWidth (last - first)) = none) :
    ∃ fault, v.build first last t = Outcome.fail (.window fault) := by
  by_cases hreversed : last < first
  · rw [build, if_pos hreversed]
    exact ⟨_, rfl⟩
  · by_cases hlarge : maxTime < last - first
    · rw [build, if_neg hreversed, if_pos hlarge]
      exact ⟨_, rfl⟩
    · have hnone := (h.resolve_left hreversed).resolve_left hlarge
      rw [build, if_neg hreversed, if_neg hlarge]
      dsimp only
      rw [hnone]
      exact ⟨_, rfl⟩

theorem exists_found_iff (source : Series) :
    (∃ points entries, v.Found t first last source points entries) ↔
      (v.shows source = true →
        (∃ points, t.bucketed source [] first last (slotWidth (last - first)) = .ok points) ∧
        ∃ entries, v.ranked t first last source = .ok entries) := by
  constructor
  · rintro ⟨points, entries, hfound⟩ hon
    exact ⟨⟨points, (hfound.shown hon).1⟩, entries, (hfound.shown hon).2⟩
  · intro hanswered
    cases hon : v.shows source with
    | false => exact ⟨[], [], fun h => absurd (hon.symm.trans h) (by decide), fun _ => ⟨rfl, rfl⟩⟩
    | true =>
      obtain ⟨⟨points, hpoints⟩, entries, hentries⟩ := hanswered hon
      exact ⟨points, entries, fun _ => ⟨hpoints, hentries⟩,
        fun h => absurd (hon.symm.trans h) (by decide)⟩

end Building

section Layout

variable {slots : ℕ} {found : Series → List Point} {heaviest : Series → List TopEntry}

theorem laidOut_series (h : 0 ≤ first) (hm : first ≤ maxTime) :
    (v.laidOut first last slots found heaviest).series = (List.range slots).map
      (cumulated (first / slotWidth (last - first) * slotWidth (last - first))
        (slotWidth (last - first)) found) := by
  rw [← bucketStart_eq h hm (slotWidth_pos _)]
  exact chart_eq _ _ _ _

theorem laidOut_covers (h : 0 ≤ first) (hle : first ≤ last) (hm : last ≤ maxTime)
    (hslots : slots? first last (slotWidth (last - first)) = some slots) :
    (v.laidOut first last slots found heaviest).Covers first last := by
  have hw := slotWidth_pos (last - first)
  have hseries := @laidOut_series v first last slots found heaviest h (hle.trans hm)
  have hinterval : (v.laidOut first last slots found heaviest).interval =
      slotWidth (last - first) := rfl
  obtain ⟨hcount, hbound⟩ := slots?_some h hle hm hw hslots
  have hmono := Int.ediv_le_ediv hw hle
  have hpos : slots ≠ 0 := by omega
  refine ⟨rfl, ?_, ?_, ?_, ?_, ?_⟩
  · rw [hseries, List.length_map, List.length_range]
    omega
  · rw [hseries, List.length_map, List.length_range]
    exact hbound
  · intro i hi
    simp only [hseries, List.getElem_map, List.getElem_range, cumulated, hinterval]
  · intro slot hslot
    rw [hseries, List.head?_map, List.head?_range, if_neg hpos] at hslot
    cases hslot
    simp only [cumulated, hinterval, Nat.cast_zero, zero_mul, add_zero]
    exact start_bounds hw first
  · intro slot hslot
    rw [hseries, List.getLast?_map, List.getLast?_range, if_neg hpos] at hslot
    cases hslot
    simp only [cumulated, hinterval, last_start hcount hpos]
    exact start_bounds hw last

theorem laidOut_addsUp (h : 0 ≤ first) (hle : first ≤ last) (hm : last ≤ maxTime)
    (hslots : slots? first last (slotWidth (last - first)) = some slots) {source : Series}
    (hp : Placed first last (slotWidth (last - first)) (found source)) :
    (v.laidOut first last slots found heaviest).AddsUp source (found source) := by
  have hw := slotWidth_pos (last - first)
  have hseries := @laidOut_series v first last slots found heaviest h (hle.trans hm)
  obtain ⟨hcount, -⟩ := slots?_some h hle hm hw hslots
  have hmono := Int.ediv_le_ediv hw hle
  refine ⟨?_, ?_, ?_⟩
  · intro slot hslot
    rw [hseries] at hslot
    obtain ⟨i, -, rfl⟩ := List.mem_map.mp hslot
    rw [cumulated_totals, hp.before_eq h hm hw]
    rfl
  · rw [hseries, List.pairwise_map]
    refine List.pairwise_lt_range.imp ?_
    intro a b hab
    rw [cumulated_totals, cumulated_totals]
    exact capped_le (before_mono _ _ _ (by omega))
  · have htotal : (v.laidOut first last slots found heaviest).total source =
        ((v.laidOut first last slots found heaviest).series.getLast?.map
          fun slot => slot.totals source).getD default := by
      cases source <;> rfl
    rw [htotal, hseries, List.getLast?_map, List.getLast?_range, if_neg (by omega)]
    change (cumulated _ _ found (slots - 1)).totals source = _
    rw [cumulated_totals, hp.before_eq h hm hw, hp.filter_last hw (by omega)]

end Layout

/-- A window that starts at or after second 0 is refused if it is reversed or too long for the widest
slots; one of at most 4095 days is shown as soon as the store answers about the sources that are on.
The slots of a dashboard cover its window. They show the running totals of all points of the bucketed
answer about a source, and nothing of a source that is off, whatever the store holds. -/
theorem chart_of_window (v : DashboardView) (t : Tables) {first last : ℤ} (h : 0 ≤ first)
    (hm : last ≤ maxTime) :
    ((last < first ∨ 4096 * 86400 ≤ last - first) →
      ∃ fault, v.build first last t = Outcome.fail (.window fault)) ∧
    (0 ≤ last - first → last - first ≤ 4095 * 86400 →
      ((∃ d, v.build first last t = .ok d) ↔ ∀ source, v.shows source = true →
        (∃ points, t.bucketed source [] first last (slotWidth (last - first)) = .ok points) ∧
        ∃ entries, v.ranked t first last source = .ok entries)) ∧
    ∀ d, v.build first last t = .ok d → d.Covers first last ∧ ∀ source,
      (v.shows source = true → ∃ points,
        t.bucketed source [] first last d.interval = .ok points ∧ d.AddsUp source points) ∧
      (v.shows source = false → d.top source = [] ∧ d.total source = ⟨0, 0⟩ ∧
        ∀ slot ∈ d.series, slot.totals source = ⟨0, 0⟩) := by
  have hw := slotWidth_pos (last - first)
  refine ⟨?_, ?_, ?_⟩
  · intro hwindow
    apply build_rejects
    by_cases hle : first ≤ last
    · have hmany := lt_slotCount (hwindow.resolve_left (not_lt.mpr hle))
      refine Or.inr (Or.inr ?_)
      rw [slots?_eq h hle hm hw, if_neg (not_le.mpr hmany)]
    · exact Or.inl (not_le.mp hle)
  · intro hspan hfew
    have hle : first ≤ last := by omega
    have hslots := slots?_eq h hle hm hw
    rw [if_pos (slotCount_le hle hfew)] at hslots
    simp only [build_ok_iff hle (by omega) hslots]
    constructor
    · rintro ⟨d, found, heaviest, hfound, -⟩ source
      exact (exists_found_iff source).mp ⟨_, _, hfound source⟩
    · intro hanswered
      choose found heaviest hfound using fun source => (exists_found_iff source).mpr (hanswered source)
      exact ⟨_, found, heaviest, hfound, rfl⟩
  · intro d hd
    have hle : first ≤ last := by
      by_contra hreversed
      obtain ⟨fault, hfail⟩ := @build_rejects v t first last (Or.inl (not_le.mp hreversed))
      rw [hfail] at hd
      cases hd
    cases hslots : slots? first last (slotWidth (last - first)) with
    | none =>
      obtain ⟨fault, hfail⟩ := @build_rejects v t first last (Or.inr (Or.inr hslots))
      rw [hfail] at hd
      cases hd
    | some slots =>
      obtain ⟨found, heaviest, hfound, rfl⟩ := (build_ok_iff hle (by omega) hslots).mp hd
      refine ⟨laidOut_covers h hle hm hslots, ?_⟩
      intro source
      constructor
      · intro hon
        obtain ⟨hpoints, -⟩ := (hfound source).shown hon
        exact ⟨found source, hpoints, laidOut_addsUp h hle hm hslots (placed_of_bucketed h hw hpoints)⟩
      · intro hoff
        obtain ⟨hpoints, hentries⟩ := (hfound source).hidden hoff
        have hsums := @laidOut_addsUp v first last slots found heaviest h hle hm hslots source
          (hpoints ▸ Placed.nil)
        rw [hpoints] at hsums
        refine ⟨?_, hsums.zero⟩
        cases source with
        | traffic => exact congrArg (List.map _) hentries
        | peers => exact congrArg (List.map _) hentries

def usersOnly : DashboardView := ⟨true, false, .empty, 1⟩

def busyTables : Tables where
  traffic := [⟨"a", 100, .int 10, .int 1⟩, ⟨"b", 130, .int 5, .int 2⟩, ⟨"a", 250, .int 7, .int 0⟩,
    ⟨"b", 251, .int 9, .int 9⟩]
  peers := [⟨⟨"p", 90, .int 1, .int 1⟩, "e"⟩, ⟨⟨"p", 200, .int 8, .int 8⟩, "e"⟩]
  trafficBuckets := []
  peerBuckets := []

def minutes : Dashboard where
  first := 100
  last := 250
  interval := 60
  series := [⟨60, ⟨10, 1⟩, ⟨0, 0⟩⟩, ⟨120, ⟨15, 3⟩, ⟨0, 0⟩⟩, ⟨180, ⟨15, 3⟩, ⟨0, 0⟩⟩,
    ⟨240, ⟨22, 3⟩, ⟨0, 0⟩⟩]
  proxyTotal := ⟨22, 3⟩
  peersTotal := ⟨0, 0⟩
  topUsers := [⟨"a", "a", 17, 1, 18⟩]
  topPeers := []

theorem chart_of_busy_minutes :
    usersOnly.build 100 250 busyTables = .ok minutes ∧ minutes.Covers 100 250 ∧
    minutes.AddsUp .traffic [⟨60, 10, 1⟩, ⟨120, 5, 2⟩, ⟨240, 7, 0⟩] ∧
    (∀ slot ∈ minutes.series, slot.totals .peers = ⟨0, 0⟩) ∧
    ∃ fault, usersOnly.build 0 (4096 * 86400) busyTables = Outcome.fail (.window fault) := by
  obtain ⟨-, -, hshown⟩ := @chart_of_window usersOnly busyTables 100 250 (by decide) (by decide)
  have hbuild : usersOnly.build 100 250 busyTables = .ok minutes := by cbv
  obtain ⟨hcovers, hsources⟩ := hshown minutes hbuild
  obtain ⟨points, hpoints, hsums⟩ := (hsources .traffic).1 rfl
  have hbuckets : busyTables.bucketed .traffic [] 100 250 60 =
      .ok [⟨60, 10, 1⟩, ⟨120, 5, 2⟩, ⟨240, 7, 0⟩] := by decide +kernel
  cases hpoints.symm.trans hbuckets
  refine ⟨hbuild, hcovers, hsums, ((hsources .peers).2 rfl).2.2, ?_⟩
  exact (@chart_of_window usersOnly busyTables 0 (4096 * 86400) (by decide) (by decide)).1
    (Or.inr (by decide))

end DashboardView

end TrafficMeter
