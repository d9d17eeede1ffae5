import TrafficMeter.Proofs.Store.Calls
import TrafficMeter.Proofs.Text.OctetOrder

/-!
Who is active. Uplink and downlink are summed apart and only then compared together, and their sum can
leave the column range. It is rounded then, but never below the range, so no threshold notices.
-/

namespace TrafficMeter.Store

/-- A sum past the range is past every threshold, whatever it is rounded to. -/
theorem Cell.ofCount_le_add_iff {up down : Cell} (hu : up.Whole) (hd : down.Whole) {threshold : ℕ}
    (h : (threshold : ℤ) ≤ maxTime) :
    (ofCount threshold).value ≤ (up.add down).value ↔ threshold ≤ up.bytes + down.bytes := by
  rw [ofCount_of_le h]
  rcases add_cases hu.value_eq hd.value_eq with ⟨-, he⟩ | ⟨hr | hr | hr, he⟩
  · rw [he, value, value, Int.ofNat_le]
  · rw [hu.not_real] at hr
    cases hr
  · rw [hd.not_real] at hr
    cases hr
  · unfold maxTime at h hr
    have hround : 2 ^ 63 ≤ roundMagnitude (roundMagnitude up.bytes + roundMagnitude down.bytes) :=
      le_round_add (by omega)
    rw [he, value, value]
    constructor
    · intro
      omega
    · intro
      omega

theorem filterAuxM_eq_ok {α ε : Type} {f : α → Except ε Bool} {g : α → Bool} {l : List α}
    (h : ∀ a ∈ l, f a = .ok (g a)) (passed : List α) :
    l.filterAuxM f passed = .ok ((l.filter g).reverse ++ passed) := by
  induction l generalizing passed with
  | nil => rfl
  | cons a rest ih =>
    have hrest := ih fun b hb => h b (List.mem_cons_of_mem a hb)
    rw [List.filterAuxM, h a List.mem_cons_self]
    change rest.filterAuxM f (cond (g a) (a :: passed) passed) = _
    rw [hrest]
    by_cases hg : g a = true
    · simp [hg]
    · simp [hg]

theorem filterM_eq_ok {α ε : Type} {f : α → Except ε Bool} {g : α → Bool} {l : List α}
    (h : ∀ a ∈ l, f a = .ok (g a)) : l.filterM f = .ok (l.filter g) := by
  rw [List.filterM, filterAuxM_eq_ok h]
  simp [bind, Except.bind, pure, Except.pure]

namespace Tables

variable {t : Tables} {since : ℤ} {identity : String}

def recent (t : Tables) (since : ℤ) : List Row := t.traffic.filter fun r => since ≤ r.ts

def movedSince (t : Tables) (since : ℤ) (identity : String) : ℕ × ℕ :=
  moved ((t.recent since).filter (·.id = identity))

theorem mem_recent_ids : identity ∈ (t.recent since).map (·.id) ↔
    ∃ r ∈ t.traffic, r.id = identity ∧ since ≤ r.ts := by
  simp only [recent, List.mem_map, List.mem_filter, decide_eq_true_eq]
  constructor
  · rintro ⟨r, ⟨hr, hts⟩, hid⟩
    exact ⟨r, hr, hid, hts⟩
  · rintro ⟨r, hr, hid, hts⟩
    exact ⟨r, ⟨hr, hts⟩, hid⟩

/-- Whether an identity is found active depends on what it moved alone. -/
theorem reaches_eq (h : t.Sound) (fits : Storable (t.movedSince since identity)) {threshold : ℕ}
    (hthreshold : (threshold : ℤ) ≤ maxTime) :
    (do
      let (up, down) ← groupSum ((t.recent since).map (Row.share (·.id))) identity
      return decide ((Cell.ofCount threshold).value ≤ (up.add down).value)) =
    .ok (decide (threshold ≤
      (t.movedSince since identity).1 + (t.movedSince since identity).2)) := by
  have htallied : Tallied ((t.recent since).filter (·.id = identity)) := by
    refine tallied_of_stored (fun r hr => ?_) fits
    exact h.samples r (List.mem_filter.mp (List.mem_filter.mp hr).1).1
  have hiff := Cell.ofCount_le_add_iff (Cell.ofCount_whole (t.movedSince since identity).1)
    (Cell.ofCount_whole (t.movedSince since identity).2) hthreshold
  rw [Cell.bytes_ofCount_of_le fits.1, Cell.bytes_ofCount_of_le fits.2] at hiff
  rw [groupSum_tallied htallied]
  exact congrArg Except.ok (decide_eq_decide.mpr hiff)

theorem activeIdentitiesSince_eq (h : t.Sound) {threshold : ℕ}
    (hthreshold : (threshold : ℤ) ≤ maxTime)
    (fits : ∀ r ∈ t.traffic, Storable (t.movedSince since r.id)) :
    t.activeIdentitiesSince since threshold =
      .ok ((sortedKeys ((t.recent since).map (·.id))).filter fun identity =>
        decide (threshold ≤ (t.movedSince since identity).1 + (t.movedSince since identity).2)) := by
  have hkeys : ((t.recent since).map (Row.share (·.id))).map (·.key) =
      (t.recent since).map (·.id) := by
    rw [List.map_map]
    rfl
  have hfits : ∀ identity ∈ sortedKeys ((t.recent since).map (·.id)),
      Storable (t.movedSince since identity) := by
    intro identity hid
    obtain ⟨r, hr, rfl, -⟩ := mem_recent_ids.mp (mem_sortedKeys.mp hid)
    exact fits r hr
  have hfilter := filterM_eq_ok fun identity hid => reaches_eq h (hfits identity hid) hthreshold
  rw [← hkeys] at hfilter ⊢
  exact congrArg (raise "reading active identities") hfilter

end Tables

/-- The active identities are exactly those with a sample from the given second on whose bytes both
ways reach the threshold together, as whole numbers without a bound. They come in the order of their
octets, each once. -/
theorem active_identities_exact {t : Tables} (h : t.Sound) {since : ℤ} {threshold : ℕ}
    (hthreshold : (threshold : ℤ) ≤ maxTime)
    (fits : ∀ r ∈ t.traffic, Storable (t.movedSince since r.id)) :
    ∃ active : List String,
      t.activeIdentitiesSince since threshold = .ok active ∧
      active.Pairwise (fun a b => Text.utf8 a < Text.utf8 b) ∧
      ∀ identity, identity ∈ active ↔
        (∃ r ∈ t.traffic, r.id = identity ∧ since ≤ r.ts) ∧
          threshold ≤ (t.movedSince since identity).1 + (t.movedSince since identity).2 := by
  refine ⟨_, Tables.activeIdentitiesSince_eq h hthreshold fits, ?_, ?_⟩
  · refine ((sortedKeys_pairwise _).filter _).imp ?_
    intro a b hab
    exact (Text.lt_iff_utf8_lt a b).mp hab
  · intro identity
    rw [List.mem_filter, mem_sortedKeys, Tables.mem_recent_ids, decide_eq_true_eq]

def busyTables : Tables where
  traffic :=
    [⟨"é", 100, .int 9223372036854775807, .int 9223372036854775807⟩,
      ⟨"z", 100, .int 9223372036854775000, .int 1⟩, ⟨"z", 101, .int 806, .int 0⟩,
      ⟨"a", 99, .int 1, .int 1⟩, ⟨"a", 100, .int 9223372036854775806, .int 0⟩,
      ⟨"b", 99, .int 9223372036854775807, .int 0⟩]
  peers := []
  trafficBuckets := []
  peerBuckets := []

theorem busyTables_sound : busyTables.Sound := by constructor <;> decide

theorem active_identities_exact_past_limit :
    (∀ r ∈ busyTables.traffic, Storable (busyTables.movedSince 100 r.id)) ∧
    busyTables.activeIdentitiesSince 100 9223372036854775807 = .ok ["z", "é"] ∧
    ∃ active : List String,
      busyTables.activeIdentitiesSince 100 9223372036854775807 = .ok active ∧
      active.Pairwise (fun a b => Text.utf8 a < Text.utf8 b) ∧ "é" ∈ active ∧ "a" ∉ active := by
  have fits : ∀ r ∈ busyTables.traffic, Storable (busyTables.movedSince 100 r.id) := by decide
  obtain ⟨active, hactive, hsorted, hexact⟩ := @active_identities_exact busyTables busyTables_sound
    100 9223372036854775807 (by decide) fits
  refine ⟨fits, by decide +kernel, active, hactive, hsorted, ?_, ?_⟩
  · exact (hexact "é").mpr ⟨⟨_, List.mem_cons_self, rfl, by decide⟩, by decide⟩
  · intro hin
    exact absurd ((hexact "a").mp hin).2 (by decide)

end TrafficMeter.Store
