import Mathlib.Algebra.GroupWithZero.Nat
import Mathlib.Data.Int.Notation
import Mathlib.Data.List.Basic
import TrafficMeter.Sampler.Attribution

/-!
Even shares of a difference. Whatever the counters are, every active identity gets the same share of
each direction. What is dropped besides is exactly what the divisions leave over, as long as both
directions together are a counter value; past that the total has stopped and the count is short.
-/

namespace TrafficMeter.Split

section Parts

theorem shares_add_remainders (uplink downlink n : ℕ) :
    (uplink / n + downlink / n) * n + (uplink % n + downlink % n) = uplink + downlink := by
  have hup := Nat.div_add_mod uplink n
  have hdown := Nat.div_add_mod downlink n
  rw [Nat.add_mul, Nat.mul_comm (uplink / n), Nat.mul_comm (downlink / n)]
  omega

theorem shares_le (uplink downlink n : ℕ) : uplink / n + downlink / n ≤ uplink + downlink :=
  Nat.add_le_add (Nat.div_le_self uplink n) (Nat.div_le_self downlink n)

theorem dropped_eq (now : ℤ) (delta : Counters) {active : List String} (hne : active ≠ []) :
    (ofDelta now delta active).dropped =
      (addCounts delta.uplink delta.downlink + countValues -
        (delta.uplink / active.length + delta.downlink / active.length) * active.length %
          countValues) % countValues := by
  have hsome : ¬ active.isEmpty = true := by simpa using hne
  unfold ofDelta
  dsimp only
  rw [if_neg hsome]

theorem samples_eq (now : ℤ) (delta : Counters) {active : List String} (hne : active ≠ []) :
    (ofDelta now delta active).samples =
      if delta.uplink / active.length = 0 ∧ delta.downlink / active.length = 0 then []
      else active.map fun identity =>
        ⟨identity, now, delta.uplink / active.length, delta.downlink / active.length⟩ := by
  have hsome : ¬ active.isEmpty = true := by simpa using hne
  unfold ofDelta
  dsimp only
  rw [if_neg hsome]
  simp only [Bool.and_eq_true, decide_eq_true_eq]

end Parts

section Dropped

variable {delta : Counters} {active : List String}

/-- The count of what is dropped lacks what the total has lost, in the arithmetic of 64-bit words. -/
theorem dropped_add_lost (now : ℤ) (delta : Counters) (hne : active ≠ []) :
    ((ofDelta now delta active).dropped +
        (delta.uplink + delta.downlink - addCounts delta.uplink delta.downlink)) % countValues =
      (delta.uplink % active.length + delta.downlink % active.length) % countValues := by
  have hparts := shares_add_remainders delta.uplink delta.downlink active.length
  rw [dropped_eq now delta hne]
  unfold addCounts maxCount countValues
  omega

theorem dropped_eq_remainders_iff (now : ℤ) (hup : delta.uplink ≤ maxCount)
    (hdown : delta.downlink ≤ maxCount) (hne : active ≠ []) :
    (ofDelta now delta active).dropped =
        delta.uplink % active.length + delta.downlink % active.length ↔
      delta.uplink + delta.downlink ≤ maxCount := by
  have hparts := shares_add_remainders delta.uplink delta.downlink active.length
  rw [dropped_eq now delta hne]
  unfold addCounts maxCount countValues at *
  constructor
  · intro h
    by_contra hpast
    omega
  · intro hroom
    omega

theorem sum_samples (now : ℤ) (delta : Counters) (hne : active ≠ []) :
    ((ofDelta now delta active).samples.map fun x => x.uplink + x.downlink).sum =
      (delta.uplink / active.length + delta.downlink / active.length) * active.length := by
  rw [samples_eq now delta hne]
  split
  · rename_i hzero
    simp [hzero.1, hzero.2]
  · rw [List.map_map]
    change (active.map fun _ => delta.uplink / active.length + delta.downlink / active.length).sum = _
    rw [List.map_const', List.sum_replicate_nat, Nat.mul_comm]

end Dropped

/-- A difference is split without loss. Every active identity gets the share of each direction that
the division gives, in order, and none gets anything exactly where both shares are nothing. What is
dropped is what the divisions leave over exactly where the directions together are a counter value;
then samples and drops make up the difference and no step of the arithmetic leaves 64 bits. Past that
the count of what is dropped lacks what the total has lost. -/
theorem shares_and_remainders {delta : Counters} (hup : delta.uplink ≤ maxCount)
    (hdown : delta.downlink ≤ maxCount) {active : List String} (hne : active ≠ []) (now : ℤ) :
    let uplink := delta.uplink / active.length
    let downlink := delta.downlink / active.length
    let split := ofDelta now delta active
    (split.samples = [] ↔ uplink = 0 ∧ downlink = 0) ∧
    (split.samples ≠ [] → split.samples.map (·.identity) = active ∧
      ∀ x ∈ split.samples, x.ts = now ∧ x.uplink = uplink ∧ x.downlink = downlink) ∧
    (split.dropped = delta.uplink % active.length + delta.downlink % active.length ↔
      delta.uplink + delta.downlink ≤ maxCount) ∧
    (delta.uplink + delta.downlink ≤ maxCount →
      (split.samples.map fun x => x.uplink + x.downlink).sum + split.dropped =
        delta.uplink + delta.downlink ∧
      uplink + downlink ≤ maxCount ∧ (uplink + downlink) * active.length ≤ maxCount ∧
      (uplink + downlink) * active.length ≤ addCounts delta.uplink delta.downlink) ∧
    (split.dropped + (delta.uplink + delta.downlink - addCounts delta.uplink delta.downlink)) %
        countValues =
      (delta.uplink % active.length + delta.downlink % active.length) % countValues := by
  intro uplink downlink split
  have hsamples := samples_eq now delta hne
  have hdropped := dropped_eq_remainders_iff now hup hdown hne
  refine ⟨?_, ?_, hdropped, ?_, dropped_add_lost now delta hne⟩
  · change (ofDelta now delta active).samples = [] ↔ _
    rw [hsamples]
    by_cases hzero : uplink = 0 ∧ downlink = 0
    · rw [if_pos hzero]
      simp [hzero]
    · rw [if_neg hzero]
      simp [hzero, hne]
  · intro hsome
    have hshares : ¬ (uplink = 0 ∧ downlink = 0) := by
      intro hzero
      apply hsome
      exact hsamples.trans (if_pos hzero)
    have hall : split.samples = active.map fun identity => ⟨identity, now, uplink, downlink⟩ :=
      hsamples.trans (if_neg hshares)
    constructor
    · rw [hall, List.map_map]
      exact List.map_id active
    · intro x hx
      rw [hall] at hx
      obtain ⟨identity, -, rfl⟩ := List.mem_map.mp hx
      exact ⟨rfl, rfl, rfl⟩
  · intro hroom
    have hparts := shares_add_remainders delta.uplink delta.downlink active.length
    have hshares := shares_le delta.uplink delta.downlink active.length
    have htotal : addCounts delta.uplink delta.downlink = delta.uplink + delta.downlink :=
      Nat.min_eq_left hroom
    have hassigned : (uplink + downlink) * active.length ≤ delta.uplink + delta.downlink :=
      Nat.le_trans (Nat.le_add_right _ _) (Nat.le_of_eq hparts)
    refine ⟨?_, Nat.le_trans hshares hroom, Nat.le_trans hassigned hroom, ?_⟩
    · change ((ofDelta now delta active).samples.map _).sum + _ = _
      rw [sum_samples now delta hne, hdropped.mpr hroom]
      exact hparts
    · rw [htotal]
      exact hassigned

theorem shares_and_remainders_of_full_word :
    let delta : Counters := ⟨9223372036854775808, 9223372036854775807⟩
    let split := ofDelta 60 delta ["a", "b", "c"]
    delta.uplink ≤ maxCount ∧ delta.downlink ≤ maxCount ∧ delta.uplink + delta.downlink = maxCount ∧
    split.samples.map (·.identity) = ["a", "b", "c"] ∧ split.dropped = 3 ∧
    (split.samples.map fun x => x.uplink + x.downlink).sum + split.dropped = maxCount := by
  intro delta split
  obtain ⟨hnone, hsome, hdropped, hroom, -⟩ :=
    @shares_and_remainders delta (by decide) (by decide) ["a", "b", "c"] (by decide) 60
  have hsamples : split.samples ≠ [] := by
    intro h
    exact absurd (hnone.mp h) (by decide)
  refine ⟨by decide, by decide, by decide, (hsome hsamples).1, ?_, ?_⟩
  · exact (hdropped.mpr (by decide)).trans (by decide)
  · exact (hroom (by decide)).1.trans (by decide)

/-- Past one word the drops are not the remainders, even where no step leaves it: the total is told as
one byte less. -/
theorem remainders_short_past_word :
    let delta : Counters := ⟨18446744073709551615, 1⟩
    let active := ["a", "b"]
    delta.uplink ≤ maxCount ∧ delta.downlink ≤ maxCount ∧
    (delta.uplink / 2 + delta.downlink / 2) * 2 ≤ maxCount ∧
    delta.uplink % active.length + delta.downlink % active.length = 2 ∧
    (ofDelta 60 delta active).dropped = 1 := by
  decide

end TrafficMeter.Split
