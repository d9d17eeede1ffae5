import Mathlib.Data.List.DropRight
import TrafficMeter.Proofs.Sampler.AttributionLedger

/-!
The points that a calculator keeps are a window on all that a run has brought: every reading after
the first brings one, whatever becomes of its bytes, and the newest of them stay.
-/

namespace TrafficMeter

open Store

section Neighbours

variable {α β : Type}

theorem zipWith_tail_concat (f : α → α → β) (l : List α) (a : α) :
    List.zipWith f (l ++ [a]) (l ++ [a]).tail =
      List.zipWith f l l.tail ++ (l.getLast?.map (f · a)).toList := by
  induction l with
  | nil => rfl
  | cons x rest ih =>
    cases rest with
    | nil => rfl
    | cons y more =>
      rw [List.getLast?_cons_cons]
      exact congrArg (f x y :: ·) ih

end Neighbours

namespace Calculator

def readings (history : List (Turn AggregatePoll)) : List (ℤ × Counters) :=
  history.reverse.filterMap fun turn => turn.given.reading?.map (turn.given.now, ·)

def difference (policy : ResetPolicy) (before reading : ℤ × Counters) : Point :=
  ⟨reading.1, policy.delta before.2.uplink reading.2.uplink,
    policy.delta before.2.downlink reading.2.downlink⟩

def differences (policy : ResetPolicy) (history : List (Turn AggregatePoll)) : List Point :=
  List.zipWith (difference policy) (readings history) (readings history).tail

section History

variable {next : Turn AggregatePoll} {earlier : List (Turn AggregatePoll)} {current : Counters}

theorem readings_cons_failed (h : next.given.reading? = none) :
    readings (next :: earlier) = readings earlier := by
  simp [readings, h]

theorem readings_cons_read (h : next.given.reading? = some current) :
    readings (next :: earlier) = readings earlier ++ [(next.given.now, current)] := by
  simp [readings, h]

theorem lastReading_eq (history : List (Turn AggregatePoll)) :
    lastReading history = (readings history).getLast?.map Prod.snd := by
  induction history with
  | nil => rfl
  | cons next earlier ih =>
    rw [lastReading, List.findSome?_cons]
    cases h : next.given.reading? with
    | none => rw [readings_cons_failed h, ← ih, lastReading]
    | some current => rw [readings_cons_read h, List.getLast?_concat, Option.map_some]

end History

/-- A full ring gives up its oldest point for the new one, so it stays the end of all points. -/
theorem pushPoint_rtake {capacity : ℕ} (h : 0 < capacity) (all : List Point) (p : Point) :
    pushPoint capacity (all.rtake capacity) p = (all ++ [p]).rtake capacity := by
  unfold pushPoint List.rtake
  rw [List.length_drop, List.length_append, List.length_singleton]
  split
  · rw [List.drop_drop, List.drop_append_of_le_length (by omega)]
    congr 2
    omega
  · have hroom : all.length - capacity = 0 := by omega
    have hstill : all.length + 1 - capacity = 0 := by omega
    rw [hroom, hstill, List.drop_zero, List.drop_zero]

theorem run_capacity (policy : ResetPolicy) (capacity : ℕ) (db : Database)
    (history : List (Turn AggregatePoll)) :
    (run policy capacity db history).memory.capacity = max capacity 1 := by
  induction history with
  | nil => rfl
  | cons next earlier ih =>
    rw [run_cons, (turn_follows _ _ _).memory_eq, remember?, ← ih]
    cases next.given.reading? with
    | none => rfl
    | some current =>
      rw [Option.map_some, Option.getD_some, advance]
      split <;> rfl

theorem run_points (policy : ResetPolicy) (capacity : ℕ) (db : Database)
    (history : List (Turn AggregatePoll)) :
    (run policy capacity db history).memory.points =
      (differences policy history).rtake (max capacity 1) := by
  induction history with
  | nil => exact (List.rtake_nil _).symm
  | cons next earlier ih =>
    obtain ⟨hpolicy, hprevious⟩ := run_memory policy capacity db earlier
    have hcapacity := run_capacity policy capacity db earlier
    rw [run_cons, (turn_follows _ _ _).memory_eq, remember?]
    cases h : next.given.reading? with
    | none =>
      rw [differences, readings_cons_failed h]
      exact ih
    | some current =>
      rw [differences, readings_cons_read h, zipWith_tail_concat, Option.map_some, Option.getD_some,
        advance, hprevious, lastReading_eq]
      cases hlast : (readings earlier).getLast? with
      | none =>
        rw [Option.map_none, Option.map_none, Option.toList_none, List.append_nil]
        exact ih
      | some before =>
        rw [Option.map_some, Option.map_some, Option.toList_some]
        dsimp only
        rw [ih, hpolicy, hcapacity, pushPoint_rtake (by omega)]
        rfl

/-- The points are the last ones of all differences, as many as the ring has room for; it has room
for one at least. Polls that failed bring none; differences of zero, those that nobody is active for
and those whose write fails bring theirs. -/
theorem recent_points_of_run (policy : ResetPolicy) (capacity : ℕ) (db : Database)
    (history : List (Turn AggregatePoll)) :
    (run policy capacity db history).memory.points =
      (differences policy history).rtake
        (min (max capacity 1) (differences policy history).length) := by
  rw [run_points, List.rtake, List.rtake]
  congr 1
  omega

def pointTurn (now : ℤ) (result : Outcome Counters) (refused : Bool) : Turn AggregatePoll :=
  ⟨⟨now, ⟨0⟩, ⟨result, []⟩, ["a", "b"], by decide⟩,
    if refused then [⟨.traffic, .insert, none⟩] else []⟩

def pointTurns : List (Turn AggregatePoll) :=
  [pointTurn 60 (.ok ⟨7, 90⟩) false, pointTurn 50 (.ok ⟨7, 90⟩) false,
    pointTurn 40 (Outcome.fail .timeout) false, pointTurn 30 (.ok ⟨150, 80⟩) true,
    pointTurn 20 (.ok ⟨110, 70⟩) false, pointTurn 10 (.ok ⟨100, 70⟩) false]

theorem recent_points_of_point_turns :
    (run .clampToZero 3 .blank pointTurns).memory.points = [⟨30, 40, 10⟩, ⟨50, 0, 10⟩, ⟨60, 0, 0⟩] :=
  (recent_points_of_run .clampToZero 3 .blank pointTurns).trans (by decide)

end Calculator

end TrafficMeter
