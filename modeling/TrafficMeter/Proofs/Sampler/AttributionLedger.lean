import TrafficMeter.Proofs.Sampler.Turns
import TrafficMeter.Sampler.Attribution
import TrafficMeter.Sampler.LogWatcher

/-!
The ledger of attributed traffic. A turn credits every active identity with an even share of what the
reading added to the last one that could be had. What such shares round off is dropped for good.
-/

namespace TrafficMeter

open Store

structure AggregatePoll where
  now : ℤ
  elapsed : Span
  poll : Polled Counters
  active : List String
  distinct : active.Nodup

def AggregatePoll.watched (now : ℤ) (elapsed : Span) (poll : Polled Counters) (w : LogWatcher)
    (window : ℤ) : AggregatePoll := ⟨now, elapsed, poll, w.activeAt now window, sortedKeys_nodup _⟩

def AggregatePoll.reading? (p : AggregatePoll) : Option Counters := p.poll.result.toOption

def lastReading (history : List (Turn AggregatePoll)) : Option Counters :=
  history.findSome? fun next => next.given.reading?

/-- What a turn credits an identity with, given the history before it. -/
def share (policy : ResetPolicy) (identity : String)
    (p : Turn AggregatePoll × List (Turn AggregatePoll)) : ℕ × ℕ :=
  match lastReading p.2, p.1.given.reading? with
  | some previous, some current =>
    if identity ∈ p.1.given.active then
      ((Counters.delta policy previous current).uplink / p.1.given.active.length,
        (Counters.delta policy previous current).downlink / p.1.given.active.length)
    else 0
  | _, _ => 0

theorem Split.mem_samples {now : ℤ} {delta : Counters} {active : List String} {x : Sample}
    (h : x ∈ (Split.ofDelta now delta active).samples) : x.identity ∈ active ∧ x.ts = now := by
  unfold Split.ofDelta at h
  dsimp only at h
  split at h
  · cases h
  · dsimp only at h
    split at h
    · cases h
    · obtain ⟨identity, hid, rfl⟩ := List.mem_map.mp h
      exact ⟨hid, rfl⟩

theorem Split.amount_samples {now : ℤ} {delta : Counters} {active : List String}
    (hd : active.Nodup) (identity : String) :
    (((Split.ofDelta now delta active).samples.filter (·.identity = identity)).map
      Sample.amount).sum =
      if identity ∈ active then (delta.uplink / active.length, delta.downlink / active.length)
      else 0 := by
  by_cases hin : identity ∈ active
  · have hsome : active.isEmpty = false := by
      cases active with
      | nil => cases hin
      | cons => rfl
    rw [if_pos hin]
    unfold Split.ofDelta
    dsimp only
    rw [if_neg (Bool.eq_false_iff.mp hsome)]
    dsimp only
    split
    · rename_i hzero
      simp only [Bool.and_eq_true, decide_eq_true_eq] at hzero
      rw [hzero.1, hzero.2]
      rfl
    · have hone : (active.filter fun other => decide (other = identity)) = [identity] := by
        rw [filter_eq_of_nodup hd, if_pos hin]
      rw [List.filter_map]
      change ((active.filter fun other => decide (other = identity)).map _ |>.map _).sum = _
      rw [hone]
      simp [Sample.amount]
  · have hnone : (Split.ofDelta now delta active).samples.filter (·.identity = identity) = [] := by
      rw [List.filter_eq_nil_iff]
      intro x hx he
      exact hin (of_decide_eq_true he ▸ (Split.mem_samples hx).1)
    rw [hnone, if_neg hin]
    rfl

namespace Calculator

def posts (c : Calculator) (p : AggregatePoll) : List Sample :=
  match p.reading?, c.previous with
  | some current, some previous =>
    if (Counters.delta c.policy previous current).isZero then []
    else (Split.ofDelta p.now (Counters.delta c.policy previous current) p.active).samples
  | _, _ => []

def remember? (c : Calculator) (p : AggregatePoll) : Option Calculator :=
  p.reading?.map fun current => (c.advance p.now current).2

def turn (c : Calculator) (p : AggregatePoll) (db : Database) : Ticked Calculator :=
  c.tick p.now p.elapsed p.poll p.active db

section Turn

variable {c : Calculator} {p : AggregatePoll} {db : Database}

theorem turn_follows (c : Calculator) (p : AggregatePoll) (db : Database) :
    Ticked.Follows c db (.merge (c.posts p)) (c.remember? p) (c.turn p db) := by
  unfold turn tick remember? posts AggregatePoll.reading?
  cases p.poll.result with
  | error failure => exact .failed _ _
  | ok current =>
    simp only [Outcome.within, Except.toOption, Option.map_some, advance]
    cases c.previous with
    | none => exact .quiet _ _ rfl rfl
    | some previous =>
      dsimp only
      by_cases hz : (Counters.delta c.policy previous current).isZero = true
      · rw [if_pos hz, if_pos hz]
        exact .quiet _ _ rfl rfl
      · rw [if_neg hz, if_neg hz]
        split
        · rename_i hempty
          rw [List.isEmpty_iff.mp hempty]
          exact .quiet _ _ rfl rfl
        · exact .writing _ _ "writing attributed samples"

theorem mem_posts {x : Sample} (h : x ∈ c.posts p) : x.identity ∈ p.active ∧ x.ts = p.now := by
  unfold posts at h
  split at h
  · split at h
    · cases h
    · exact Split.mem_samples h
  · cases h

theorem advance_memory (c : Calculator) (now : ℤ) (current : Counters) :
    (c.advance now current).2.policy = c.policy ∧
      (c.advance now current).2.previous = some current := by
  unfold advance
  split
  · exact ⟨rfl, rfl⟩
  · exact ⟨rfl, rfl⟩

end Turn

def run (policy : ResetPolicy) (capacity : ℕ) (db : Database) :
    List (Turn AggregatePoll) → Ticked Calculator :=
  Ticked.after turn (.unchanged (.ofPolicy policy capacity) db (.ok 0) [])

def succeeded (policy : ResetPolicy) (capacity : ℕ) (db : Database) :
    List (Turn AggregatePoll) → List (Turn AggregatePoll × List (Turn AggregatePoll)) :=
  Ticked.succeeded turn (.unchanged (.ofPolicy policy capacity) db (.ok 0) [])

theorem run_cons (policy : ResetPolicy) (capacity : ℕ) (db : Database) (next : Turn AggregatePoll)
    (history : List (Turn AggregatePoll)) :
    run policy capacity db (next :: history) = (run policy capacity db history).memory.turn
      next.given { (run policy capacity db history).database with guards := next.guards } := rfl

theorem run_memory (policy : ResetPolicy) (capacity : ℕ) (db : Database)
    (history : List (Turn AggregatePoll)) :
    (run policy capacity db history).memory.policy = policy ∧
      (run policy capacity db history).memory.previous = lastReading history := by
  induction history with
  | nil => exact ⟨rfl, rfl⟩
  | cons next earlier ih =>
    obtain ⟨hp, hm⟩ := ih
    rw [run_cons, (turn_follows _ _ _).memory_eq, remember?, lastReading, List.findSome?_cons]
    cases h : next.given.reading? with
    | none => exact ⟨hp, hm⟩
    | some current =>
      obtain ⟨hkept, hnew⟩ := advance_memory (run policy capacity db earlier).memory next.given.now
        current
      exact ⟨hkept.trans hp, hnew⟩

theorem posts_amount (policy : ResetPolicy) (capacity : ℕ) (db : Database) (identity : String)
    (p : Turn AggregatePoll × List (Turn AggregatePoll)) :
    ((((run policy capacity db p.2).memory.posts p.1.given).filter
      (·.identity = identity)).map Sample.amount).sum = share policy identity p := by
  obtain ⟨hp, hm⟩ := run_memory policy capacity db p.2
  unfold posts share
  rw [hp, hm]
  cases p.1.given.reading? with
  | none => cases lastReading p.2 <;> rfl
  | some current =>
    cases lastReading p.2 with
    | none => rfl
    | some previous =>
      dsimp only
      by_cases hz : (Counters.delta policy previous current).isZero = true
      · rw [if_pos hz]
        simp only [Counters.isZero, Bool.and_eq_true, beq_iff_eq] at hz
        rw [hz.1, hz.2]
        split
        · exact (Prod.ext (Nat.zero_div _) (Nat.zero_div _)).symm
        · rfl
      · rw [if_neg hz]
        exact Split.amount_samples p.1.given.distinct identity

/-- The ledger of attributed traffic. What is stored for an identity, second by second and in all, is
its shares at the turns that did not fail. The count of what is dropped may wrap around; what is
stored does not depend on it. -/
theorem shares_accounted (policy : ResetPolicy) (capacity : ℕ) {db : Database}
    (hempty : db.tables = .empty) (history : List (Turn AggregatePoll)) (identity : String)
    (fits : ∀ second, Storable (((succeeded policy capacity db history).filter
      fun p => p.1.given.now = second).map (share policy identity)).sum) :
    (∀ second, moved ((run policy capacity db history).database.tables.traffic.filter
        fun r => r.key = (identity, second)) =
      (((succeeded policy capacity db history).filter fun p => p.1.given.now = second).map
        (share policy identity)).sum) ∧
    moved ((run policy capacity db history).database.tables.traffic.filter (·.id = identity)) =
      ((succeeded policy capacity db history).map (share policy identity)).sum ∧
    (∀ r ∈ (run policy capacity db history).database.tables.traffic,
      r.id = identity → r.Whole) ∧
    (∀ r ∈ (run policy capacity db history).database.tables.traffic,
      ∃ p ∈ succeeded policy capacity db history,
        r.id ∈ p.1.given.active ∧ r.ts = p.1.given.now) ∧
    (run policy capacity db history).memory.previous = lastReading history ∧
    (∀ next : Turn AggregatePoll, next.given.reading? = none →
      (∃ failure, (run policy capacity db (next :: history)).result = .error failure) ∧
      (run policy capacity db (next :: history)).memory =
        (run policy capacity db history).memory ∧
      (run policy capacity db (next :: history)).database.tables =
        (run policy capacity db history).database.tables) ∧
    (∀ next failure, (run policy capacity db (next :: history)).result = .error failure →
      (run policy capacity db (next :: history)).database.tables =
        (run policy capacity db history).database.tables) ∧
    (∀ next : Turn AggregatePoll, next.given.reading?.isSome → next.guards = [] →
      (run policy capacity db (next :: history)).result.isOk) ∧
    ∀ other, (∀ next ∈ history, other ∈ next.given.active ↔ identity ∈ next.given.active) →
      moved ((run policy capacity db history).database.tables.traffic.filter (·.id = other)) =
        moved ((run policy capacity db history).database.tables.traffic.filter
          (·.id = identity)) := by
  have hts : ∀ (c : Calculator) (p : AggregatePoll), ∀ x ∈ c.posts p, x.ts = p.now :=
    fun c p x hx => (mem_posts hx).2
  obtain ⟨hsecond, htotal, hwhole⟩ := Ticked.stored_eq_credited turn_follows hempty hts
    (posts_amount policy capacity db identity) history fits
  refine ⟨hsecond, htotal, hwhole, ?_, (run_memory policy capacity db history).2, ?_, ?_, ?_, ?_⟩
  · intro r hr
    obtain ⟨p, hp, x, hx, hkey⟩ := Ticked.exists_posted turn_follows hempty hr
    obtain ⟨hid, hnow⟩ := mem_posts hx
    obtain ⟨hrid, hrts⟩ := Prod.mk.inj hkey
    exact ⟨p, hp, hrid ▸ hid, hrts.trans hnow⟩
  · intro next hnone
    exact (turn_follows _ _ _).of_none (by rw [remember?, hnone, Option.map_none])
  · intro next failure hf
    exact (turn_follows _ _ _).tables_of_error hf
  · intro next hp hg
    exact (turn_follows _ _ _).isOk (by rwa [remember?, Option.isSome_map]) hg trivial
  · intro other hsame
    have hshare : ∀ p ∈ succeeded policy capacity db history,
        share policy other p = share policy identity p := by
      intro p hp
      have hin := (Ticked.mem_succeeded.mp hp).1.subset List.mem_cons_self
      unfold share
      simp only [hsame p.1 hin]
    have hparts : ∀ test : Turn AggregatePoll × List (Turn AggregatePoll) → Bool,
        ((succeeded policy capacity db history).filter test).map (share policy other) =
          ((succeeded policy capacity db history).filter test).map (share policy identity) :=
      fun test => List.map_congr_left fun p hp => hshare p (List.mem_filter.mp hp).1
    obtain ⟨-, hother, -⟩ := Ticked.stored_eq_credited turn_follows hempty hts
      (posts_amount policy capacity db other) history fun second => by
        have hfits := fits second
        rwa [← hparts] at hfits
    refine hother.trans (Eq.trans ?_ htotal.symm)
    exact congrArg List.sum (List.map_congr_left hshare)

def shareTurn (now : ℤ) (result : Outcome Counters) (seen : List (String × ℤ)) (refused : Bool) :
    Turn AggregatePoll :=
  ⟨.watched now ⟨0⟩ ⟨result, []⟩
    { LogWatcher.ofLog "access.log" "email: " (.ofSeconds 600) with seen := .ofList seen } 60,
    if refused then [⟨.traffic, .update, some "a"⟩, ⟨.traffic, .insert, some "a"⟩] else []⟩

/-- Two turns in one second with a reset between them, a failed poll, a refused write, and shares that
round to nothing; the newest turn first. -/
def sharedTurns : List (Turn AggregatePoll) :=
  [shareTurn 110 (.ok ⟨1311, 711⟩) [("a", 20), ("b", 100), ("d", 49)] false,
    shareTurn 50 (.ok ⟨1011, 611⟩) [("a", 20), ("d", 40)] false,
    shareTurn 30 (.ok ⟨1010, 610⟩) [("a", 20), ("d", 20)] true,
    shareTurn 25 (Outcome.fail .timeout) [("a", 20)] false,
    shareTurn 20 (.ok ⟨1000, 600⟩) [("d", 20), ("a", 20)] false,
    shareTurn 20 (.ok ⟨1100, 507⟩) [("d", 15), ("b", 15), ("a", 15)] false,
    shareTurn 10 (.ok ⟨1000, 500⟩) [("a", 5)] false]

theorem shares_accounted_over_shared_turns :
    Storable ((succeeded .clampToZero 4 .blank sharedTurns).map (share .clampToZero "a")).sum ∧
    moved ((run .clampToZero 4 .blank sharedTurns).database.tables.traffic.filter
      fun r => r.key = ("a", 20)) = (33, 48) ∧
    moved ((run .clampToZero 4 .blank sharedTurns).database.tables.traffic.filter
      (·.id = "a")) = (33, 48) ∧
    (run .clampToZero 4 .blank sharedTurns).memory.previous = some ⟨1311, 711⟩ := by
  have fits : Storable
      ((succeeded .clampToZero 4 .blank sharedTurns).map (share .clampToZero "a")).sum := by
    decide +kernel
  obtain ⟨hsecond, htotal, -, -, hlast, -⟩ := shares_accounted .clampToZero 4
    (show Database.blank.tables = .empty from rfl) sharedTurns "a" fun _ => fits.part _
  refine ⟨fits, ?_, ?_, hlast⟩
  · rw [hsecond 20]
    decide +kernel
  · rw [htotal]
    decide +kernel

end Calculator

end TrafficMeter
