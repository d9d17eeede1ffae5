import TrafficMeter.Sampler.Loop
import Mathlib.Data.Int.Notation
import Mathlib.Order.Basic

/-!
Occasions to tick. A loop that runs until it waits meets a series of occasions: first the scheduled
ones, while a moment is due, then one that was asked for, if any. Each is skipped while the loop is
paused, and none follows a tick that does not come to an end.
-/

namespace TrafficMeter

namespace Timer

variable {t next : Timer}

theorem take?_eq_none : t.take? = none ↔
    t.ended = true ∨ t.now < t.due ∧ t.requested = false := by
  unfold take?
  by_cases hended : t.ended = true
  · rw [if_pos hended]
    exact iff_of_true rfl (Or.inl hended)
  · rw [if_neg hended]
    by_cases hdue : t.due ≤ t.now
    · rw [if_pos hdue]
      refine iff_of_false nofun ?_
      rintro (h | ⟨h, -⟩)
      · exact hended h
      · omega
    · rw [if_neg hdue]
      cases hasked : t.requested with
      | true => exact iff_of_false nofun (by simp [hended])
      | false => exact iff_of_true rfl (Or.inr ⟨by omega, rfl⟩)

theorem take?_cases (h : t.take? = some next) : t.ended = false ∧
    (t.due ≤ t.now ∧ next = { t with due := t.nextDue } ∨
      t.now < t.due ∧ t.requested = true ∧ next = { t with requested := false }) := by
  unfold take? at h
  split at h
  · cases h
  · rename_i hended
    refine ⟨by simpa using hended, ?_⟩
    split at h
    · rename_i hdue
      exact Or.inl ⟨hdue, (Option.some.inj h).symm⟩
    · rename_i hdue
      split at h
      · rename_i hrequested
        exact Or.inr ⟨by omega, hrequested, (Option.some.inj h).symm⟩
      · cases h

theorem take?_now (h : t.take? = some next) : next.now = t.now := by
  rcases (take?_cases h).2 with ⟨-, rfl⟩ | ⟨-, -, rfl⟩ <;> rfl

theorem take?_paused (h : t.take? = some next) : next.paused = t.paused := by
  rcases (take?_cases h).2 with ⟨-, rfl⟩ | ⟨-, -, rfl⟩ <;> rfl

theorem take?_ended (h : t.take? = some next) : next.ended = false := by
  obtain ⟨hended, ⟨-, rfl⟩ | ⟨-, -, rfl⟩⟩ := take?_cases h <;> exact hended

end Timer

inductive Use
  | skipped
  | ticked (second : ℤ) (result : Outcome ℕ)
  | panicked
  deriving DecidableEq

structure Occasion where
  asked : Bool
  use : Use
  deriving DecidableEq

namespace Loop

variable {σ : Type} (job : Job σ)

def occasion? (l : Loop σ) : Option (Occasion × Loop σ) :=
  match l.timer.take? with
  | none => none
  | some timer =>
    let asked := decide (l.timer.now < l.timer.due)
    if timer.paused then some (⟨asked, .skipped⟩, { l with timer })
    else
      match job.tick l.second l.memory l.database with
      | none => some (⟨asked, .panicked⟩, { l with timer := { timer with ended := true } })
      | some t =>
        let recorded := t.recorded job.source l.second job.elapsed
        some (⟨asked, .ticked l.second t.result⟩, { l with
          timer
          memory := recorded.memory
          database := recorded.database
          metrics := l.metrics.map (·.recordAll recorded.events) })

/-- How an occasion is used: not at all while the loop is paused, else for a tick, and a tick that does
not come to an end ends the loop. -/
inductive Uses (l : Loop σ) (timer : Timer) : Use → Loop σ → Prop
  | skipped (paused : timer.paused = true) : Uses l timer .skipped { l with timer }
  | ticked (running : timer.paused = false) (t : Ticked σ)
    (tick : job.tick l.second l.memory l.database = some t) :
    Uses l timer (.ticked l.second t.result) { l with
      timer
      memory := t.memory
      database := (t.recorded job.source l.second job.elapsed).database
      metrics := l.metrics.map (·.recordAll (t.recorded job.source l.second job.elapsed).events) }
  | panicked (running : timer.paused = false)
    (tick : job.tick l.second l.memory l.database = none) :
    Uses l timer .panicked { l with timer := { timer with ended := true } }

variable {job} {l next : Loop σ} {o : Occasion}

theorem occasion?_eq_none : occasion? job l = none ↔ l.timer.take? = none := by
  unfold occasion?
  cases l.timer.take? with
  | none => exact iff_of_true rfl rfl
  | some timer =>
    refine iff_of_false ?_ nofun
    dsimp only
    split
    · exact nofun
    · split <;> exact nofun

theorem occasion?_cases (h : occasion? job l = some (o, next)) : ∃ timer,
    l.timer.take? = some timer ∧ o.asked = decide (l.timer.now < l.timer.due) ∧
      Uses job l timer o.use next := by
  unfold occasion? at h
  cases ht : l.timer.take? with
  | none =>
    rw [ht] at h
    cases h
  | some timer =>
    rw [ht] at h
    refine ⟨timer, rfl, ?_⟩
    dsimp only at h
    split at h
    · rename_i hpaused
      cases h
      exact ⟨rfl, .skipped hpaused⟩
    · rename_i hrunning
      rw [Bool.not_eq_true] at hrunning
      cases htick : job.tick l.second l.memory l.database with
      | none =>
        rw [htick] at h
        cases h
        exact ⟨rfl, .panicked hrunning htick⟩
      | some t =>
        rw [htick] at h
        cases h
        exact ⟨rfl, .ticked hrunning t htick⟩

section Uses

variable {timer : Timer} {use : Use}

theorem Uses.backlog (h : Uses job l timer use next) : next.timer.backlog = timer.backlog := by
  cases h <;> rfl

theorem Uses.skipped_iff (h : Uses job l timer use next) :
    use = .skipped ↔ timer.paused = true := by
  cases h with
  | skipped paused => exact iff_of_true rfl paused
  | ticked running => exact iff_of_false nofun (by rw [running]; exact Bool.false_ne_true)
  | panicked running => exact iff_of_false nofun (by rw [running]; exact Bool.false_ne_true)

theorem Uses.timer_cases (h : Uses job l timer use next) :
    use = .panicked ∧ next.timer = { timer with ended := true } ∨
      use ≠ .panicked ∧ next.timer = timer := by
  cases h with
  | skipped => exact Or.inr ⟨nofun, rfl⟩
  | ticked => exact Or.inr ⟨nofun, rfl⟩
  | panicked => exact Or.inl ⟨rfl, rfl⟩

end Uses

variable (job) in
/-- Follows a loop until it waits: the occasions that it meets, and the loop that is left. -/
def follow (l : Loop σ) : List Occasion × Loop σ :=
  match _h : occasion? job l with
  | none => ([], l)
  | some (o, next) => (o :: (follow next).1, (follow next).2)
termination_by l.timer.backlog
decreasing_by
  all_goals
    obtain ⟨timer, htake, -, huses⟩ := occasion?_cases _h
    rw [huses.backlog]
    exact Timer.backlog_take? htake

theorem follow_of_none (h : occasion? job l = none) : follow job l = ([], l) := by
  rw [follow]
  split
  · rfl
  · rename_i hsome
    rw [h] at hsome
    cases hsome

theorem follow_of_some (h : occasion? job l = some (o, next)) :
    follow job l = (o :: (follow job next).1, (follow job next).2) := by
  rw [follow]
  split
  · rename_i hnone
    rw [h] at hnone
    cases hnone
  · rename_i hsome
    rw [h] at hsome
    cases hsome
    rfl

/-- What holds of a loop that waits, and before an occasion if it holds after it, holds of every loop
that is followed. -/
theorem follow_induction {P : Loop σ → List Occasion → Loop σ → Prop}
    (waits : ∀ l, occasion? job l = none → P l [] l)
    (meets : ∀ l o next, occasion? job l = some (o, next) →
      P next (follow job next).1 (follow job next).2 →
      P l (o :: (follow job next).1) (follow job next).2) (l : Loop σ) :
    P l (follow job l).1 (follow job l).2 := by
  fun_induction follow job l with
  | case1 l h => exact waits l h
  | case2 l o next h ih => exact meets l o next h ih

theorem follow_of_ended (h : l.timer.ended = true) : follow job l = ([], l) :=
  follow_of_none (occasion?_eq_none.mpr (Timer.take?_eq_none.mpr (Or.inl h)))

/-- Following a loop is letting it run: the loop that is left is the same. The timer that runs is ahead
of the one in the loop, which shows the same moment and is not read otherwise. -/
theorem timer_settle_eq {timer : Timer} (hnow : l.timer.now = timer.now) :
    { (timer.settle (work job) l).2 with timer := (timer.settle (work job) l).1 } =
      (follow job { l with timer }).2 := by
  fun_induction Timer.settle (work job) timer l with
  | case1 timer l h =>
    rw [follow_of_none (occasion?_eq_none.mpr h)]
  | case2 timer l next h hpaused ih =>
    have hmeets : occasion? job { l with timer } = some
        (⟨decide (timer.now < timer.due), .skipped⟩, { l with timer := next }) := by
      simp only [occasion?, h, hpaused, if_true]
    rw [follow_of_some hmeets]
    exact ih (hnow.trans (Timer.take?_now h).symm)
  | case3 timer l next h hrunning after hwork ih =>
    -- a tick reads the clock of the loop, so both timers have to show the same moment
    have hsecond : ({ l with timer } : Loop σ).second = l.second := by
      simp only [second, hnow]
    obtain ⟨t, htick, hafter⟩ := Option.bind_eq_some_iff.mp hwork
    cases hafter
    have hmeets : occasion? job { l with timer } = some
        (⟨decide (timer.now < timer.due), .ticked l.second t.result⟩, { l with
          timer := next
          memory := t.memory
          database := (t.recorded job.source l.second job.elapsed).database
          metrics := l.metrics.map
            (·.recordAll (t.recorded job.source l.second job.elapsed).events) }) := by
      simp only [occasion?, h, hrunning, hsecond, htick]
      rfl
    rw [follow_of_some hmeets]
    exact ih (hnow.trans (Timer.take?_now h).symm)
  | case4 timer l next h hrunning hwork =>
    have hsecond : ({ l with timer } : Loop σ).second = l.second := by
      simp only [second, hnow]
    have htick : job.tick l.second l.memory l.database = none := by
      have hnone := Option.bind_eq_none_iff.mp hwork
      cases htick : job.tick l.second l.memory l.database with
      | none => rfl
      | some t => cases hnone t htick
    have hmeets : occasion? job { l with timer } = some
        (⟨decide (timer.now < timer.due), .panicked⟩,
          { l with timer := { next with ended := true } }) := by
      simp only [occasion?, h, hrunning, hsecond, htick]
      rfl
    rw [follow_of_some hmeets, follow_of_ended rfl]

theorem settle_eq (l : Loop σ) : l.settle job = (follow job l).2 := timer_settle_eq rfl

theorem follow_skipped_iff (l : Loop σ) :
    ∀ o ∈ (follow job l).1, o.use = .skipped ↔ l.timer.paused = true := by
  refine follow_induction (P := fun l os _ => ∀ o ∈ os, o.use = .skipped ↔ l.timer.paused = true)
    (fun l _ => nofun) ?_ l
  intro l o next h ih
  obtain ⟨timer, htake, -, huses⟩ := occasion?_cases h
  have hpaused : next.timer.paused = l.timer.paused := by
    rw [← Timer.take?_paused htake]
    rcases huses.timer_cases with ⟨-, ht⟩ | ⟨-, ht⟩ <;> rw [ht]
  rw [List.forall_mem_cons]
  refine ⟨?_, fun p hp => (ih p hp).trans (by rw [hpaused])⟩
  rw [huses.skipped_iff, Timer.take?_paused htake]

theorem follow_left (l : Loop σ) : occasion? job (follow job l).2 = none ∧
    (follow job l).2.timer.paused = l.timer.paused ∧
    ((follow job l).2.timer.ended = true ↔
      l.timer.ended = true ∨ ∃ o ∈ (follow job l).1, o.use = .panicked) := by
  refine follow_induction (P := fun l os last => occasion? job last = none ∧
    last.timer.paused = l.timer.paused ∧
    (last.timer.ended = true ↔ l.timer.ended = true ∨ ∃ o ∈ os, o.use = .panicked)) ?_ ?_ l
  · intro l h
    exact ⟨h, rfl, by simp⟩
  · intro l o next h ih
    obtain ⟨timer, htake, -, huses⟩ := occasion?_cases h
    obtain ⟨hwaits, hpaused, hended⟩ := ih
    have hlive := (Timer.take?_cases htake).1
    have hfresh := Timer.take?_ended htake
    refine ⟨hwaits, ?_, ?_⟩
    · rw [hpaused, ← Timer.take?_paused htake]
      rcases huses.timer_cases with ⟨-, ht⟩ | ⟨-, ht⟩ <;> rw [ht]
    · rw [hended]
      rcases huses.timer_cases with ⟨huse, ht⟩ | ⟨huse, ht⟩
      · simp [ht, huse]
      · simp [ht, huse, hlive, hfresh]

theorem follow_panicked (l : Loop σ) : ∀ before o after,
    (follow job l).1 = before ++ o :: after → o.use = .panicked → after = [] := by
  refine follow_induction (P := fun _ os _ => ∀ before o after, os = before ++ o :: after →
    o.use = .panicked → after = []) ?_ ?_ l
  · intro l _ before o after h
    simp at h
  · intro l o next h ih before p after hsplit hpanic
    obtain ⟨timer, -, -, huses⟩ := occasion?_cases h
    cases before with
    | nil =>
      obtain ⟨rfl, rfl⟩ := List.cons.inj hsplit
      rcases huses.timer_cases with ⟨-, ht⟩ | ⟨huse, -⟩
      · rw [follow_of_ended (by rw [ht])]
      · exact absurd hpanic huse
    | cons q before => exact ih before p after (List.cons.inj hsplit).2 hpanic

/-- What a loop meets that has not ended: the moments that are due, at least one if its due moment has
come, and then what was asked for, unless a tick before that does not come to an end. -/
def Shaped (t : Timer) (os : List Occasion) : Prop :=
  ∃ scheduled : List Occasion, (∀ o ∈ scheduled, o.asked = false) ∧
    (scheduled = [] ↔ t.now < t.due) ∧
    (os = scheduled ∧ (t.requested = true → ∃ o ∈ scheduled, o.use = .panicked) ∨
      t.requested = true ∧ (∀ o ∈ scheduled, o.use ≠ .panicked) ∧
        ∃ use, os = scheduled ++ [⟨true, use⟩])

theorem Shaped.nil {t : Timer} (hdue : t.now < t.due) (hnone : t.requested = false) :
    Shaped t [] := by
  refine ⟨[], nofun, iff_of_true rfl hdue, Or.inl ⟨rfl, fun hr => ?_⟩⟩
  rw [hnone] at hr
  cases hr

theorem Shaped.eq_nil {t : Timer} {os : List Occasion} (h : Shaped t os) (hdue : t.now < t.due)
    (hnone : t.requested = false) : os = [] := by
  obtain ⟨scheduled, -, hempty, ⟨rfl, -⟩ | ⟨hr, -⟩⟩ := h
  · exact hempty.mpr hdue
  · rw [hnone] at hr
    cases hr

theorem Shaped.asked {t : Timer} (hdue : t.now < t.due) (hasked : t.requested = true) (use : Use) :
    Shaped t [⟨true, use⟩] :=
  ⟨[], nofun, iff_of_true rfl hdue, Or.inr ⟨hasked, nofun, use, rfl⟩⟩

theorem Shaped.panicked {t : Timer} (hdue : t.due ≤ t.now) : Shaped t [⟨false, .panicked⟩] := by
  refine ⟨[⟨false, .panicked⟩], by simp, iff_of_false nofun (by omega), Or.inl ⟨rfl, fun _ => ?_⟩⟩
  exact ⟨_, List.mem_cons_self, rfl⟩

theorem Shaped.cons {t : Timer} {os : List Occasion} {use : Use} (hdue : t.due ≤ t.now)
    (huse : use ≠ .panicked) (h : Shaped { t with due := t.nextDue } os) :
    Shaped t (⟨false, use⟩ :: os) := by
  obtain ⟨scheduled, hasked, -, hrest⟩ := h
  refine ⟨⟨false, use⟩ :: scheduled, ?_, iff_of_false nofun (by omega), ?_⟩
  · rw [List.forall_mem_cons]
    exact ⟨rfl, hasked⟩
  · rcases hrest with ⟨rfl, hpanic⟩ | ⟨hr, hfine, last, rfl⟩
    · refine Or.inl ⟨rfl, fun hr => ?_⟩
      obtain ⟨p, hp, hpp⟩ := hpanic hr
      exact ⟨p, List.mem_cons_of_mem _ hp, hpp⟩
    · refine Or.inr ⟨hr, ?_, last, rfl⟩
      rw [List.forall_mem_cons]
      exact ⟨huse, hfine⟩

theorem follow_shaped (l : Loop σ) (hlive : l.timer.ended = false) :
    Shaped l.timer (follow job l).1 := by
  revert hlive
  refine follow_induction
    (P := fun l os _ => l.timer.ended = false → Shaped l.timer os) ?_ ?_ l
  · intro l h hlive
    have hwaits := Timer.take?_eq_none.mp (occasion?_eq_none.mp h)
    rw [hlive] at hwaits
    obtain ⟨hdue, hnone⟩ := hwaits.resolve_left Bool.false_ne_true
    exact .nil hdue hnone
  · intro l ⟨asked, use⟩ next h ih hlive
    obtain ⟨timer, htake, rfl, huses⟩ := occasion?_cases h
    have hfresh := Timer.take?_ended htake
    rcases (Timer.take?_cases htake).2 with ⟨hdue, rfl⟩ | ⟨hdue, hasked, rfl⟩
    · rw [decide_eq_false (Nat.not_lt.mpr hdue)]
      rcases huses.timer_cases with ⟨rfl, ht⟩ | ⟨huse, ht⟩
      · rw [follow_of_ended (by rw [ht])]
        exact .panicked hdue
      · rw [ht] at ih
        exact .cons hdue huse (ih hfresh)
    · rw [decide_eq_true hdue]
      have hrest : (follow job next).1 = [] := by
        rcases huses.timer_cases with ⟨-, ht⟩ | ⟨-, ht⟩
        · rw [follow_of_ended (by rw [ht])]
        · rw [ht] at ih
          exact (ih hfresh).eq_nil hdue rfl
      rw [hrest]
      exact .asked hdue hasked use

end Loop

end TrafficMeter
