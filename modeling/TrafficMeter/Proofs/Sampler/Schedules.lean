import Mathlib.Algebra.Order.BigOperators.Group.List
import Mathlib.Algebra.Order.Group.Nat
import TrafficMeter.Proofs.Sampler.RunLog

/-!
Loops under orders. A script is a list of steps, each some orders that are taken at once before the loop
runs until it waits. Whether the loop is live and paused then is a matter of the orders so far and of
the ticks that did not come to an end; a request shows in its own step or never.
-/

namespace TrafficMeter

open Store

/-- Whether a loop is paused after some orders: the last of them that says so decides. -/
def pausedAfter (paused : Bool) (orders : List Order) : Bool :=
  orders.foldl (fun paused order => match order with | .pause b => b | _ => paused) paused

def Order.millis : Order → ℕ
  | .advance millis => millis
  | _ => 0

namespace Loop

variable {σ : Type} (job : Job σ)

def told (l : Loop σ) (orders : List Order) : Loop σ := orders.foldl (take job) l

def during (l : Loop σ) (orders : List Order) : List Occasion := (follow job (l.told job orders)).1

def history : Loop σ → List (List Order) → List Occasion
  | _, [] => []
  | l, orders :: rest => l.during job orders ++ history (l.perform job orders) rest

variable {job} {l now : Loop σ}

/-- What some orders do to a loop: they show in the timer, and nothing that is recorded changes. -/
structure Told (l : Loop σ) (orders : List Order) (after : Loop σ) : Prop where
  database : after.database = l.database
  counts : ∀ source, after.metrics.map (·.counts source) = l.metrics.map (·.counts source)
  due : after.timer.due = l.timer.due
  now : after.timer.now = l.timer.now + (orders.map Order.millis).sum
  requested : after.timer.requested = true ↔ l.timer.requested = true ∨ .trigger ∈ orders
  ended : after.timer.ended = true ↔ l.timer.ended = true ∨ .cancel ∈ orders
  paused : after.timer.paused = pausedAfter l.timer.paused orders

theorem take_told (l : Loop σ) (order : Order) : Told l [order] (l.take job order) := by
  have hcounts : ∀ (value : ℤ) (source : String),
      (l.metrics.map (·.record (.paused job.source value))).map (·.counts source) =
        l.metrics.map (·.counts source) := by
    intro value source
    cases l.metrics with
    | none => rfl
    | some m => rfl
  cases order with
  | advance millis =>
    constructor <;> simp [take, Timer.advance, Order.millis, pausedAfter]
  | trigger => constructor <;> simp [take, Timer.request, Order.millis, pausedAfter]
  | pause paused =>
    refine ⟨rfl, hcounts _, rfl, rfl, ?_, ?_, rfl⟩ <;> simp [take, Timer.setPaused]
  | cancel => constructor <;> simp [take, Timer.cancel, Order.millis, pausedAfter]

theorem Told.trans {mid after : Loop σ} {first rest : List Order} (h : Told l first mid)
    (hrest : Told mid rest after) : Told l (first ++ rest) after where
  database := hrest.database.trans h.database
  counts source := (hrest.counts source).trans (h.counts source)
  due := hrest.due.trans h.due
  now := by rw [hrest.now, h.now, List.map_append, List.sum_append, add_assoc]
  requested := by rw [hrest.requested, h.requested, List.mem_append, or_assoc]
  ended := by rw [hrest.ended, h.ended, List.mem_append, or_assoc]
  paused := by rw [hrest.paused, h.paused, pausedAfter, pausedAfter, pausedAfter, List.foldl_append]

theorem told_spec (l : Loop σ) (orders : List Order) : Told l orders (l.told job orders) := by
  induction orders generalizing l with
  | nil => constructor <;> simp [told, pausedAfter]
  | cons order rest ih => exact (take_told l order).trans (ih (l.take job order))

theorem perform_eq (l : Loop σ) (orders : List Order) :
    l.perform job orders = (follow job (l.told job orders)).2 := settle_eq _

theorem perform_waits (l : Loop σ) (orders : List Order) :
    occasion? job (l.perform job orders) = none := by
  rw [perform_eq]
  exact (follow_left _).1

/-- Where a script brings a loop: it is paused as the orders say, it has ended by an order or a tick that
did not come to an end, and what it met is recorded. -/
structure Brought (job : Job σ) (l : Loop σ) (script : List (List Order)) (now : Loop σ) : Prop where
  paused : now.timer.paused = pausedAfter l.timer.paused script.flatten
  ended : now.timer.ended = true ↔ l.timer.ended = true ∨ .cancel ∈ script.flatten ∨
    ∃ o ∈ history job l script, o.use = .panicked
  records : Records job l ((history job l script).filterMap (Occasion.run? job)) now

theorem perform_brought (htidy : job.Tidy)
    (hpermit : l.database.refuses .runs .insert job.source = false) (orders : List Order) :
    Brought job l [orders] (l.perform job orders) := by
  have htold : Told l orders (l.told job orders) := told_spec l orders
  obtain ⟨-, hpaused, hended⟩ := @follow_left _ job (l.told job orders)
  rw [perform_eq]
  constructor
  · rw [hpaused, htold.paused, List.flatten_singleton]
  · rw [hended, htold.ended, or_assoc]
    simp [history, during]
  · have hrecords := follow_records htidy (l.told job orders)
      (by rw [htold.database]; exact hpermit)
    simp only [history, List.append_nil]
    exact (Records.nil htold.database (htold.counts job.source)).trans hrecords

theorem script_brought (htidy : job.Tidy)
    (hpermit : l.database.refuses .runs .insert job.source = false) (script : List (List Order)) :
    Brought job l script (script.foldl (perform job) l) := by
  induction script generalizing l with
  | nil => exact ⟨rfl, by simp [history], .nil rfl rfl⟩
  | cons orders rest ih =>
    have hfirst := perform_brought htidy hpermit orders
    have hrest := ih (l := l.perform job orders)
      (by rw [Database.refuses, hfirst.records.guards]; exact hpermit)
    have hhistory : history job l (orders :: rest) =
        history job l [orders] ++ history job (l.perform job orders) rest := by simp [history]
    constructor
    · rw [List.foldl_cons, hrest.paused, hfirst.paused, List.flatten_singleton, List.flatten_cons,
        pausedAfter, pausedAfter, pausedAfter, List.foldl_append]
    · rw [List.foldl_cons, hrest.ended, hfirst.ended, hhistory, List.flatten_singleton,
        List.flatten_cons]
      simp only [List.mem_append, or_and_right, exists_or]
      rw [or_assoc, or_or_or_comm]
    · rw [hhistory, List.filterMap_append]
      exact hfirst.records.trans hrest.records

theorem Brought.live_iff {script : List (List Order)} (hb : Brought job l script now)
    (hstart : l.timer.ended = false) (orders : List Order) :
    (.cancel ∉ script.flatten ++ orders ∧ ∀ o ∈ history job l script, o.use ≠ .panicked) ↔
      ¬ (now.timer.ended = true ∨ .cancel ∈ orders) := by
  rw [hb.ended, hstart]
  simp only [Bool.false_eq_true, false_or, List.mem_append, not_or, not_exists, not_and, ne_eq]
  exact and_right_comm

theorem waits_iff : occasion? job l = none ↔
    l.timer.ended = true ∨ l.timer.now < l.timer.due ∧ l.timer.requested = false :=
  occasion?_eq_none.trans Timer.take?_eq_none

section Steps

variable {orders : List Order}

theorem during_of_ended (h : now.timer.ended = true ∨ .cancel ∈ orders) :
    now.during job orders = [] := by
  rw [during, follow_of_ended ((told_spec now orders).ended.mpr h)]

theorem during_shaped (hwaits : occasion? job now = none)
    (h : ¬ (now.timer.ended = true ∨ .cancel ∈ orders)) :
    ∃ scheduled : List Occasion, (∀ o ∈ scheduled, o.asked = false) ∧
      (scheduled = [] ↔ now.timer.now + (orders.map Order.millis).sum < now.timer.due) ∧
      (now.during job orders = scheduled ∧
          (.trigger ∈ orders → ∃ o ∈ scheduled, o.use = .panicked) ∨
        .trigger ∈ orders ∧ (∀ o ∈ scheduled, o.use ≠ .panicked) ∧
          ∃ use, now.during job orders = scheduled ++ [⟨true, use⟩]) := by
  have htold : Told now orders (now.told job orders) := told_spec now orders
  have hlive : (now.told job orders).timer.ended = false := by
    rw [Bool.eq_false_iff]
    exact fun he => h (htold.ended.mp he)
  have hasked : (now.told job orders).timer.requested = true ↔ .trigger ∈ orders := by
    have hidle := (waits_iff.mp hwaits).resolve_left fun he => h (Or.inl he)
    rw [htold.requested, hidle.2]
    simp
  obtain ⟨scheduled, hfalse, hempty, hrest⟩ := @follow_shaped _ job _ hlive
  rw [htold.now, htold.due] at hempty
  rw [hasked] at hrest
  exact ⟨scheduled, hfalse, hempty, hrest⟩

theorem during_skipped_iff : ∀ o ∈ now.during job orders,
    o.use = .skipped ↔ pausedAfter now.timer.paused orders = true := by
  intro o ho
  rw [follow_skipped_iff _ o ho, (told_spec now orders).paused]

theorem trigger_of_asked (hwaits : occasion? job now = none)
    (h : ∃ o ∈ now.during job orders, o.asked = true) : .trigger ∈ orders := by
  obtain ⟨o, ho, hasked⟩ := h
  by_cases hended : now.timer.ended = true ∨ .cancel ∈ orders
  · rw [during_of_ended hended] at ho
    cases ho
  obtain ⟨scheduled, hfalse, -, ⟨hall, -⟩ | ⟨htrigger, -⟩⟩ := during_shaped hwaits hended
  · rw [hall] at ho
    rw [hfalse o ho] at hasked
    cases hasked
  · exact htrigger

theorem during_burst (hwaits : occasion? job now = none) (hlive : now.timer.ended = false) {k : ℕ}
    (hk : 0 < k) : ∃ use, now.during job (List.replicate k .trigger) = [⟨true, use⟩] := by
  have hrunning : ¬ (now.timer.ended = true ∨ .cancel ∈ List.replicate k Order.trigger) := by
    simp [hlive]
  have htrigger : .trigger ∈ List.replicate k Order.trigger := by simp; omega
  have hidle := (waits_iff.mp hwaits).resolve_left (by simp [hlive])
  obtain ⟨scheduled, -, hempty, hrest⟩ := during_shaped hwaits hrunning
  -- no time has passed, so nothing has become due
  have hnone : scheduled = [] := hempty.mpr (by simpa [Order.millis] using hidle.1)
  subst hnone
  rcases hrest with ⟨-, hpanic⟩ | ⟨-, -, use, huse⟩
  · obtain ⟨o, ho, -⟩ := hpanic htrigger
    cases ho
  · exact ⟨use, huse⟩

end Steps

theorem script_waits (h : occasion? job l = none) (script : List (List Order)) :
    occasion? job (script.foldl (perform job) l) = none := by
  induction script generalizing l with
  | nil => exact h
  | cons orders rest ih => exact ih (perform_waits l orders)

end Loop

def Occasion.entry {σ : Type} (job : Job σ) (o : Occasion) : Option Run :=
  match o.use with
  | .ticked second (.ok rows) =>
    some ⟨second, capColumn job.elapsed.millis, capColumn rows, none, job.source⟩
  | .ticked second (.error failure) =>
    some ⟨second, capColumn job.elapsed.millis, 0, some failure.message, job.source⟩
  | _ => none

theorem Occasion.entry_eq {σ : Type} (job : Job σ) (o : Occasion) :
    o.entry job = (o.run? job).map Run.logged := by
  obtain ⟨asked, use⟩ := o
  cases use with
  | ticked second result =>
    cases result with
    | ok rows => rfl
    | error failure => simp [entry, run?, Run.ofTick, Run.logged, capColumn]
  | _ => rfl

theorem filterMap_entry {σ : Type} (job : Job σ) (os : List Occasion) :
    os.filterMap (Occasion.entry job) = (os.filterMap (Occasion.run? job)).map Run.logged := by
  rw [List.map_filterMap]
  exact List.filterMap_congr fun o _ => o.entry_eq job

theorem Counts.after_eq_log (runs : List Run) :
    let log := runs.map Run.logged
    let c := Counts.after ⟨0, 0, 0⟩ runs
    (log.length < 2 ^ 53 → c.ticks = log.length) ∧
    ((log.filter (·.error.isSome)).length < 2 ^ 53 →
      c.errors = (log.filter (·.error.isSome)).length) ∧
    ((log.map (·.inserted)).sum < 2 ^ 53 → c.rows = (log.map (·.inserted)).sum) := by
  have herrors : (runs.map Run.logged).filter (·.error.isSome) =
      (runs.filter (·.error.isSome)).map Run.logged := by
    rw [List.filter_map]
    rfl
  refine ⟨fun h => ?_, fun h => ?_, fun h => ?_⟩
  · simp only [after]
    rw [summed_of_lt (by simpa using h)]
    simp
  · rw [herrors] at h ⊢
    simp only [after]
    rw [summed_of_lt (by simpa using h)]
    simp
  · -- a total below 2 ^ 53 leaves no run large enough to be capped
    have hsame : (runs.map Run.logged).map (·.inserted) = runs.map (·.inserted) := by
      rw [List.map_map]
      refine List.map_congr_left fun run hrun => ?_
      have hle : capColumn run.inserted ≤ ((runs.map Run.logged).map (·.inserted)).sum := by
        apply List.le_sum_of_mem
        rw [List.map_map]
        exact List.mem_map_of_mem hrun
      simp only [Function.comp, Run.logged, capColumn, maxTime] at hle ⊢
      omega
    rw [hsame] at h ⊢
    simp only [after]
    rw [summed_of_lt (by simpa using h), zero_add]

/-- Under any script the loop of the job logs one entry for each tick that comes to an end, in order,
and where it had counted nothing before, its counters agree with the log as long as double precision
is exact. -/
def Job.Logged {σ : Type} (job : Job σ) : Prop :=
  ∀ (l : Loop σ) (script : List (List Order)),
    l.database.refuses .runs .insert job.source = false →
    (∀ m ∈ l.metrics, m.counts job.source = ⟨0, 0, 0⟩) →
    let now := script.foldl (Loop.perform job) (l.settle job)
    let log := (Loop.history job l ([] :: script)).filterMap (Occasion.entry job)
    now.database.runs = l.database.runs ++ log ∧
    ∀ m ∈ now.metrics,
      (log.length < 2 ^ 53 → (m.counts job.source).ticks = log.length) ∧
      ((log.filter (·.error.isSome)).length < 2 ^ 53 →
        (m.counts job.source).errors = (log.filter (·.error.isSome)).length) ∧
      ((log.map (·.inserted)).sum < 2 ^ 53 →
        (m.counts job.source).rows = (log.map (·.inserted)).sum)

theorem Job.Tidy.logged {σ : Type} {job : Job σ} (htidy : job.Tidy) : job.Logged := by
  intro l script hpermit hmetrics now log
  have hb : Loop.Brought job l ([] :: script) now :=
    Loop.script_brought htidy hpermit ([] :: script)
  have hlog : log = _ := filterMap_entry job (Loop.history job l ([] :: script))
  constructor
  · rw [hlog]
    exact hb.records.log
  · intro m hm
    rw [hb.records.counts_of_none hmetrics m hm, hlog]
    exact Counts.after_eq_log _

/-- A fresh loop under any script. Its log grows by one entry for each tick that comes to an end, in order,
and the counters agree with the log while double precision is exact. In any further step nothing is met
after a cancellation or a panic and all is skipped while the loop is paused; what was asked for shows in
the step in which it was asked, after the moments that are due, and a burst shows once. -/
theorem Loop.schedule_kept {σ : Type} {job : Job σ} (htidy : job.Tidy) {l : Loop σ}
    {delay period : ℕ} (hstart : l.timer = .start delay period)
    (hpermit : l.database.refuses .runs .insert job.source = false)
    (hmetrics : ∀ m ∈ l.metrics, m.counts job.source = ⟨0, 0, 0⟩) (script : List (List Order)) :
    let now := script.foldl (perform job) (l.settle job)
    let met := history job l ([] :: script)
    let log := met.filterMap (Occasion.entry job)
    now.database.runs = l.database.runs ++ log ∧
    (∀ m ∈ now.metrics,
      (log.length < 2 ^ 53 → (m.counts job.source).ticks = log.length) ∧
      ((log.filter (·.error.isSome)).length < 2 ^ 53 →
        (m.counts job.source).errors = (log.filter (·.error.isSome)).length) ∧
      ((log.map (·.inserted)).sum < 2 ^ 53 →
        (m.counts job.source).rows = (log.map (·.inserted)).sum)) ∧
    ∀ orders,
      let more := now.during job orders
      let live := .cancel ∉ script.flatten ++ orders ∧ ∀ o ∈ met, o.use ≠ .panicked
      let paused := pausedAfter false (script.flatten ++ orders)
      (now.perform job orders).database.runs =
        now.database.runs ++ more.filterMap (Occasion.entry job) ∧
      (¬ live → more = []) ∧
      (∀ o ∈ more, o.use = .skipped ↔ paused = true) ∧
      (∀ before o after, more = before ++ o :: after → o.use = .panicked → after = []) ∧
      ((∃ o ∈ more, o.asked = true) → .trigger ∈ orders) ∧
      (live → (∃ k, 0 < k ∧ orders = List.replicate k .trigger) → ∃ use, more = [⟨true, use⟩]) ∧
      (live → .trigger ∈ orders → ∃ scheduled, (∀ o ∈ scheduled, o.asked = false) ∧
        (scheduled = [] ↔ now.timer.now + (orders.map Order.millis).sum < now.timer.due) ∧
        ((∃ o ∈ scheduled, o.use = .panicked) ∧ more = scheduled ∨
          ∃ use, more = scheduled ++ [⟨true, use⟩])) := by
  intro now met log
  have hb : Brought job l ([] :: script) now := script_brought htidy hpermit ([] :: script)
  have hwaits : occasion? job now = none := script_waits (perform_waits l []) script
  have hpaused : now.timer.paused = pausedAfter false script.flatten := by
    rw [hb.paused, hstart]
    rfl
  obtain ⟨hruns, hcounts⟩ := htidy.logged l script hpermit hmetrics
  refine ⟨hruns, hcounts, ?_⟩
  intro orders more live paused
  have hlive : live ↔ ¬ (now.timer.ended = true ∨ .cancel ∈ orders) :=
    hb.live_iff (by rw [hstart]; rfl) orders
  refine ⟨?_, ?_, ?_, ?_, trigger_of_asked hwaits, ?_, ?_⟩
  · have hstep := perform_brought htidy (l := now)
      (by rw [Database.refuses, hb.records.guards]; exact hpermit) orders
    rw [hstep.records.log, filterMap_entry]
    simp only [history, List.append_nil]
    rfl
  · intro hdead
    exact during_of_ended (not_not.mp fun h => hdead (hlive.mpr h))
  · intro o ho
    rw [during_skipped_iff o ho, hpaused, pausedAfter, pausedAfter, ← List.foldl_append]
    rfl
  · exact follow_panicked _
  · rintro hl ⟨k, hk, rfl⟩
    exact during_burst hwaits (Bool.eq_false_iff.mpr fun he => hlive.mp hl (Or.inl he)) hk
  · intro hl htrigger
    obtain ⟨scheduled, hfalse, hempty, hrest⟩ := during_shaped hwaits (hlive.mp hl)
    refine ⟨scheduled, hfalse, hempty, ?_⟩
    rcases hrest with ⟨hall, hpanic⟩ | ⟨-, -, hall⟩
    · exact Or.inl ⟨hpanic htrigger, hall⟩
    · exact Or.inr hall

def scripted : Job (List (Option (Outcome ℕ))) where
  source := "scripted"
  elapsed := ⟨0⟩
  tick _ outcomes db :=
    match outcomes with
    | [] => some (.unchanged [] db (.ok 0) [])
    | outcome :: rest => outcome.map fun result => .unchanged rest db result []

theorem scripted_tidy : scripted.Tidy := by
  intro now outcomes db t h
  cases outcomes with
  | nil =>
    cases h
    exact Ticked.unchanged_tidy nofun
  | cons outcome rest =>
    obtain ⟨result, -, rfl⟩ := Option.map_eq_some_iff.mp h
    exact Ticked.unchanged_tidy nofun

def scriptedLoop (outcomes : List (Option (Outcome ℕ))) : Loop (List (Option (Outcome ℕ))) :=
  ⟨.start 0 1000, 0, outcomes, .blank, some .none⟩

/-- A trigger that is skipped while the loop is paused does not fire when it resumes, two triggers at once
fire once, and the tick that panics is not in the log. -/
theorem Loop.schedule_kept_by_script :
    let script := [[.pause true], [.trigger], [.pause false]]
    let now := script.foldl (perform scripted) ((scriptedLoop [some (.ok 3), none]).settle scripted)
    now.database.runs = [⟨0, 0, 3, none, "scripted"⟩] ∧
      ∃ use, now.during scripted [.trigger, .trigger] = [⟨true, use⟩] ∧ use ≠ .skipped := by
  intro script now
  obtain ⟨hlog, -, hsteps⟩ := schedule_kept scripted_tidy (l := scriptedLoop [some (.ok 3), none])
    rfl rfl (by rintro m hm; cases hm; rfl) script
  obtain ⟨-, -, hskipped, -, -, hburst, -⟩ := hsteps [.trigger, .trigger]
  have hlive : .cancel ∉ script.flatten ++ [.trigger, .trigger] := by decide
  have hended : ∀ o ∈ history scripted (scriptedLoop [some (.ok 3), none]) ([] :: script),
      o.use ≠ .panicked := by decide +kernel
  obtain ⟨use, huse⟩ := hburst ⟨hlive, hended⟩ ⟨2, by decide, rfl⟩
  refine ⟨hlog.trans (by decide +kernel), use, huse, ?_⟩
  intro hskip
  have hpaused := (hskipped ⟨true, use⟩ (by rw [huse]; exact List.mem_cons_self)).mp hskip
  cases hpaused

def afterRows (rows : ℕ) : Loop (List (Option (Outcome ℕ))) :=
  (scriptedLoop [some (.ok rows)]).settle scripted

/-- More rows than double precision counts are not counted exactly, and more than a column holds are not
logged. -/
theorem Loop.large_amounts_not_kept :
    (afterRows 9007199254740993).metrics.map (fun m => (m.counts "scripted").rows) ≠
        some ((afterRows 9007199254740993).database.runs.map (·.inserted)).sum ∧
      (afterRows 9223372036854775809).database.runs.map (·.inserted) ≠ [9223372036854775809] := by
  decide +kernel

end TrafficMeter
