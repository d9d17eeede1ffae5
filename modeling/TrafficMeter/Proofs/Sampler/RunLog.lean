import Mathlib.Algebra.BigOperators.Group.List.Basic
import Mathlib.Algebra.GroupWithZero.Nat
import TrafficMeter.Proofs.Sampler.Occasions

/-!
What a loop records. Each tick that comes to an end gives one entry of the run log and one event of
the metrics, in the order of the ticks, as long as the ticks leave both to the loop. The counters add
in double precision, so they are exact as long as their totals are.
-/

namespace TrafficMeter

open Store

/-- A tick that leaves run log and guards as they are, and tells no tick of the source itself. -/
structure Ticked.Tidy {σ : Type} (source : String) (db : Database) (t : Ticked σ) : Prop where
  runs : t.database.runs = db.runs
  guards : t.database.guards = db.guards
  events : ∀ e ∈ t.events, ∀ elapsed rows failed, e ≠ .tick source elapsed rows failed

def Job.Tidy {σ : Type} (job : Job σ) : Prop :=
  ∀ now memory db t, job.tick now memory db = some t → t.Tidy job.source db

def Untold (source : String) (events : List Event) : Prop :=
  ∀ e ∈ events, ∀ elapsed rows failed, e ≠ .tick source elapsed rows failed

section Ticks

variable {σ : Type} {memory : σ} {db : Database} {events : List Event} {source : String}

theorem Ticked.unchanged_tidy {result : Outcome ℕ} (h : Untold source events) :
    (unchanged memory db result events).Tidy source db := ⟨rfl, rfl, h⟩

end Ticks

def Store.Run.logged (run : Run) : Run :=
  { run with millis := capColumn run.millis, inserted := capColumn run.inserted }

theorem Store.Database.recording_eq {db : Database} {run : Run}
    (h : db.refuses .runs .insert run.source = false) :
    db.recording run = { db with runs := db.runs ++ [run.logged] } := by
  change (Action.within _ (Action.bind (Action.permit .runs .insert run.source) _) db).2 = _
  simp only [Action.within, Action.bind, Action.permit, h]
  rfl

def summed (total : ℕ) (amounts : List ℕ) : ℕ := amounts.foldl addAmounts total

theorem summed_of_lt {total : ℕ} {amounts : List ℕ} (h : total + amounts.sum < 2 ^ 53) :
    summed total amounts = total + amounts.sum := by
  induction amounts generalizing total with
  | nil => rfl
  | cons a rest ih =>
    rw [List.sum_cons, ← add_assoc] at h
    have hfirst : addAmounts total a = total + a := addAmounts_of_lt (by simpa using by omega)
    rw [summed, List.foldl_cons, hfirst, List.sum_cons, ← add_assoc]
    exact ih h

structure Counts where
  ticks : ℕ
  errors : ℕ
  rows : ℕ

def Metrics.counts (m : Metrics) (source : String) : Counts where
  ticks := (m.ticks.get? source).getD 0
  errors := (m.errors.get? source).getD 0
  rows := (m.rows.get? source).getD 0

def Counts.after (c : Counts) (runs : List Run) : Counts where
  ticks := summed c.ticks (runs.map fun _ => 1)
  errors := summed c.errors ((runs.filter (·.error.isSome)).map fun _ => 1)
  rows := summed c.rows (runs.map (·.inserted))

theorem Counts.after_append (c : Counts) (first rest : List Run) :
    c.after (first ++ rest) = (c.after first).after rest := by
  simp only [Counts.after, summed, List.map_append, List.filter_append, List.foldl_append]

namespace Metrics

variable {m : Metrics} {source : String}

theorem get?_raise (counts : Keyed String ℕ) (key other : String) (amount : ℕ) :
    ((raise counts key amount).get? other).getD 0 =
      if other = key then addAmounts ((counts.get? key).getD 0) amount
      else (counts.get? other).getD 0 := by
  unfold raise Keyed.update
  rw [Keyed.get?_insert]
  split <;> rfl

theorem counts_record {e : Event} (h : ∀ elapsed rows failed, e ≠ .tick source elapsed rows failed) :
    (m.record e).counts source = m.counts source := by
  cases e with
  | tick other elapsed rows failed =>
    have hne : source ≠ other := by
      rintro rfl
      exact h _ _ _ rfl
    cases failed <;> simp [counts, record, get?_raise, hne]
  | _ => rfl

theorem counts_recordAll {events : List Event} (h : Untold source events) :
    (m.recordAll events).counts source = m.counts source := by
  unfold recordAll
  induction events generalizing m with
  | nil => rfl
  | cons e rest ih =>
    rw [List.foldl_cons, ih fun d hd => h d (List.mem_cons_of_mem e hd)]
    exact counts_record (h e List.mem_cons_self)

theorem counts_run {run : Run} (elapsed : Span) (hsource : run.source = source) :
    (m.record (run.event elapsed)).counts source = (m.counts source).after [run] := by
  subst hsource
  unfold Run.event
  cases hf : run.error.isSome <;>
    simp [counts, record, get?_raise, Counts.after, summed, hf]

end Metrics

def Occasion.run? {σ : Type} (job : Job σ) (o : Occasion) : Option Run :=
  match o.use with
  | .ticked second result => some (.ofTick job.source second job.elapsed result)
  | _ => none

namespace Loop

variable {σ : Type} {job : Job σ} {l next : Loop σ}

/-- What a loop has recorded after some runs: their entries in the log, in order, and the counts. -/
structure Records (job : Job σ) (l : Loop σ) (runs : List Run) (last : Loop σ) : Prop where
  log : last.database.runs = l.database.runs ++ runs.map Run.logged
  guards : last.database.guards = l.database.guards
  counts : last.metrics.map (·.counts job.source) =
    l.metrics.map fun m => (m.counts job.source).after runs

theorem Records.nil (hdatabase : next.database = l.database)
    (hmetrics : next.metrics.map (·.counts job.source) = l.metrics.map (·.counts job.source)) :
    Records job l [] next := by
  refine ⟨by simp [hdatabase], by rw [hdatabase], ?_⟩
  rw [hmetrics]
  rfl

theorem Records.trans {last : Loop σ} {first rest : List Run} (h : Records job l first next)
    (hrest : Records job next rest last) : Records job l (first ++ rest) last := by
  constructor
  · rw [hrest.log, h.log, List.map_append, List.append_assoc]
  · rw [hrest.guards, h.guards]
  · have hcounts := congrArg (Option.map (Counts.after · rest)) h.counts
    simp only [Option.map_map] at hcounts
    rw [hrest.counts]
    simpa [Function.comp_def, Counts.after_append] using hcounts

theorem Records.counts_of_none {runs : List Run} (h : Records job l runs next)
    (hnone : ∀ m ∈ l.metrics, m.counts job.source = ⟨0, 0, 0⟩) :
    ∀ m ∈ next.metrics, m.counts job.source = Counts.after ⟨0, 0, 0⟩ runs := by
  intro m hm
  have hcounts := h.counts
  rw [Option.mem_def.mp hm] at hcounts
  cases hl : l.metrics with
  | none =>
    rw [hl] at hcounts
    cases hcounts
  | some first =>
    rw [hl] at hcounts
    simp only [Option.map_some, Option.some.injEq] at hcounts
    rw [hcounts, hnone first hl]

theorem ofTick_source (source : String) (now : ℤ) (elapsed : Span) (result : Outcome ℕ) :
    (Run.ofTick source now elapsed result).source = source := by
  cases result <;> rfl

theorem occasion?_records (htidy : job.Tidy)
    (hpermit : l.database.refuses .runs .insert job.source = false) {o : Occasion}
    (h : occasion? job l = some (o, next)) : Records job l (o.run? job).toList next := by
  obtain ⟨timer, -, -, huses⟩ := occasion?_cases h
  obtain ⟨asked, use⟩ := o
  cases huses with
  | skipped => exact .nil rfl rfl
  | panicked => exact .nil rfl rfl
  | ticked running t tick =>
    have ht := htidy _ _ _ _ tick
    have hsource := ofTick_source job.source l.second job.elapsed t.result
    -- the tick leaves the guards alone, so the loop may still write its entry afterwards
    have hfree : t.database.refuses .runs .insert
        (Run.ofTick job.source l.second job.elapsed t.result).source = false := by
      rw [hsource, Database.refuses, ht.guards]
      exact hpermit
    have hdatabase : (t.recorded job.source l.second job.elapsed).database =
        { t.database with runs := t.database.runs ++
          [(Run.ofTick job.source l.second job.elapsed t.result).logged] } :=
      Database.recording_eq hfree
    refine ⟨?_, ?_, ?_⟩
    · simp only [hdatabase, ht.runs]
      rfl
    · simp only [hdatabase, ht.guards]
    · cases l.metrics with
      | none => rfl
      | some m =>
        have hlast := Metrics.counts_run (m := m.recordAll t.events) job.elapsed hsource
        rw [Metrics.counts_recordAll ht.events] at hlast
        simp only [Option.map_some, Option.some.injEq]
        change (m.recordAll (t.events ++ [_])).counts job.source = _
        rw [Metrics.recordAll, List.foldl_append]
        exact hlast

theorem follow_records (htidy : job.Tidy) (l : Loop σ)
    (hpermit : l.database.refuses .runs .insert job.source = false) :
    Records job l ((follow job l).1.filterMap (Occasion.run? job)) (follow job l).2 := by
  revert hpermit
  refine follow_induction (P := fun l os last =>
    l.database.refuses .runs .insert job.source = false →
      Records job l (os.filterMap (Occasion.run? job)) last) ?_ ?_ l
  · intro l _ _
    exact .nil rfl rfl
  · intro l o next h ih hpermit
    have hfirst := occasion?_records htidy hpermit h
    have hrest := ih (by rw [Database.refuses, hfirst.guards]; exact hpermit)
    have hall := hfirst.trans hrest
    rw [List.filterMap_cons]
    cases hr : o.run? job with
    | none =>
      rw [hr] at hall
      exact hall
    | some run =>
      rw [hr] at hall
      exact hall

end Loop

end TrafficMeter
