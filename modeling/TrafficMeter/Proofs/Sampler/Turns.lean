import TrafficMeter.Proofs.Store.Samples
import TrafficMeter.Sampler.Tick

/-!
Runs of samplers. A history lists the turns of a run, the newest first, so what comes after a turn in
the list is what was before it. The guards of the database may change from turn to turn: that is how
writes come to fail. Where every tick merges samples, the table holds for each identity and second
what the turns that succeeded were to credit.
-/

namespace TrafficMeter

open Store

structure Turn (ι : Type) where
  given : ι
  guards : List Guard

namespace Ticked

variable {σ ι : Type}

/-- How a tick ends: with a failed poll, or with a new memory after it has made a call. A call that
would do nothing is left out. -/
inductive Follows (memory : σ) (db : Database) (call : Call) : Option σ → Ticked σ → Prop
  | failed (failure : Failure) (events : List Event) :
    Follows memory db call none (unchanged memory db (.error failure) events)
  | quiet (next : σ) (events : List Event) (answer : call.answer db.tables = 0)
    (effect : call.effect db.tables = db.tables) :
    Follows memory db call (some next) (unchanged next db (.ok 0) events)
  | writing (next : σ) (events : List Event) (activity : String) :
    Follows memory db call (some next) (writing next db events (.within activity call.action))

namespace Follows

variable {memory : σ} {db : Database} {call : Call} {next? : Option σ} {t : Ticked σ}

theorem run_within (call : Call) (activity : String) (db : Database) :
    (Action.within activity call.action).run db =
      (Outcome.within activity (call.action.run db).1, (call.action.run db).2) := by
  change Action.within activity call.action db = _
  unfold Action.within
  cases hr : call.action db with
  | mk result after => cases result <;> simp only [Action.run, hr, Outcome.within]

theorem cases (h : Follows memory db call next? t) :
    (∃ failure, t.result = .error failure ∧ t.database.tables = db.tables) ∨
      t.result = .ok (call.answer db.tables) ∧ t.database.tables = call.effect db.tables := by
  cases h with
  | failed failure events => exact Or.inl ⟨failure, rfl, rfl⟩
  | quiet next events answer effect =>
    right
    rw [answer, effect]
    exact ⟨rfl, rfl⟩
  | writing next events activity =>
    unfold Ticked.writing
    rw [run_within]
    rcases call.run_cases db with ⟨failure, hr⟩ | ⟨-, hr⟩
    · rw [hr]
      exact Or.inl ⟨failure.within activity, rfl, rfl⟩
    · rw [hr]
      exact Or.inr ⟨rfl, rfl⟩

theorem tables_of_error {failure : Failure} (h : Follows memory db call next? t)
    (hf : t.result = .error failure) : t.database.tables = db.tables := by
  rcases h.cases with ⟨-, -, ht⟩ | ⟨hok, -⟩
  · exact ht
  · rw [hf] at hok
    cases hok

theorem sound (h : Follows memory db call next? t) (hs : db.tables.Sound) :
    t.database.tables.Sound := by
  rcases h.cases with ⟨-, -, ht⟩ | ⟨-, ht⟩
  · rwa [ht]
  · rw [ht]
    exact hs.effect call

theorem memory_eq (h : Follows memory db call next? t) : t.memory = next?.getD memory := by
  cases h <;> rfl

theorem of_none (h : Follows memory db call next? t) (hn : next? = none) :
    (∃ failure, t.result = .error failure) ∧ t.memory = memory ∧
      t.database.tables = db.tables := by
  cases h with
  | failed failure events => exact ⟨⟨failure, rfl⟩, rfl, rfl⟩
  | quiet => cases hn
  | writing => cases hn

theorem isOk (h : Follows memory db call next? t) (hn : next?.isSome) (hg : db.guards = [])
    (hs : call.Summable db.tables) : t.result.isOk := by
  cases h with
  | failed => cases hn
  | quiet => rfl
  | writing _ events activity =>
    have hrun := ((call.yields hs).within activity).free hg
    exact congrArg Except.isOk (congrArg Prod.fst hrun)

end Follows

section Runs

variable (tick : σ → ι → Database → Ticked σ) (start : Ticked σ)

def after : List (Turn ι) → Ticked σ
  | [] => start
  | turn :: earlier =>
    tick (after earlier).memory turn.given { (after earlier).database with guards := turn.guards }

/-- The turns that did not fail, each with the history before it. -/
def succeeded : List (Turn ι) → List (Turn ι × List (Turn ι))
  | [] => []
  | turn :: earlier =>
    if (after tick start (turn :: earlier)).result.isOk then (turn, earlier) :: succeeded earlier
    else succeeded earlier

variable {tick start}

theorem succeeded_of_ok {turn : Turn ι} {earlier : List (Turn ι)}
    (h : (after tick start (turn :: earlier)).result.isOk) :
    succeeded tick start (turn :: earlier) = (turn, earlier) :: succeeded tick start earlier :=
  if_pos h

theorem succeeded_of_failed {turn : Turn ι} {earlier : List (Turn ι)}
    (h : ¬ (after tick start (turn :: earlier)).result.isOk) :
    succeeded tick start (turn :: earlier) = succeeded tick start earlier :=
  if_neg h

theorem mem_succeeded {history : List (Turn ι)} {p : Turn ι × List (Turn ι)} :
    p ∈ succeeded tick start history ↔
      p.1 :: p.2 <:+ history ∧ (after tick start (p.1 :: p.2)).result.isOk := by
  induction history with
  | nil => simp [succeeded]
  | cons turn earlier ih =>
    have hcons : p.1 :: p.2 <:+ turn :: earlier ↔ p = (turn, earlier) ∨ p.1 :: p.2 <:+ earlier := by
      rw [List.suffix_cons_iff, List.cons.injEq, Prod.ext_iff]
    by_cases hok : (after tick start (turn :: earlier)).result.isOk
    · rw [succeeded_of_ok hok, List.mem_cons, ih, hcons]
      constructor
      · rintro (rfl | ⟨hs, hp⟩)
        · exact ⟨Or.inl rfl, hok⟩
        · exact ⟨Or.inr hs, hp⟩
      · rintro ⟨rfl | hs, hp⟩
        · exact Or.inl rfl
        · exact Or.inr ⟨hs, hp⟩
    · rw [succeeded_of_failed hok, ih, hcons]
      constructor
      · rintro ⟨hs, hp⟩
        exact ⟨Or.inr hs, hp⟩
      · rintro ⟨rfl | hs, hp⟩
        · exact absurd hp hok
        · exact ⟨hs, hp⟩

end Runs

end Ticked

namespace Ticked

variable {σ ι : Type} {tick : σ → ι → Database → Ticked σ} {start : Ticked σ}
  {samples : σ → ι → List Sample} {next? : σ → ι → Option σ}

def posted (tick : σ → ι → Database → Ticked σ) (start : Ticked σ) (samples : σ → ι → List Sample)
    (history : List (Turn ι)) : List Sample :=
  (succeeded tick start history).reverse.flatMap fun p =>
    samples (after tick start p.2).memory p.1.given

section Merging

variable (hfollows : ∀ s given db,
  Follows s db (.merge (samples s given)) (next? s given) (tick s given db))
include hfollows

theorem tables_after (history : List (Turn ι)) :
    (after tick start history).database.tables =
      { start.database.tables with
        traffic := ((posted tick start samples history).map Sample.row).foldl merge
          start.database.tables.traffic } := by
  induction history with
  | nil => rfl
  | cons turn earlier ih =>
    have htick := hfollows (after tick start earlier).memory turn.given
      { (after tick start earlier).database with guards := turn.guards }
    unfold posted
    rcases htick.cases with ⟨failure, hr, ht⟩ | ⟨hr, ht⟩
    · have hfail : ¬ (after tick start (turn :: earlier)).result.isOk := by
        rw [after, hr]
        exact Bool.false_ne_true
      rw [succeeded_of_failed hfail]
      exact ht.trans ih
    · have hok : (after tick start (turn :: earlier)).result.isOk := by
        rw [after, hr]
        rfl
      rw [succeeded_of_ok hok, List.reverse_cons, List.flatMap_append, List.map_append,
        List.foldl_append, List.flatMap_singleton]
      refine ht.trans ?_
      simp only [Call.effect, ih, posted]

theorem exists_posted (hempty : start.database.tables = .empty) {history : List (Turn ι)} {r : Row}
    (hr : r ∈ (after tick start history).database.tables.traffic) :
    ∃ p ∈ succeeded tick start history, ∃ x ∈ samples (after tick start p.2).memory p.1.given,
      r.key = (x.identity, x.ts) := by
  rw [tables_after hfollows, hempty] at hr
  rcases key_mem_foldl_merge.mp (List.mem_map_of_mem hr) with hold | hnew
  · cases hold
  · obtain ⟨_, hrow, hkey⟩ := List.mem_map.mp hnew
    obtain ⟨x, hx, rfl⟩ := List.mem_map.mp hrow
    obtain ⟨p, hp, hx⟩ := List.mem_flatMap.mp hx
    exact ⟨p, List.mem_reverse.mp hp, x, hx, hkey.symm⟩

/-- What the table holds of an identity is what the turns that succeeded were to credit. -/
theorem stored_eq_credited (hempty : start.database.tables = .empty) {now : ι → ℤ}
    (hnow : ∀ s given, ∀ x ∈ samples s given, x.ts = now given) {identity : String}
    {credit : Turn ι × List (Turn ι) → ℕ × ℕ}
    (hcredit : ∀ p : Turn ι × List (Turn ι),
      (((samples (after tick start p.2).memory p.1.given).filter (·.identity = identity)).map
        Sample.amount).sum = credit p)
    (history : List (Turn ι))
    (fits : ∀ second, Storable (((succeeded tick start history).filter
      fun p => now p.1.given = second).map credit).sum) :
    (∀ second, moved ((after tick start history).database.tables.traffic.filter
        fun r => r.key = (identity, second)) =
      (((succeeded tick start history).filter fun p => now p.1.given = second).map credit).sum) ∧
    moved ((after tick start history).database.tables.traffic.filter (·.id = identity)) =
      ((succeeded tick start history).map credit).sum ∧
    ∀ r ∈ (after tick start history).database.tables.traffic, r.id = identity → r.Whole := by
  have hsum : ∀ test : ℤ → Bool, amountsOf (posted tick start samples history) identity test =
      (((succeeded tick start history).filter fun p => test (now p.1.given)).map credit).sum :=
    amountsOf_turns (fun p => hnow _ p.1.given) hcredit
  obtain ⟨hwhole, hmoved⟩ := moved_merged fun second => by
    rw [hsum fun ts => decide (ts = second)]
    exact fits second
  have htable : (after tick start history).database.tables.traffic =
      ((posted tick start samples history).map Sample.row).foldl merge [] := by
    rw [tables_after hfollows, hempty]
    rfl
  rw [htable]
  refine ⟨fun second => ?_, ?_, hwhole⟩
  · rw [← hsum fun ts => decide (ts = second), ← hmoved]
    refine congrArg moved (List.filter_congr fun r _ => ?_)
    rw [Bool.eq_iff_iff]
    simp [Row.key]
  · have hall := hmoved fun _ => true
    rw [hsum fun _ => true] at hall
    simpa using hall

end Merging

end Ticked

end TrafficMeter
