import TrafficMeter.Proofs.Sampler.Turns
import TrafficMeter.Sampler.Counter

/-!
The ledger of user counters. The sampler's memory is told by the history alone: it is the last reading
of every user since that user was last missing from a roster. The store then holds for each user what
readings added to such baselines, at the turns whose writes succeeded.
-/

namespace TrafficMeter

open Store

structure CounterPoll where
  now : ℤ
  elapsed : Span
  roster : Outcome (List String)
  poll : Polled Readings

namespace CounterPoll

def answer? (p : CounterPoll) : Option (List String × Readings) :=
  match p.roster, p.poll.result with
  | .ok roster, .ok readings => some (roster, readings)
  | _, _ => none

def reading? (p : CounterPoll) (identity : String) : Option Counters :=
  match p.answer? with
  | some (roster, readings) => if identity ∈ roster then readings.get? identity else none
  | none => none

def unlists (p : CounterPoll) (identity : String) : Bool :=
  match p.answer? with
  | some (roster, _) => identity ∉ roster
  | none => false

end CounterPoll

/-- The last reading of an identity that no later roster lacks. -/
def baseline (identity : String) : List (Turn CounterPoll) → Option Counters
  | [] => none
  | turn :: earlier =>
    match turn.given.reading? identity with
    | some current => some current
    | none => if turn.given.unlists identity then none else baseline identity earlier

theorem baseline_eq_some_iff {identity : String} {history : List (Turn CounterPoll)} {c : Counters} :
    baseline identity history = some c ↔
      ∃ later turn earlier, history = later ++ turn :: earlier ∧
        turn.given.reading? identity = some c ∧
        ∀ other ∈ later, other.given.reading? identity = none ∧
          other.given.unlists identity = false := by
  induction history with
  | nil => simp [baseline]
  | cons first rest ih =>
    unfold baseline
    constructor
    · intro h
      split at h
      · rename_i current hr
        exact ⟨[], first, rest, rfl, hr.trans h, List.forall_mem_nil _⟩
      · rename_i hr
        split at h
        · cases h
        · rename_i hu
          obtain ⟨later, turn, earlier, rfl, hc, hlater⟩ := ih.mp h
          refine ⟨first :: later, turn, earlier, rfl, hc, fun other ho => ?_⟩
          rcases List.mem_cons.mp ho with rfl | ho
          · exact ⟨hr, Bool.eq_false_iff.mpr hu⟩
          · exact hlater other ho
    · rintro ⟨later, turn, earlier, heq, hc, hlater⟩
      cases later with
      | nil =>
        obtain ⟨rfl, rfl⟩ := List.cons.inj heq
        rw [hc]
      | cons other later =>
        obtain ⟨rfl, rfl⟩ := List.cons.inj heq
        obtain ⟨hr, hu⟩ := hlater first List.mem_cons_self
        rw [hr, hu]
        refine ih.mpr ⟨later, turn, earlier, rfl, hc, fun other ho => ?_⟩
        exact hlater other (List.mem_cons_of_mem first ho)

def Counters.amount (c : Counters) : ℕ × ℕ := (c.uplink, c.downlink)

def gained (policy : ResetPolicy) (identity : String)
    (p : Turn CounterPoll × List (Turn CounterPoll)) : ℕ × ℕ :=
  match baseline identity p.2, p.1.given.reading? identity with
  | some previous, some current => (Counters.delta policy previous current).amount
  | _, _ => 0

theorem ResetPolicy.delta_self (policy : ResetPolicy) (n : ℕ) : policy.delta n n = 0 := by
  simp [ResetPolicy.delta]

theorem Counters.delta_self (policy : ResetPolicy) (c : Counters) :
    Counters.delta policy c c = ⟨0, 0⟩ := by
  simp [Counters.delta, ResetPolicy.delta_self]

namespace CounterSampler

variable {s : CounterSampler} {now : ℤ} {readings : Readings} {roster : List String}
  {identity : String}

theorem amount_sample? (policy : ResetPolicy) (now : ℤ) (identity : String)
    (previous : Option Counters) (current : Counters) :
    ((sample? policy now identity previous current).toList.map Sample.amount).sum =
      match previous with
      | some previous => (Counters.delta policy previous current).amount
      | none => 0 := by
  cases previous with
  | none => rfl
  | some previous =>
    simp only [sample?, Option.bind_eq_bind, Option.bind_some]
    by_cases hz : (Counters.delta policy previous current).isZero = true
    · rw [if_pos hz]
      simp only [Counters.isZero, Bool.and_eq_true, beq_iff_eq] at hz
      exact (Prod.ext hz.1 hz.2).symm
    · rw [if_neg hz]
      simp [Counters.amount, Sample.amount]

theorem of_sample? {policy : ResetPolicy} {previous : Option Counters} {current : Counters}
    {x : Sample} (h : sample? policy now identity previous current = some x) :
    x.identity = identity ∧ x.ts = now := by
  cases previous with
  | none => cases h
  | some previous =>
    simp only [sample?, Option.bind_eq_bind, Option.bind_some] at h
    split at h
    · cases h
    · cases h
      exact ⟨rfl, rfl⟩

theorem readAll_cons (s : CounterSampler) (now : ℤ) (readings : Readings) (first : String)
    (rest : List String) :
    s.readAll now readings (first :: rest) =
      match readings.get? first with
      | none => s.readAll now readings rest
      | some current =>
        let next := { s with retained := s.retained.insert first current }
        ((sample? s.policy now first (s.retained.get? first) current).toList ++
          (next.readAll now readings rest).1, (next.readAll now readings rest).2) :=
  rfl

theorem readAll_memory (s : CounterSampler) (now : ℤ) (readings : Readings) (roster : List String) :
    (s.readAll now readings roster).2.policy = s.policy ∧
      (s.readAll now readings roster).2.retained.get? identity =
        if identity ∈ roster then (readings.get? identity).or (s.retained.get? identity)
        else s.retained.get? identity := by
  induction roster generalizing s with
  | nil => exact ⟨rfl, rfl⟩
  | cons first rest ih =>
    rw [readAll_cons]
    cases hr : readings.get? first with
    | none =>
      obtain ⟨hp, hm⟩ := ih s
      refine ⟨hp, ?_⟩
      by_cases he : identity = first
      · subst he
        simp [hm, hr]
      · simp [hm, he]
    | some current =>
      obtain ⟨hp, hm⟩ := ih { s with retained := s.retained.insert first current }
      refine ⟨hp, ?_⟩
      by_cases he : identity = first
      · subst he
        simp [hm, hr]
      · simp [hm, he]

/-- A user who is listed twice is credited once: the second time its own reading is the baseline. -/
theorem readAll_samples (s : CounterSampler) (now : ℤ) (readings : Readings)
    (roster : List String) (identity : String) :
    (s.readAll now readings roster).1.filter (·.identity = identity) =
      if identity ∈ roster then
        ((readings.get? identity).bind
          (sample? s.policy now identity (s.retained.get? identity))).toList
      else [] := by
  induction roster generalizing s with
  | nil => rfl
  | cons first rest ih =>
    rw [readAll_cons]
    cases hr : readings.get? first with
    | none =>
      rw [ih s]
      by_cases he : identity = first
      · subst he
        simp [hr]
      · simp [he]
    | some current =>
      have hrest := ih { s with retained := s.retained.insert first current }
      dsimp only
      rw [List.filter_append, hrest]
      by_cases he : identity = first
      · subst he
        have hagain : sample? s.policy now identity (some current) current = none := by
          simp [sample?, Counters.delta_self, Counters.isZero]
        have hown : (sample? s.policy now identity (s.retained.get? identity) current).toList.filter
            (·.identity = identity) =
            (sample? s.policy now identity (s.retained.get? identity) current).toList := by
          rw [List.filter_eq_self]
          intro x hx
          exact decide_eq_true (of_sample? (Option.mem_toList.mp hx)).1
        simp [hr, hagain, hown]
      · have hother : (sample? s.policy now first (s.retained.get? first) current).toList.filter
            (·.identity = identity) = [] := by
          rw [List.filter_eq_nil_iff]
          intro x hx
          simp [(of_sample? (Option.mem_toList.mp hx)).1, Ne.symm he]
        simp [hother, he]

theorem readAll_ts (s : CounterSampler) (now : ℤ) (readings : Readings) (roster : List String) :
    ∀ x ∈ (s.readAll now readings roster).1, x.ts = now := by
  induction roster generalizing s with
  | nil => exact List.forall_mem_nil _
  | cons first rest ih =>
    rw [readAll_cons]
    cases readings.get? first with
    | none => exact ih s
    | some current =>
      intro x hx
      rcases List.mem_append.mp hx with hx | hx
      · exact (of_sample? (Option.mem_toList.mp hx)).2
      · exact ih _ x hx

theorem observe_retained (s : CounterSampler) (now : ℤ) (roster : List String)
    (readings : Readings) (identity : String) :
    (s.observe now roster readings).2.retained.get? identity =
      if identity ∈ roster then (readings.get? identity).or (s.retained.get? identity)
      else none := by
  obtain ⟨-, hm⟩ := @readAll_memory identity s now readings roster
  change (Keyed.keep _ fun key _ => roster.contains key).get? identity = _
  rw [Keyed.get?_keep, hm]
  by_cases h : identity ∈ roster <;> simp [h]

def posts (s : CounterSampler) (p : CounterPoll) : List Sample :=
  match p.answer? with
  | some (roster, readings) => (s.observe p.now roster readings).1
  | none => []

def turn (s : CounterSampler) (p : CounterPoll) (db : Database) : Ticked CounterSampler :=
  s.tick p.now p.elapsed p.roster p.poll db

def remember? (s : CounterSampler) (p : CounterPoll) : Option CounterSampler :=
  p.answer?.map fun answer => (s.observe p.now answer.1 answer.2).2

theorem turn_follows (s : CounterSampler) (p : CounterPoll) (db : Database) :
    Ticked.Follows s db (.merge (s.posts p)) (s.remember? p) (s.turn p db) := by
  obtain ⟨now, elapsed, roster, poll⟩ := p
  unfold turn tick remember? posts CounterPoll.answer?
  dsimp only
  cases roster with
  | error failure => exact .failed _ _
  | ok roster =>
    simp only [Outcome.within]
    cases poll.result with
    | error failure => exact .failed _ _
    | ok readings =>
      dsimp only
      split
      · rename_i hempty
        rw [List.isEmpty_iff.mp hempty]
        exact .quiet _ _ rfl rfl
      · exact .writing _ _ "writing traffic samples"

def run (policy : ResetPolicy) (db : Database) : List (Turn CounterPoll) → Ticked CounterSampler :=
  Ticked.after turn (.unchanged (.ofPolicy policy) db (.ok 0) [])

def succeeded (policy : ResetPolicy) (db : Database) :
    List (Turn CounterPoll) → List (Turn CounterPoll × List (Turn CounterPoll)) :=
  Ticked.succeeded turn (.unchanged (.ofPolicy policy) db (.ok 0) [])

theorem run_cons (policy : ResetPolicy) (db : Database) (next : Turn CounterPoll)
    (history : List (Turn CounterPoll)) :
    run policy db (next :: history) = (run policy db history).memory.turn next.given
      { (run policy db history).database with guards := next.guards } := rfl

theorem run_memory (policy : ResetPolicy) (db : Database) (history : List (Turn CounterPoll)) :
    (run policy db history).memory.policy = policy ∧
      (run policy db history).memory.retained.get? identity = baseline identity history := by
  induction history with
  | nil => exact ⟨rfl, rfl⟩
  | cons next earlier ih =>
    obtain ⟨hp, hm⟩ := ih
    rw [run_cons, (turn_follows _ _ _).memory_eq]
    unfold remember? baseline CounterPoll.reading? CounterPoll.unlists
    cases h : next.given.answer? with
    | none => exact ⟨hp, by simpa using hm⟩
    | some answer =>
      obtain ⟨roster, readings⟩ := answer
      refine ⟨(@readAll_memory identity _ _ _ _).1.trans hp, ?_⟩
      simp only [Option.map_some, Option.getD_some]
      rw [observe_retained, hm]
      by_cases hl : identity ∈ roster
      · cases readings.get? identity <;> simp [hl]
      · simp [hl]

theorem posts_amount (policy : ResetPolicy) (db : Database) (identity : String)
    (p : Turn CounterPoll × List (Turn CounterPoll)) :
    ((((run policy db p.2).memory.posts p.1.given).filter (·.identity = identity)).map
      Sample.amount).sum = gained policy identity p := by
  obtain ⟨hp, hm⟩ := @run_memory identity policy db p.2
  unfold posts gained CounterPoll.reading?
  cases h : p.1.given.answer? with
  | none => cases baseline identity p.2 <;> rfl
  | some answer =>
    obtain ⟨roster, readings⟩ := answer
    change (((CounterSampler.readAll _ _ _ _).1.filter _).map _).sum = _
    rw [readAll_samples, hp, hm]
    dsimp only
    by_cases hl : identity ∈ roster
    · rw [if_pos hl, if_pos hl]
      cases readings.get? identity with
      | none => cases baseline identity p.2 <;> rfl
      | some current =>
        rw [Option.bind_some, amount_sample?]
        cases baseline identity p.2 <;> rfl
    · rw [if_neg hl, if_neg hl]
      cases baseline identity p.2 <;> rfl

def readingsOf (identity : String) (history : List (Turn CounterPoll)) : List Counters :=
  history.filterMap fun next => next.given.reading? identity

def span (readings : List Counters) : ℕ × ℕ :=
  readings.head?.elim 0 Counters.amount - readings.getLast?.elim 0 Counters.amount

theorem readingsOf_cons (identity : String) (next : Turn CounterPoll)
    (earlier : List (Turn CounterPoll)) :
    readingsOf identity (next :: earlier) =
      (next.given.reading? identity).toList ++ readingsOf identity earlier := by
  cases h : next.given.reading? identity <;> simp [readingsOf, h]

theorem baseline_of_listed {history : List (Turn CounterPoll)}
    (hlisted : ∀ next ∈ history, next.given.unlists identity = false) :
    baseline identity history = (readingsOf identity history).head? := by
  induction history with
  | nil => rfl
  | cons next earlier ih =>
    have hrest := ih fun other ho => hlisted other (List.mem_cons_of_mem next ho)
    rw [readingsOf_cons]
    unfold baseline
    cases hr : next.given.reading? identity with
    | none => simp [hlisted next List.mem_cons_self, hrest]
    | some current => rfl

theorem gained_of_none {policy : ResetPolicy} {next : Turn CounterPoll}
    {earlier : List (Turn CounterPoll)} (h : next.given.reading? identity = none) :
    gained policy identity (next, earlier) = 0 := by
  unfold gained
  rw [h]
  cases baseline identity earlier <;> rfl

theorem delta_add_span {policy : ResetPolicy} {current previous : Counters}
    {others : List Counters}
    (h : (current :: previous :: others).Pairwise fun later earlier =>
      earlier.amount ≤ later.amount) :
    (Counters.delta policy previous current).amount + span (previous :: others) =
      span (current :: previous :: others) := by
  obtain ⟨hcurrent, hrest⟩ := List.pairwise_cons.mp h
  obtain ⟨hu, hd⟩ := hcurrent previous List.mem_cons_self
  have hfirst : ∃ first, (previous :: others).getLast? = some first ∧
      first.amount ≤ previous.amount := by
    refine ⟨_, List.getLast?_eq_some_getLast (List.cons_ne_nil previous others), ?_⟩
    rcases List.mem_cons.mp (List.getLast_mem (List.cons_ne_nil previous others)) with he | hm
    · rw [he]
    · exact (List.pairwise_cons.mp hrest).1 _ hm
  obtain ⟨first, hl, hfu, hfd⟩ := hfirst
  unfold span
  rw [List.getLast?_cons_cons, hl]
  simp only [Counters.amount, Counters.delta, List.head?_cons, Option.elim] at *
  rw [ResetPolicy.delta_of_le hu, ResetPolicy.delta_of_le hd]
  apply Prod.ext
  · simp only [Prod.fst_add, Prod.fst_sub]
    omega
  · simp only [Prod.snd_add, Prod.snd_sub]
    omega

/-- The readings of a user who is never missing add up to the newest one less the oldest. -/
theorem sum_gained (policy : ResetPolicy) (db : Database) {history : List (Turn CounterPoll)}
    (hlisted : ∀ next ∈ history, next.given.unlists identity = false)
    (hgrow : (readingsOf identity history).Pairwise
      fun later earlier => earlier.amount ≤ later.amount)
    (hwrites : ∀ next earlier, next :: earlier <:+ history → next.given.answer?.isSome →
      (run policy db (next :: earlier)).result.isOk) :
    ((succeeded policy db history).map (gained policy identity)).sum =
      span (readingsOf identity history) := by
  induction history with
  | nil => rfl
  | cons next earlier ih =>
    have hother : ∀ other ∈ earlier, other.given.unlists identity = false :=
      fun other ho => hlisted other (List.mem_cons_of_mem next ho)
    have hsplit : ((succeeded policy db (next :: earlier)).map (gained policy identity)).sum =
        gained policy identity (next, earlier) +
          ((succeeded policy db earlier).map (gained policy identity)).sum := by
      unfold succeeded
      by_cases hok : (run policy db (next :: earlier)).result.isOk
      · rw [Ticked.succeeded_of_ok hok, List.map_cons, List.sum_cons]
      · have hnone : next.given.answer? = none := by
          by_contra hsome
          exact hok (hwrites next earlier List.suffix_rfl (Option.isSome_iff_ne_none.mpr hsome))
        have hreading : next.given.reading? identity = none := by
          rw [CounterPoll.reading?, hnone]
        rw [Ticked.succeeded_of_failed hok, gained_of_none hreading, zero_add]
    have hrest : (readingsOf identity earlier).Pairwise
        (fun later earlier => earlier.amount ≤ later.amount) :=
      hgrow.sublist ((List.sublist_cons_self next earlier).filterMap _)
    rw [hsplit, ih hother hrest fun other before hs =>
      hwrites other before (hs.trans (List.suffix_cons next earlier))]
    rw [readingsOf_cons] at hgrow ⊢
    cases hr : next.given.reading? identity with
    | none =>
      rw [gained_of_none hr, zero_add]
      rfl
    | some current =>
      rw [hr] at hgrow
      unfold gained
      -- the user was never missing, so the reading before this one is its baseline
      rw [baseline_of_listed hother, hr]
      cases hold : readingsOf identity earlier with
      | nil =>
        simp [span]
      | cons previous others =>
        rw [hold] at hgrow
        exact delta_add_span hgrow

/-- The ledger of user counters. What is stored for a user, second by second and in all, is what its
readings added to their baselines at the turns that did not fail. A baseline is the last reading
since the user was last missing, whether or not it could be written. -/
theorem counters_accounted (policy : ResetPolicy) {db : Database} (hempty : db.tables = .empty)
    (history : List (Turn CounterPoll)) (identity : String)
    (fits : ∀ second, Storable (((succeeded policy db history).filter
      fun p => p.1.given.now = second).map (gained policy identity)).sum) :
    (∀ second, moved ((run policy db history).database.tables.traffic.filter
        fun r => r.key = (identity, second)) =
      (((succeeded policy db history).filter fun p => p.1.given.now = second).map
        (gained policy identity)).sum) ∧
    moved ((run policy db history).database.tables.traffic.filter (·.id = identity)) =
      ((succeeded policy db history).map (gained policy identity)).sum ∧
    (∀ r ∈ (run policy db history).database.tables.traffic, r.id = identity → r.Whole) ∧
    (∀ c, (run policy db history).memory.retained.get? identity = some c ↔
      ∃ later next earlier, history = later ++ next :: earlier ∧
        next.given.reading? identity = some c ∧
        ∀ other ∈ later, other.given.reading? identity = none ∧
          other.given.unlists identity = false) ∧
    (∀ next : Turn CounterPoll, next.given.answer? = none →
      (∃ failure, (run policy db (next :: history)).result = .error failure) ∧
      (run policy db (next :: history)).memory = (run policy db history).memory ∧
      (run policy db (next :: history)).database.tables =
        (run policy db history).database.tables) ∧
    (∀ next failure, (run policy db (next :: history)).result = .error failure →
      (run policy db (next :: history)).database.tables =
        (run policy db history).database.tables) ∧
    (∀ next c, next.given.reading? identity = some c →
      (run policy db (next :: history)).memory.retained.get? identity = some c) ∧
    (∀ next : Turn CounterPoll, next.given.answer?.isSome → next.guards = [] →
      (run policy db (next :: history)).result.isOk) ∧
    ((∀ next ∈ history, next.given.unlists identity = false) →
      (readingsOf identity history).Pairwise (fun later earlier => earlier.amount ≤ later.amount) →
      (∀ next earlier, next :: earlier <:+ history → next.given.answer?.isSome →
        (run policy db (next :: earlier)).result.isOk) →
      moved ((run policy db history).database.tables.traffic.filter (·.id = identity)) =
        span (readingsOf identity history)) := by
  have hts : ∀ (s : CounterSampler) (p : CounterPoll), ∀ x ∈ s.posts p, x.ts = p.now := by
    intro s p x hx
    unfold posts at hx
    split at hx
    · exact readAll_ts s p.now _ _ x hx
    · cases hx
  obtain ⟨hsecond, htotal, hwhole⟩ := Ticked.stored_eq_credited turn_follows hempty hts
    (posts_amount policy db identity) history fits
  refine ⟨hsecond, htotal, hwhole, ?_, ?_, ?_, ?_, ?_, ?_⟩
  · intro c
    rw [(run_memory policy db history).2]
    exact baseline_eq_some_iff
  · intro next hnone
    exact (turn_follows _ _ _).of_none (by rw [remember?, hnone, Option.map_none])
  · intro next failure hf
    exact (turn_follows _ _ _).tables_of_error hf
  · intro next c hc
    rw [(run_memory policy db (next :: history)).2, baseline, hc]
  · intro next hp hg
    exact (turn_follows _ _ _).isOk (by rwa [remember?, Option.isSome_map]) hg trivial
  · intro hlisted hgrow hwrites
    exact htotal.trans (sum_gained policy db hlisted hgrow hwrites)

def counterTurn (now : ℤ) (roster : Outcome (List String)) (readings : List (String × Counters))
    (refused : Bool) : Turn CounterPoll :=
  ⟨⟨now, ⟨0⟩, roster, ⟨.ok (.ofList readings), []⟩⟩,
    if refused then [⟨.traffic, .insert, none⟩] else []⟩

/-- Two turns in one second with a reset between them, a refused write, a roster that cannot be read,
and a user who is missing once; the newest turn first. -/
def busyTurns : List (Turn CounterPoll) :=
  [counterTurn 70 (.ok ["a", "b"]) [("a", ⟨500, 500⟩)] false,
    counterTurn 60 (.ok ["b"]) [("a", ⟨300, 300⟩), ("b", ⟨7, 5⟩)] false,
    counterTurn 50 (.ok ["a", "b"]) [("a", ⟨141, 101⟩)] false,
    counterTurn 40 (Outcome.fail (.os .notFound)) [("a", ⟨900, 900⟩)] false,
    counterTurn 30 (.ok ["a", "b"]) [("a", ⟨140, 100⟩)] true,
    counterTurn 20 (.ok ["a", "b"]) [("a", ⟨40, 100⟩)] false,
    counterTurn 20 (.ok ["a", "b", "a"]) [("a", ⟨150, 60⟩)] false,
    counterTurn 10 (.ok ["a", "b"]) [("a", ⟨100, 50⟩), ("b", ⟨5, 5⟩)] false]

theorem counters_accounted_on_busy_turns :
    Storable ((succeeded .countFromZero .blank busyTurns).map (gained .countFromZero "a")).sum ∧
    moved ((run .countFromZero .blank busyTurns).database.tables.traffic.filter
      fun r => r.key = ("a", 20)) = (90, 50) ∧
    moved ((run .countFromZero .blank busyTurns).database.tables.traffic.filter (·.id = "a")) =
      (91, 51) ∧
    (run .countFromZero .blank busyTurns).memory.retained.get? "a" = some ⟨500, 500⟩ := by
  have fits : Storable
      ((succeeded .countFromZero .blank busyTurns).map (gained .countFromZero "a")).sum := by
    decide +kernel
  obtain ⟨hsecond, htotal, -⟩ := counters_accounted .countFromZero
    (show Database.blank.tables = .empty from rfl) busyTurns "a" fun _ => fits.part _
  refine ⟨fits, ?_, ?_, by decide +kernel⟩
  · rw [hsecond 20]
    decide +kernel
  · rw [htotal]
    decide +kernel

end CounterSampler

end TrafficMeter
