import TrafficMeter.Proofs.Store.Settling
import TrafficMeter.Retention

/-!
Passes that are cut short. A pass is its stages one after another, each a transaction. A stage that
has been run finds nothing more to do, however many others follow it, so a pass can stop between any
two stages and be run again from the start.
-/

namespace TrafficMeter.Retention

open Store

def Stage.call (c : Cutoffs) : Stage → Call
  | .expireTraffic => .hardDelete .traffic c.traffic
  | .expirePeers => .hardDelete .peers c.peers
  | .rollUpTraffic => .compress .traffic c.rollup compressedBucketSeconds
  | .rollUpPeers => .compress .peers c.rollup compressedBucketSeconds

def runStages (c : Cutoffs) : List Stage → Action (List ℕ)
  | [] => pure []
  | stage :: rest => do
    let removed ← stage.run c
    return removed :: (← runStages c rest)

section Stages

variable {c : Cutoffs} {stage : Stage} {db done : Database}

theorem Stage.run_eq (c : Cutoffs) (stage : Stage) :
    ∃ activity, stage.run c = .within activity (stage.call c).action := by
  cases stage with
  | expireTraffic => exact ⟨_, rfl⟩
  | expirePeers => exact ⟨_, rfl⟩
  | rollUpTraffic => exact ⟨_, rfl⟩
  | rollUpPeers => exact ⟨_, rfl⟩

theorem Stage.run_ok {n : ℕ} :
    stage.run c db = (.ok n, done) ↔ (stage.call c).action db = (.ok n, done) := by
  obtain ⟨activity, hrun⟩ := Stage.run_eq c stage
  rw [hrun]
  exact Action.within_ok

theorem Stage.run_error {failure : Failure} (h : stage.run c db = (.error failure, done)) :
    done = db := by
  obtain ⟨activity, hrun⟩ := Stage.run_eq c stage
  rw [hrun] at h
  obtain ⟨cause, hcall⟩ := Action.within_error h
  exact Call.unchanged_of_error hcall

theorem Stage.upkeep (c : Cutoffs) (stage : Stage) : (stage.call c).Upkeep := by
  cases stage with
  | expireTraffic => trivial
  | expirePeers => trivial
  | rollUpTraffic => rfl
  | rollUpPeers => rfl

theorem Stage.tables_of_ok {n : ℕ} (h : stage.run c db = (.ok n, done)) :
    done.tables = (stage.call c).effect db.tables := by
  have hcall : (stage.call c).action.run db = (.ok n, done) := Stage.run_ok.mp h
  rcases (stage.call c).run_cases db with ⟨failure, hr⟩ | ⟨-, hr⟩
  · rw [hr] at hcall
    cases hcall
  · rw [hr] at hcall
    cases hcall
    rfl

theorem runStages_cons {rest : List Stage} {removed : List ℕ} :
    runStages c (stage :: rest) db = (.ok removed, done) ↔
      ∃ n others mid, removed = n :: others ∧ stage.run c db = (.ok n, mid) ∧
        runStages c rest mid = (.ok others, done) := by
  constructor
  · intro h
    obtain ⟨n, mid, hfirst, hrest⟩ := Action.bind_ok.mp h
    obtain ⟨others, last, hothers, hpure⟩ := Action.bind_ok.mp hrest
    cases hpure
    exact ⟨n, others, mid, rfl, hfirst, hothers⟩
  · rintro ⟨n, others, mid, rfl, hfirst, hothers⟩
    exact Action.bind_ok.mpr ⟨n, mid, hfirst, Action.bind_ok.mpr ⟨others, done, hothers, rfl⟩⟩

theorem runStages_append {first second : List Stage} {removed : List ℕ} :
    runStages c (first ++ second) db = (.ok removed, done) ↔
      ∃ before after mid, removed = before ++ after ∧ runStages c first db = (.ok before, mid) ∧
        runStages c second mid = (.ok after, done) := by
  induction first generalizing db removed with
  | nil =>
    constructor
    · exact fun h => ⟨[], removed, db, rfl, rfl, h⟩
    · rintro ⟨before, after, mid, rfl, hfirst, hsecond⟩
      cases hfirst
      exact hsecond
  | cons stage rest ih =>
    rw [List.cons_append, runStages_cons]
    constructor
    · rintro ⟨n, others, mid, rfl, hstage, hothers⟩
      obtain ⟨before, after, last, rfl, hfirst, hsecond⟩ := ih.mp hothers
      exact ⟨n :: before, after, last, rfl, runStages_cons.mpr ⟨n, before, mid, rfl, hstage, hfirst⟩,
        hsecond⟩
    · rintro ⟨before, after, last, rfl, hfirst, hsecond⟩
      obtain ⟨n, others, mid, rfl, hstage, hothers⟩ := runStages_cons.mp hfirst
      exact ⟨n, others ++ after, mid, rfl, hstage, ih.mpr ⟨others, after, last, rfl, hothers, hsecond⟩⟩

theorem runStages_length {stages : List Stage} {removed : List ℕ}
    (h : runStages c stages db = (.ok removed, done)) : removed.length = stages.length := by
  induction stages generalizing db removed with
  | nil =>
    cases h
    rfl
  | cons stage rest ih =>
    obtain ⟨n, others, mid, rfl, -, hothers⟩ := runStages_cons.mp h
    rw [List.length_cons, List.length_cons, ih hothers]

theorem runStages_error {stages : List Stage} {failure : Failure}
    (h : runStages c stages db = (.error failure, done)) :
    ∃ k < stages.length, ∃ removed, runStages c (stages.take k) db = (.ok removed, done) := by
  induction stages generalizing db with
  | nil => cases h
  | cons stage rest ih =>
    rcases Action.bind_error.mp h with hstage | ⟨n, mid, hstage, hrest⟩
    · rw [Stage.run_error hstage]
      exact ⟨0, Nat.succ_pos _, [], rfl⟩
    · rcases Action.bind_error.mp hrest with hothers | ⟨others, last, -, hpure⟩
      · obtain ⟨k, hk, removed, hbefore⟩ := ih hothers
        refine ⟨k + 1, Nat.succ_lt_succ hk, n :: removed, ?_⟩
        exact runStages_cons.mpr ⟨n, removed, mid, rfl, hstage, hbefore⟩
      · cases hpure

theorem runStages_settled {stages : List Stage} (hd : DistinctKeys Snapshot.toRow db.tables.peers)
    (h : ∀ stage ∈ stages, (stage.call c).Settled db.tables) :
    runStages c stages db = (.ok (List.replicate stages.length 0), db) := by
  induction stages with
  | nil => rfl
  | cons stage rest ih =>
    have hstage : stage.run c db = (.ok 0, db) :=
      Stage.run_ok.mpr ((h stage List.mem_cons_self).run hd)
    have hrest := ih fun other ho => h other (List.mem_cons_of_mem stage ho)
    exact runStages_cons.mpr ⟨0, _, db, rfl, hstage, hrest⟩

/-- Stages that have been run are settled, and what was settled before them still is. -/
theorem runStages_settles {earlier stages : List Stage} {removed : List ℕ}
    (hd : DistinctKeys Snapshot.toRow db.tables.peers)
    (hs : ∀ stage ∈ earlier, (stage.call c).Settled db.tables)
    (h : runStages c stages db = (.ok removed, done)) :
    DistinctKeys Snapshot.toRow done.tables.peers ∧
      ∀ stage ∈ earlier ++ stages, (stage.call c).Settled done.tables := by
  induction stages generalizing db earlier removed with
  | nil =>
    cases h
    rw [List.append_nil]
    exact ⟨hd, hs⟩
  | cons stage rest ih =>
    obtain ⟨n, others, mid, rfl, hstage, hothers⟩ := runStages_cons.mp h
    have hmid := Stage.tables_of_ok hstage
    have hupkeep := Stage.upkeep c stage
    rw [List.append_cons]
    refine ih ?_ ?_ hothers
    · rw [hmid]
      exact hupkeep.distinct hd
    · intro other ho
      rw [hmid]
      rcases List.mem_append.mp ho with ho | ho
      · exact (hs other ho).effect hupkeep hd
      · rw [List.mem_singleton.mp ho]
        exact hupkeep.settles db.tables

theorem runStages_resume {first second : List Stage} {removed : List ℕ}
    (hd : DistinctKeys Snapshot.toRow db.tables.peers)
    (h : runStages c (first ++ second) db = (.ok removed, done)) :
    ∃ before after mid, removed = before ++ after ∧ runStages c first db = (.ok before, mid) ∧
      runStages c (first ++ second) mid = (.ok (List.replicate first.length 0 ++ after), done) := by
  obtain ⟨before, after, mid, rfl, hfirst, hsecond⟩ := runStages_append.mp h
  obtain ⟨hmid, hsettled⟩ := runStages_settles hd (List.forall_mem_nil _) hfirst
  have hagain := runStages_settled hmid hsettled
  exact ⟨before, after, mid, rfl, hfirst, runStages_append.mpr ⟨_, after, mid, rfl, hagain, hsecond⟩⟩

end Stages

def summary : List ℕ → RetentionOutcome
  | [trafficDeleted, peersDeleted, trafficCompressed, peersCompressed] =>
    { trafficDeleted, peersDeleted, trafficCompressed, peersCompressed
      vacuumed := 0 < trafficDeleted + peersDeleted + trafficCompressed + peersCompressed }
  | _ => ⟨0, 0, 0, 0, false⟩

theorem summary_rowsRemoved {removed : List ℕ} (h : removed.length = 4) :
    (summary removed).rowsRemoved = removed.sum := by
  obtain ⟨a, b, d, e, rfl⟩ : ∃ a b d e, removed = [a, b, d, e] := List.length_eq_four.mp h
  simp [summary, RetentionOutcome.rowsRemoved, add_assoc]

theorem summary_vacuumed {removed : List ℕ} (h : removed.length = 4) :
    (summary removed).vacuumed = true ↔ 0 < removed.sum := by
  obtain ⟨a, b, d, e, rfl⟩ : ∃ a b d e, removed = [a, b, d, e] := List.length_eq_four.mp h
  simp [summary, add_assoc]

theorem pass_eq (c : Cutoffs) (vacuum : Except StoreFault Unit) : pass c vacuum = do
    let removed ← runStages c Stage.all
    if (summary removed).vacuumed then Action.vacuum vacuum
    return summary removed := by
  simp only [pass, runStages, Stage.all, bind_assoc, pure_bind]
  rfl

section Passes

variable {c : Cutoffs} {db done : Database} {vacuum : Except StoreFault Unit}

theorem vacuum_cases (vacuum : Except StoreFault Unit) (db : Database) :
    vacuum = .ok () ∧ Action.vacuum vacuum db = (.ok (), db) ∨
    ∃ fault failure, vacuum = .error fault ∧ Action.vacuum vacuum db = (.error failure, db) := by
  cases vacuum with
  | ok _ => exact Or.inl ⟨rfl, rfl⟩
  | error fault => exact Or.inr ⟨fault, _, rfl, rfl⟩

/-- A pass ends as its stages do, unless rows were removed whose pages cannot be given back. -/
theorem pass_of_stages (vacuum : Except StoreFault Unit) {removed : List ℕ}
    (h : runStages c Stage.all db = (.ok removed, done)) :
    (0 < removed.sum → vacuum = .ok ()) ∧ pass c vacuum db = (.ok (summary removed), done) ∨
    0 < removed.sum ∧ ∃ fault failure, vacuum = .error fault ∧
      pass c vacuum db = (.error failure, done) := by
  have hvacuumed := summary_vacuumed (runStages_length h)
  rw [pass_eq, Action.bind_of_ok h]
  by_cases hrows : 0 < removed.sum
  · rw [if_pos (hvacuumed.mpr hrows)]
    rcases vacuum_cases vacuum done with ⟨hroom, hrun⟩ | ⟨fault, failure, hfault, hrun⟩
    · rw [Action.bind_of_ok hrun]
      exact Or.inl ⟨fun _ => hroom, rfl⟩
    · exact Or.inr ⟨hrows, fault, failure, hfault, Action.bind_error.mpr (Or.inl hrun)⟩
  · rw [if_neg (mt hvacuumed.mp hrows)]
    exact Or.inl ⟨fun h => absurd h hrows, rfl⟩

theorem pass_ok {outcome : RetentionOutcome} (h : pass c vacuum db = (.ok outcome, done)) :
    ∃ removed, runStages c Stage.all db = (.ok removed, done) ∧ outcome = summary removed := by
  rw [pass_eq] at h
  obtain ⟨removed, mid, hstages, -⟩ := Action.bind_ok.mp h
  rw [← pass_eq] at h
  rcases pass_of_stages vacuum hstages with ⟨-, hpass⟩ | ⟨-, _, _, -, hpass⟩
  · rw [hpass] at h
    cases h
    exact ⟨removed, hstages, rfl⟩
  · rw [hpass] at h
    cases h

/-- A pass that fails has stopped before one of its stages, or after all of them. -/
theorem pass_error {failure : Failure} (h : pass c vacuum db = (.error failure, done)) :
    ∃ k ≤ 4, ∃ removed, runStages c (Stage.all.take k) db = (.ok removed, done) ∧
      (k = 4 → 0 < removed.sum ∧ ∃ fault, vacuum = .error fault) := by
  cases hstages : runStages c Stage.all db with
  | mk result mid =>
    cases result with
    | ok removed =>
      rcases pass_of_stages vacuum hstages with
        ⟨-, hpass⟩ | ⟨hrows, fault, _, hfault, hpass⟩
      · rw [hpass] at h
        cases h
      · rw [hpass] at h
        cases h
        exact ⟨4, le_rfl, removed, hstages, fun _ => ⟨hrows, fault, hfault⟩⟩
    | error cause =>
      have hpass : pass c vacuum db = (.error cause, mid) := by
        rw [pass_eq]
        exact Action.bind_error.mpr (Or.inl hstages)
      rw [hpass] at h
      cases h
      obtain ⟨k, hk, removed, hbefore⟩ := runStages_error hstages
      have hlt : k < 4 := hk
      exact ⟨k, hlt.le, removed, hbefore, fun h4 => absurd h4 hlt.ne⟩

theorem stages_again {removed : List ℕ} (hd : DistinctKeys Snapshot.toRow db.tables.peers)
    (h : runStages c Stage.all db = (.ok removed, done)) (k : ℕ) :
    ∃ before mid again, runStages c (Stage.all.take k) db = (.ok before, mid) ∧
      before.sum + again.sum = removed.sum ∧ runStages c Stage.all mid = (.ok again, done) := by
  rw [← List.take_append_drop k Stage.all] at h
  obtain ⟨before, after, mid, rfl, hfirst, hrest⟩ := runStages_resume hd h
  rw [List.take_append_drop] at hrest
  refine ⟨before, mid, _, hfirst, ?_, hrest⟩
  rw [List.sum_append, List.sum_append, List.sum_replicate, smul_zero, zero_add]

theorem stages_twice {removed : List ℕ} (hd : DistinctKeys Snapshot.toRow db.tables.peers)
    (h : runStages c Stage.all db = (.ok removed, done)) :
    runStages c Stage.all done = (.ok [0, 0, 0, 0], done) := by
  obtain ⟨hdone, hsettled⟩ := runStages_settles hd (List.forall_mem_nil _) h
  exact runStages_settled hdone hsettled

variable {compactor : Compactor} {now : ℤ}

theorem run_of_pass_ok {outcome : RetentionOutcome}
    (h : pass (.at now compactor.config) vacuum db = (.ok outcome, done)) :
    compactor.run now db vacuum =
      ⟨.ok outcome, { compactor with last := some outcome }, events outcome, done⟩ := by
  have hpass : (pass (.at now compactor.config) vacuum).run db = (.ok outcome, done) := h
  rw [Compactor.run, hpass]

theorem run_of_pass_error {failure : Failure}
    (h : pass (.at now compactor.config) vacuum db = (.error failure, done)) :
    compactor.run now db vacuum = ⟨.error failure, compactor, [], done⟩ := by
  have hpass : (pass (.at now compactor.config) vacuum).run db = (.error failure, done) := h
  rw [Compactor.run, hpass]

theorem run_ok {outcome : RetentionOutcome}
    (h : (compactor.run now db vacuum).result = .ok outcome) :
    (compactor.run now db vacuum).compactor = { compactor with last := some outcome } ∧
      pass (.at now compactor.config) vacuum db =
        (.ok outcome, (compactor.run now db vacuum).database) := by
  rcases Action.ok_or_error (pass (.at now compactor.config) vacuum) db with
    ⟨_, done, hpass⟩ | ⟨_, done, hpass⟩
  · rw [run_of_pass_ok hpass] at h ⊢
    cases h
    exact ⟨rfl, hpass⟩
  · rw [run_of_pass_error hpass] at h
    cases h

theorem run_error {failure : Failure}
    (h : (compactor.run now db vacuum).result = .error failure) :
    (compactor.run now db vacuum).compactor = compactor ∧
      pass (.at now compactor.config) vacuum db =
        (.error failure, (compactor.run now db vacuum).database) := by
  rcases Action.ok_or_error (pass (.at now compactor.config) vacuum) db with
    ⟨_, done, hpass⟩ | ⟨_, done, hpass⟩
  · rw [run_of_pass_ok hpass] at h
    cases h
  · rw [run_of_pass_error hpass] at h ⊢
    cases h
    exact ⟨rfl, hpass⟩

theorem run_config (compactor : Compactor) (now : ℤ) (db : Database)
    (vacuum : Except StoreFault Unit) :
    (compactor.run now db vacuum).compactor.config = compactor.config := by
  cases hr : (compactor.run now db vacuum).result with
  | ok outcome => rw [(run_ok hr).1]
  | error failure => rw [(run_error hr).1]

/-- A run whose stages succeed leaves what they leave, and ends in an answer where no pages are to
be given back or they could be. -/
theorem run_of_stages (vacuum : Except StoreFault Unit) {removed : List ℕ}
    (h : runStages (.at now compactor.config) Stage.all db = (.ok removed, done)) :
    (compactor.run now db vacuum).database = done ∧
      (vacuum = .ok () ∨ removed.sum = 0 →
        (compactor.run now db vacuum).result = .ok (summary removed)) := by
  rcases pass_of_stages vacuum h with ⟨-, hpass⟩ | ⟨hrows, _, _, hfault, hpass⟩
  · rw [run_of_pass_ok hpass]
    exact ⟨rfl, fun _ => rfl⟩
  · rw [run_of_pass_error hpass]
    refine ⟨rfl, fun hfree => ?_⟩
    rcases hfree with hroom | hnone
    · rw [hfault] at hroom
      cases hroom
    · omega

end Passes

/-- A pass whose stages succeed can stop after any of them and be run again: it ends where it would
have ended, and removes in both parts together what it would have removed. After a whole pass there
is nothing left to do, so that a second one does not even vacuum. A pass that succeeds has run all
stages and is remembered. One that fails is not; it has stopped after some of its stages, after all
of them only where their pages could not be given back. -/
theorem pass_resumable (compactor : Compactor) (now : ℤ) (db : Database)
    (vacuum : Except StoreFault Unit) :
    let whole := compactor.run now db vacuum
    let stages := fun k => runStages (.at now compactor.config) (Stage.all.take k)
    (∀ removed done, DistinctKeys Snapshot.toRow db.tables.peers →
      (stages 4).run db = (.ok removed, done) →
      whole.database = done ∧
      (∀ k, ∃ before mid again, (stages k).run db = (.ok before, mid) ∧
        before.sum + again.rowsRemoved = removed.sum ∧
        ∀ (later : Compactor) (other : Except StoreFault Unit), later.config = compactor.config →
          (later.run now mid other).database = whole.database ∧
            (other = .ok () ∨ again.rowsRemoved = 0 →
              (later.run now mid other).result = .ok again)) ∧
      ∀ other, (whole.compactor.run now whole.database other).result = .ok ⟨0, 0, 0, 0, false⟩ ∧
        (whole.compactor.run now whole.database other).database = whole.database) ∧
    (∀ outcome, whole.result = .ok outcome →
      whole.compactor = { compactor with last := some outcome } ∧
      ∃ removed, (stages 4).run db = (.ok removed, whole.database) ∧
        outcome.rowsRemoved = removed.sum) ∧
    ∀ failure, whole.result = .error failure → whole.compactor = compactor ∧
      ∃ k ≤ 4, ∃ removed, (stages k).run db = (.ok removed, whole.database) ∧
        (k = 4 → 0 < removed.sum ∧ ∃ fault, vacuum = .error fault) := by
  intro whole stages
  have hconfig : whole.compactor.config = compactor.config := run_config compactor now db vacuum
  refine ⟨fun removed done hd hstages => ?_, fun outcome hok => ?_, fun failure herror => ?_⟩
  · have hdone : whole.database = done := (run_of_stages vacuum hstages).1
    refine ⟨hdone, fun k => ?_, fun other => ?_⟩
    · obtain ⟨before, mid, again, hfirst, hsum, hagain⟩ := stages_again hd hstages k
      have hrows := summary_rowsRemoved (runStages_length hagain)
      refine ⟨before, mid, summary again, hfirst, by rw [hrows, hsum], fun later other hsame => ?_⟩
      -- the database is that of the stages, whether the later pages can be given back or not
      rw [← hsame] at hagain
      obtain ⟨hended, hresult⟩ := run_of_stages other hagain
      rw [hdone, hrows]
      exact ⟨hended, hresult⟩
    · have htwice := stages_twice hd hstages
      rw [← hconfig] at htwice
      obtain ⟨hended, hresult⟩ := run_of_stages other htwice
      rw [hdone]
      exact ⟨hresult (Or.inr rfl), hended⟩
  · obtain ⟨hremembered, hpass⟩ := run_ok hok
    obtain ⟨removed, hstages, rfl⟩ := pass_ok hpass
    exact ⟨hremembered, removed, hstages, summary_rowsRemoved (runStages_length hstages)⟩
  · obtain ⟨hremembered, hpass⟩ := run_error herror
    exact ⟨hremembered, pass_error hpass⟩

/-- Rows on both sides of the cutoffs of a pass at second 3000000, some in the bucket in which raw
rows expire. -/
def monthOld : Database :=
  { Database.blank with tables :=
    { traffic := [⟨"a", 407999, .int 1, .int 1⟩, ⟨"a", 408000, .int 2, .int 2⟩,
        ⟨"a", 2390399, .int 3, .int 3⟩, ⟨"a", 2390400, .int 4, .int 4⟩]
      peers := [⟨⟨"p", 408000, .int 700, .int 50⟩, "e"⟩, ⟨⟨"p", 407000, .int 500, .int 40⟩, "e"⟩,
        ⟨⟨"p", 100, .int 300, .int 30⟩, "e"⟩, ⟨⟨"p", 2390400, .int 900, .int 90⟩, "e"⟩]
      trafficBuckets := [⟨"a", 374400, .int 5, .int 5⟩, ⟨"a", 403200, .int 6, .int 6⟩]
      peerBuckets := [] } }

theorem pass_resumable_after_month :
    let compactor := Compactor.ofConfig { trafficDays := 30, peerDays := 30 }
    let whole := compactor.run 3000000 monthOld (.error .cannotOpen)
    DistinctKeys Snapshot.toRow monthOld.tables.peers ∧ whole.result.isOk = false ∧
      (∃ before mid again,
        (runStages (.at 3000000 compactor.config) (Stage.all.take 3)).run monthOld =
          (.ok before, mid) ∧
        before.sum + again.rowsRemoved = 5 ∧ (compactor.run 3000000 mid).result = .ok again ∧
        (compactor.run 3000000 mid).database = whole.database) ∧
      (whole.compactor.run 3000000 whole.database).result = .ok ⟨0, 0, 0, 0, false⟩ := by
  intro compactor whole
  have hd : DistinctKeys Snapshot.toRow monthOld.tables.peers := by decide
  have hstages : ((runStages (.at 3000000 compactor.config) (Stage.all.take 4)).run monthOld).1 =
      .ok [1, 1, 2, 1] := by decide +kernel
  obtain ⟨-, hstops, hsecond⟩ := (pass_resumable compactor 3000000 monthOld (.error .cannotOpen)).1
    [1, 1, 2, 1] _ hd (Prod.ext hstages rfl)
  obtain ⟨before, mid, again, hfirst, hsum, hagain⟩ := hstops 3
  obtain ⟨hended, hresult⟩ := hagain compactor (.ok ()) rfl
  exact ⟨hd, by decide +kernel, ⟨before, mid, again, hfirst, hsum, hresult (Or.inl rfl), hended⟩,
    (hsecond (.ok ())).1⟩

end TrafficMeter.Retention
