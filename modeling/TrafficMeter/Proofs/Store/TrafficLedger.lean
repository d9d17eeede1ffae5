import TrafficMeter.Proofs.Store.Rollups

/-!
The ledger of traffic. Every call of a run posts the rows that it wrote and those that it deleted
for good; a call that fails posts nothing. The tables then hold what was written and not deleted,
for each identity, however often rows were merged, rolled up or rewritten in between.
-/

namespace TrafficMeter.Store

structure Posting where
  outcome : Except Failure ℕ
  written : List Row
  removed : List Row

def lost (before after : List Row) : List Row := before.filter (· ∉ after)

namespace Call

/-- The traffic that a call writes if it succeeds: all samples of a merge, and those samples of an
append whose key is free when their turn comes. -/
def written (t : Tables) : Call → List Row
  | .append samples => newcomers id t.traffic (samples.map Sample.row)
  | .merge samples => samples.map Sample.row
  | .appendPeers _ | .hardDelete _ _ | .compress _ _ _ => []

def removed (before after : Tables) : Call → List Row
  | .hardDelete _ _ =>
    lost before.traffic after.traffic ++ lost before.trafficBuckets after.trafficBuckets
  | .append _ | .merge _ | .appendPeers _ | .compress _ _ _ => []

def posting (call : Call) (db : Database) : Posting :=
  match call.action.run db with
  | (.ok n, after) => ⟨.ok n, call.written db.tables, call.removed db.tables after.tables⟩
  | (.error failure, _) => ⟨.error failure, [], []⟩

def onTraffic : Call → Bool
  | .appendPeers _ => false
  | .append _ | .merge _ => true
  | .hardDelete series _ | .compress series _ _ => series = .traffic

end Call

def postings : List Call → Database → List Posting
  | [], _ => []
  | call :: rest, db => call.posting db :: postings rest (call.after db)

def writtenBy (calls : List Call) (db : Database) : List Row :=
  (postings calls db).flatMap Posting.written

def removedBy (calls : List Call) (db : Database) : List Row :=
  (postings calls db).flatMap Posting.removed

theorem writtenBy_cons (call : Call) (rest : List Call) (db : Database) :
    writtenBy (call :: rest) db = (call.posting db).written ++ writtenBy rest (call.after db) := rfl

theorem removedBy_cons (call : Call) (rest : List Call) (db : Database) :
    removedBy (call :: rest) db = (call.posting db).removed ++ removedBy rest (call.after db) := rfl

def movedOf (test : String → Bool) (rows : List Row) : ℕ × ℕ := movedAt (fun key => test key.1) rows

section Amounts

variable (test : String → Bool)

@[simp] theorem movedOf_append (a b : List Row) :
    movedOf test (a ++ b) = movedOf test a + movedOf test b := movedAt_append _ a b

theorem movedOf_lost (rows : List Row) (p : Row → Bool) :
    movedOf test (rows.filter p) + movedOf test (lost rows (rows.filter p)) = movedOf test rows := by
  have hlost : lost rows (rows.filter p) = rows.filter fun r => !p r := by
    apply List.filter_congr
    intro r hr
    cases hp : p r <;> simp [hr, hp]
  rw [hlost, ← movedOf_append]
  exact movedAt_perm _ (List.filter_append_perm p rows)

end Amounts

theorem mem_of_mem_lost {before after : List Row} {r : Row} (h : r ∈ lost before after) : r ∈ before :=
  (List.mem_filter.mp h).1

theorem lost_self (rows : List Row) : lost rows rows = [] := by
  simp [lost]

/-- The tables hold whole amounts, and these are what was written less what was deleted. -/
structure Balanced (t : Tables) (written removed : List Row) : Prop where
  held : ∀ r ∈ t.movements .traffic, r.Whole
  gone : ∀ r ∈ removed, r.Whole
  balance : ∀ test, movedOf test (t.movements .traffic) + movedOf test removed = movedOf test written

namespace Balanced

variable {t : Tables} {written removed : List Row}

theorem empty : Balanced .empty [] [] := by
  constructor
  · intro r hr
    cases hr
  · intro r hr
    cases hr
  · intro test
    rfl

theorem moved_le (h : Balanced t written removed) : moved (t.movements .traffic) ≤ moved written := by
  have hall := h.balance fun _ => true
  simp only [movedOf, movedAt_true] at hall
  rw [← hall]
  exact le_self_add

theorem tallied (h : Balanced t written removed) (fits : Storable (moved written)) :
    Tallied (t.movements .traffic) :=
  ⟨h.held, fits.mono h.moved_le⟩

theorem append (h : Balanced t written removed) (samples : List Sample) :
    Balanced (Call.effect t (.append samples))
      (written ++ newcomers id t.traffic (samples.map Sample.row)) removed := by
  have hheld : (Call.effect t (.append samples)).movements .traffic =
      (t.traffic ++ newcomers id t.traffic (samples.map Sample.row)) ++ t.trafficBuckets := by
    rw [← foldl_insertNew]
    rfl
  constructor
  · intro r hr
    rw [hheld, List.mem_append, List.mem_append] at hr
    rcases hr with (hr | hr) | hr
    · exact h.held r (List.mem_append_left _ hr)
    · exact Sample.rows_whole samples r (newcomers_subset _ _ _ hr)
    · exact h.held r (List.mem_append_right _ hr)
  · exact h.gone
  · intro test
    have hbalance := h.balance test
    change movedOf test (t.traffic ++ t.trafficBuckets) + _ = _ at hbalance
    rw [hheld, movedOf_append, movedOf_append, movedOf_append, ← hbalance, movedOf_append]
    ac_rfl

theorem merge (h : Balanced t written removed) (hs : t.Sound) (samples : List Sample)
    (fits : Storable (moved (written ++ samples.map Sample.row))) :
    Balanced (Call.effect t (.merge samples)) (written ++ samples.map Sample.row) removed := by
  have hstorable : Storable (moved t.traffic + moved (samples.map Sample.row)) := by
    apply fits.mono
    rw [moved_append]
    refine add_le_add_left (le_trans ?_ h.moved_le) _
    rw [Tables.movements, moved_append]
    exact le_self_add
  obtain ⟨hwhole, hmerged⟩ := foldl_merge_whole hs.traffic
    (fun r hr => h.held r (List.mem_append_left _ hr)) (Sample.rows_whole samples) hstorable
  constructor
  · intro r hr
    rcases List.mem_append.mp hr with hr | hr
    · exact hwhole r hr
    · exact h.held r (List.mem_append_right _ hr)
  · exact h.gone
  · intro test
    have hbalance := h.balance test
    have htraffic : movedOf test ((samples.map Sample.row).foldl Store.merge t.traffic) =
        movedOf test t.traffic + movedOf test (samples.map Sample.row) :=
      hmerged fun key => test key.1
    change movedOf test (t.traffic ++ t.trafficBuckets) + _ = _ at hbalance
    change movedOf test (((samples.map Sample.row).foldl Store.merge t.traffic) ++
      t.trafficBuckets) + _ = _
    rw [movedOf_append, htraffic, movedOf_append, ← hbalance, movedOf_append]
    ac_rfl

theorem delete (h : Balanced t written removed) (p q : Row → Bool) :
    Balanced { t with traffic := t.traffic.filter p, trafficBuckets := t.trafficBuckets.filter q }
      written (removed ++ (lost t.traffic (t.traffic.filter p) ++
        lost t.trafficBuckets (t.trafficBuckets.filter q))) := by
  constructor
  · intro r hr
    rcases List.mem_append.mp hr with hr | hr
    · exact h.held r (List.mem_append_left _ (List.mem_filter.mp hr).1)
    · exact h.held r (List.mem_append_right _ (List.mem_filter.mp hr).1)
  · intro r hr
    rw [List.mem_append, List.mem_append] at hr
    rcases hr with hr | hr | hr
    · exact h.gone r hr
    · exact h.held r (List.mem_append_left _ (mem_of_mem_lost hr))
    · exact h.held r (List.mem_append_right _ (mem_of_mem_lost hr))
  · intro test
    have hbalance := h.balance test
    change movedOf test (t.traffic ++ t.trafficBuckets) + _ = _ at hbalance
    change movedOf test (t.traffic.filter p ++ t.trafficBuckets.filter q) + _ = _
    simp only [movedOf_append] at hbalance ⊢
    rw [← hbalance, ← movedOf_lost test t.traffic p, ← movedOf_lost test t.trafficBuckets q]
    ac_rfl

theorem hardDelete (h : Balanced t written removed) (series : Series) (cutoff : ℤ) :
    Balanced (Call.effect t (.hardDelete series cutoff)) written
      (removed ++ Call.removed t (Call.effect t (.hardDelete series cutoff))
        (.hardDelete series cutoff)) := by
  cases series with
  | traffic => exact h.delete _ _
  | peers =>
    have hnone : Call.removed t (Call.effect t (.hardDelete .peers cutoff))
        (.hardDelete .peers cutoff) = [] := by
      change lost t.traffic t.traffic ++ lost t.trafficBuckets t.trafficBuckets = []
      rw [lost_self, lost_self, List.append_nil]
    rw [hnone, List.append_nil]
    exact ⟨h.held, h.gone, h.balance⟩

theorem compress (h : Balanced t written removed) (hs : t.Sound) (fits : Storable (moved written))
    (series : Series) (cutoff width : ℤ) :
    Balanced (Call.effect t (.compress series cutoff width)) written removed := by
  cases series with
  | peers => exact ⟨h.held, h.gone, h.balance⟩
  | traffic =>
    obtain ⟨-, hafter, hkeep⟩ := compress_spec hs (h.tallied fits) cutoff width
    refine ⟨hafter.whole, h.gone, fun test => ?_⟩
    have hsame : movedOf test ((t.compress cutoff width .traffic).movements .traffic) = _ :=
      hkeep (fun key => test key.1) fun _ _ => rfl
    rw [← h.balance test]
    exact congrArg (· + movedOf test removed) hsame

/-- Every call keeps the books. -/
theorem effect (h : Balanced t written removed) (hs : t.Sound) (call : Call)
    (fits : Storable (moved (written ++ call.written t))) :
    Balanced (call.effect t) (written ++ call.written t)
      (removed ++ call.removed t (call.effect t)) := by
  cases call with
  | append samples =>
    rw [Call.removed, List.append_nil]
    exact h.append samples
  | merge samples =>
    rw [Call.removed, List.append_nil]
    exact h.merge hs samples fits
  | appendPeers samples =>
    rw [Call.written, Call.removed, List.append_nil, List.append_nil]
    exact ⟨h.held, h.gone, h.balance⟩
  | hardDelete series cutoff =>
    rw [Call.written, List.append_nil]
    exact h.hardDelete series cutoff
  | compress series cutoff width =>
    rw [Call.written, Call.removed, List.append_nil, List.append_nil]
    exact h.compress hs fits.left series cutoff width

end Balanced

theorem Call.posting_error {call : Call} {db : Database} {failure : Failure}
    (h : call.action.run db = (.error failure, db)) : call.posting db = ⟨.error failure, [], []⟩ := by
  rw [Call.posting, h]

theorem Call.posting_ok {call : Call} {db : Database}
    (h : call.action.run db =
      (.ok (call.answer db.tables), { db with tables := call.effect db.tables })) :
    call.posting db = ⟨.ok (call.answer db.tables), call.written db.tables,
      call.removed db.tables (call.effect db.tables)⟩ := by
  rw [Call.posting, h]

theorem Balanced.step {db : Database} {written removed : List Row}
    (h : Balanced db.tables written removed) (hs : db.tables.Sound) (call : Call)
    (fits : Storable (moved (written ++ (call.posting db).written))) :
    Balanced (call.after db).tables (written ++ (call.posting db).written)
      (removed ++ (call.posting db).removed) := by
  rcases call.run_cases db with ⟨failure, hr⟩ | ⟨-, hr⟩
  · rw [Call.after, hr, Call.posting_error hr, List.append_nil, List.append_nil]
    exact h
  · rw [Call.posting_ok hr] at fits ⊢
    rw [Call.after, hr]
    exact h.effect hs call fits

theorem Balanced.run {db : Database} {written removed : List Row}
    (h : Balanced db.tables written removed) (hs : db.tables.Sound) (calls : List Call)
    (fits : Storable (moved (written ++ writtenBy calls db))) :
    Balanced (runAll calls db).tables (written ++ writtenBy calls db)
      (removed ++ removedBy calls db) := by
  induction calls generalizing db written removed with
  | nil =>
    rw [writtenBy, removedBy, postings, List.flatMap_nil, List.flatMap_nil, List.append_nil,
      List.append_nil]
    exact h
  | cons call rest ih =>
    rw [writtenBy_cons, ← List.append_assoc] at fits ⊢
    rw [removedBy_cons, ← List.append_assoc]
    exact ih (h.step hs call fits.left) (hs.after call) fits

theorem Balanced.succeeds {db : Database} {written removed : List Row}
    (h : Balanced db.tables written removed) (hs : db.tables.Sound) (fits : Storable (moved written))
    (hg : db.guards = []) {call : Call} (hc : call.onTraffic) :
    ∃ n, (call.posting db).outcome = .ok n := by
  have hsummable : call.Summable db.tables := by
    cases call with
    | compress series cutoff width =>
      have htraffic : series = .traffic := of_decide_eq_true hc
      subst htraffic
      exact (compress_spec hs (h.tallied fits) cutoff width).1
    | _ => trivial
  rw [Call.posting_ok ((call.yields hsummable).free hg)]
  exact ⟨_, rfl⟩

theorem Balanced.all_succeed {db : Database} {written removed : List Row}
    (h : Balanced db.tables written removed) (hs : db.tables.Sound) (hg : db.guards = [])
    {calls : List Call} (hc : ∀ call ∈ calls, call.onTraffic)
    (fits : Storable (moved (written ++ writtenBy calls db))) :
    ∀ e ∈ postings calls db, ∃ n, e.outcome = .ok n := by
  induction calls generalizing db written removed with
  | nil =>
    intro e he
    cases he
  | cons call rest ih =>
    rw [writtenBy_cons, ← List.append_assoc] at fits
    have hstep := h.step hs call fits.left
    have hguards : (call.after db).guards = [] := (call.after_guards db).trans hg
    intro e he
    rcases List.mem_cons.mp he with rfl | he
    · exact h.succeeds hs fits.left.left hg (hc call List.mem_cons_self)
    · apply ih hstep (hs.after call) hguards _ fits e he
      intro other ho
      exact hc other (List.mem_cons_of_mem call ho)

/-- Nothing is lost or counted twice: after any run from empty tables each identity's traffic is in
the tables or was deleted for good. -/
theorem traffic_conserved {db : Database} (hempty : db.tables = .empty) (calls : List Call)
    (fits : Storable (moved (writtenBy calls db))) :
    (∀ identity,
      moved (((runAll calls db).tables.traffic ++ (runAll calls db).tables.trafficBuckets).filter
          (·.id == identity)) +
        moved ((removedBy calls db).filter (·.id == identity)) =
      moved ((writtenBy calls db).filter (·.id == identity))) ∧
    (∀ r ∈ (runAll calls db).tables.traffic ++ (runAll calls db).tables.trafficBuckets ++
      removedBy calls db, r.Whole) ∧
    (db.guards = [] → (∀ call ∈ calls, call.onTraffic) →
      ∀ e ∈ postings calls db, ∃ n, e.outcome = .ok n) := by
  have hbalanced : Balanced db.tables [] [] := by
    rw [hempty]
    exact Balanced.empty
  have hsound : db.tables.Sound := by
    rw [hempty]
    exact Tables.Sound.empty
  have hrun := hbalanced.run hsound calls fits
  refine ⟨fun identity => hrun.balance (· == identity), fun r hr => ?_, fun hg hc => ?_⟩
  · rcases List.mem_append.mp hr with hr | hr
    · exact hrun.held r hr
    · exact hrun.gone r hr
  · exact hbalanced.all_succeed hsound hg hc fits

def lateCalls : List Call :=
  [.merge [⟨"a", -5, 10, 1⟩, ⟨"a", -5, 20, 2⟩, ⟨"b", 70, 4, 4⟩],
    .append [⟨"a", -5, 99, 99⟩, ⟨"a", 30, 7, 0⟩],
    .compress .traffic 60 60,
    .append [⟨"a", -5, 3, 3⟩],
    .compress .traffic 60 60,
    .append [⟨"a", 90, 1, 1⟩],
    .hardDelete .traffic 28800,
    .merge [⟨"a", 30, 5, 5⟩]]

theorem traffic_conserved_late : Storable (moved (writtenBy lateCalls Database.blank)) ∧
    moved (((runAll lateCalls Database.blank).tables.traffic ++
        (runAll lateCalls Database.blank).tables.trafficBuckets).filter (·.id == "a")) +
      moved ((removedBy lateCalls Database.blank).filter (·.id == "a")) =
    moved ((writtenBy lateCalls Database.blank).filter (·.id == "a")) ∧
    ∀ e ∈ postings lateCalls Database.blank, ∃ n, e.outcome = .ok n := by
  have fits : Storable (moved (writtenBy lateCalls Database.blank)) := by decide +kernel
  obtain ⟨hconserved, -, hok⟩ := traffic_conserved (by rfl) lateCalls fits
  exact ⟨fits, hconserved "a", hok rfl (by decide)⟩

end TrafficMeter.Store
