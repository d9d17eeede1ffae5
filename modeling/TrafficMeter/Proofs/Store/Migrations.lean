import Mathlib.Data.List.Nodup
import Mathlib.Order.Bounds.Basic
import TrafficMeter.Proofs.Store.Scripts

/-!
Moves between schema versions. A forward call climbs whole migrations until one fails, a backward
call takes back the migration of its version by one whole script or changes nothing, and the mark of
the version is finished after every call.
-/

namespace TrafficMeter.Store

namespace Database

def climbed (db : Database) (ms : List Migration) : Except StoreFault Database :=
  ms.foldlM (fun db m => db.moved m.up m.version) db

def versionNow (db : Database) : ℕ := (db.version.map fun mark => versionNumber mark.1).getD 0

def withVersionTable (db : Database) : Database :=
  if (db.schema.relation? versionTable).isSome || db.schema.hasIndex versionTable then db
  else { db with schema := db.schema ++ [.table versionTable ["version", "dirty"]] }

def Barred (db : Database) : Prop :=
  db.schema.relation? versionTable = none ∧ db.schema.hasIndex versionTable = true

/-- Either the version table is there, or there is no mark; a mark is finished and a 32-bit version. -/
structure Tracked (db : Database) : Prop where
  table : db.schema.Tracks ∨ db.schema.relation? versionTable = none ∧ db.version = none
  mark : ∀ mark ∈ db.version, mark.2 = 0 ∧ 0 ≤ mark.1 ∧ mark.1 < 4294967296

end Database

theorem scripts_spare : ∀ m ∈ migrations, ∀ s ∈ m.up ++ m.down, s.Spares versionTable := by
  decide +kernel

theorem migrations_ascending : migrations.Pairwise fun m n => m.version < n.version := by
  decide

theorem version_injective {m n : Migration} (hm : m ∈ migrations) (hn : n ∈ migrations)
    (h : m.version = n.version) : m = n := by
  have hdistinct : (migrations.map Migration.version).Nodup :=
    List.pairwise_map.mpr (migrations_ascending.imp fun hlt => hlt.ne)
  exact List.inj_on_of_nodup_map hdistinct hm hn h

theorem version_bounds : ∀ m ∈ migrations, m.version < 4294967296 := by
  decide

theorem up_spares {m : Migration} (hm : m ∈ migrations) : ∀ s ∈ m.up, s.Spares versionTable :=
  fun s hs => scripts_spare m hm s (List.mem_append_left _ hs)

theorem down_spares {m : Migration} (hm : m ∈ migrations) : ∀ s ∈ m.down, s.Spares versionTable :=
  fun s hs => scripts_spare m hm s (List.mem_append_right _ hs)

theorem newest_above {ms : List Migration} (h : ms.Pairwise fun m n => m.version < n.version)
    (current : ℕ) :
    ((ms.filter fun m => current < m.version).getLast?.map Migration.version).getD current =
      max current ((ms.getLast?.map Migration.version).getD 0) := by
  rcases List.eq_nil_or_concat ms with rfl | ⟨init, last, rfl⟩
  · simp
  · rw [List.concat_eq_append] at h ⊢
    have hinit : ∀ m ∈ init, m.version < last.version := by
      intro m hm
      exact (List.pairwise_append.mp h).2.2 m hm last List.mem_cons_self
    rw [List.filter_append]
    by_cases hc : current < last.version
    · simp [hc, hc.le]
    · have hnone : init.filter (fun m => current < m.version) = [] := by
        rw [List.filter_eq_nil_iff]
        intro m hm
        have := hinit m hm
        simp only [decide_eq_true_eq]
        omega
      simp [hnone, hc, not_lt.mp hc]

def Database.pending (db : Database) : List Migration :=
  migrations.filter fun m => db.versionNow < m.version

theorem Database.pending_subset (db : Database) : ∀ m ∈ db.pending, m ∈ migrations :=
  fun _ hm => (List.mem_filter.mp hm).1

section Marks

variable {db after : Database}

theorem versionNow_of_mark {version : ℕ} (h : version < 4294967296)
    (hmark : db.version = mark version false) : db.versionNow = version := by
  rw [Database.versionNow, hmark, mark]
  split
  · rename_i h0
    exact h0.symm
  · have hbounds : (0 : ℤ) ≤ version ∧ (version : ℤ) < 4294967296 := by omega
    simp only [Option.map_some, Option.getD_some, versionNumber, if_pos hbounds, Int.toNat_natCast]

theorem tracked_of_mark {version : ℕ} (h : version < 4294967296) (htracks : db.schema.Tracks)
    (hmark : db.version = mark version false) : db.Tracked := by
  refine ⟨Or.inl htracks, fun row hrow => ?_⟩
  rw [hmark, mark] at hrow
  split at hrow
  · cases hrow
  · cases hrow
    refine ⟨rfl, ?_, ?_⟩ <;> dsimp only <;> omega

theorem climbed_spec {ms : List Migration} (hms : ∀ m ∈ ms, m ∈ migrations) (h : db.Tracked)
    (htracks : db.schema.Tracks) (hclimb : db.climbed ms = .ok after) :
    after.Tracked ∧ after.schema.Tracks ∧
      after.versionNow = (ms.getLast?.map Migration.version).getD db.versionNow := by
  induction ms generalizing db with
  | nil =>
    cases hclimb
    exact ⟨h, htracks, rfl⟩
  | cons m rest ih =>
    obtain ⟨mid, hone, hrest⟩ := except_bind_ok.mp hclimb
    have hm := hms m List.mem_cons_self
    have hbound := version_bounds m hm
    obtain ⟨hmid, hmark⟩ := Database.moved_spec (up_spares hm) htracks hone
    obtain ⟨hafter, hplace, hversion⟩ := ih (fun n hn => hms n (List.mem_cons_of_mem m hn))
      (tracked_of_mark hbound hmid hmark) hmid hrest
    refine ⟨hafter, hplace, ?_⟩
    rw [hversion, versionNow_of_mark hbound hmark, List.getLast?_cons]
    cases rest.getLast? <;> rfl

end Marks

namespace Action

variable {db after : Database}

theorem applyAll_ok {ms : List Migration} (hms : ∀ m ∈ ms, m ∈ migrations)
    (htracks : db.schema.Tracks) (h : applyAll ms db = (.ok (), after)) :
    db.climbed ms = .ok after := by
  induction ms generalizing db with
  | nil =>
    cases h
    rfl
  | cons m rest ih =>
    have hm := hms m List.mem_cons_self
    obtain ⟨_, mid, hone, hrest⟩ := bind_ok.mp h
    have hmoved := (marked_ok htracks (up_spares hm) _ _ _).mp hone
    have hmid := (Database.moved_spec (up_spares hm) htracks hmoved).1
    have hclimb := ih (fun n hn => hms n (List.mem_cons_of_mem m hn)) hmid hrest
    exact except_bind_ok.mpr ⟨mid, hmoved, hclimb⟩

theorem applyAll_error {ms : List Migration} (hms : ∀ m ∈ ms, m ∈ migrations)
    (htracks : db.schema.Tracks) {failure : Failure}
    (h : applyAll ms db = (.error failure, after)) :
    ∃ done m rest, ms = done ++ m :: rest ∧ db.climbed done = .ok after ∧
      ∃ fault, after.moved m.up m.version = .error fault := by
  induction ms generalizing db with
  | nil => cases h
  | cons m rest ih =>
    have hm := hms m List.mem_cons_self
    rcases marked_cases htracks (up_spares hm) _ _ _ (applyMigration m) rfl with
      ⟨mid, hmoved, hone⟩ | ⟨fault, cause, hmoved, hone⟩
    · have hmid := (Database.moved_spec (up_spares hm) htracks hmoved).1
      rw [applyAll, bind_of_ok hone] at h
      obtain ⟨done, n, left, rfl, hclimb, hfault⟩ :=
        ih (fun n hn => hms n (List.mem_cons_of_mem m hn)) hmid h
      exact ⟨m :: done, n, left, rfl, except_bind_ok.mpr ⟨mid, hmoved, hclimb⟩, hfault⟩
    · rcases bind_error.mp h with hstop | ⟨_, mid, hok, -⟩
      · rw [hone] at hstop
        cases hstop
        exact ⟨[], m, rest, rfl, rfl, fault, hmoved⟩
      · rw [hone] at hok
        cases hok

theorem ensureVersionTable_barred (h : db.Barred) :
    (∃ failure, ensureVersionTable db = (.error failure, db)) ∧ db.withVersionTable = db := by
  have hrun : (Statement.createTable versionTable ["version", "dirty"]).run db.schema =
      .error (.nameTaken versionTable) := by simp [Statement.run, h.1, h.2]
  constructor
  · change ∃ failure, within _ (Action.bind (lift (Statement.run db.schema _)) _) db = _
    rw [hrun]
    exact ⟨_, rfl⟩
  · simp [Database.withVersionTable, h.2]

theorem ensureVersionTable_free (h : ¬ db.Barred) :
    ensureVersionTable db = (.ok (), db.withVersionTable) := by
  have hrun : (Statement.createTable versionTable ["version", "dirty"]).run db.schema =
      .ok db.withVersionTable.schema := by
    unfold Database.withVersionTable
    cases hr : db.schema.relation? versionTable with
    | some o => simp [Statement.run, hr]
    | none =>
      have hindex : db.schema.hasIndex versionTable = false :=
        Bool.eq_false_iff.mpr fun hi => h ⟨hr, hi⟩
      simp [Statement.run, hr, hindex]
  have hrest : db.withVersionTable = { db with schema := db.withVersionTable.schema } := by
    unfold Database.withVersionTable
    split <;> rfl
  change within _ (Action.bind (lift (Statement.run db.schema _)) _) db = _
  rw [hrun, hrest]
  rfl

end Action

theorem Database.Tracked.withVersionTable {db : Database} (h : db.Tracked) (hfree : ¬ db.Barred) :
    db.withVersionTable.Tracked ∧ db.withVersionTable.schema.Tracks ∧
      db.withVersionTable.versionNow = db.versionNow := by
  rcases h.table with ⟨name, columns, hfound, hcolumns⟩ | ⟨hnone, -⟩
  · have heq : db.withVersionTable = db := by simp [Database.withVersionTable, hfound]
    rw [heq]
    exact ⟨h, ⟨name, columns, hfound, hcolumns⟩, rfl⟩
  · have hindex : db.schema.hasIndex versionTable = false :=
      Bool.eq_false_iff.mpr fun hi => hfree ⟨hnone, hi⟩
    have heq : db.withVersionTable = { db with
        schema := db.schema ++ [.table versionTable ["version", "dirty"]] } := by
      simp [Database.withVersionTable, hnone, hindex]
    have htracks : db.withVersionTable.schema.Tracks := by
      rw [heq]
      refine ⟨versionTable, ["version", "dirty"], ?_, by decide +kernel⟩
      unfold Schema.relation? at hnone ⊢
      rw [List.find?_append, hnone, Option.none_or]
      simp [SchemaObject.isIndex, SchemaObject.name, sameName]
    have hmark : db.withVersionTable.version = db.version := by rw [heq]
    refine ⟨⟨Or.inl htracks, hmark ▸ h.mark⟩, htracks, ?_⟩
    rw [Database.versionNow, hmark, Database.versionNow]

theorem Database.Tracked.prepared {db : Database} (h : db.Tracked) : db.withVersionTable.Tracked := by
  by_cases hbarred : db.Barred
  · rw [(Action.ensureVersionTable_barred hbarred).2]
    exact h
  · exact (h.withVersionTable hbarred).1

namespace Action

variable {db after : Database}

theorem currentVersion_of_tracks (htracks : db.schema.Tracks) :
    currentVersion db = (.ok (db.versionNow, db.version.any (·.2 != 0)), db) := by
  obtain ⟨name, columns, hfound, hcolumns⟩ := htracks
  have hreads : db.schema.reads versionTable ["version", "dirty"] = .ok () := by
    have hnone : (["version", "dirty"].find? fun c => !columns.any (sameName c)) = none := by
      rw [List.find?_eq_none]
      intro c hc
      simp [hcolumns c hc]
    simp only [Schema.reads, hfound, hnone]
  change within _ (Action.bind (lift (db.schema.reads versionTable _)) _) db = _
  rw [hreads, Database.versionNow]
  simp only [within, Action.bind, lift]
  cases db.version <;> rfl

theorem currentVersion_eq (htracks : db.schema.Tracks) (h : db.Tracked) :
    currentVersion db = (.ok (db.versionNow, false), db) := by
  have hclean : db.version.any (·.2 != 0) = false := by
    cases hv : db.version with
    | none => rfl
    | some row => simp [(h.mark row hv).1]
  rw [currentVersion_of_tracks htracks, hclean]

theorem migrateUp_eq (h : db.Tracked) (hfree : ¬ db.Barred) : migrateUp db =
    applyAll db.pending db.withVersionTable := by
  obtain ⟨hnow, htracks, hversion⟩ := h.withVersionTable hfree
  rw [migrateUp, bind_of_ok (ensureVersionTable_free hfree),
    bind_of_ok (currentVersion_eq htracks hnow), hversion]
  rfl

theorem error_of_barred {next : Unit → Action Unit} (h : db.Barred) :
    ∃ failure, (ensureVersionTable >>= next) db = (.error failure, db) := by
  obtain ⟨⟨failure, hfail⟩, -⟩ := ensureVersionTable_barred h
  exact ⟨failure, bind_error.mpr (Or.inl hfail)⟩

/-- A backward call stays at version 0, takes back a whole migration, or finds none that it can take
back and changes nothing. -/
theorem migrateDown_cases (h : db.Tracked) :
    db.versionNow = 0 ∧ ¬ db.Barred ∧ migrateDown db = (.ok (), db.withVersionTable) ∨
    (∃ m ∈ migrations, ∃ after, m.version = db.versionNow ∧ ¬ db.Barred ∧
      migrateDown db = (.ok (), after) ∧
      db.withVersionTable.moved m.down (versionBelow m.version) = .ok after) ∨
    (∃ failure, migrateDown db = (.error failure, db.withVersionTable)) ∧
      (db.Barred ∨ db.versionNow ≠ 0 ∧ ∀ m ∈ migrations, m.version = db.versionNow →
        ∃ fault, db.withVersionTable.moved m.down (versionBelow m.version) = .error fault) := by
  by_cases hbarred : db.Barred
  · obtain ⟨failure, hfail⟩ := error_of_barred hbarred
    rw [(ensureVersionTable_barred hbarred).2]
    exact Or.inr (Or.inr ⟨⟨failure, hfail⟩, Or.inl hbarred⟩)
  obtain ⟨hnow, htracks, hversion⟩ := h.withVersionTable hbarred
  rw [migrateDown, bind_of_ok (ensureVersionTable_free hbarred),
    bind_of_ok (currentVersion_eq htracks hnow), hversion]
  dsimp only
  by_cases h0 : db.versionNow = 0
  · rw [if_pos h0]
    exact Or.inl ⟨h0, hbarred, rfl⟩
  rw [if_neg h0]
  right
  cases hfound : migrations.find? (·.version == db.versionNow) with
  | none =>
    refine Or.inr ⟨⟨_, rfl⟩, Or.inr ⟨h0, fun m hm hv => ?_⟩⟩
    exact absurd (beq_iff_eq.mpr hv) (List.find?_eq_none.mp hfound m hm)
  | some m =>
    have hm := List.mem_of_find?_eq_some hfound
    have hv : m.version = db.versionNow := by simpa using List.find?_some hfound
    rcases marked_cases htracks (down_spares hm) _ (versionBelow db.versionNow) _ _ rfl with
      ⟨after, hmoved, hone⟩ | ⟨fault, failure, hfault, hone⟩
    · exact Or.inl ⟨m, hm, after, hv, hbarred, hone, hv ▸ hmoved⟩
    · refine Or.inr ⟨⟨failure, hone⟩, Or.inr ⟨h0, fun other hother hsame => ?_⟩⟩
      rw [version_injective hother hm (hsame.trans hv.symm), hv]
      exact ⟨fault, hfault⟩

end Action

theorem foldl_max_isGreatest (l : List ℕ) (a : ℕ) : IsGreatest {v | v ∈ a :: l} (l.foldl max a) := by
  induction l generalizing a with
  | nil => exact ⟨List.mem_cons_self, fun v hv => by simp_all⟩
  | cons b rest ih =>
    obtain ⟨hmem, hmax⟩ := ih (max a b)
    constructor
    · rcases List.mem_cons.mp hmem with h | h
      · rw [List.foldl_cons, h]
        rcases le_total a b with hab | hab <;> simp [hab]
      · exact List.mem_cons_of_mem a (List.mem_cons_of_mem b h)
    · intro v hv
      have hlow : max a b ≤ (b :: rest).foldl max a := hmax List.mem_cons_self
      rcases List.mem_cons.mp hv with rfl | hv
      · exact (le_max_left _ _).trans hlow
      · rcases List.mem_cons.mp hv with rfl | hv
        · exact (le_max_right _ _).trans hlow
        · exact hmax (List.mem_cons_of_mem _ hv)

theorem versionBelow_isGreatest (current : ℕ) :
    IsGreatest {v | v = 0 ∨ v < current ∧ v ∈ migrations.map Migration.version}
      (Action.versionBelow current) := by
  have hset : {v | v = 0 ∨ v < current ∧ v ∈ migrations.map Migration.version} =
      {v | v ∈ 0 :: (migrations.filter fun m => m.version < current).map Migration.version} := by
    ext v
    simp only [Set.mem_ofPred_eq, List.mem_cons, List.mem_map, List.mem_filter, decide_eq_true_eq]
    refine or_congr_right ⟨?_, ?_⟩
    · rintro ⟨hlt, m, hm, rfl⟩
      exact ⟨m, ⟨hm, hlt⟩, rfl⟩
    · rintro ⟨m, ⟨hm, hlt⟩, rfl⟩
      exact ⟨hlt, m, hm, rfl⟩
  rw [hset]
  exact foldl_max_isGreatest _ 0

/-- A call that moves the schema. -/
inductive Move
  | up
  | down
  deriving DecidableEq, Repr

namespace Move

def action : Move → Action Unit
  | .up => Action.migrateUp
  | .down => Action.migrateDown

end Move

def moveAll (moves : List Move) (db : Database) : Database :=
  moves.foldl (fun db move => (move.action db).2) db

section Calls

variable {db after : Database}

theorem migrateUp_ok (h : db.Tracked) (hup : Action.migrateUp db = (.ok (), after)) :
    db.withVersionTable.climbed db.pending = .ok after ∧ after.Tracked ∧
      Action.currentVersion after = (.ok (max db.versionNow latestVersion, false), after) := by
  by_cases hbarred : db.Barred
  · obtain ⟨failure, hfail⟩ := Action.error_of_barred hbarred
    rw [Action.migrateUp, hfail] at hup
    cases hup
  obtain ⟨hnow, htracks, hversion⟩ := h.withVersionTable hbarred
  rw [Action.migrateUp_eq h hbarred] at hup
  have hclimb := Action.applyAll_ok db.pending_subset htracks hup
  obtain ⟨htracked, hplace, hlast⟩ := climbed_spec db.pending_subset hnow htracks hclimb
  refine ⟨hclimb, htracked, ?_⟩
  rw [Action.currentVersion_eq hplace htracked, hlast, hversion, Database.pending,
    newest_above migrations_ascending]
  rfl

theorem migrateUp_error (h : db.Tracked) {failure : Failure}
    (hup : Action.migrateUp db = (.error failure, after)) :
    after.Tracked ∧ (db.Barred ∧ after = db ∨
      ∃ done m rest, db.pending = done ++ m :: rest ∧
        db.withVersionTable.climbed done = .ok after ∧
        ∃ fault, after.moved m.up m.version = .error fault) := by
  by_cases hbarred : db.Barred
  · obtain ⟨failure, hfail⟩ := Action.error_of_barred hbarred
    rw [Action.migrateUp, hfail] at hup
    cases hup
    exact ⟨h, Or.inl ⟨hbarred, rfl⟩⟩
  obtain ⟨hnow, htracks, -⟩ := h.withVersionTable hbarred
  rw [Action.migrateUp_eq h hbarred] at hup
  obtain ⟨done, m, rest, hsplit, hclimb, hfault⟩ :=
    Action.applyAll_error db.pending_subset htracks hup
  have hdone : ∀ n ∈ done, n ∈ migrations := by
    intro n hn
    apply db.pending_subset
    rw [hsplit]
    exact List.mem_append_left _ hn
  exact ⟨(climbed_spec hdone hnow htracks hclimb).1, Or.inr ⟨done, m, rest, hsplit, hclimb, hfault⟩⟩

theorem migrateDown_ok (h : db.Tracked) (hdown : Action.migrateDown db = (.ok (), after)) :
    (db.versionNow = 0 ∧ after = db.withVersionTable ∨
      ∃ m ∈ migrations, m.version = db.versionNow ∧
        db.withVersionTable.moved m.down (Action.versionBelow db.versionNow) = .ok after) ∧
    after.Tracked ∧ Action.currentVersion after =
      (.ok (Action.versionBelow db.versionNow, false), after) := by
  rcases Action.migrateDown_cases h with ⟨h0, hfree, hr⟩ |
    ⟨m, hm, ended, hv, hfree, hr, hmoved⟩ | ⟨⟨failure, hr⟩, -⟩
  · obtain ⟨hnow, htracks, hversion⟩ := h.withVersionTable hfree
    rw [hr] at hdown
    cases hdown
    rw [Action.currentVersion_eq htracks hnow, hversion, h0]
    exact ⟨Or.inl ⟨rfl, rfl⟩, hnow, rfl⟩
  · obtain ⟨-, htracks, -⟩ := h.withVersionTable hfree
    rw [hr] at hdown
    cases hdown
    obtain ⟨hplace, hmark⟩ := Database.moved_spec (down_spares hm) htracks hmoved
    have hbound : Action.versionBelow m.version < 4294967296 := by
      rcases (versionBelow_isGreatest m.version).1 with h0 | ⟨hlt, -⟩
      · omega
      · exact hlt.trans (version_bounds m hm)
    have htracked := tracked_of_mark hbound hplace hmark
    rw [Action.currentVersion_eq hplace htracked, versionNow_of_mark hbound hmark, ← hv]
    exact ⟨Or.inr ⟨m, hm, rfl, hmoved⟩, htracked, rfl⟩
  · rw [hr] at hdown
    cases hdown

theorem migrateDown_error (h : db.Tracked) {failure : Failure}
    (hdown : Action.migrateDown db = (.error failure, after)) : after = db.withVersionTable ∧
      (db.Barred ∨ db.versionNow ≠ 0 ∧ ∀ m ∈ migrations, m.version = db.versionNow →
        ∃ fault, db.withVersionTable.moved m.down (Action.versionBelow m.version) =
          .error fault) := by
  rcases Action.migrateDown_cases h with ⟨-, -, hr⟩ | ⟨-, -, ended, -, -, hr, -⟩ | ⟨⟨cause, hr⟩, hwhy⟩
  · rw [hr] at hdown
    cases hdown
  · rw [hr] at hdown
    cases hdown
  · rw [hr] at hdown
    cases hdown
    exact ⟨rfl, hwhy⟩

/-- A dirty mark stops a forward call before it changes anything. -/
theorem migrateUp_dirty {version dirty : ℤ} (htracks : db.schema.Tracks)
    (hmark : db.version = some (version, dirty)) (hdirty : dirty ≠ 0) :
    Action.migrateUp db = (.error (.of (.schema (.dirty (versionNumber version)))), db) := by
  have hcurrent := Action.currentVersion_of_tracks htracks
  have hnow : db.versionNow = versionNumber version := by rw [Database.versionNow, hmark]; rfl
  have hflag : db.version.any (·.2 != 0) = true := by simp [hmark, hdirty]
  obtain ⟨name, columns, hfound, -⟩ := htracks
  have hfree : ¬ db.Barred := fun hb => by simp [hb.1] at hfound
  have hsame : db.withVersionTable = db := by simp [Database.withVersionTable, hfound]
  have htable := Action.ensureVersionTable_free hfree
  rw [hsame] at htable
  rw [hnow, hflag] at hcurrent
  rw [Action.migrateUp, Action.bind_of_ok htable, Action.bind_of_ok hcurrent]
  rfl

theorem Move.tracked (move : Move) (h : db.Tracked) : (move.action db).2.Tracked := by
  cases move with
  | up =>
    rcases Action.ok_or_error Action.migrateUp db with ⟨_, after, hr⟩ | ⟨failure, after, hr⟩
    · rw [action, hr]
      exact (migrateUp_ok h hr).2.1
    · rw [action, hr]
      exact (migrateUp_error h hr).1
  | down =>
    rcases Action.ok_or_error Action.migrateDown db with ⟨_, after, hr⟩ | ⟨failure, after, hr⟩
    · rw [action, hr]
      exact (migrateDown_ok h hr).2.1
    · rw [action, hr, (migrateDown_error h hr).1]
      exact h.prepared

theorem moveAll_tracked (moves : List Move) (h : db.Tracked) : (moveAll moves db).Tracked := by
  induction moves generalizing db with
  | nil => exact h
  | cons move rest ih => exact ih (move.tracked h)

end Calls

def viewedRuns : Database := { Database.blank with schema := [.view "sampler_runs" ["id"]] }

end TrafficMeter.Store
