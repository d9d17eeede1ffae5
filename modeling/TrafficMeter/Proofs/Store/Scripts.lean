import Mathlib.Data.Int.Notation
import Mathlib.Tactic.SplitIfs
import TrafficMeter.Proofs.Store.Outcomes
import TrafficMeter.Store.Migration

/-!
Scripts that move the schema. A script that spares the version table does the same whatever version is
marked, so one that runs between two marks in a transaction comes to one step of the whole database:
every statement of the script, then the mark of the version that it leads to, or nothing.
-/

namespace TrafficMeter.Store

section Statements

variable {schema ended : Schema} {name : String} {o : SchemaObject}

theorem sameName_iff {a b : String} : sameName a b = true ↔ a.toLower = b.toLower := beq_iff_eq

def Statement.Spares (name : String) : Statement → Prop
  | .dropTable other => sameName other name = false
  | _ => True

instance (name : String) (s : Statement) : Decidable (s.Spares name) := by
  cases s <;> unfold Statement.Spares <;> infer_instance

theorem Schema.relation?_append (added : Schema) (h : schema.relation? name = some o) :
    Schema.relation? (schema ++ added) name = some o := by
  unfold Schema.relation? at h ⊢
  rw [List.find?_append, h, Option.some_or]

theorem Schema.relation?_filter {keep : SchemaObject → Bool}
    (hkeep : ∀ o ∈ schema, o.isIndex = false → sameName o.name name = true → keep o = true) :
    Schema.relation? (schema.filter keep) name = schema.relation? name := by
  unfold Schema.relation?
  induction schema with
  | nil => rfl
  | cons o rest ih =>
    have hrest := ih fun p hp => hkeep p (List.mem_cons_of_mem o hp)
    by_cases hnamed : (!o.isIndex && sameName o.name name) = true
    · have hkept : keep o = true := by
        simp only [Bool.and_eq_true, Bool.not_eq_true'] at hnamed
        exact hkeep o List.mem_cons_self hnamed.1 hnamed.2
      simp only [List.filter_cons, hkept, List.find?_cons, hnamed, if_true]
    · rw [Bool.not_eq_true] at hnamed
      rw [List.filter_cons]
      split
      · simp only [List.find?_cons, hnamed]
        exact hrest
      · simp only [List.find?_cons, hnamed]
        exact hrest

theorem Statement.run_relation? {s : Statement} (hspares : s.Spares name)
    (hrun : s.run schema = .ok ended) (h : schema.relation? name = some o) :
    ended.relation? name = some o := by
  cases s with
  | createTable table columns =>
    simp only [Statement.run] at hrun
    split_ifs at hrun <;> cases hrun
    · exact h
    · exact Schema.relation?_append _ h
  | createIndex index table columns =>
    simp only [Statement.run] at hrun
    split at hrun
    · cases hrun
    · split_ifs at hrun
      · cases hrun
        exact h
      · split at hrun <;> cases hrun
        exact Schema.relation?_append _ h
    · cases hrun
  | createView view columns =>
    simp only [Statement.run] at hrun
    split_ifs at hrun
    cases hrun
    exact Schema.relation?_append _ h
  | dropTable table =>
    simp only [Statement.run] at hrun
    split at hrun
    · cases hrun
      exact h
    · rename_i own ownColumns hfound
      cases hrun
      rw [Schema.relation?_filter, h]
      intro other _ hother hsame
      -- an object of the spared name is not named like the table that goes
      have hown : sameName own table = true := by
        have := List.find?_some hfound
        simpa [SchemaObject.name] using (Bool.and_eq_true_iff.mp this).2
      have hdiffers : sameName other.name own = false := by
        rw [Bool.eq_false_iff]
        intro hgone
        rw [sameName_iff] at hgone hown hsame
        rw [Statement.Spares, Bool.eq_false_iff] at hspares
        exact hspares (sameName_iff.mpr (by rw [← hown, ← hgone, hsame]))
      cases other with
      | table other columns => simpa [SchemaObject.name] using hdiffers
      | index other of => cases hother
      | view other columns => rfl
    · cases hrun

def Statement.apply (db : Database) (s : Statement) : Except StoreFault Database := do
  let schema ← s.run db.schema
  return { (match s with | .dropTable name => db.withoutTable name | _ => db) with schema := schema }

theorem schema_of_apply {db after : Database} {s : Statement} (h : s.apply db = .ok after) :
    s.run db.schema = .ok after.schema := by
  unfold Statement.apply at h
  cases hr : s.run db.schema with
  | error fault =>
    rw [hr] at h
    cases h
  | ok schema =>
    rw [hr] at h
    cases h
    rfl

def Database.marked (db : Database) (mark : Option (ℤ × ℤ)) : Database := { db with version := mark }

theorem Database.withoutTable_marked (db : Database) (mark : Option (ℤ × ℤ))
    (h : sameName name versionTable = false) :
    (db.marked mark).withoutTable name = (db.withoutTable name).marked mark := by
  unfold Database.withoutTable
  rw [h, if_neg Bool.false_ne_true, if_neg Bool.false_ne_true]
  split_ifs <;> rfl

/-- What a statement does is the same whatever version is marked. -/
theorem Statement.apply_marked {s : Statement} (hspares : s.Spares versionTable) (db : Database)
    (mark : Option (ℤ × ℤ)) : s.apply (db.marked mark) = (s.apply db).map (·.marked mark) := by
  unfold Statement.apply
  change (s.run db.schema >>= _) = _
  cases s.run db.schema with
  | error fault => rfl
  | ok schema =>
    cases s with
    | dropTable name =>
      simp only [Database.withoutTable_marked db mark hspares]
      rfl
    | _ => rfl

end Statements

def Schema.Tracks (schema : Schema) : Prop :=
  ∃ name columns, schema.relation? versionTable = some (.table name columns) ∧
    ∀ c ∈ ["version", "dirty"], columns.any (sameName c) = true

def mark (version : ℕ) (dirty : Bool) : Option (ℤ × ℤ) :=
  if version = 0 then none else some (version, if dirty then 1 else 0)

namespace Database

/-- The database after all statements of a script, at a finished version. -/
def moved (db : Database) (script : List Statement) (version : ℕ) : Except StoreFault Database := do
  let after ← script.foldlM Statement.apply db
  return after.marked (mark version false)

end Database

section Scripts

variable {db after : Database} {script : List Statement} {version : ℕ}

theorem foldlM_keeps {ε α β : Type} {step : β → α → Except ε β} {P : β → Prop} {l : List α}
    (hstep : ∀ a ∈ l, ∀ {b c}, P b → step b a = .ok c → P c) {b c : β} (hb : P b)
    (hrun : l.foldlM step b = .ok c) : P c := by
  induction l generalizing b with
  | nil =>
    cases hrun
    exact hb
  | cons a rest ih =>
    rw [List.foldlM_cons, except_bind_ok] at hrun
    obtain ⟨mid, hone, hrest⟩ := hrun
    exact ih (fun x hx => hstep x (List.mem_cons_of_mem a hx))
      (hstep a List.mem_cons_self hb hone) hrest

theorem script_tracks (hspares : ∀ s ∈ script, s.Spares versionTable) (h : db.schema.Tracks)
    (hrun : script.foldlM Statement.apply db = .ok after) : after.schema.Tracks := by
  refine foldlM_keeps (P := fun db => db.schema.Tracks) ?_ h hrun
  rintro s hs b c ⟨name, columns, hfound, hcolumns⟩ hone
  exact ⟨name, columns, Statement.run_relation? (hspares s hs) (schema_of_apply hone) hfound,
    hcolumns⟩

theorem script_marked (hspares : ∀ s ∈ script, s.Spares versionTable) (mark : Option (ℤ × ℤ)) :
    script.foldlM Statement.apply (db.marked mark) =
      (script.foldlM Statement.apply db).map (·.marked mark) := by
  induction script generalizing db with
  | nil => rfl
  | cons s rest ih =>
    rw [List.foldlM_cons, List.foldlM_cons, s.apply_marked (hspares s List.mem_cons_self)]
    cases s.apply db with
    | error fault => rfl
    | ok mid => exact ih fun t ht => hspares t (List.mem_cons_of_mem s ht)

theorem Database.moved_spec (hspares : ∀ s ∈ script, s.Spares versionTable)
    (htracks : db.schema.Tracks) (hmoved : db.moved script version = .ok after) :
    after.schema.Tracks ∧ after.version = mark version false := by
  obtain ⟨ended, hrun, hafter⟩ := except_bind_ok.mp hmoved
  have hended : ended.schema.Tracks := script_tracks hspares htracks hrun
  cases hafter
  exact ⟨hended, rfl⟩

namespace Action

theorem execute_ok {s : Statement} : execute s db = (.ok (), after) ↔ s.apply db = .ok after := by
  change Action.bind (lift (s.run db.schema)) _ db = _ ↔ _
  unfold Statement.apply
  cases s.run db.schema with
  | error fault => exact ⟨nofun, nofun⟩
  | ok schema =>
    constructor
    · intro h
      exact congrArg Except.ok (congrArg Prod.snd h)
    · intro h
      cases h
      rfl

theorem executeAll_ok : executeAll script db = (.ok (), after) ↔
    script.foldlM Statement.apply db = .ok after := by
  induction script generalizing db with
  | nil =>
    constructor
    · intro h
      cases h
      rfl
    · intro h
      cases h
      rfl
  | cons s rest ih =>
    rw [executeAll, bind_ok, List.foldlM_cons, except_bind_ok]
    constructor
    · rintro ⟨_, mid, hone, hrest⟩
      exact ⟨mid, execute_ok.mp hone, ih.mp hrest⟩
    · rintro ⟨mid, hone, hrest⟩
      exact ⟨(), mid, execute_ok.mpr hone, ih.mpr hrest⟩

theorem setVersion_eq (htracks : db.schema.Tracks) (version : ℕ) (dirty : Bool) :
    setVersion version dirty db = (.ok (), db.marked (mark version dirty)) := by
  obtain ⟨name, columns, hfound, -⟩ := htracks
  have hwrites : db.schema.writes versionTable = .ok () := by simp [Schema.writes, hfound]
  change Action.bind (within _ (lift (db.schema.writes versionTable))) _ db = _
  rw [hwrites, mark]
  by_cases hv : version = 0
  · subst hv
    rfl
  · simp only [Action.bind, within, lift, if_pos hv, if_neg hv]
    rfl

/-- A script between two marks, in one transaction, is a whole move or fails. -/
theorem marked_ok (htracks : db.schema.Tracks) (hspares : ∀ s ∈ script, s.Spares versionTable)
    (first last : ℕ) (activity : String) :
    atomically (do
      setVersion first true
      within activity (executeAll script)
      setVersion last false) db = (.ok (), after) ↔ db.moved script last = .ok after := by
  rw [atomically_ok, bind_ok, setVersion_eq htracks, Database.moved, except_bind_ok]
  have htracked : ∀ {ended : Database}, script.foldlM Statement.apply db = .ok ended →
      (ended.marked (mark first true)).schema.Tracks := by
    intro ended hrun
    exact (script_tracks hspares htracks hrun : ended.schema.Tracks)
  constructor
  · rintro ⟨_, _, hmark, hrest⟩
    cases hmark
    obtain ⟨_, ended, hscript, hlast⟩ := bind_ok.mp hrest
    rw [within_ok, executeAll_ok, script_marked hspares] at hscript
    cases hrun : script.foldlM Statement.apply db with
    | error fault =>
      rw [hrun] at hscript
      cases hscript
    | ok clean =>
      rw [hrun] at hscript
      cases hscript
      -- the script ran under the dirty mark, which the last mark replaces
      rw [setVersion_eq (htracked hrun)] at hlast
      cases hlast
      exact ⟨clean, rfl, rfl⟩
  · rintro ⟨clean, hrun, hafter⟩
    cases hafter
    have hscript : within activity (executeAll script) (db.marked (mark first true)) =
        (.ok (), clean.marked (mark first true)) := by
      rw [within_ok, executeAll_ok, script_marked hspares, hrun]
      rfl
    refine ⟨(), _, rfl, bind_ok.mpr ⟨(), _, hscript, ?_⟩⟩
    rw [setVersion_eq (htracked hrun)]
    rfl

theorem marked_cases (htracks : db.schema.Tracks) (hspares : ∀ s ∈ script, s.Spares versionTable)
    (first last : ℕ) (activity : String) (action : Action Unit)
    (haction : action = atomically (do
      setVersion first true
      within activity (executeAll script)
      setVersion last false)) :
    (∃ after, db.moved script last = .ok after ∧ action db = (.ok (), after)) ∨
    ∃ fault failure, db.moved script last = .error fault ∧ action db = (.error failure, db) := by
  have hiff : ∀ after, action db = (.ok (), after) ↔ db.moved script last = .ok after := by
    intro after
    rw [haction]
    exact marked_ok htracks hspares first last activity
  rcases ok_or_error action db with ⟨_, after, hr⟩ | ⟨failure, after, hr⟩
  · exact Or.inl ⟨after, (hiff after).mp hr, hr⟩
  · cases hmoved : db.moved script last with
    | ok ended =>
      rw [(hiff ended).mpr hmoved] at hr
      cases hr
    | error fault =>
      have hsame : after = db := atomically_error (haction ▸ hr)
      exact Or.inr ⟨fault, failure, rfl, hsame ▸ hr⟩

end Action

end Scripts

end TrafficMeter.Store
