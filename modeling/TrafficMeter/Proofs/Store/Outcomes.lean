import Mathlib.Data.Nat.Notation
import TrafficMeter.Store.Rollup

/-!
What actions on a database come to. `Yields` says it for one action on one database: the only answer
that the action can give, the only tables that it can leave behind then, and that it does give that
answer where no guard is set. It is closed under the ways in which actions are put together.
-/

namespace TrafficMeter.Store

theorem except_bind_ok {ε α β : Type} {x : Except ε α} {f : α → Except ε β} {b : β} :
    (x >>= f) = .ok b ↔ ∃ a, x = .ok a ∧ f a = .ok b := by
  cases x with
  | error e => exact ⟨nofun, nofun⟩
  | ok a => exact ⟨fun h => ⟨a, rfl, h⟩, fun ⟨_, ha, h⟩ => by cases ha; exact h⟩

namespace Action

variable {α β : Type} {db after : Database}

theorem ok_or_error (action : Action α) (db : Database) :
    (∃ a after, action db = (.ok a, after)) ∨ ∃ failure after, action db = (.error failure, after) := by
  cases hr : action db with
  | mk result after =>
    cases result with
    | ok a => exact Or.inl ⟨a, after, rfl⟩
    | error failure => exact Or.inr ⟨failure, after, rfl⟩

theorem bind_of_ok {action : Action α} {next : α → Action β} {a : α} {mid : Database}
    (h : action db = (.ok a, mid)) : (action >>= next) db = next a mid := by
  change Action.bind action next db = _
  rw [Action.bind, h]

theorem bind_ok {action : Action α} {next : α → Action β} {b : β} :
    (action >>= next) db = (.ok b, after) ↔
      ∃ a mid, action db = (.ok a, mid) ∧ next a mid = (.ok b, after) := by
  change Action.bind action next db = _ ↔ _
  unfold Action.bind
  cases action db with
  | mk result mid => cases result <;> simp [and_assoc]

theorem bind_error {action : Action α} {next : α → Action β} {failure : Failure} :
    (action >>= next) db = (.error failure, after) ↔ action db = (.error failure, after) ∨
      ∃ a mid, action db = (.ok a, mid) ∧ next a mid = (.error failure, after) := by
  change Action.bind action next db = _ ↔ _
  unfold Action.bind
  cases action db with
  | mk result mid => cases result <;> simp [and_assoc]

protected theorem id_map (action : Action α) : id <$> action = action := by
  funext db
  change Action.bind action Action.pure db = action db
  unfold Action.bind
  cases action db with
  | mk result after => cases result <;> rfl

protected theorem bind_assoc {γ : Type} (action : Action α) (f : α → Action β) (g : β → Action γ) :
    action >>= f >>= g = action >>= fun a => f a >>= g := by
  funext db
  change Action.bind (Action.bind action f) g db = Action.bind action (fun a => f a >>= g) db
  unfold Action.bind
  cases action db with
  | mk result after => cases result <;> rfl

instance : LawfulMonad Action :=
  LawfulMonad.mk' Action Action.id_map (fun _ _ => rfl) Action.bind_assoc

theorem lift_ok {result : Except StoreFault α} {a : α} :
    lift result db = (.ok a, after) ↔ result = .ok a ∧ db = after := by
  cases result <;> simp [lift]

theorem within_ok {activity : String} {action : Action α} {a : α} :
    within activity action db = (.ok a, after) ↔ action db = (.ok a, after) := by
  unfold within
  cases action db with
  | mk result mid => cases result <;> simp

theorem within_error {activity : String} {action : Action α} {failure : Failure}
    (h : within activity action db = (.error failure, after)) :
    ∃ cause, action db = (.error cause, after) := by
  unfold within at h
  cases hr : action db with
  | mk result mid =>
    rw [hr] at h
    cases result with
    | ok a => cases h
    | error cause =>
      cases h
      exact ⟨cause, rfl⟩

theorem atomically_ok {action : Action α} {a : α} :
    atomically action db = (.ok a, after) ↔ action db = (.ok a, after) := by
  unfold atomically
  cases action db with
  | mk result mid => cases result <;> simp

/-- Started on `db`, the action can only answer `a` and leave the tables `t`, and it does so if there
are no guards. -/
structure Yields (action : Action α) (db : Database) (a : α) (t : Tables) : Prop where
  only : ∀ b after, action db = (.ok b, after) → b = a ∧ after = { db with tables := t }
  free : db.guards = [] → action db = (.ok a, { db with tables := t })

namespace Yields

theorem pure (db : Database) (a : α) : Yields (Pure.pure a) db a db.tables where
  only _ _ h := by cases h; exact ⟨rfl, rfl⟩
  free _ := rfl

theorem bind {action : Action α} {next : α → Action β} {a : α} {b : β} {t u : Tables}
    (h : Yields action db a t) (k : Yields (next a) { db with tables := t } b u) :
    Yields (action >>= next) db b u where
  only c after hr := by
    obtain ⟨x, mid, hx, hn⟩ := bind_ok.mp hr
    obtain ⟨rfl, rfl⟩ := h.only x mid hx
    exact k.only c after hn
  free hg := bind_ok.mpr ⟨a, _, h.free hg, k.free hg⟩

theorem database (db : Database) : Yields database db db db.tables where
  only _ _ h := by cases h; exact ⟨rfl, rfl⟩
  free _ := rfl

theorem permit (db : Database) (table : Table) (change : Change) (id : String) :
    Yields (permit table change id) db () db.tables where
  only _ _ h := by
    unfold Action.permit at h
    split at h <;> cases h
    exact ⟨rfl, rfl⟩
  free hg := by
    have hr : db.refuses table change id = false := by simp [Database.refuses, hg]
    unfold Action.permit
    rw [hr]
    rfl

theorem modifyTables (db : Database) (f : Tables → Tables) :
    Yields (modifyTables f) db () (f db.tables) where
  only _ _ h := by cases h; exact ⟨rfl, rfl⟩
  free _ := rfl

theorem within {action : Action α} {a : α} {t : Tables} (activity : String)
    (h : Yields action db a t) : Yields (within activity action) db a t where
  only b after hr := h.only b after (within_ok.mp hr)
  free hg := within_ok.mpr (h.free hg)

theorem atomically {action : Action α} {a : α} {t : Tables} (h : Yields action db a t) :
    Yields (atomically action) db a t where
  only b after hr := h.only b after (atomically_ok.mp hr)
  free hg := atomically_ok.mpr (h.free hg)

theorem forM_permit (db : Database) (table : Table) (change : Change) (id : α → String)
    (l : List α) :
    Yields (l.forM fun a => Action.permit table change (id a)) db PUnit.unit db.tables := by
  induction l with
  | nil => exact pure db PUnit.unit
  | cons a rest ih => exact (permit db table change (id a)).bind ih

theorem forM {action : α → Action PUnit} (f : Tables → α → Tables)
    (h : ∀ a db, Yields (action a) db PUnit.unit (f db.tables a)) (db : Database) (l : List α) :
    Yields (l.forM action) db PUnit.unit (l.foldl f db.tables) := by
  induction l generalizing db with
  | nil => exact pure db PUnit.unit
  | cons a rest ih => exact (h a db).bind (ih _)

/-- Writing a batch in order, where `total` adds up the answers along the way. -/
theorem writeAll {write : α → Action ℕ} (f : Tables → α → Tables) (answer : Tables → α → ℕ)
    (total : Tables → List α → ℕ)
    (h : ∀ a db, Yields (write a) db (answer db.tables a) (f db.tables a))
    (hnil : ∀ t, total t [] = 0)
    (hcons : ∀ t a rest, total t (a :: rest) = answer t a + total (f t a) rest)
    (db : Database) (l : List α) :
    Yields (writeAll write l) db (total db.tables l) (l.foldl f db.tables) := by
  induction l generalizing db with
  | nil =>
    rw [hnil]
    exact pure db 0
  | cons a rest ih =>
    rw [hcons]
    exact (h a db).bind ((ih _).bind (pure _ _))

end Yields

end Action

end TrafficMeter.Store
