/-!
Values by key, each key once. A key keeps its place at the end of the list when its value is
replaced; look-ups do not depend on the order.
-/

namespace TrafficMeter

structure Keyed (κ α : Type) where
  entries : List (κ × α)
  deriving DecidableEq, Repr

namespace Keyed

variable {κ α : Type} [DecidableEq κ]

def empty : Keyed κ α := ⟨[]⟩

def get? (m : Keyed κ α) (key : κ) : Option α := (m.entries.find? fun e => e.1 = key).map (·.2)

def insert (m : Keyed κ α) (key : κ) (value : α) : Keyed κ α :=
  ⟨(m.entries.filter fun e => e.1 ≠ key) ++ [(key, value)]⟩

def ofList (entries : List (κ × α)) : Keyed κ α :=
  entries.foldl (fun m (key, value) => m.insert key value) empty

def update (m : Keyed κ α) (key : κ) (default : α) (f : α → α) : Keyed κ α :=
  m.insert key (f ((m.get? key).getD default))

def keep (m : Keyed κ α) (p : κ → α → Bool) : Keyed κ α := ⟨m.entries.filter fun e => p e.1 e.2⟩

def keys (m : Keyed κ α) : List κ := m.entries.map (·.1)

def size (m : Keyed κ α) : Nat := m.entries.length

@[simp] theorem get?_empty (key : κ) : (empty : Keyed κ α).get? key = none := rfl

/-- Entries left out by their keys do not show in look-ups of other keys. -/
theorem find?_filter_key (entries : List (κ × α)) (p : κ → Bool) (key : κ) :
    (entries.filter fun e => p e.1).find? (fun e => e.1 = key) =
      if p key then entries.find? (fun e => e.1 = key) else none := by
  induction entries with
  | nil => simp
  | cons e rest ih =>
    by_cases hp : p e.1
    · rw [List.filter_cons, if_pos hp, List.find?_cons, List.find?_cons, ih]
      by_cases he : e.1 = key
      · subst he; simp [hp]
      · simp [he]
    · rw [List.filter_cons, if_neg hp, ih, List.find?_cons]
      by_cases he : e.1 = key
      · subst he; simp [hp]
      · simp [he]

/-- Which keys are kept decides alone what a look-up finds afterwards. -/
@[simp] theorem get?_keep (m : Keyed κ α) (p : κ → Bool) (key : κ) :
    (m.keep fun k _ => p k).get? key = if p key then m.get? key else none := by
  simp only [keep, get?, find?_filter_key]
  split <;> rfl

@[simp] theorem get?_insert (m : Keyed κ α) (key other : κ) (value : α) :
    (m.insert key value).get? other = if other = key then some value else m.get? other := by
  simp only [insert, get?, List.find?_append]
  rw [find?_filter_key m.entries (fun k => decide (k ≠ key)) other]
  by_cases h : other = key
  · simp [h]
  · have hne : ¬ key = other := fun e => h e.symm
    simp [h, hne]

end Keyed

end TrafficMeter
