/-!
When a sampler runs. A timer is due at a moment and then once each period; a tick that comes late
skips the moments that have passed, so that the next one keeps to the period. Beside that a tick can
be asked for: requests that are waiting count as one, and a due moment comes first.
-/

namespace TrafficMeter

structure Timer where
  period : Nat
  now : Nat
  due : Nat
  requested : Bool
  paused : Bool
  ended : Bool
  positive : 0 < period := by decide
  deriving Repr

namespace Timer

def start (delay period : Nat) : Timer where
  period := max period 1
  now := 0
  due := delay
  requested := false
  paused := false
  ended := false
  positive := by omega

/-- How late a tick may be and still count as on time. -/
def tolerance : Nat := 5

/-- The moment after one that is due: the next of the period that is not over yet, or simply the
next if the tick is on time. -/
def nextDue (t : Timer) : Nat :=
  if t.due + tolerance < t.now then t.now + t.period - (t.now - t.due) % t.period
  else t.due + t.period

theorem due_lt_nextDue {t : Timer} : t.due ≤ t.now → t.due < t.nextDue := by
  have := Nat.mod_lt (t.now - t.due) t.positive
  have := t.positive
  unfold nextDue
  split <;> omega

def take? (t : Timer) : Option Timer :=
  if t.ended then none
  else if t.due ≤ t.now then some { t with due := t.nextDue }
  else if t.requested then some { t with requested := false }
  else none

def backlog (t : Timer) : Nat := (t.now + 1 - t.due) + (if t.requested then 1 else 0)

theorem backlog_take? {t next : Timer} (h : t.take? = some next) : next.backlog < t.backlog := by
  unfold take? at h
  split at h
  · cases h
  · split at h
    · next due =>
      cases h
      have := due_lt_nextDue due
      simp only [backlog]
      omega
    · split at h
      · next requested =>
        cases h
        simp only [backlog, requested]
        simp
      · cases h

/-- Lets a timer run until it waits. On each occasion that is not paused the work is done; work that
does not come to an end ends the timer. -/
def settle {σ : Type} (work : σ → Option σ) (t : Timer) (s : σ) : Timer × σ :=
  match _h : t.take? with
  | none => (t, s)
  | some next =>
    if next.paused then settle work next s
    else
      match work s with
      | some after => settle work next after
      | none => ({ next with ended := true }, s)
termination_by t.backlog
decreasing_by all_goals exact backlog_take? _h

def request (t : Timer) : Timer := { t with requested := true }

def advance (t : Timer) (millis : Nat) : Timer := { t with now := t.now + millis }

/-- Pauses or resumes ticks; occasions to tick pass unused meanwhile. -/
def setPaused (t : Timer) (paused : Bool) : Timer := { t with paused := paused }

def cancel (t : Timer) : Timer := { t with ended := true }

end Timer

end TrafficMeter
