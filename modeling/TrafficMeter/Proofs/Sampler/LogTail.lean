import TrafficMeter.Proofs.Store.Grouping
import TrafficMeter.Proofs.Text.EndedLines
import TrafficMeter.Sampler.LogWatcher

/-!
Following a log that only grows. It does not matter in which portions octets come in: a line is
scanned by the first look after its end was written, and by no other. Nor does it matter that old
identities are forgotten, in windows no longer than the time that is retained.
-/

namespace TrafficMeter

open Store Text

/-- What happens around a watcher: octets are appended to the log, or the watcher looks at it, in vain
if there is a fault. -/
inductive LogEvent where
  | appended (octets : List UInt8)
  | polled (now : ℤ) (fault : Option OsFault)
  deriving DecidableEq, Repr

namespace LogEvent

def log (initial : List UInt8) : List LogEvent → List UInt8
  | [] => initial
  | appended octets :: earlier => log initial earlier ++ octets
  | polled _ _ :: earlier => log initial earlier

def isLook : LogEvent → Bool
  | polled _ none => true
  | _ => false

def tail : List LogEvent → List UInt8
  | [] => []
  | appended octets :: earlier => if earlier.any isLook then tail earlier ++ octets else []
  | polled _ _ :: earlier => tail earlier

def looked : List LogEvent → List UInt8
  | [] => []
  | event :: earlier => if event.isLook then tail earlier else looked earlier

theorem of_no_look {history : List LogEvent} (h : history.any isLook = false) :
    tail history = [] ∧ looked history = [] := by
  induction history with
  | nil => exact ⟨rfl, rfl⟩
  | cons event earlier ih =>
    rw [List.any_cons, Bool.or_eq_false_iff] at h
    obtain ⟨hevent, hearlier⟩ := h
    obtain ⟨ht, hl⟩ := ih hearlier
    constructor
    · cases event with
      | appended octets => simp [tail, hearlier]
      | polled now fault => exact ht
    · simp [looked, hevent, hl]

end LogEvent

theorem Keyed.mem_insert {κ α : Type} [DecidableEq κ] {m : Keyed κ α} {key k : κ} {value v : α} :
    (k, v) ∈ (m.insert key value).entries ↔ k = key ∧ v = value ∨ k ≠ key ∧ (k, v) ∈ m.entries := by
  simp only [Keyed.insert, List.mem_append, List.mem_filter, List.mem_singleton, Prod.mk.injEq]
  constructor
  · rintro (⟨hm, hne⟩ | he)
    · exact Or.inr ⟨of_decide_eq_true hne, hm⟩
    · exact Or.inl he
  · rintro (he | ⟨hne, hm⟩)
    · exact Or.inr he
    · exact Or.inl ⟨hm, decide_eq_true hne⟩

namespace LogWatcher

open LogEvent

def due (w : LogWatcher) (log : List UInt8) : List (List UInt8) :=
  match w.offset with
  | none => []
  | some offset => ended lineFeed (log.drop (if log.length < offset then 0 else offset))

theorem poll_count (w : LogWatcher) (now : ℤ) (log : List UInt8) :
    (w.poll now (.ok log)).1 = .ok (w.hits (w.due log)).length := by
  unfold poll due
  cases w.offset <;> rfl

/-- Reading from an offset on takes the watcher to the end of the last line that has one. -/
theorem scan_offset (w : LogWatcher) (now : ℤ) (start : ℕ) (log : List UInt8) :
    ∃ lines, lines ++ unended lineFeed (log.drop start) = log.drop start ∧
      (w.scan now start log).2.offset = some (start + lines.length) := by
  obtain ⟨lines, hlines⟩ : ∃ lines, lines ++ unended lineFeed (log.drop start) = log.drop start :=
    ⟨_, flatMap_ended lineFeed (log.drop start)⟩
  refine ⟨lines, hlines, ?_⟩
  have hlen := congrArg List.length hlines
  rw [List.length_append] at hlen
  change some (start + ((log.drop start).length - (unended lineFeed (log.drop start)).length)) = _
  rw [Option.some.injEq]
  omega

theorem poll_of_first {w : LogWatcher} (h : w.offset = none) (now : ℤ) (log : List UInt8) :
    (w.poll now (.ok log)).2 = { w with offset := some log.length } := by
  rw [poll, h]

theorem poll_of_later {w : LogWatcher} {offset : ℕ} (h : w.offset = some offset) (now : ℤ)
    (log : List UInt8) : (w.poll now (.ok log)).2 =
      (w.scan now (if log.length < offset then 0 else offset) log).2 := by
  rw [poll, h]

theorem poll_offset {w : LogWatcher} (now : ℤ) {read : List UInt8} (h : w.offset = some read.length)
    (unread : List UInt8) : ∃ lines, lines ++ unended lineFeed unread = unread ∧
      (w.poll now (.ok (read ++ unread))).2.offset = some (read ++ lines).length := by
  have hroom : ¬ (read ++ unread).length < read.length := by
    rw [List.length_append]
    omega
  obtain ⟨lines, hlines, hnext⟩ := scan_offset w now read.length (read ++ unread)
  rw [List.drop_left] at hlines
  refine ⟨lines, hlines, ?_⟩
  rw [poll_of_later h, if_neg hroom, hnext, List.length_append]

theorem poll_seen (w : LogWatcher) (now : ℤ) (log : List UInt8) :
    (w.poll now (.ok log)).2.seen =
      match w.offset with
      | none => w.seen
      | some _ => ((w.mark now (w.hits (w.due log))).prune now).seen := by
  unfold poll due
  cases w.offset <;> rfl

def look (w : LogWatcher) (now : ℤ) (fault : Option OsFault) (log : List UInt8) :
    Outcome ℕ × LogWatcher :=
  w.poll now (fault.elim (.ok log) .error)

def after (w : LogWatcher) (initial : List UInt8) : List LogEvent → LogWatcher
  | [] => w
  | .appended _ :: earlier => w.after initial earlier
  | .polled now fault :: earlier =>
    ((w.after initial earlier).look now fault (log initial earlier)).2

def answers (w : LogWatcher) (initial : List UInt8) : List LogEvent → List (Outcome ℕ)
  | [] => []
  | .appended _ :: earlier => w.answers initial earlier
  | .polled now fault :: earlier =>
    ((w.after initial earlier).look now fault (log initial earlier)).1 :: w.answers initial earlier

def scans (w : LogWatcher) (initial : List UInt8) : List LogEvent → List (ℤ × List (List UInt8))
  | [] => []
  | .polled now none :: earlier =>
    (now, (w.after initial earlier).due (log initial earlier)) :: w.scans initial earlier
  | _ :: earlier => w.scans initial earlier

section Offset

variable {initial : List UInt8} {history : List LogEvent}

theorem poll_settings (w : LogWatcher) (now : ℤ) (log : Except OsFault (List UInt8)) :
    (w.poll now log).2.marker = w.marker ∧ (w.poll now log).2.retain = w.retain := by
  unfold poll
  cases log with
  | error fault => exact ⟨rfl, rfl⟩
  | ok log => cases w.offset <;> exact ⟨rfl, rfl⟩

theorem after_settings (w : LogWatcher) (initial : List UInt8) (history : List LogEvent) :
    (w.after initial history).marker = w.marker ∧ (w.after initial history).retain = w.retain := by
  induction history with
  | nil => exact ⟨rfl, rfl⟩
  | cons event earlier ih =>
    cases event with
    | appended octets => exact ih
    | polled now fault =>
      obtain ⟨hm, hr⟩ := poll_settings (w.after initial earlier) now
        (fault.elim (.ok (log initial earlier)) .error)
      exact ⟨hm.trans ih.1, hr.trans ih.2⟩

def Stands (w : LogWatcher) (initial : List UInt8) (history : List LogEvent) : Prop :=
  if history.any isLook then
    ∃ read fresh, w.offset = some read.length ∧ tail history = looked history ++ fresh ∧
      log initial history = read ++ (unended lineFeed (looked history) ++ fresh)
  else w.offset = none

theorem stands_after {w : LogWatcher} (hw : w.offset = none) (initial : List UInt8)
    (history : List LogEvent) : (w.after initial history).Stands initial history := by
  induction history with
  | nil => exact hw
  | cons event earlier ih =>
    unfold Stands at ih ⊢
    cases hlook : earlier.any isLook with
    | false =>
      rw [if_neg (by simp [hlook])] at ih
      obtain ⟨ht, hl⟩ := of_no_look hlook
      cases event with
      | appended octets =>
        rw [if_neg (by simp [hlook, isLook])]
        exact ih
      | polled now fault =>
        cases fault with
        | some fault =>
          rw [if_neg (by simp [hlook, isLook])]
          exact ih
        | none =>
          rw [if_pos (by simp [isLook])]
          refine ⟨log initial earlier, [], ?_, ?_, ?_⟩
          · simp [after, look, poll, ih]
          · simp [tail, looked, isLook]
          · simp [log, looked, isLook, ht, unended, pieces]
    | true =>
      rw [if_pos hlook] at ih
      obtain ⟨read, fresh, hoffset, htail, hlog⟩ := ih
      rw [if_pos (by simp [hlook])]
      cases event with
      | appended octets =>
        refine ⟨read, fresh ++ octets, hoffset, ?_, ?_⟩
        · simp [tail, looked, isLook, hlook, htail]
        · simp [log, looked, isLook, hlog]
      | polled now fault =>
        cases fault with
        | some fault => exact ⟨read, fresh, hoffset, htail, hlog⟩
        | none =>
          -- What has no end yet in the part that is read has none in the whole tail.
          have hunended : unended lineFeed (tail earlier) =
              unended lineFeed (unended lineFeed (looked earlier) ++ fresh) := by
            rw [htail, unended_append]
          obtain ⟨lines, hlines, hnext⟩ :=
            poll_offset now hoffset (unended lineFeed (looked earlier) ++ fresh)
          rw [← hlog] at hnext
          refine ⟨read ++ lines, [], hnext, ?_, ?_⟩
          · simp [tail, looked, isLook]
          · simp [log, looked, isLook, hlog, hunended, hlines]

/-- What a look scans are the lines that have ended since the last look. -/
theorem Stands.ended_tail {w : LogWatcher} (h : w.Stands initial history) :
    ended lineFeed (tail history) =
      ended lineFeed (looked history) ++ w.due (log initial history) := by
  unfold Stands at h
  unfold due
  cases hlook : history.any isLook with
  | false =>
    rw [if_neg (by simp [hlook])] at h
    obtain ⟨ht, hl⟩ := of_no_look hlook
    simp [h, ht, hl]
  | true =>
    rw [if_pos hlook] at h
    obtain ⟨read, fresh, hoffset, htail, hlog⟩ := h
    have hroom : ¬ (log initial history).length < read.length := by
      rw [hlog, List.length_append]
      omega
    simp only [hoffset, if_neg hroom]
    rw [hlog, List.drop_left, htail, ended_append]

end Offset

section Scans

variable {w : LogWatcher} {initial : List UInt8} {history : List LogEvent}

theorem flatMap_scans (hw : w.offset = none) (initial : List UInt8) (history : List LogEvent) :
    (w.scans initial history).reverse.flatMap (·.2) = ended lineFeed (looked history) := by
  induction history with
  | nil => rfl
  | cons event earlier ih =>
    cases event with
    | appended octets => exact ih
    | polled now fault =>
      cases fault with
      | some fault => exact ih
      | none =>
        simp only [scans, List.reverse_cons, List.flatMap_append, List.flatMap_singleton, ih]
        exact (stands_after hw initial earlier).ended_tail.symm

theorem hits_after (w : LogWatcher) (initial : List UInt8) (history : List LogEvent)
    (lines : List (List UInt8)) : (w.after initial history).hits lines = w.hits lines := by
  unfold hits
  rw [(after_settings w initial history).1]

theorem look_none (w : LogWatcher) (now : ℤ) (initial : List UInt8) (history : List LogEvent) :
    ((w.after initial history).look now none (log initial history)).1 =
      .ok (w.hits ((w.after initial history).due (log initial history))).length := by
  rw [← hits_after w initial history]
  exact poll_count _ now _

theorem sum_answers (w : LogWatcher) (initial : List UInt8) (history : List LogEvent) :
    ((w.answers initial history).filterMap Except.toOption).sum =
      (w.hits ((w.scans initial history).reverse.flatMap (·.2))).length := by
  induction history with
  | nil => rfl
  | cons event earlier ih =>
    cases event with
    | appended octets => exact ih
    | polled now fault =>
      cases fault with
      | some fault => exact ih
      | none =>
        have hcount := look_none w now initial earlier
        simp only [answers, scans, hcount, List.filterMap_cons, Except.toOption, List.sum_cons, ih,
          List.reverse_cons, List.flatMap_append, List.flatMap_singleton]
        simp only [hits, List.filterMap_append, List.length_append]
        omega

end Scans

section Seen

variable {w : LogWatcher} {scanned : List (ℤ × List (List UInt8))}

theorem mem_mark {now t : ℤ} {identities : List String} {identity : String} :
    (identity, t) ∈ (w.mark now identities).seen.entries ↔
      identity ∈ identities ∧ t = now ∨
        identity ∉ identities ∧ (identity, t) ∈ w.seen.entries := by
  unfold mark
  dsimp only
  generalize w.seen = seen
  induction identities generalizing seen with
  | nil => simp
  | cons key rest ih =>
    rw [List.foldl_cons, ih, Keyed.mem_insert]
    by_cases hrest : identity ∈ rest
    · simp [hrest]
    · by_cases hkey : identity = key
      · subst hkey
        simp [hrest]
      · simp [hrest, hkey]

/-- What a watcher remembers tells for any time that none of its looks has left behind who was named
in a line scanned since. -/
def Remembers (w : LogWatcher) (scanned : List (ℤ × List (List UInt8))) : Prop :=
  ∀ since, (∀ s ∈ scanned, earlier s.1 w.retain ≤ since) → ∀ identity,
    (∃ t, (identity, t) ∈ w.seen.entries ∧ since ≤ t) ↔
      ∃ s ∈ scanned, since ≤ s.1 ∧ identity ∈ w.hits s.2

theorem Remembers.poll (h : w.Remembers scanned) {now : ℤ} (hnow : ∀ s ∈ scanned, s.1 ≤ now)
    (log : List UInt8) :
    (w.poll now (.ok log)).2.Remembers ((now, w.due log) :: scanned) := by
  intro since hsince identity
  obtain ⟨hmarker, hretain⟩ := poll_settings w now (.ok log)
  have hseen := poll_seen w now log
  rw [hretain] at hsince
  have hcut : earlier now w.retain ≤ since := hsince (now, w.due log) List.mem_cons_self
  have hold := h since (fun s hs => hsince s (List.mem_cons_of_mem _ hs)) identity
  simp only [hits, hmarker]
  cases hoffset : w.offset with
  | none =>
    rw [hoffset] at hseen
    have hnone : w.due log = [] := by
      unfold due
      rw [hoffset]
    rw [hseen, hold, hnone]
    simp [hits]
  | some offset =>
    rw [hoffset] at hseen
    -- Whoever is forgotten now was last seen before the time in question.
    have hkept : ∀ t, since ≤ t → ((identity, t) ∈ (w.poll now (.ok log)).2.seen.entries ↔
        (identity, t) ∈ (w.mark now (w.hits (w.due log))).seen.entries) := by
      intro t ht
      rw [hseen]
      simp only [prune, Keyed.keep, List.mem_filter, decide_eq_true_eq]
      constructor
      · exact And.left
      · intro hm
        exact ⟨hm, hcut.trans ht⟩
    constructor
    · rintro ⟨t, hm, ht⟩
      rw [hkept t ht, mem_mark] at hm
      rcases hm with ⟨hid, rfl⟩ | ⟨-, hm⟩
      · exact ⟨_, List.mem_cons_self, ht, hid⟩
      · obtain ⟨s, hs, hle, hid⟩ := hold.mp ⟨t, hm, ht⟩
        exact ⟨s, List.mem_cons_of_mem _ hs, hle, hid⟩
    · rintro ⟨s, hs, hle, hid⟩
      have hsnow : s.1 ≤ now := by
        rcases List.mem_cons.mp hs with rfl | hs
        · exact le_rfl
        · exact hnow s hs
      by_cases hnew : identity ∈ w.hits (w.due log)
      · refine ⟨now, ?_, hle.trans hsnow⟩
        rw [hkept now (hle.trans hsnow), mem_mark]
        exact Or.inl ⟨hnew, rfl⟩
      · have hs : s ∈ scanned := by
          rcases List.mem_cons.mp hs with rfl | hs
          · exact absurd hid hnew
          · exact hs
        obtain ⟨t, hm, ht⟩ := hold.mpr ⟨s, hs, hle, hid⟩
        refine ⟨t, ?_, ht⟩
        rw [hkept t ht, mem_mark]
        exact Or.inr ⟨hnew, hm⟩

theorem remembers_after {w : LogWatcher} (hw : w.seen = .empty) (initial : List UInt8)
    {history : List LogEvent}
    (htimes : (w.scans initial history).Pairwise fun later earlier => earlier.1 ≤ later.1) :
    (w.after initial history).Remembers (w.scans initial history) := by
  induction history with
  | nil =>
    intro since _ identity
    change (∃ t, (identity, t) ∈ w.seen.entries ∧ since ≤ t) ↔ _
    rw [hw]
    simp [Keyed.empty, scans]
  | cons event earlier ih =>
    cases event with
    | appended octets => exact ih htimes
    | polled now fault =>
      cases fault with
      | some fault => exact ih htimes
      | none =>
        obtain ⟨hnow, hrest⟩ := List.pairwise_cons.mp htimes
        exact (ih hrest).poll hnow _

theorem Remembers.activeAt (h : w.Remembers scanned) {now window : ℤ} (hnow : now ≤ maxTime)
    (htimes : ∀ s ∈ scanned, minTime ≤ s.1 ∧ s.1 ≤ now) (hwindow : 0 ≤ window)
    (hretain : window ≤ w.retain) :
    w.activeAt now window =
      sortedKeys ((scanned.filter fun s => now - window ≤ s.1).flatMap fun s => w.hits s.2) := by
  apply sortedKeys_congr
  intro identity
  have hsince : ∀ s ∈ scanned, earlier s.1 w.retain ≤ earlier now window := by
    intro s hs
    have hbefore := (htimes s hs).2
    exact clampTime_mono (by omega)
  have hcut : ∀ s ∈ scanned, earlier now window ≤ s.1 ↔ now - window ≤ s.1 := by
    intro s hs
    exact earlier_le_iff (htimes s hs).1 hnow hwindow
  have hold := h (earlier now window) hsince identity
  simp only [Keyed.keys, Keyed.keep, List.mem_map, List.mem_filter, List.mem_flatMap,
    decide_eq_true_eq]
  constructor
  · rintro ⟨⟨_, t⟩, ⟨hm, ht⟩, rfl⟩
    obtain ⟨s, hs, hle, hid⟩ := hold.mp ⟨t, hm, ht⟩
    exact ⟨s, ⟨hs, (hcut s hs).mp hle⟩, hid⟩
  · rintro ⟨s, ⟨hs, hle⟩, hid⟩
    obtain ⟨t, hm, ht⟩ := hold.mpr ⟨s, hs, (hcut s hs).mpr hle, hid⟩
    exact ⟨(identity, t), ⟨hm, ht⟩, rfl⟩

end Seen

/-- A watcher makes of a log that grows what it would make of it in one piece. It scans every line
that ends after its first look, in order and once, at the first look that finds the end. Within the
time that is retained, those whom it calls active are those named in the lines scanned since. -/
theorem followed_in_any_portions (path marker : String) (retain : Span) {w : LogWatcher}
    (hw : w = ofLog path marker retain) (initial : List UInt8) (history : List LogEvent) :
    (∃ rest,
      tail history = (ended lineFeed (tail history)).flatMap (· ++ [lineFeed]) ++ rest ∧
      lineFeed ∉ rest ∧ ∀ line ∈ ended lineFeed (tail history), lineFeed ∉ line) ∧
    (w.scans initial history).reverse.flatMap (·.2) = ended lineFeed (looked history) ∧
    (∀ now, ∃ lines,
      ended lineFeed (tail history) = ended lineFeed (looked history) ++ lines ∧
      w.scans initial (.polled now none :: history) = (now, lines) :: w.scans initial history ∧
      ((w.after initial history).look now none (log initial history)).1 =
        .ok (w.hits lines).length) ∧
    (∀ now fault, w.scans initial (.polled now (some fault) :: history) = w.scans initial history ∧
      (∃ failure, ((w.after initial history).look now (some fault) (log initial history)).1 =
        .error failure) ∧
      w.after initial (.polled now (some fault) :: history) = w.after initial history) ∧
    ((w.answers initial history).filterMap Except.toOption).sum =
      (w.hits (ended lineFeed (looked history))).length ∧
    ((w.scans initial history).Pairwise (fun later earlier => earlier.1 ≤ later.1) →
      ∀ now window, now ≤ maxTime →
        (∀ s ∈ w.scans initial history, minTime ≤ s.1 ∧ s.1 ≤ now) →
        0 ≤ window → window ≤ w.retain →
        (w.after initial history).activeAt now window =
          sortedKeys (((w.scans initial history).filter fun s => now - window ≤ s.1).flatMap
            fun s => w.hits s.2) ∧
        ((w.after initial history).activeAt now window).Pairwise (· < ·)) := by
  have hoffset : w.offset = none := by rw [hw]; rfl
  have hseen : w.seen = .empty := by rw [hw]; rfl
  refine ⟨?_, flatMap_scans hoffset initial history, ?_, ?_, ?_, ?_⟩
  · obtain ⟨hended, hunended⟩ := not_mem_ended lineFeed (tail history)
    exact ⟨_, (flatMap_ended lineFeed (tail history)).symm, hunended, hended⟩
  · intro now
    exact ⟨_, (stands_after hoffset initial history).ended_tail, rfl, look_none w now _ _⟩
  · intro now fault
    exact ⟨rfl, ⟨_, rfl⟩, rfl⟩
  · rw [sum_answers, flatMap_scans hoffset]
  · intro htimes now window hnow hscans hwindow hretain
    obtain ⟨-, hsettings⟩ := after_settings w initial history
    have hactive := (remembers_after hseen initial htimes).activeAt hnow hscans hwindow
      (hsettings ▸ hretain)
    constructor
    · rw [hactive]
      simp only [hits_after]
    · exact sortedKeys_pairwise _

def octets (text : String) : List UInt8 := text.toUTF8.toList

def portions : List LogEvent :=
  [.polled 1010 none, .appended (octets "b x\n"), .polled 1007 (some .notFound), .polled 1005 none,
    .appended (octets "to: al\nto [api]\nto: bo"), .polled 1000 none]

theorem followed_in_two_portions :
    let w := ofLog "access.log" "to: " (.ofSeconds 60)
    let log := octets "to: old\nto: o"
    (w.after log portions).activeAt 1010 60 = ["al", "bob"] ∧
    (w.after log portions).activeAt 1010 4 = ["bob"] ∧
    ((w.answers log portions).filterMap Except.toOption).sum = 2 := by
  intro w log
  obtain ⟨-, -, -, -, hsum, hactive⟩ :=
    followed_in_any_portions "access.log" "to: " (.ofSeconds 60) (show w = _ from rfl) log portions
  have htimes : (w.scans log portions).Pairwise fun later earlier => earlier.1 ≤ later.1 := by
    decide +kernel
  have hrange : ∀ s ∈ w.scans log portions, minTime ≤ s.1 ∧ s.1 ≤ 1010 := by decide +kernel
  have hwindow := hactive htimes 1010
  refine ⟨?_, ?_, ?_⟩
  · rw [(hwindow 60 (by decide) hrange (by decide) (by decide +kernel)).1]
    decide +kernel
  · rw [(hwindow 4 (by decide) hrange (by decide) (by decide +kernel)).1]
    decide +kernel
  · rw [hsum]
    decide +kernel

end LogWatcher

end TrafficMeter
