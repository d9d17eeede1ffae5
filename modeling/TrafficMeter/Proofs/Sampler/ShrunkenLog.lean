import TrafficMeter.Proofs.Sampler.LogTail

/-!
A log that is replaced between two looks. The watcher does not know how long the log was, only where
the first line without an end began. A log shorter than that is read from its start; one that is
shorter only than that unended line is read on from the middle.
-/

namespace TrafficMeter

open Store Text

structure LogLook where
  now : ℤ
  found : Except OsFault (List UInt8)

namespace LogLook

def contents (looks : List LogLook) : List (List UInt8) := looks.filterMap (·.found.toOption)

end LogLook

namespace LogWatcher

open LogLook

/-- The watcher after some looks; the newest look comes first. -/
def looked (w : LogWatcher) : List LogLook → LogWatcher
  | [] => w
  | look :: earlier => ((w.looked earlier).poll look.now look.found).2

section Place

variable {w : LogWatcher} {log new : List UInt8}

def AtUnended (w : LogWatcher) (log : List UInt8) : Prop :=
  ∃ read rest, log = read ++ rest ∧ lineFeed ∉ rest ∧ w.offset = some read.length

theorem scan_atUnended (w : LogWatcher) (now : ℤ) {start : ℕ} (h : start ≤ log.length) :
    (w.scan now start log).2.AtUnended log := by
  obtain ⟨lines, hlines, hoffset⟩ := scan_offset w now start log
  refine ⟨log.take start ++ lines, unended lineFeed (log.drop start), ?_, ?_, ?_⟩
  · rw [List.append_assoc, hlines, List.take_append_drop]
  · exact (not_mem_ended lineFeed (log.drop start)).2
  · rw [hoffset, List.length_append, List.length_take_of_le h]

theorem poll_atUnended (w : LogWatcher) (now : ℤ) (log : List UInt8) :
    (w.poll now (.ok log)).2.AtUnended log := by
  cases h : w.offset with
  | none =>
    rw [poll_of_first h]
    exact ⟨log, [], (List.append_nil log).symm, List.not_mem_nil, rfl⟩
  | some offset =>
    rw [poll_of_later h]
    apply scan_atUnended
    by_cases hshort : log.length < offset
    · rw [if_pos hshort]
      omega
    · rw [if_neg hshort]
      omega

theorem contents_cons (look : LogLook) (looks : List LogLook) :
    contents (look :: looks) = look.found.toOption.toList ++ contents looks := by
  rw [contents, List.filterMap_cons]
  cases look.found.toOption <;> rfl

theorem looked_cons_error {look : LogLook} {fault : OsFault} (h : look.found = .error fault)
    (w : LogWatcher) (looks : List LogLook) : w.looked (look :: looks) = w.looked looks := by
  rw [looked, h, poll]

theorem looked_cons_ok {look : LogLook} {log : List UInt8} (h : look.found = .ok log)
    (w : LogWatcher) (looks : List LogLook) :
    w.looked (look :: looks) = ((w.looked looks).poll look.now (.ok log)).2 := by
  rw [looked, h]

theorem offset_looked_of_nothing (hw : w.offset = none) {looks : List LogLook}
    (h : contents looks = []) : (w.looked looks).offset = none := by
  induction looks with
  | nil => exact hw
  | cons look earlier ih =>
    rw [contents_cons, List.append_eq_nil_iff] at h
    cases hfound : look.found with
    | error fault =>
      rw [looked_cons_error hfound]
      exact ih h.2
    | ok log =>
      rw [hfound] at h
      exact absurd h.1 (List.cons_ne_nil log [])

theorem looked_atUnended (w : LogWatcher) {looks : List LogLook} {older : List (List UInt8)}
    (h : contents looks = log :: older) : (w.looked looks).AtUnended log := by
  induction looks with
  | nil => cases h
  | cons look earlier ih =>
    rw [contents_cons] at h
    cases hfound : look.found with
    | error fault =>
      rw [hfound] at h
      rw [looked_cons_error hfound]
      exact ih h
    | ok found =>
      rw [hfound] at h
      obtain ⟨rfl, -⟩ := List.cons.inj h
      rw [looked_cons_ok hfound]
      exact poll_atUnended _ look.now found

theorem offset_looked_of_first (hw : w.offset = none) {looks : List LogLook}
    (h : contents looks = [log]) : (w.looked looks).offset = some log.length := by
  induction looks with
  | nil => cases h
  | cons look earlier ih =>
    rw [contents_cons] at h
    cases hfound : look.found with
    | error fault =>
      rw [hfound] at h
      rw [looked_cons_error hfound]
      exact ih h
    | ok found =>
      rw [hfound] at h
      obtain ⟨rfl, hnothing⟩ := List.cons.inj h
      rw [looked_cons_ok hfound, poll_of_first (offset_looked_of_nothing hw hnothing)]

theorem looked_settings (w : LogWatcher) (looks : List LogLook) :
    (w.looked looks).marker = w.marker ∧ (w.looked looks).retain = w.retain := by
  induction looks with
  | nil => exact ⟨rfl, rfl⟩
  | cons look earlier ih =>
    obtain ⟨hmarker, hretain⟩ := poll_settings (w.looked earlier) look.now look.found
    exact ⟨hmarker.trans ih.1, hretain.trans ih.2⟩

end Place

section Shrunken

variable {w : LogWatcher} {read new : List UInt8}

theorem due_of_shorter (h : w.offset = some read.length) (hshort : new.length < read.length) :
    w.due new = ended lineFeed new := by
  simp only [due, h]
  rw [if_pos hshort, List.drop_zero]

theorem due_of_not_shorter (h : w.offset = some read.length) (hlong : read.length ≤ new.length) :
    w.due new = ended lineFeed (new.drop read.length) := by
  simp only [due, h]
  rw [if_neg (Nat.not_lt.mpr hlong)]

theorem poll_looked (w : LogWatcher) (looks : List LogLook) (now : ℤ) (new : List UInt8) :
    ((w.looked looks).poll now (.ok new)).1 =
      .ok (w.hits ((w.looked looks).due new)).length := by
  rw [poll_count, hits, (looked_settings w looks).1, hits]

theorem rest_eq_nil {read rest : List UInt8} (hrest : lineFeed ∉ rest)
    (hlast : (read ++ rest).getLast? = some lineFeed) : rest = [] := by
  by_contra hne
  rw [List.getLast?_append_of_ne_nil _ hne] at hlast
  exact hrest (List.mem_of_getLast? hlast)

/-- Whoever is named in a line that a look scans is active from then on. -/
theorem mem_activeAt_of_due (h : w.offset ≠ none) (hretain : 0 ≤ w.retain) {now : ℤ}
    (hnow : minTime ≤ now) {identity : String} (hid : identity ∈ w.hits (w.due new)) {window : ℤ}
    (hwindow : 0 ≤ window) : identity ∈ (w.poll now (.ok new)).2.activeAt now window := by
  obtain ⟨offset, hoffset⟩ := Option.ne_none_iff_exists'.mp h
  have hcut : ∀ seconds : ℤ, 0 ≤ seconds → earlier now seconds ≤ now :=
    fun _ hseconds => earlier_le hseconds hnow
  have hseen := poll_seen w now new
  rw [hoffset] at hseen
  have hmark : (identity, now) ∈ (w.mark now (w.hits (w.due new))).seen.entries :=
    mem_mark.mpr (Or.inl ⟨hid, rfl⟩)
  rw [activeAt, hseen, mem_sortedKeys]
  simp only [prune, Keyed.keys, Keyed.keep, List.mem_map, List.mem_filter, decide_eq_true_eq]
  exact ⟨(identity, now), ⟨⟨hmark, hcut _ hretain⟩, hcut _ hwindow⟩, rfl⟩

end Shrunken

/-- What a look makes of a log that has become shorter. If it is shorter than what the watcher has
read of the old one, all its lines are scanned; if it is shorter only than the line after that, the
lines that lie before the watcher's place are not. The first case is the only one where the old log
ended with a line or was found by the first look. -/
theorem shrunken_log_reread (path marker : String) (retain : Span) {w : LogWatcher}
    (hw : w = ofLog path marker retain) {looks : List LogLook} {old : List UInt8}
    {older : List (List UInt8)} (hold : contents looks = old :: older) (now : ℤ) {new : List UInt8}
    (hshort : new.length < old.length) :
    (∃ rest, new = (ended lineFeed new).flatMap (· ++ [lineFeed]) ++ rest ∧
      lineFeed ∉ rest ∧ ∀ line ∈ ended lineFeed new, lineFeed ∉ line) ∧
    ∃ read rest, old = read ++ rest ∧ lineFeed ∉ rest ∧
      (w.looked looks).offset = some read.length ∧
      (older = [] ∨ old.getLast? = some lineFeed → rest = []) ∧
      (new.length < read.length →
        ((w.looked looks).poll now (.ok new)).1 =
          .ok (w.hits (ended lineFeed new)).length ∧
        (minTime ≤ now → ∀ window, 0 ≤ window → ∀ identity ∈ w.hits (ended lineFeed new),
          identity ∈ ((w.looked looks).poll now (.ok new)).2.activeAt now window)) ∧
      (read.length ≤ new.length →
        rest ≠ [] ∧ ∃ missed fresh, new = missed ++ fresh ∧ missed.length = read.length ∧
          ((w.looked looks).poll now (.ok new)).1 =
            .ok (w.hits (ended lineFeed fresh)).length) := by
  have hoffset : w.offset = none := by rw [hw]; rfl
  obtain ⟨hended, hunended⟩ := not_mem_ended lineFeed new
  refine ⟨⟨_, (flatMap_ended lineFeed new).symm, hunended, hended⟩, ?_⟩
  obtain ⟨read, rest, hparts, hrest, hplace⟩ := looked_atUnended w hold
  obtain ⟨hmarker, hretain⟩ := looked_settings w looks
  refine ⟨read, rest, hparts, hrest, hplace, ?_, ?_, ?_⟩
  · rintro (hfirst | hlast)
    · rw [hfirst] at hold
      have hwhole := offset_looked_of_first hoffset hold
      have hlen := congrArg List.length hparts
      rw [hplace, Option.some.injEq] at hwhole
      rw [List.length_append] at hlen
      exact List.eq_nil_of_length_eq_zero (by omega)
    · rw [hparts] at hlast
      exact rest_eq_nil hrest hlast
  · intro hread
    have hdue := due_of_shorter hplace hread
    constructor
    · rw [poll_looked, hdue]
    · intro hnow window hwindow identity hid
      apply mem_activeAt_of_due (by rw [hplace]; exact Option.some_ne_none _) _ hnow _ hwindow
      · rw [hretain, hw]
        exact Int.le_min.mpr ⟨Int.natCast_nonneg _, by decide⟩
      · rw [hits, hmarker, hdue]
        exact hid
  · intro hread
    have hlen := congrArg List.length hparts
    rw [List.length_append] at hlen
    refine ⟨?_, new.take read.length, new.drop read.length, ?_, ?_, ?_⟩
    · intro hnil
      rw [hnil, List.length_nil] at hlen
      omega
    · exact (List.take_append_drop read.length new).symm
    · exact List.length_take_of_le hread
    · rw [poll_looked, due_of_not_shorter hplace hread]

def interrupted : List LogLook :=
  [⟨107, .error .notFound⟩, ⟨105, .ok (octets "email: al\nemail: somebody with no end")⟩,
    ⟨100, .ok []⟩]

theorem shrunken_log_reread_below_unended :
    let w := ofLog "access.log" "email: " (.ofSeconds 600)
    (octets "email: b\n").length < (octets "email: al\nemail: somebody with no end").length ∧
    ((w.looked interrupted).poll 110 (.ok (octets "email: b\n"))).1 = .ok 1 ∧
    "b" ∈ ((w.looked interrupted).poll 110 (.ok (octets "email: b\n"))).2.activeAt 110 0 := by
  intro w
  have hold : contents interrupted =
      [octets "email: al\nemail: somebody with no end", []] := rfl
  have hless : (octets "email: b\n").length <
      (octets "email: al\nemail: somebody with no end").length := by decide +kernel
  obtain ⟨-, read, -, -, -, hplace, -, hshort, -⟩ :=
    shrunken_log_reread "access.log" "email: " (.ofSeconds 600) (show w = _ from rfl) hold 110 hless
  have hten : (w.looked interrupted).offset = some 10 := by decide +kernel
  have hread : read.length = 10 := by
    rw [hplace, Option.some.injEq] at hten
    exact hten
  obtain ⟨hanswer, hactive⟩ := hshort (by rw [hread]; decide +kernel)
  refine ⟨hless, ?_, hactive (by decide) 0 le_rfl "b" (by decide +kernel)⟩
  rw [hanswer]
  decide +kernel

/-- A log is replaced by one that is shorter, but not by as much as its last line had grown. -/
theorem shorter_log_read_from_middle :
    ∃ (looks : List LogLook) (old new : List UInt8) (older : List (List UInt8)),
      let w := ofLog "access.log" "email: " (.ofSeconds 600)
      contents looks = old :: older ∧ older ≠ [] ∧ new.length < old.length ∧
      ((w.looked looks).poll 110 (.ok new)).1 = .ok 1 ∧
      (w.hits (ended lineFeed new)).length = 2 := by
  refine ⟨interrupted, _, octets "email: bob\nemail: cy\n", _, rfl, ?_, ?_, ?_, ?_⟩
  all_goals decide +kernel

end LogWatcher

end TrafficMeter
