import TrafficMeter.Json.Writer
import TrafficMeter.Source.Roster
import Mathlib.Data.List.Basic

/-!
The roster as a cache of its file. What it remembers was read from the file when that had the
remembered modification time, whatever failed since. So its answers are those of reading the file
anew, as long as no modification time ever stood for two contents.
-/

namespace TrafficMeter

inductive RosterEvent where
  | written (file : StampedFile)
  | lost (fault : OsFault)
  | asked
  deriving DecidableEq, Repr

namespace RosterEvent

def file : List RosterEvent → Except OsFault StampedFile
  | [] => .error .notFound
  | written file :: _ => .ok file
  | lost fault :: _ => .error fault
  | asked :: earlier => file earlier

def written? : RosterEvent → Option StampedFile
  | written file => some file
  | _ => none

def contents (history : List RosterEvent) : List StampedFile := history.filterMap written?

/-- No two contents were written with one modification time. -/
def StampsTell (history : List RosterEvent) : Prop :=
  ∀ a ∈ contents history, ∀ b ∈ contents history, a.modified = b.modified → a = b

instance (history : List RosterEvent) : Decidable (StampsTell history) :=
  inferInstanceAs (Decidable (∀ a ∈ _, ∀ b ∈ _, _ → _))

theorem contents_suffix {before history : List RosterEvent} (h : before <:+ history) :
    contents before ⊆ contents history :=
  (h.sublist.filterMap written?).subset

theorem StampsTell.of_suffix {before history : List RosterEvent} (h : StampsTell history)
    (hs : before <:+ history) : StampsTell before := by
  intro a ha b hb
  exact h a (contents_suffix hs ha) b (contents_suffix hs hb)

theorem mem_contents {history : List RosterEvent} {current : StampedFile}
    (h : file history = .ok current) : current ∈ contents history := by
  induction history with
  | nil => cases h
  | cons event earlier ih =>
    cases event with
    | written stored =>
      cases h
      exact List.mem_cons_self
    | lost fault => cases h
    | asked => exact ih h

end RosterEvent

namespace Roster

open RosterEvent

def reread (path : String) (file : Except OsFault StampedFile) : Outcome (List String) :=
  match file with
  | .error fault => Outcome.within s!"reading metadata of {path}" (Outcome.fail (.os fault))
  | .ok file => parse path file.octets

/-- How a roster answers: from memory where the modification time is the remembered one, else from
the file; only what could be read is remembered. -/
inductive Replies (r : Roster) :
    Except OsFault StampedFile → Outcome (List String) → Roster → Prop where
  | unreachable (fault : OsFault) : Replies r (.error fault)
    (.error ((Failure.of (.os fault)).within s!"reading metadata of {r.path}")) r
  | remembered {current : StampedFile} {entry : RosterEntry} (kept : r.entry = some entry)
    (same : entry.modified = current.modified) : Replies r (.ok current) (.ok entry.identities) r
  | taken {current : StampedFile} {identities : List String}
    (read : parse r.path current.octets = .ok identities) :
    Replies r (.ok current) (.ok identities)
      { r with entry := some ⟨current.modified, identities⟩ }
  | refused {current : StampedFile} {failure : Failure}
    (read : parse r.path current.octets = .error failure) :
    Replies r (.ok current) (.error failure) r

theorem identities_replies (r : Roster) (file : Except OsFault StampedFile) :
    Replies r file (r.identities file).1 (r.identities file).2 := by
  cases file with
  | error fault => exact .unreachable fault
  | ok current =>
    simp only [identities]
    cases hkept : r.entry.filter (·.modified = current.modified) with
    | some entry =>
      obtain ⟨kept, same⟩ := Option.filter_eq_some_iff.mp hkept
      exact .remembered kept (of_decide_eq_true same)
    | none =>
      cases hread : parse r.path current.octets with
      | ok identities => exact .taken hread
      | error failure => exact .refused hread

namespace Replies

variable {r next : Roster} {file : Except OsFault StampedFile} {answer : Outcome (List String)}

theorem path_eq (h : Replies r file answer next) : next.path = r.path := by
  cases h <;> rfl

theorem eq_of_error {failure : Failure} (h : Replies r file (.error failure) next) : next = r := by
  cases h <;> rfl

theorem entry_cases (h : Replies r file answer next) {entry : RosterEntry}
    (hentry : next.entry = some entry) : r.entry = some entry ∨
      ∃ octets, file = .ok ⟨entry.modified, octets⟩ ∧ parse r.path octets = .ok entry.identities := by
  cases h with
  | unreachable fault => exact Or.inl hentry
  | remembered kept same => exact Or.inl hentry
  | refused read => exact Or.inl hentry
  | taken read =>
    cases hentry
    exact Or.inr ⟨_, rfl, read⟩

theorem answer_cases {identities : List String} (h : Replies r file (.ok identities) next) :
    ∃ current, file = .ok current ∧ (r.entry = some ⟨current.modified, identities⟩ ∨
      parse r.path current.octets = .ok identities) := by
  cases h with
  | taken read => exact ⟨_, rfl, Or.inr read⟩
  | @remembered current entry kept same =>
    refine ⟨current, rfl, Or.inl ?_⟩
    rw [kept, ← same]

theorem eq_reread (h : Replies r file answer next)
    (hkept : ∀ current entry, file = .ok current → r.entry = some entry →
      entry.modified = current.modified → parse r.path current.octets = .ok entry.identities) :
    answer = reread r.path file := by
  cases h with
  | unreachable fault => rfl
  | taken read => exact read.symm
  | refused read => exact read.symm
  | remembered kept same => exact (hkept _ _ rfl kept same).symm

end Replies

def after (path : String) : List RosterEvent → Roster
  | [] => ofPath path
  | .asked :: earlier => ((after path earlier).identities (file earlier)).2
  | .written _ :: earlier => after path earlier
  | .lost _ :: earlier => after path earlier

def answers (path : String) : List RosterEvent → List (Outcome (List String))
  | [] => []
  | .asked :: earlier => ((after path earlier).identities (file earlier)).1 :: answers path earlier
  | .written _ :: earlier => answers path earlier
  | .lost _ :: earlier => answers path earlier

def rereadings (path : String) : List RosterEvent → List (Outcome (List String))
  | [] => []
  | .asked :: earlier => reread path (file earlier) :: rereadings path earlier
  | .written _ :: earlier => rereadings path earlier
  | .lost _ :: earlier => rereadings path earlier

section Histories

variable {path : String} {history : List RosterEvent}

theorem path_after : (after path history).path = path := by
  induction history with
  | nil => rfl
  | cons event earlier ih =>
    cases event with
    | asked => exact (identities_replies _ _).path_eq.trans ih
    | written stored => exact ih
    | lost fault => exact ih

theorem remembered_read {entry : RosterEntry} (h : (after path history).entry = some entry) :
    ∃ before octets, before <:+ history ∧ file before = .ok ⟨entry.modified, octets⟩ ∧
      parse path octets = .ok entry.identities := by
  induction history with
  | nil => cases h
  | cons event earlier ih =>
    have hearlier : (after path earlier).entry = some entry → ∃ before octets,
        before <:+ event :: earlier ∧ file before = .ok ⟨entry.modified, octets⟩ ∧
          parse path octets = .ok entry.identities := by
      intro hkept
      obtain ⟨before, octets, hsuffix, hfile, hparse⟩ := ih hkept
      exact ⟨before, octets, hsuffix.trans (List.suffix_cons event earlier), hfile, hparse⟩
    cases event with
    | written stored => exact hearlier h
    | lost fault => exact hearlier h
    | asked =>
      have hreply := identities_replies (after path earlier) (file earlier)
      rcases hreply.entry_cases h with hkept | ⟨octets, hfile, hparse⟩
      · exact hearlier hkept
      · rw [path_after] at hparse
        exact ⟨earlier, octets, List.suffix_cons _ earlier, hfile, hparse⟩

theorem answer_read {identities : List String}
    (h : ((after path history).identities (file history)).1 = .ok identities) :
    ∃ current before octets, file history = .ok current ∧ before <:+ history ∧
      file before = .ok ⟨current.modified, octets⟩ ∧ parse path octets = .ok identities := by
  have hreply := identities_replies (after path history) (file history)
  rw [h] at hreply
  obtain ⟨current, hfile, hkept | hparse⟩ := hreply.answer_cases
  · obtain ⟨before, octets, hsuffix, hbefore, hparse⟩ := remembered_read hkept
    exact ⟨current, before, octets, hfile, hsuffix, hbefore, hparse⟩
  · rw [path_after] at hparse
    exact ⟨current, history, current.octets, hfile, List.suffix_rfl, hfile, hparse⟩

theorem answer_eq_reread (h : StampsTell history) :
    ((after path history).identities (file history)).1 = reread path (file history) := by
  have hreply := identities_replies (after path history) (file history)
  rw [hreply.eq_reread, path_after]
  intro current entry hfile hentry hsame
  obtain ⟨before, octets, hsuffix, hbefore, hparse⟩ := remembered_read hentry
  have hthen := contents_suffix hsuffix (mem_contents hbefore)
  have heq := h _ hthen current (mem_contents hfile) hsame
  rw [path_after, ← heq]
  exact hparse

end Histories

/-- The cache does not show. Where modification times tell contents apart, all answers are those of
reading the file anew; and where they do not, an answer is still what the file held at some time with
its modification time. A call that fails changes nothing that is remembered. -/
theorem roster_cache_transparent (path : String) (history : List RosterEvent) :
    (StampsTell history → answers path history = rereadings path history) ∧
    ∀ earlier, .asked :: earlier <:+ history →
      (∀ failure, ((after path earlier).identities (file earlier)).1 = .error failure →
        (after path (.asked :: earlier)).entry = (after path earlier).entry) ∧
      ∀ identities, ((after path earlier).identities (file earlier)).1 = .ok identities →
        ∃ current before octets, file earlier = .ok current ∧ before <:+ earlier ∧
          file before = .ok ⟨current.modified, octets⟩ ∧ parse path octets = .ok identities := by
  constructor
  · intro h
    induction history with
    | nil => rfl
    | cons event earlier ih =>
      have hearlier := h.of_suffix (List.suffix_cons event earlier)
      cases event with
      | written stored => exact ih hearlier
      | lost fault => exact ih hearlier
      | asked => exact congrArg₂ List.cons (answer_eq_reread hearlier) (ih hearlier)
  · intro earlier _
    constructor
    · intro failure hfailed
      have hreply := identities_replies (after path earlier) (file earlier)
      rw [hfailed] at hreply
      exact congrArg Roster.entry hreply.eq_of_error
    · intro identities hanswer
      exact answer_read hanswer

def listed : Json :=
  .object [("inbounds", .arr [.object [("settings",
    .object [("clients", .arr [.object [("email", .ofString " a ")]])])]])]

def listedFile : StampedFile := ⟨5, listed.compact.toList.map fun c => c.toNat.toUInt8⟩

/-- A list is replaced by what is no text, the file is removed and the list restored; the newest event
first. -/
def restored : List RosterEvent :=
  [.asked, .written listedFile, .asked, .lost .notFound, .asked, .written ⟨6, [123, 255]⟩, .asked,
    .written listedFile]

theorem roster_cache_transparent_when_restored :
    StampsTell restored ∧ answers "proxy.json" restored = rereadings "proxy.json" restored ∧
      (answers "proxy.json" restored).map Except.toOption = [some ["a"], none, none, some ["a"]] := by
  have htell : StampsTell restored := by decide +kernel
  obtain ⟨heq, -⟩ := roster_cache_transparent "proxy.json" restored
  exact ⟨htell, heq htell, by decide +kernel⟩

end Roster

end TrafficMeter
