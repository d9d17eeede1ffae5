import TrafficMeter.Amount
import TrafficMeter.Failure
import TrafficMeter.Keyed
import TrafficMeter.Span
import TrafficMeter.Store.Row
import TrafficMeter.Text.Blank
import TrafficMeter.Text.Line
import TrafficMeter.Text.Utf8

/-!
Who is connected, by the access log of a proxy. The watcher reads the lines that were added since
its last poll, from the start again if the log has shrunk, and remembers when each identity was last
seen. A line that is not ended yet is left for the next poll.
-/

namespace TrafficMeter

def afterMarker? (marker : List UInt8) : List UInt8 → Option (List UInt8)
  | [] => if marker.isEmpty then some [] else none
  | b :: rest =>
    if marker.isPrefixOf (b :: rest) then some ((b :: rest).drop marker.length)
    else afterMarker? marker rest

def identityIn? (marker line : List UInt8) : Option String :=
  if marker.isEmpty then none
  else
    match afterMarker? marker line with
    | none => none
    | some rest =>
      let word := rest.takeWhile fun b => !Text.isAsciiBlank b
      if word.isEmpty then none else some (Text.Utf8.decodeLossy word)

def lineFeed : UInt8 := 10

/-- A watcher of a log: the marker before identities, how long they are remembered, how many octets
were read once it has looked at the log, and when each identity was last seen. -/
structure LogWatcher where
  path : String
  marker : List UInt8
  retain : Int
  offset : Option Nat
  seen : Keyed String Int
  deriving DecidableEq, Repr

namespace LogWatcher

def ofLog (path marker : String) (retain : Span) : LogWatcher :=
  ⟨path, marker.toUTF8.toList, retain.wholeSeconds, none, .empty⟩

def hits (w : LogWatcher) (lines : List (List UInt8)) : List String :=
  lines.filterMap (identityIn? w.marker)

def mark (w : LogWatcher) (now : Int) (identities : List String) : LogWatcher :=
  { w with seen := identities.foldl (fun seen identity => seen.insert identity now) w.seen }

def prune (w : LogWatcher) (now : Int) : LogWatcher :=
  { w with seen := w.seen.keep fun _ seen => earlier now w.retain ≤ seen }

def scan (w : LogWatcher) (now : Int) (start : Nat) (log : List UInt8) : Nat × LogWatcher :=
  let unread := log.drop start
  let parts := Text.pieces lineFeed unread
  let unended := (parts.getLast?.getD []).length
  let found := w.hits parts.dropLast
  let next := (w.mark now found).prune now
  (found.length, { next with offset := some (start + (unread.length - unended)) })

/-- Looks at the log; the first look only finds its end. -/
def poll (w : LogWatcher) (now : Int) (log : Except OsFault (List UInt8)) :
    Outcome Nat × LogWatcher :=
  match log with
  | .error fault =>
    (Outcome.within s!"reading metadata of {w.path}" (Outcome.fail (.os fault)), w)
  | .ok log =>
    match w.offset with
    | none => (.ok 0, { w with offset := some log.length })
    | some offset =>
      let (count, next) := w.scan now (if log.length < offset then 0 else offset) log
      (.ok count, next)

def activeAt (w : LogWatcher) (now window : Int) : List String :=
  Store.sortedKeys (w.seen.keep fun _ seen => earlier now window ≤ seen).keys

end LogWatcher

end TrafficMeter
