import TrafficMeter.Metrics.Basic
import TrafficMeter.Store.Row

/-!
The metrics as text. Families stand in the order of their names, and the metrics of a family in the
order of their label values, labels in the order of their names. A family with labels but without
metrics is left out.
-/

namespace TrafficMeter

abbrev Labels := List (String × String)

/-- A line of a metric: what its name ends in, its labels and its value. -/
structure MetricLine where
  suffix : String
  labels : Labels
  value : String

structure Family where
  name : String
  help : String
  kind : String
  lines : List MetricLine

namespace Exposition

def amountText (n : Int) : String :=
  if 0 ≤ n then (Double.ofNat n.toNat).text else "-" ++ (Double.ofNat n.natAbs).text

def escapeChar (c : Char) : List Char :=
  match c with
  | '\\' => ['\\', '\\']
  | '"' => ['\\', '"']
  | '\n' => ['\\', 'n']
  | c => [c]

def labelText (label : String × String) : String :=
  label.1 ++ "=\"" ++ String.ofList (label.2.toList.flatMap escapeChar) ++ "\""

def labelsText (labels : Labels) : String :=
  if labels.isEmpty then ""
  else "\x7b" ++ ",".intercalate (labels.map labelText) ++ "\x7d"

def lineText (name : String) (line : MetricLine) : String :=
  name ++ line.suffix ++ labelsText line.labels ++ " " ++ line.value

def familyText (f : Family) : List String :=
  if f.lines.isEmpty then []
  else
    let name := "trafficd_" ++ f.name
    s!"# HELP {name} {f.help}" :: s!"# TYPE {name} {f.kind}" :: f.lines.map (lineText name)

def inOrder {κ α : Type} [LT κ] [DecidableLT κ] [DecidableEq κ] (m : Keyed κ α) : List (κ × α) :=
  (Store.sortedKeys m.keys).filterMap fun key => (m.get? key).map fun value => (key, value)

def labelled (label : String) (m : Keyed String Nat) : List MetricLine :=
  (inOrder m).map fun (key, n) => ⟨"", [(label, key)], amountText n⟩

def levels (label : String) (m : Keyed String Int) : List MetricLine :=
  (inOrder m).map fun (key, n) => ⟨"", [(label, key)], amountText n⟩

/-- Amounts with two labels, given in the order of their names. -/
def labelledTwice (first second : String) (m : Keyed (String × String) Nat) : List MetricLine :=
  let keys := Store.sortedKeys (m.keys.map fun (a, b) => [a, b])
  keys.filterMap fun key =>
    match key with
    | [a, b] => (m.get? (a, b)).map fun n => ⟨"", [(first, a), (second, b)], amountText n⟩
    | _ => none

def histograms (bounds : List Span) (m : Keyed String Histogram) : List MetricLine :=
  (inOrder m).flatMap fun (source, h) =>
    let bucket (bound : String) (count : Nat) : MetricLine :=
      ⟨"_bucket", [("source", source), ("le", bound)], amountText count⟩
    (bounds.zip h.upTo).map (fun (bound, count) => bucket bound.toDouble.text count) ++
      [bucket "+Inf" h.count, ⟨"_sum", [("source", source)], h.sum.text⟩,
        ⟨"_count", [("source", source)], amountText h.count⟩]

def removedByPass (m : Metrics) : Keyed (String × String) Nat :=
  ⟨m.removed.entries.map fun ((source, pass), n) => ((pass, source), n)⟩

def families (m : Metrics) : List Family := [
  ⟨"attribution_active_identities",
    "Identities seen in the access log within the active window.", "gauge",
    [⟨"", [], amountText m.active⟩]⟩,
  ⟨"attribution_dropped_bytes_total", "Aggregate bytes left unattributed, by reason.", "counter",
    labelled "reason" m.dropped⟩,
  ⟨"retained_entries", "Entries held in in-memory counter state.", "gauge",
    levels "source" m.retained⟩,
  ⟨"retention_rows_removed_total", "Raw rows removed by retention passes.", "counter",
    labelledTwice "pass" "source" (removedByPass m)⟩,
  ⟨"sampler_errors_total", "Total sampler ticks that failed.", "counter",
    labelled "source" m.errors⟩,
  ⟨"sampler_paused", "Whether a sampler is paused (1=yes, 0=no).", "gauge",
    levels "source" m.paused⟩,
  ⟨"sampler_rows_inserted_total", "Total rows written by samplers.", "counter",
    labelled "source" m.rows⟩,
  ⟨"sampler_tick_duration_seconds", "Time spent in one sampler tick.", "histogram",
    histograms Metrics.tickBounds m.tickTimes⟩,
  ⟨"sampler_ticks_total", "Total executed sampler ticks.", "counter", labelled "source" m.ticks⟩,
  ⟨"source_request_duration_seconds", "Upstream counter request duration.", "histogram",
    histograms Metrics.requestBounds m.requestTimes⟩,
  ⟨"source_requests_total", "Upstream counter requests by source and status.", "counter",
    labelledTwice "source" "status" m.requests⟩]

end Exposition

def Metrics.lines (m : Metrics) : List String :=
  (Exposition.families m).flatMap Exposition.familyText

end TrafficMeter
