import TrafficMeter.Json.Reader
import TrafficMeter.Json.Writer
import TrafficMeter.Store.Open
import TrafficMeter.Text.Utf8

/-!
Databases as documents, which is how a file holds them: the schema and its version, the rows of each
table, the run log and the guards. Main statement: reading a document gives back the database that it
was written from (`Database.ofJson?_toJson`).
-/

namespace TrafficMeter.Store

theorem mapM_map_eq_some {α β : Type} {write : α → β} {read? : β → Option α}
    (h : ∀ a, read? (write a) = some a) (l : List α) : (l.map write).mapM read? = some l := by
  induction l with
  | nil => rfl
  | cons a rest ih => simp [h, ih]

def listOf? {α : Type} (read? : Json → Option α) (document : Json) : Option (List α) := do
  (← document.items?).mapM read?

theorem listOf?_arr {α : Type} {write : α → Json} {read? : Json → Option α}
    (h : ∀ a, read? (write a) = some a) (l : List α) :
    listOf? read? (.arr (l.map write)) = some l := by
  simp [listOf?, Json.items?, mapM_map_eq_some h]

def textOrNone? : Json → Option (Option String)
  | .null => some none
  | .str (some text) => some (some text)
  | _ => none

theorem textOrNone?_ofString? (text : Option String) :
    textOrNone? (Json.ofString? text) = some text := by
  cases text <;> rfl

def archiveUnit : Int := 9223372036854775808

/-- Whole amounts are numbers; a real one is the pair of its upper and its lower part. -/
def Cell.toJson : Cell → Json
  | .int n => .int n
  | .real n => .arr [.int (n / archiveUnit), .int (n % archiveUnit)]

def Cell.ofJson? : Json → Option Cell
  | .int n => some (.int n)
  | .arr [.int high, .int low] => some (.real (archiveUnit * high + low))
  | _ => none

theorem Cell.ofJson?_toJson (c : Cell) : Cell.ofJson? c.toJson = some c := by
  cases c with
  | int n => rfl
  | real n => simp [Cell.toJson, Cell.ofJson?, Int.mul_ediv_add_emod]

def Row.toJson (r : Row) : Json := .arr [.ofString r.id, .int r.ts, r.up.toJson, r.down.toJson]

def Row.ofJson? : Json → Option Row
  | .arr [id, ts, up, down] => do
    return ⟨← id.text?, ← ts.int?, ← Cell.ofJson? up, ← Cell.ofJson? down⟩
  | _ => none

theorem Row.ofJson?_toJson (r : Row) : Row.ofJson? r.toJson = some r := by
  simp [Row.toJson, Row.ofJson?, Cell.ofJson?_toJson, Json.ofString, Json.text?, Json.int?]

def Snapshot.toJson (s : Snapshot) : Json := .arr [s.toRow.toJson, .ofString s.endpoint]

def Snapshot.ofJson? : Json → Option Snapshot
  | .arr [row, endpoint] => do return ⟨← Row.ofJson? row, ← endpoint.text?⟩
  | _ => none

theorem Snapshot.ofJson?_toJson (s : Snapshot) : Snapshot.ofJson? s.toJson = some s := by
  simp [Snapshot.toJson, Snapshot.ofJson?, Row.ofJson?_toJson, Json.ofString, Json.text?]

def Run.toJson (run : Run) : Json :=
  .arr [.int run.ts, .ofNat run.millis, .ofNat run.inserted, .ofString? run.error,
    .ofString run.source]

def Run.ofJson? : Json → Option Run
  | .arr [ts, millis, inserted, error, source] => do
    return ⟨← ts.int?, (← millis.int?).toNat, (← inserted.int?).toNat, ← textOrNone? error,
      ← source.text?⟩
  | _ => none

theorem Run.ofJson?_toJson (run : Run) : Run.ofJson? run.toJson = some run := by
  simp [Run.toJson, Run.ofJson?, textOrNone?_ofString?, Json.ofString, Json.ofNat, Json.text?,
    Json.int?]

def SchemaObject.toJson : SchemaObject → Json
  | .table name columns => .arr [.ofString "table", .ofString name, .arr (columns.map .ofString)]
  | .index name owner => .arr [.ofString "index", .ofString name, .ofString owner]
  | .view name columns => .arr [.ofString "view", .ofString name, .arr (columns.map .ofString)]

def SchemaObject.ofJson? : Json → Option SchemaObject
  | .arr [kind, name, parts] => do
    let name ← name.text?
    match ← kind.text? with
    | "table" => return .table name (← listOf? Json.text? parts)
    | "index" => return .index name (← parts.text?)
    | "view" => return .view name (← listOf? Json.text? parts)
    | _ => none
  | _ => none

theorem SchemaObject.ofJson?_toJson (o : SchemaObject) :
    SchemaObject.ofJson? o.toJson = some o := by
  have texts (columns : List String) :
      listOf? Json.text? (.arr (columns.map .ofString)) = some columns :=
    @listOf?_arr _ Json.ofString Json.text? (fun _ => rfl) columns
  cases o <;> simp [SchemaObject.toJson, SchemaObject.ofJson?, texts] <;>
    simp [Json.ofString, Json.text?]

def Table.ofName? (name : String) : Option Table :=
  [Table.traffic, .peers, .trafficBuckets, .peerBuckets, .runs].find? fun t => t.name == name

def Change.name : Change → String
  | .insert => "insert"
  | .update => "update"
  | .delete => "delete"

def Change.ofName? (name : String) : Option Change :=
  [Change.insert, .update, .delete].find? fun c => c.name == name

def Guard.toJson (g : Guard) : Json :=
  .arr [.ofString g.table.name, .ofString g.change.name, .ofString? g.key]

def Guard.ofJson? : Json → Option Guard
  | .arr [table, change, key] => do
    return ⟨← Table.ofName? (← table.text?), ← Change.ofName? (← change.text?),
      ← textOrNone? key⟩
  | _ => none

theorem Guard.ofJson?_toJson (g : Guard) : Guard.ofJson? g.toJson = some g := by
  have table : Table.ofName? g.table.name = some g.table := by cases g.table <;> decide
  have change : Change.ofName? g.change.name = some g.change := by cases g.change <;> decide
  simp [Guard.toJson, Guard.ofJson?, Json.ofString, Json.text?, table, change,
    textOrNone?_ofString?]

def versionJson : Option (Int × Int) → Json
  | none => .null
  | some (version, dirty) => .arr [.int version, .int dirty]

def version? : Json → Option (Option (Int × Int))
  | .null => some none
  | .arr [.int version, .int dirty] => some (some (version, dirty))
  | _ => none

theorem version?_versionJson (version : Option (Int × Int)) :
    version? (versionJson version) = some version := by
  cases version <;> rfl

namespace Database

def toJson (db : Database) : Json :=
  .object [
    ("schema", .arr (db.schema.map SchemaObject.toJson)),
    ("version", versionJson db.version),
    ("traffic", .arr (db.tables.traffic.map Row.toJson)),
    ("peers", .arr (db.tables.peers.map Snapshot.toJson)),
    ("trafficBuckets", .arr (db.tables.trafficBuckets.map Row.toJson)),
    ("peerBuckets", .arr (db.tables.peerBuckets.map Row.toJson)),
    ("runs", .arr (db.runs.map Run.toJson)),
    ("guards", .arr (db.guards.map Guard.toJson))]

def ofJson? (document : Json) : Option Database := do
  let tables : Tables := {
    traffic := ← listOf? Row.ofJson? (← document.get? "traffic")
    peers := ← listOf? Snapshot.ofJson? (← document.get? "peers")
    trafficBuckets := ← listOf? Row.ofJson? (← document.get? "trafficBuckets")
    peerBuckets := ← listOf? Row.ofJson? (← document.get? "peerBuckets") }
  return {
    schema := ← listOf? SchemaObject.ofJson? (← document.get? "schema")
    version := ← version? (← document.get? "version")
    tables
    runs := ← listOf? Run.ofJson? (← document.get? "runs")
    guards := ← listOf? Guard.ofJson? (← document.get? "guards") }

/-- No database is changed by being written and read. -/
theorem ofJson?_toJson (db : Database) : ofJson? db.toJson = some db := by
  simp [ofJson?, toJson, Json.object, Json.get?, Json.members?, Json.valuesOf,
    listOf?_arr SchemaObject.ofJson?_toJson, listOf?_arr Row.ofJson?_toJson,
    listOf?_arr Snapshot.ofJson?_toJson, listOf?_arr Run.ofJson?_toJson,
    listOf?_arr Guard.ofJson?_toJson, version?_versionJson]

end Database

def Entry.ofOctets (octets : List UInt8) : Entry :=
  match ((Text.Utf8.decode? octets).bind Json.read?).bind Database.ofJson? with
  | some db => .database db
  | none => .text octets

end TrafficMeter.Store
