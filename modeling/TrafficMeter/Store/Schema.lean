import TrafficMeter.Failure

/-!
The schema of a database: its tables, indexes and views, which share one name space without regard
to letter case. `Statement.run` is one statement of a schema script; a statement that fails leaves
the schema as it was.
-/

namespace TrafficMeter.Store

inductive SchemaObject
  | table (name : String) (columns : List String)
  | index (name table : String)
  | view (name : String) (columns : List String)
  deriving DecidableEq, Repr

namespace SchemaObject

def name : SchemaObject → String
  | .table name _ => name
  | .index name _ => name
  | .view name _ => name

def title : SchemaObject → String
  | .table name _ => "table " ++ name
  | .index name _ => "index " ++ name
  | .view name _ => "view " ++ name

def isIndex : SchemaObject → Bool
  | .index .. => true
  | _ => false

end SchemaObject

def sameName (a b : String) : Bool := a.toLower == b.toLower

abbrev Schema := List SchemaObject

namespace Schema

def relation? (schema : Schema) (name : String) : Option SchemaObject :=
  schema.find? fun o => !o.isIndex && sameName o.name name

def hasIndex (schema : Schema) (name : String) : Bool :=
  schema.any fun o => o.isIndex && sameName o.name name

def reads (schema : Schema) (name : String) (columns : List String) : Except StoreFault Unit :=
  match schema.relation? name with
  | some (.table _ own) | some (.view _ own) =>
    match columns.find? fun c => !own.any (sameName c) with
    | none => .ok ()
    | some missing => .error (.noSuchColumn missing)
  | _ => .error (.noSuchTable name)

def writes (schema : Schema) (name : String) : Except StoreFault Unit :=
  match schema.relation? name with
  | some (.table ..) => .ok ()
  | some _ => .error (.notATable name)
  | none => .error (.noSuchTable name)

end Schema

/-- A statement of a schema script. Creation is satisfied by an object of that name and kind, and a
table also by a view; removal by the absence of the table. -/
inductive Statement
  | createTable (name : String) (columns : List String)
  | createIndex (name table : String) (columns : List String)
  | createView (name : String) (columns : List String)
  | dropTable (name : String)
  deriving DecidableEq, Repr

def Statement.run (schema : Schema) : Statement → Except StoreFault Schema
  | .createTable name columns =>
    if (schema.relation? name).isSome then .ok schema
    else if schema.hasIndex name then .error (.nameTaken name)
    else .ok (schema ++ [.table name columns])
  | .createIndex name table columns =>
    match schema.relation? table with
    | none => .error (.noSuchTable table)
    | some (.table own ownColumns) =>
      if (schema.relation? name).isSome then .error (.nameTaken name)
      else if schema.hasIndex name then .ok schema
      else
        match columns.find? fun c => !ownColumns.any (sameName c) with
        | none => .ok (schema ++ [.index name own])
        | some missing => .error (.noSuchColumn missing)
    | some _ => .error (.notATable table)
  | .createView name columns =>
    if (schema.relation? name).isSome || schema.hasIndex name then .error (.nameTaken name)
    else .ok (schema ++ [.view name columns])
  | .dropTable name =>
    match schema.relation? name with
    | none => .ok schema
    | some (.table own _) =>
      .ok <| schema.filter fun
        | .table other _ => !sameName other own
        | .index _ table => !sameName table own
        | .view .. => true
    | some _ => .error (.notATable name)

end TrafficMeter.Store
