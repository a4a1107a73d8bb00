import ChipEvolve.Resumable
import Mathlib.Data.Rat.Defs
import Mathlib.Logic.Function.Basic

/-!
# The runtime database and its migrations

`RuntimeStore._initialise` and `_migrate` (`store.py`) as the statements they
issue on a database of tables and indexes.  A column is its name and its
declaration, a row gives a value to each column, and the statements raise as the
engine does: no such table, no such column, a name that is taken.
-/

namespace ChipEvolve.Schema

/-! ## Databases -/

inductive Value where
  | null
  | integer (n : Int)
  | real (q : Rat)
  | text (s : String)
  deriving DecidableEq

/-- A value for each column; of a column the table does not have, `null`. -/
abbrev Row := String → Value

structure Column where
  name : String
  declaration : String
  default : Value := .null
  deriving DecidableEq

structure SqlTable where
  columns : List Column
  constraints : List String
  rows : List Row

structure Index where
  table : String
  columns : List String
  unique : Bool := false
  condition : Option String := none
  deriving DecidableEq

structure Database where
  tables : String → Option SqlTable
  indexes : String → Option Index

inductive Statement where
  | createTable (name : String) (columns : List Column) (constraints : List String)
  | createIndex (name : String) (index : Index)
  | addColumn (table : String) (column : Column)
  | renameTable (old new : String)
  | insertSelect (target source : String) (columns : List (String × Option String))
  | dropTable (name : String)
  | insertVersion (value : String)
  | updateVersion (value : String)
  deriving DecidableEq

def metaTable : String := "runtime_schema_meta"

def versionKey : Value := .text "schema_version"

namespace Database

def setTable (d : Database) (name : String) (table : Option SqlTable) : Database :=
  { d with tables := Function.update d.tables name table }

def setIndex (d : Database) (name : String) (index : Index) : Database :=
  { d with indexes := Function.update d.indexes name (some index) }

def hasTable (d : Database) (name : String) : Bool := (d.tables name).isSome

/-- `_has_column`; `PRAGMA table_info` of a missing table lists nothing. -/
def hasColumn (d : Database) (table column : String) : Bool :=
  match d.tables table with
  | some t => t.columns.any fun c ↦ c.name = column
  | none => false

/-- `SELECT value FROM runtime_schema_meta WHERE key='schema_version'` -/
def version? (d : Database) : Option Value :=
  (d.tables metaTable).bind fun t ↦
    (t.rows.find? fun r ↦ r "key" = versionKey).map fun r ↦ r "value"

end Database

/-- The non-null keys a unique index holds. -/
def Index.keys (i : Index) (rows : List Row) : List (List Value) :=
  (rows.map fun r ↦ i.columns.map r).filter fun key ↦ key.all (· ≠ .null)

def SqlTable.withColumn (t : SqlTable) (c : Column) : SqlTable :=
  { t with
    columns := t.columns ++ [c]
    rows := t.rows.map fun r ↦ Function.update r c.name c.default }

/-- The row `INSERT … SELECT` makes of a source row; a column that is not listed, or
is selected as `NULL`, is null. -/
def selected (columns : List (String × Option String)) (r : Row) : Row := fun c ↦
  match columns.find? fun p ↦ p.1 = c with
  | some (_, some source) => r source
  | _ => .null

def versionRow (value : String) : Row := fun c ↦
  if c = "key" then versionKey else if c = "value" then .text value else .null

/-- `SET value = ? WHERE key = 'schema_version'` -/
def withVersion (value : String) (r : Row) : Row :=
  if r "key" = versionKey then Function.update r "value" (.text value) else r

def noSuchTable (name : String) : String := "no such table: " ++ name

namespace Statement

def execute (s : Statement) (d : Database) : Except String Database :=
  match s with
  | createTable name columns constraints =>
      .ok (if d.hasTable name then d
        else d.setTable name (some { columns := columns, constraints := constraints, rows := [] }))
  | createIndex name index =>
      if (d.indexes name).isSome then .ok d
      else
        match d.tables index.table with
        | none => .error (noSuchTable index.table)
        | some t =>
            if index.columns.all (d.hasColumn index.table) then
              if index.unique && !decide (index.keys t.rows).Nodup then
                .error ("UNIQUE constraint failed: " ++ index.table)
              else .ok (d.setIndex name index)
            else .error ("no such column: " ++ ", ".intercalate index.columns)
  | addColumn table column =>
      match d.tables table with
      | none => .error (noSuchTable table)
      | some t =>
          if d.hasColumn table column.name then .error ("duplicate column name: " ++ column.name)
          else .ok (d.setTable table (some (t.withColumn column)))
  | renameTable old new =>
      match d.tables old with
      | none => .error (noSuchTable old)
      | some t =>
          if d.hasTable new then
            .error ("there is already another table or index with this name: " ++ new)
          else .ok ((d.setTable old none).setTable new (some t))
  | insertSelect target source columns =>
      match d.tables target, d.tables source with
      | some t, some from_ =>
          .ok (d.setTable target (some { t with rows := t.rows ++ from_.rows.map (selected columns) }))
      | none, _ => .error (noSuchTable target)
      | _, none => .error (noSuchTable source)
  | dropTable name =>
      if d.hasTable name then .ok (d.setTable name none) else .error (noSuchTable name)
  | insertVersion value =>
      match d.tables metaTable with
      | none => .error (noSuchTable metaTable)
      | some t =>
          .ok (d.setTable metaTable (some { t with rows := t.rows ++ [versionRow value] }))
  | updateVersion value =>
      match d.tables metaTable with
      | none => .error (noSuchTable metaTable)
      | some t =>
          .ok (d.setTable metaTable (some { t with rows := t.rows.map (withVersion value) }))

end Statement

/-! ## The schema -/

/-- Columns as the DDL lists them. -/
def declared (columns : List (String × String)) : List Column :=
  columns.map fun c ↦ { name := c.1, declaration := c.2 }

def inputsV2 : String := "runtime_inputs_v2"

/-- The columns of `_INPUTS_DDL`. -/
def inputsColumns : List Column :=
  declared [("attempt_id", "TEXT NOT NULL REFERENCES runtime_attempts(attempt_id)"),
    ("destination", "TEXT NOT NULL"), ("source", "TEXT"), ("source_artifact_id", "TEXT"),
    ("source_input_id", "TEXT"), ("present", "INTEGER NOT NULL CHECK(present IN (0, 1))"),
    ("size_bytes", "INTEGER NOT NULL CHECK(size_bytes >= 0)"), ("sha256", "TEXT"),
    ("created_at", "TEXT NOT NULL")]

/-- One change a migration makes: a statement that does nothing where its object is
there, a column added if it is missing, the rebuild of `runtime_inputs`, or the
version. -/
inductive Change where
  | create (name : String) (columns : List Column) (constraints : List String)
  | index (name : String) (index : Index)
  | add (table : String) (column : Column)
  | rebuildInputs
  | insertVersion (value : String)
  | version (value : String)

/-- `_INPUTS_DDL` -/
def inputsDdl : Change := .create "runtime_inputs" inputsColumns
  ["PRIMARY KEY (attempt_id, destination)"]

/-- `_UPLOADED_INPUTS_DDL` -/
def uploadedInputsDdl : Change := .create "runtime_uploaded_inputs"
  (declared [("input_id", "TEXT PRIMARY KEY"), ("store_key", "TEXT NOT NULL"),
    ("size_bytes", "INTEGER NOT NULL CHECK(size_bytes >= 0)"), ("sha256", "TEXT NOT NULL"),
    ("created_at", "TEXT NOT NULL")]) []

def workersDdl : Change := .create "runtime_workers"
  (declared [("worker_id", "TEXT PRIMARY KEY"), ("pid", "INTEGER NOT NULL"),
    ("last_seen_at", "REAL NOT NULL"), ("current_attempt_id", "TEXT"),
    ("state", "TEXT NOT NULL")]) []

def keyIndex : Change := .index "runtime_runs_idempotency_key"
  { table := "runtime_runs", columns := ["idempotency_key"], unique := true,
    condition := some "idempotency_key IS NOT NULL" }

/-- `_DDL` -/
def ddl : List Change :=
  [.create metaTable (declared [("key", "TEXT PRIMARY KEY"), ("value", "TEXT NOT NULL")]) [],
    .create "runtime_runs"
      (declared [("run_id", "TEXT PRIMARY KEY"), ("task_id", "TEXT NOT NULL"),
        ("idempotency_key", "TEXT"), ("status", "TEXT NOT NULL"),
        ("task_spec_json", "TEXT NOT NULL"), ("created_at", "TEXT NOT NULL"),
        ("started_at", "TEXT"), ("ended_at", "TEXT"), ("terminal_reason", "TEXT")]) [],
    .create "runtime_stage_runs"
      (declared [("stage_run_id", "TEXT PRIMARY KEY"),
        ("run_id", "TEXT NOT NULL REFERENCES runtime_runs(run_id)"),
        ("stage_key", "TEXT NOT NULL"), ("ordinal", "INTEGER NOT NULL"),
        ("plugin_id", "TEXT NOT NULL"), ("plugin_version", "TEXT NOT NULL"),
        ("status", "TEXT NOT NULL"), ("successful_attempt_id", "TEXT"),
        ("created_at", "TEXT NOT NULL"), ("started_at", "TEXT"), ("ended_at", "TEXT"),
        ("resumable", "INTEGER NOT NULL DEFAULT 0")])
      ["UNIQUE(run_id, stage_key)", "UNIQUE(run_id, ordinal)"],
    .create "runtime_attempts"
      (declared [("attempt_id", "TEXT PRIMARY KEY"),
        ("stage_run_id", "TEXT NOT NULL REFERENCES runtime_stage_runs(stage_run_id)"),
        ("attempt_number", "INTEGER NOT NULL CHECK(attempt_number > 0)"),
        ("status", "TEXT NOT NULL"), ("workspace", "TEXT NOT NULL"),
        ("worker_id", "TEXT NOT NULL"), ("lease_expires_at", "TEXT"), ("heartbeat_at", "TEXT"),
        ("process_id", "INTEGER"), ("process_group_id", "INTEGER"),
        ("process_start_ticks", "INTEGER"), ("started_at", "TEXT NOT NULL"), ("ended_at", "TEXT"),
        ("exit_code", "INTEGER"), ("failure_json", "TEXT"), ("cpu_seconds", "REAL"),
        ("peak_memory_bytes", "INTEGER"), ("peak_processes", "INTEGER")])
      ["UNIQUE(stage_run_id, attempt_number)"],
    .create "runtime_resource_reservations"
      (declared [("attempt_id", "TEXT PRIMARY KEY REFERENCES runtime_attempts(attempt_id)"),
        ("cpu_cores", "INTEGER NOT NULL CHECK(cpu_cores > 0)"),
        ("memory_bytes", "INTEGER NOT NULL CHECK(memory_bytes > 0)")]) [],
    .create "runtime_artifacts"
      (declared [("artifact_id", "TEXT PRIMARY KEY"),
        ("attempt_id", "TEXT NOT NULL REFERENCES runtime_attempts(attempt_id)"),
        ("kind", "TEXT NOT NULL"), ("store_key", "TEXT NOT NULL"),
        ("size_bytes", "INTEGER NOT NULL CHECK(size_bytes >= 0)"), ("sha256", "TEXT NOT NULL"),
        ("metadata_json", "TEXT NOT NULL"), ("created_at", "TEXT NOT NULL"),
        ("storage", "TEXT NOT NULL")]) ["UNIQUE(attempt_id, store_key)"],
    .create "runtime_metrics"
      (declared [("metric_id", "TEXT PRIMARY KEY"),
        ("attempt_id", "TEXT NOT NULL REFERENCES runtime_attempts(attempt_id)"),
        ("name", "TEXT NOT NULL"), ("value_json", "TEXT NOT NULL"), ("unit", "TEXT"),
        ("source_artifact_id", "TEXT"), ("parser_id", "TEXT"), ("parser_version", "TEXT"),
        ("context_json", "TEXT NOT NULL"), ("created_at", "TEXT NOT NULL")]) [],
    inputsDdl,
    uploadedInputsDdl,
    .create "runtime_events"
      (declared [("event_id", "TEXT PRIMARY KEY"), ("run_id", "TEXT NOT NULL"),
        ("stage_run_id", "TEXT"), ("attempt_id", "TEXT"), ("event_type", "TEXT NOT NULL"),
        ("producer", "TEXT NOT NULL"), ("payload_json", "TEXT NOT NULL"),
        ("occurred_at", "TEXT NOT NULL")]) [],
    .index "runtime_events_run" { table := "runtime_events", columns := ["run_id", "occurred_at"] },
    .index "runtime_metrics_attempt" { table := "runtime_metrics", columns := ["attempt_id"] },
    keyIndex,
    workersDdl]

/-! ## Migration -/

def renameInputs : Statement := .renameTable "runtime_inputs" inputsV2

def copyInputs : Statement := .insertSelect "runtime_inputs" inputsV2
  [("attempt_id", some "attempt_id"), ("destination", some "destination"),
    ("source", some "source"), ("source_artifact_id", none), ("present", some "present"),
    ("size_bytes", some "size_bytes"), ("sha256", some "sha256"),
    ("created_at", some "created_at")]

def dropInputs : Statement := .dropTable inputsV2

/-- The statements of each change and the test before them. -/
def migrating : Resumable Change Statement Database String where
  exec := Statement.execute
  needed
    | .add table column, d => !d.hasColumn table column.name
    | .rebuildInputs, d => !d.hasColumn "runtime_inputs" "source_artifact_id"
    | _, _ => true
  body
    | .create name columns constraints => [.createTable name columns constraints]
    | .index name index => [.createIndex name index]
    | .add table column => [.addColumn table column]
    | .rebuildInputs =>
        [renameInputs,
          .createTable "runtime_inputs" inputsColumns ["PRIMARY KEY (attempt_id, destination)"],
          copyInputs, dropInputs]
    | .insertVersion value => [.insertVersion value]
    | .version value => [.updateVersion value]

/-- `RUNTIME_SCHEMA_VERSION` -/
def runtimeSchemaVersion : Nat := 10

def addAll (table : String) (columns : List (String × String)) : List Change :=
  (declared columns).map (.add table)

/-- The changes of `_migrate` before the version is recorded. -/
def changes (v : Nat) : List Change :=
  (if v < 6 then addAll "runtime_runs" [("idempotency_key", "TEXT")] else []) ++
  (if v < 2 then ddl else []) ++
  (if v < 3 then
    [.add "runtime_artifacts"
      { name := "storage", declaration := "TEXT NOT NULL DEFAULT 'workspace'",
        default := .text "workspace" }] ++ [.rebuildInputs]
    else []) ++
  (if v < 4 then
    ddl ++ addAll "runtime_attempts" [("cpu_seconds", "REAL"), ("peak_memory_bytes", "INTEGER"),
      ("peak_processes", "INTEGER")]
    else []) ++
  (if v < 5 then
    [.add "runtime_stage_runs"
      { name := "resumable", declaration := "INTEGER NOT NULL DEFAULT 0", default := .integer 0 }]
    else []) ++
  (if v < 6 then [keyIndex] else []) ++
  (if v < 7 then [uploadedInputsDdl] else []) ++
  (if v < 8 then addAll "runtime_inputs" [("source_input_id", "TEXT")] else []) ++
  (if v < 9 then
    addAll "runtime_attempts" [("process_id", "INTEGER"), ("process_group_id", "INTEGER"),
      ("process_start_ticks", "INTEGER")]
    else []) ++
  if v < 10 then [workersDdl] else []

def migrate (v : Nat) : List Change := changes v ++ [.version (toString runtimeSchemaVersion)]

/-- `int(raw)` of decimal digits. -/
def digits? : List Char → Option Nat
  | [] => none
  | cs => if cs.all Char.isDigit then some (cs.foldl (fun n c ↦ 10 * n + (c.toNat - 48)) 0) else none

/-- What `_initialise` decides to run. -/
def initialise (d : Database) : Except String (List Change) :=
  if !d.hasTable metaTable then
    .ok (ddl ++ [.insertVersion (toString runtimeSchemaVersion)])
  else
    match d.version? with
    | none => .error "runtime schema has no schema_version"
    | some (.text raw) =>
        match digits? raw.toList with
        | none => .error ("runtime schema version is not a number: '" ++ raw ++ "'")
        | some stored =>
            if stored = runtimeSchemaVersion then .ok []
            else if runtimeSchemaVersion < stored then
              .error ("runtime schema " ++ toString stored ++
                " was written by a newer build; this build speaks " ++
                toString runtimeSchemaVersion)
            else if stored < 1 then
              .error ("unsupported runtime schema " ++ toString stored)
            else .ok (migrate stored)
    | some _ => .error "runtime schema version is not a number"

/-- Open a database and let it finish. -/
def opened (d : Database) : Except String Database :=
  (initialise d).bind fun cs ↦ migrating.finish cs d

/-- Open a database and be stopped after `n` statements. -/
def openFor (n : Nat) (d : Database) : Database :=
  match initialise d with
  | .ok cs => migrating.stopAt n cs d
  | .error _ => d

/-- The database after some opens, each stopped after as many statements as the list
says. -/
def interrupted (stops : List Nat) (d : Database) : Database :=
  stops.foldl (fun d n ↦ openFor n d) d

end ChipEvolve.Schema
