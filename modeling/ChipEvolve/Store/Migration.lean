import ChipEvolve.Store.Schema

/-!
# Interrupted migrations

Every change of `_migrate` but one is a single statement that does nothing where
it has been done before, so a migration stopped between two statements is taken
up again by the next open.  The rebuild of `runtime_inputs` is four statements
behind one test, and a migration stopped inside it is not.
-/

namespace ChipEvolve.Schema

open Resumable

/-! ## What a change can do -/

/-- The table `rebuildInputs` makes of the old one. -/
def rebuiltInputs (old : SqlTable) : SqlTable :=
  { columns := inputsColumns
    constraints := ["PRIMARY KEY (attempt_id, destination)"]
    rows := old.rows.map (selected
      [("attempt_id", some "attempt_id"), ("destination", some "destination"),
        ("source", some "source"), ("source_artifact_id", none), ("present", some "present"),
        ("size_bytes", some "size_bytes"), ("sha256", some "sha256"),
        ("created_at", some "created_at")]) }

/-- The effects of changes, each with what it found. -/
inductive Acts (d : Database) : Change → Database → Prop
  | rest {c} : Acts d c d
  | create {name columns constraints} (hnew : d.hasTable name = false) :
      Acts d (.create name columns constraints)
        (d.setTable name (some { columns := columns, constraints := constraints, rows := [] }))
  | index {name index} : Acts d (.index name index) (d.setIndex name index)
  | add {table column t} (htable : d.tables table = some t) :
      Acts d (.add table column) (d.setTable table (some (t.withColumn column)))
  | rebuild {old} (hinputs : d.tables "runtime_inputs" = some old)
      (hfree : d.hasTable inputsV2 = false) :
      Acts d .rebuildInputs (d.setTable "runtime_inputs" (some (rebuiltInputs old)))
  | insertVersion {value t} (htable : d.tables metaTable = some t) :
      Acts d (.insertVersion value)
        (d.setTable metaTable (some { t with rows := t.rows ++ [versionRow value] }))
  | version {value t} (htable : d.tables metaTable = some t) :
      Acts d (.version value)
        (d.setTable metaTable (some { t with rows := t.rows.map (withVersion value) }))

variable {d d' D : Database} {c : Change} {cs : List Change} {v : Nat}

@[simp] theorem tables_setTable (d : Database) (name : String) (t : Option SqlTable) :
    (d.setTable name t).tables = Function.update d.tables name t := rfl

@[simp] theorem indexes_setTable (d : Database) (name : String) (t : Option SqlTable) :
    (d.setTable name t).indexes = d.indexes := rfl

@[simp] theorem tables_setIndex (d : Database) (name : String) (i : Index) :
    (d.setIndex name i).tables = d.tables := rfl

theorem runBody_cons (s : Statement) (body : List Statement) :
    migrating.runBody (s :: body) d = (s.execute d).bind (migrating.runBody body) := rfl

theorem runBody_singleton (s : Statement) : migrating.runBody [s] d = s.execute d := by
  change (s.execute d).bind _ = _
  cases s.execute d <;> rfl

theorem act_create (name : String) (columns : List Column) (constraints : List String) :
    migrating.act (.create name columns constraints) d =
      .ok (if d.hasTable name then d
        else d.setTable name
          (some { columns := columns, constraints := constraints, rows := [] })) := by
  change migrating.runBody [.createTable name columns constraints] d = _
  rw [runBody_singleton]
  rfl

theorem act_index (name : String) (index : Index) :
    migrating.act (.index name index) d = (Statement.createIndex name index).execute d := by
  change migrating.runBody [.createIndex name index] d = _
  rw [runBody_singleton]

theorem act_add (table : String) (column : Column) :
    migrating.act (.add table column) d =
      if d.hasColumn table column.name then .ok d
      else
        match d.tables table with
        | none => .error (noSuchTable table)
        | some t => .ok (d.setTable table (some (t.withColumn column))) := by
  cases hcolumn : d.hasColumn table column.name with
  | true => simp [act, migrating, hcolumn]
  | false =>
      have hneeded : migrating.needed (.add table column) d = true := by
        simp [migrating, hcolumn]
      rw [act, if_pos hneeded]
      change migrating.runBody [.addColumn table column] d = _
      rw [runBody_singleton]
      cases htable : d.tables table <;> simp [Statement.execute, hcolumn, htable]

theorem act_version (value : String) :
    migrating.act (.version value) d = (Statement.updateVersion value).execute d := by
  change migrating.runBody [.updateVersion value] d = _
  rw [runBody_singleton]

theorem act_insertVersion (value : String) :
    migrating.act (.insertVersion value) d = (Statement.insertVersion value).execute d := by
  change migrating.runBody [.insertVersion value] d = _
  rw [runBody_singleton]

/-- The four statements of the rebuild, where its test finds no column. -/
theorem runBody_rebuildInputs :
    migrating.runBody (migrating.body .rebuildInputs) d =
      match d.tables "runtime_inputs" with
      | none => .error (noSuchTable "runtime_inputs")
      | some old =>
          if d.hasTable inputsV2 then
            .error ("there is already another table or index with this name: " ++ inputsV2)
          else .ok (d.setTable "runtime_inputs" (some (rebuiltInputs old))) := by
  cases hinputs : d.tables "runtime_inputs" with
  | none =>
      change (renameInputs.execute d).bind _ = _
      simp only [renameInputs, Statement.execute, hinputs]
      rfl
  | some old =>
      cases hfree : d.hasTable inputsV2 with
      | true =>
          change (renameInputs.execute d).bind _ = _
          simp only [renameInputs, Statement.execute, hinputs, hfree]
          rfl
      | false =>
          have hnone : d.tables inputsV2 = none := by simpa [Database.hasTable] using hfree
          have hne : inputsV2 ≠ "runtime_inputs" := by decide
          let fresh : SqlTable := { columns := inputsColumns
                                    constraints := ["PRIMARY KEY (attempt_id, destination)"]
                                    rows := [] }
          let d₁ := (d.setTable "runtime_inputs" none).setTable inputsV2 (some old)
          let d₂ := d₁.setTable "runtime_inputs" (some fresh)
          let d₃ := d₂.setTable "runtime_inputs" (some (rebuiltInputs old))
          have hrename : renameInputs.execute d = .ok d₁ := by
            simp [renameInputs, Statement.execute, hinputs, hfree, d₁]
          have hcreate : (Statement.createTable "runtime_inputs" inputsColumns
              ["PRIMARY KEY (attempt_id, destination)"]).execute d₁ = .ok d₂ := by
            simp [Statement.execute, Database.hasTable, d₁, d₂, fresh, hne.symm]
          have hcopy : copyInputs.execute d₂ = .ok d₃ := by
            simp [copyInputs, Statement.execute, d₁, d₂, d₃, fresh, hne, rebuiltInputs]
          have hdrop : dropInputs.execute d₃ = .ok (d₃.setTable inputsV2 none) := by
            simp [dropInputs, Statement.execute, Database.hasTable, d₁, d₂, d₃, hne]
          have hend : d₃.setTable inputsV2 none =
              d.setTable "runtime_inputs" (some (rebuiltInputs old)) := by
            simp only [Database.setTable, d₁, d₂, d₃, Database.mk.injEq, and_true]
            funext name
            by_cases hv2 : name = inputsV2
            · subst hv2
              rw [Function.update_self, Function.update_of_ne hne, hnone]
            · by_cases hin : name = "runtime_inputs"
              · subst hin
                simp [hne.symm]
              · simp [hv2, hin]
          change migrating.runBody [renameInputs, .createTable "runtime_inputs" inputsColumns
            ["PRIMARY KEY (attempt_id, destination)"], copyInputs, dropInputs] d = _
          simp only [runBody_cons, hrename, hcreate, hcopy, hdrop, Except.bind, hend]
          rfl

theorem act_rebuildInputs :
    migrating.act .rebuildInputs d =
      if d.hasColumn "runtime_inputs" "source_artifact_id" then .ok d
      else migrating.runBody (migrating.body .rebuildInputs) d := by
  cases hcolumn : d.hasColumn "runtime_inputs" "source_artifact_id" <;>
    simp [act, migrating, hcolumn]

theorem Acts.of_act (h : migrating.act c d = .ok d') : Acts d c d' := by
  cases c with
  | create name columns constraints =>
      rw [act_create] at h
      obtain rfl := Except.ok.inj h
      cases hname : d.hasTable name with
      | true => exact .rest
      | false => exact .create hname
  | index name index =>
      rw [act_index] at h
      simp only [Statement.execute] at h
      split at h
      · obtain rfl := Except.ok.inj h
        exact .rest
      · split at h
        · cases h
        · split at h
          · split at h
            · cases h
            · obtain rfl := Except.ok.inj h
              exact .index
          · cases h
  | add table column =>
      rw [act_add] at h
      split at h
      · obtain rfl := Except.ok.inj h
        exact .rest
      · split at h
        · cases h
        · next t ht =>
            obtain rfl := Except.ok.inj h
            exact .add ht
  | rebuildInputs =>
      rw [act_rebuildInputs, runBody_rebuildInputs] at h
      split at h
      · obtain rfl := Except.ok.inj h
        exact .rest
      · split at h
        · cases h
        · next old hold =>
            split at h
            · cases h
            · next hfree =>
                obtain rfl := Except.ok.inj h
                exact .rebuild hold (by simpa using hfree)
  | insertVersion value =>
      rw [act_insertVersion] at h
      simp only [Statement.execute] at h
      split at h
      · cases h
      · next t ht =>
          obtain rfl := Except.ok.inj h
          exact .insertVersion ht
  | version value =>
      rw [act_version] at h
      simp only [Statement.execute] at h
      split at h
      · cases h
      · next t ht =>
          obtain rfl := Except.ok.inj h
          exact .version ht

/-! ## What stays -/

/-- The facts about a database that migrations rely on. -/
inductive Fact where
  | table (name : String)
  | column (table column : String)
  | free (name : String)
  | blank (table column : String)
  deriving DecidableEq

namespace Fact

def Holds (d : Database) : Fact → Prop
  | table name => d.hasTable name = true
  | column name c => d.hasColumn name c = true
  | free name => d.hasTable name = false
  | blank name c => ∀ t, d.tables name = some t → ∀ r ∈ t.rows, r c = .null

/-- The facts that no change of a migration undoes. -/
def lasting : Fact → Bool
  | table name => name ≠ inputsV2
  | column name c =>
      name ≠ inputsV2 && (name ≠ "runtime_inputs" || inputsColumns.any fun c' ↦ c'.name = c)
  | free name => name = inputsV2
  | blank name _ => name = "runtime_runs"

end Fact

/-- The changes a migration makes: none writes the version but the last, none makes or
touches the auxiliary table, and a column added to `runtime_runs` is empty. -/
def Change.plain : Change → Bool
  | create name _ _ => name ≠ inputsV2
  | index _ i => !i.columns.isEmpty
  | add table column =>
      table ≠ inputsV2 && table ≠ metaTable && (table ≠ "runtime_runs" || column.default = .null)
  | rebuildInputs => true
  | insertVersion _ => false
  | version _ => false

theorem hasTable_setTable (d : Database) (name : String) (t : SqlTable) (name' : String) :
    (d.setTable name (some t)).hasTable name' = (decide (name' = name) || d.hasTable name') := by
  by_cases heq : name' = name
  · subst heq
    simp [Database.hasTable]
  · simp [Database.hasTable, heq]

theorem hasColumn_setTable_of_ne {name name' : String} (t : Option SqlTable) (column : String)
    (hne : name' ≠ name) : (d.setTable name t).hasColumn name' column = d.hasColumn name' column := by
  simp [Database.hasColumn, hne]

theorem hasColumn_setTable_self (name : String) (t : SqlTable) (column : String) :
    (d.setTable name (some t)).hasColumn name column = t.columns.any fun c ↦ c.name = column := by
  simp [Database.hasColumn]

/-- The changes of a migration, the version included. -/
def Change.tame (c : Change) : Bool :=
  c.plain || match c with
    | .version _ => true
    | _ => false

namespace Acts

theorem keeps_table (h : Acts d c d') {name : String} (hname : d.hasTable name = true) :
    d'.hasTable name = true := by
  cases h with
  | rest => exact hname
  | index => exact hname
  | create | add | rebuild | insertVersion | version => simp [hasTable_setTable, hname]

theorem keeps_index (h : Acts d c d') {name : String} (hname : (d.indexes name).isSome = true) :
    (d'.indexes name).isSome = true := by
  cases h with
  | @index name' =>
      by_cases heq : name = name'
      · subst heq
        simp [Database.setIndex]
      · simpa [Database.setIndex, heq] using hname
  | _ => exact hname

theorem keeps_free (h : Acts d c d') (hc : c.tame = true) (hfree : d.hasTable inputsV2 = false) :
    d'.hasTable inputsV2 = false := by
  have hmissing {name : String} {t : SqlTable} (ht : d.tables name = some t) : inputsV2 ≠ name := by
    rintro rfl
    simp [Database.hasTable, ht] at hfree
  cases h with
  | rest => exact hfree
  | index => exact hfree
  | @create name =>
      have hname : name ≠ inputsV2 := by simpa [Change.tame, Change.plain] using hc
      simp [hasTable_setTable, hfree, hname.symm]
  | add htable => simp [hasTable_setTable, hfree, hmissing htable]
  | rebuild hinputs => simp [hasTable_setTable, hfree, hmissing hinputs]
  | insertVersion htable => simp [hasTable_setTable, hfree, hmissing htable]
  | version htable => simp [hasTable_setTable, hfree, hmissing htable]

theorem keeps_column (h : Acts d c d') {name column : String}
    (hlasting : (Fact.column name column).lasting = true)
    (hcolumn : d.hasColumn name column = true) : d'.hasColumn name column = true := by
  -- a table that is there and is rewritten keeps its columns, or is `runtime_inputs`
  have hrewrite {other : String} {t t' : SqlTable} (ht : d.tables other = some t)
      (hcolumns : other = name → (t.columns.any fun c ↦ c.name = column) = true →
        (t'.columns.any fun c ↦ c.name = column) = true) :
      (d.setTable other (some t')).hasColumn name column = true := by
    by_cases heq : name = other
    · subst heq
      rw [hasColumn_setTable_self]
      exact hcolumns rfl (by simpa [Database.hasColumn, ht] using hcolumn)
    · rw [hasColumn_setTable_of_ne _ _ heq]
      exact hcolumn
  cases h with
  | rest => exact hcolumn
  | index => exact hcolumn
  | @create other _ _ hnew =>
      have hne : name ≠ other := by
        rintro rfl
        have hnone : d.tables name = none := by simpa [Database.hasTable] using hnew
        simp [Database.hasColumn, hnone] at hcolumn
      rw [hasColumn_setTable_of_ne _ _ hne]
      exact hcolumn
  | add htable => exact hrewrite htable fun _ hold ↦ by simp [SqlTable.withColumn, hold]
  | rebuild hinputs =>
      refine hrewrite hinputs ?_
      rintro rfl _
      have hlisted : "runtime_inputs" ≠ inputsV2 ∧
          (inputsColumns.any fun c ↦ c.name = column) = true := by
        simpa [Fact.lasting] using hlasting
      exact hlisted.2
  | insertVersion htable => exact hrewrite htable fun _ hold ↦ hold
  | version htable => exact hrewrite htable fun _ hold ↦ hold

theorem keeps_blank (h : Acts d c d') (hc : c.tame = true) {column : String}
    (hblank : (Fact.blank "runtime_runs" column).Holds d) :
    (Fact.blank "runtime_runs" column).Holds d' := by
  have helsewhere {other : String} (t : Option SqlTable) (hne : "runtime_runs" ≠ other) :
      (Fact.blank "runtime_runs" column).Holds (d.setTable other t) := by
    intro t' ht'
    rw [tables_setTable, Function.update_of_ne hne] at ht'
    exact hblank t' ht'
  cases h with
  | rest => exact hblank
  | index => exact hblank
  | @create other columns constraints hnew =>
      by_cases heq : "runtime_runs" = other
      · subst heq
        intro t ht
        obtain rfl : { columns := columns, constraints := constraints, rows := [] } = t := by
          simpa using ht
        simp
      · exact helsewhere _ heq
  | @add other added t htable =>
      by_cases heq : "runtime_runs" = other
      · subst heq
        have hdefault : added.default = .null := by
          have hboth : (¬"runtime_runs" = inputsV2 ∧ ¬"runtime_runs" = metaTable) ∧
              added.default = .null := by
            simpa [Change.tame, Change.plain] using hc
          exact hboth.2
        intro t' ht' r hr
        obtain rfl : t.withColumn added = t' := by simpa using ht'
        obtain ⟨r, hold, rfl⟩ := List.mem_map.mp hr
        by_cases hname : column = added.name
        · rw [hname, Function.update_self, hdefault]
        · rw [Function.update_of_ne hname]
          exact hblank t htable r hold
      · exact helsewhere _ heq
  | rebuild => exact helsewhere _ (by decide)
  | insertVersion => exact helsewhere _ (by decide)
  | version => exact helsewhere _ (by decide)

/-- No change undoes a lasting fact. -/
theorem keeps_fact (h : Acts d c d') (hc : c.tame = true) {f : Fact} (hf : f.lasting = true)
    (hholds : f.Holds d) : f.Holds d' := by
  cases f with
  | table name => exact h.keeps_table hholds
  | column name column => exact h.keeps_column hf hholds
  | free name =>
      obtain rfl : name = inputsV2 := by simpa [Fact.lasting] using hf
      exact h.keeps_free hc hholds
  | blank name column =>
      obtain rfl : name = "runtime_runs" := by simpa [Fact.lasting] using hf
      exact h.keeps_blank hc hholds

end Acts

/-! ## Every change succeeds -/

/-- What a change needs not to raise. -/
def Change.requires : Change → List Fact
  | create _ _ _ => []
  | index _ i =>
      .table i.table :: (i.columns.map (Fact.column i.table) ++
        if i.unique then i.columns.map (Fact.blank i.table) else [])
  | add table _ => [.table table]
  | rebuildInputs => [.table "runtime_inputs", .free inputsV2]
  | insertVersion _ => [.table metaTable]
  | version _ => [.table metaTable]

/-- What holds after a change. -/
def Change.provides : Change → List Fact
  | create name _ _ => [.table name]
  | add table column => [.column table column.name]
  | rebuildInputs => [.column "runtime_inputs" "source_artifact_id"]
  | _ => []

/-- Each change finds what it needs among the known facts and what earlier changes
provide. -/
def supported (known : List Fact) : List Change → Bool
  | [] => true
  | c :: cs =>
      c.tame && c.requires.all (· ∈ known) && (c.provides.all Fact.lasting) &&
        supported (c.provides ++ known) cs

theorem exists_table {name : String} (h : (Fact.table name).Holds d) : ∃ t, d.tables name = some t :=
  Option.isSome_iff_exists.mp h

/-- A unique index on columns that hold nothing has no keys. -/
theorem keys_eq_nil {i : Index} {t : SqlTable} (ht : d.tables i.table = some t)
    (hcolumns : i.columns.isEmpty = false)
    (hblank : ∀ c ∈ i.columns, (Fact.blank i.table c).Holds d) : i.keys t.rows = [] := by
  obtain ⟨c, cs, hcs⟩ := List.exists_cons_of_ne_nil (by simpa using hcolumns)
  rw [Index.keys, List.filter_eq_nil_iff]
  intro key hkey
  obtain ⟨r, hr, rfl⟩ := List.mem_map.mp hkey
  have hnull : r c = .null := hblank c (by simp [hcs]) t ht r hr
  simp [hcs, hnull]

theorem act_succeeds (htame : c.tame = true) (hrequires : ∀ f ∈ c.requires, f.Holds d) :
    ∃ d', migrating.act c d = .ok d' := by
  cases c with
  | create name columns constraints => exact ⟨_, act_create ..⟩
  | index name index =>
      obtain ⟨t, ht⟩ := exists_table (hrequires (.table index.table) (by simp [Change.requires]))
      have hcolumns : index.columns.all (d.hasColumn index.table) = true := by
        rw [List.all_eq_true]
        intro c hc
        exact hrequires (.column index.table c) (by simp [Change.requires, hc])
      rw [act_index]
      simp only [Statement.execute, ht, hcolumns, if_true]
      split
      · exact ⟨_, rfl⟩
      · cases hunique : index.unique with
        | false => exact ⟨_, rfl⟩
        | true =>
            have hkeys := keys_eq_nil ht (by simpa [Change.tame, Change.plain] using htame)
              fun c hc ↦ hrequires (.blank index.table c) (by simp [Change.requires, hunique, hc])
            rw [hkeys]
            exact ⟨_, rfl⟩
  | add table column =>
      rw [act_add]
      obtain ⟨t, ht⟩ := exists_table (hrequires (.table table) (by simp [Change.requires]))
      rw [ht]
      split <;> exact ⟨_, rfl⟩
  | rebuildInputs =>
      rw [act_rebuildInputs, runBody_rebuildInputs]
      obtain ⟨t, ht⟩ := exists_table (hrequires (.table "runtime_inputs") (by simp [Change.requires]))
      have hfree : d.hasTable inputsV2 = false :=
        hrequires (.free inputsV2) (by simp [Change.requires])
      rw [ht, hfree]
      split <;> exact ⟨_, rfl⟩
  | insertVersion value =>
      rw [act_insertVersion]
      obtain ⟨t, ht⟩ := exists_table (hrequires (.table metaTable) (by simp [Change.requires]))
      simp only [Statement.execute, ht]
      exact ⟨_, rfl⟩
  | version value =>
      rw [act_version]
      obtain ⟨t, ht⟩ := exists_table (hrequires (.table metaTable) (by simp [Change.requires]))
      simp only [Statement.execute, ht]
      exact ⟨_, rfl⟩

/-! ## A change that is done -/

/-- The state in which a change has nothing to do. -/
def Change.done : Change → Database → Prop
  | create name _ _, d => d.hasTable name = true
  | index name _, d => (d.indexes name).isSome = true
  | add table column, d => d.hasColumn table column.name = true
  | rebuildInputs, d => d.hasColumn "runtime_inputs" "source_artifact_id" = true
  | insertVersion _, _ => False
  | version value, d => ∃ t, d.tables metaTable = some t ∧ ∀ r ∈ t.rows, withVersion value r = r

theorem withVersion_idem (value : String) (r : Row) :
    withVersion value (withVersion value r) = withVersion value r := by
  unfold withVersion
  by_cases hkey : r "key" = versionKey
  · simp [hkey]
  · simp [hkey]

theorem done_of_act (htame : c.tame = true) (h : migrating.act c d = .ok d') : c.done d' := by
  cases c with
  | create name columns constraints =>
      rw [act_create] at h
      obtain rfl := Except.ok.inj h
      cases hname : d.hasTable name with
      | true => exact hname
      | false => simp [Change.done, hasTable_setTable]
  | index name index =>
      rw [act_index] at h
      simp only [Statement.execute] at h
      split at h
      · next hname =>
          obtain rfl := Except.ok.inj h
          exact hname
      · split at h
        · cases h
        · split at h
          · split at h
            · cases h
            · obtain rfl := Except.ok.inj h
              simp [Change.done, Database.setIndex]
          · cases h
  | add table column =>
      rw [act_add] at h
      split at h
      · next hcolumn =>
          obtain rfl := Except.ok.inj h
          exact hcolumn
      · split at h
        · cases h
        · obtain rfl := Except.ok.inj h
          rw [Change.done, hasColumn_setTable_self]
          simp [SqlTable.withColumn]
  | rebuildInputs =>
      rw [act_rebuildInputs, runBody_rebuildInputs] at h
      split at h
      · next hcolumn =>
          obtain rfl := Except.ok.inj h
          exact hcolumn
      · split at h
        · cases h
        · split at h
          · cases h
          · obtain rfl := Except.ok.inj h
            rw [Change.done, hasColumn_setTable_self]
            rfl
  | insertVersion value => cases htame
  | version value =>
      rw [act_version] at h
      simp only [Statement.execute] at h
      split at h
      · cases h
      · next t _ =>
          obtain rfl := Except.ok.inj h
          refine ⟨{ t with rows := t.rows.map (withVersion value) }, by simp, ?_⟩
          intro r hr
          obtain ⟨r, _, rfl⟩ := List.mem_map.mp hr
          exact withVersion_idem value r

theorem act_of_done (h : c.done d) : migrating.act c d = .ok d := by
  cases c with
  | create name columns constraints =>
      have hname : d.hasTable name = true := h
      rw [act_create, if_pos hname]
  | index name index =>
      have hname : (d.indexes name).isSome = true := h
      rw [act_index]
      simp only [Statement.execute, hname, if_true]
  | add table column =>
      have hcolumn : d.hasColumn table column.name = true := h
      rw [act_add, if_pos hcolumn]
  | rebuildInputs =>
      have hcolumn : d.hasColumn "runtime_inputs" "source_artifact_id" = true := h
      rw [act_rebuildInputs, if_pos hcolumn]
  | insertVersion value => exact h.elim
  | version value =>
      obtain ⟨t, ht, hrows⟩ := h
      have hsame : t.rows.map (withVersion value) = t.rows :=
        (List.map_congr_left hrows).trans (List.map_id' _)
      have hset : d.setTable metaTable (some t) = d := by
        rw [Database.setTable, ← ht, Function.update_eq_self]
      rw [act_version]
      simp only [Statement.execute, ht, hsame, hset]

/-- A column that a change adds is a lasting fact. -/
def Change.kept : Change → Bool
  | add table column => (Fact.column table column.name).lasting
  | version value => value = toString runtimeSchemaVersion
  | c => c.plain

theorem Acts.keeps_meta (h : Acts d c d') (hc : c.plain = true) (hmeta : d.hasTable metaTable = true) :
    d'.tables metaTable = d.tables metaTable := by
  cases h with
  | rest => rfl
  | index => rfl
  | @create name _ _ hnew =>
      have hne : metaTable ≠ name := by
        rintro rfl
        rw [hmeta] at hnew
        cases hnew
      exact Function.update_of_ne hne _ _
  | @add table column t htable =>
      have hboth : (table ≠ inputsV2 ∧ table ≠ metaTable) ∧
          (table ≠ "runtime_runs" ∨ column.default = .null) := by
        simpa [Change.plain, or_iff_not_imp_left] using hc
      exact Function.update_of_ne hboth.1.2.symm _ _
  | rebuild =>
      have hne : metaTable ≠ "runtime_inputs" := by decide
      simp [hne]
  | insertVersion => cases hc
  | version => cases hc

theorem Acts.keeps_done {b : Change} (h : Acts d c d') (hb : b.kept = true) (hc : c.tame = true)
    (hversion : c.kept = true) (hdone : b.done d) : b.done d' := by
  cases b with
  | create name columns constraints => exact h.keeps_table hdone
  | index name index => exact h.keeps_index hdone
  | add table column => exact h.keeps_column hb hdone
  | rebuildInputs => exact h.keeps_column (by decide) hdone
  | insertVersion value => exact hdone.elim
  | version value =>
      obtain ⟨t, ht, hrows⟩ := hdone
      by_cases hplain : c.plain = true
      · have hmeta := h.keeps_meta hplain (by simp [Database.hasTable, ht])
        exact ⟨t, by rw [hmeta, ht], hrows⟩
      · cases c with
        | version value' =>
            obtain rfl : value = value' := by
              rw [show value = _ by simpa [Change.kept] using hb,
                show value' = _ by simpa [Change.kept] using hversion]
            cases h with
            | rest => exact ⟨t, ht, hrows⟩
            | @version _ t' ht' =>
                refine ⟨{ t' with rows := t'.rows.map (withVersion value) }, by simp, ?_⟩
                intro r hr
                obtain ⟨r, _, rfl⟩ := List.mem_map.mp hr
                exact withVersion_idem value r
        | insertVersion value => cases hc
        | _ => simp [Change.tame, hplain] at hc

theorem settles (htame : ∀ c ∈ cs, c.tame = true ∧ c.kept = true) :
    migrating.Settles cs Change.done where
  makes c hc _ _ h := done_of_act (htame c hc).1 h
  rests _ _ _ h := act_of_done h
  keeps b hb c hc _ _ hdone h :=
    (Acts.of_act h).keeps_done (htame b hb).2 (htame c hc).1 (htame c hc).2 hdone

/-! ## The run nothing stops -/

theorem provides_of_act (htame : c.tame = true) (h : migrating.act c d = .ok d') {f : Fact}
    (hf : f ∈ c.provides) : f.Holds d' := by
  have hdone := done_of_act htame h
  cases c with
  | create | add | rebuildInputs =>
      rw [List.mem_singleton.mp hf]
      exact hdone
  | _ => cases hf

/-- A supported migration ends, and the facts it started from still hold. -/
theorem finish_succeeds {known : List Fact} (hsupported : supported known cs = true)
    (hknown : ∀ f ∈ known, f.lasting = true ∧ f.Holds d) :
    ∃ D, migrating.finish cs d = .ok D ∧ ∀ f ∈ known, f.Holds D := by
  induction cs generalizing known d with
  | nil => exact ⟨d, rfl, fun f hf ↦ (hknown f hf).2⟩
  | cons c cs ih =>
      obtain ⟨⟨⟨htame, hrequires⟩, hprovides⟩, hrest⟩ :
          ((c.tame = true ∧ c.requires.all (· ∈ known) = true) ∧
            c.provides.all Fact.lasting = true) ∧ supported (c.provides ++ known) cs = true := by
        simpa only [supported, Bool.and_eq_true] using hsupported
      rw [List.all_eq_true] at hrequires hprovides
      obtain ⟨d₁, hact⟩ := act_succeeds htame fun f hf ↦
        (hknown f (by simpa using hrequires f hf)).2
      have hnext : ∀ f ∈ c.provides ++ known, f.lasting = true ∧ f.Holds d₁ := by
        intro f hf
        rcases List.mem_append.mp hf with hnew | hold
        · exact ⟨hprovides f hnew, provides_of_act htame hact hnew⟩
        · exact ⟨(hknown f hold).1,
            (Acts.of_act hact).keeps_fact htame (hknown f hold).1 (hknown f hold).2⟩
      obtain ⟨D, hfinish, hD⟩ := ih hrest hnext
      exact ⟨D, by rw [finish, hact]; exact hfinish, fun f hf ↦ hD f (List.mem_append_right _ hf)⟩

/-! ## Databases of older versions -/

/-- The tables a build of version `v` made, by the version each arrived at. -/
def tablesOf (v : Nat) : List String :=
  [metaTable, "runtime_runs", "runtime_stage_runs", "runtime_attempts", "runtime_artifacts",
    "runtime_metrics", "runtime_events"] ++
  (if 2 ≤ v then ["runtime_inputs"] else []) ++
  (if 4 ≤ v then ["runtime_resource_reservations"] else []) ++
  if 7 ≤ v then ["runtime_uploaded_inputs"] else []

/-- The columns the plain indexes are over, which every version has. -/
def indexedColumns : List (String × String) :=
  [("runtime_events", "run_id"), ("runtime_events", "occurred_at"), ("runtime_metrics", "attempt_id")]

/-- A database as a build of version `v` left it, with any content. -/
structure IsVersion (v : Nat) (d : Database) : Prop where
  recorded : d.version? = some (.text (toString v))
  tables : ∀ name ∈ tablesOf v, d.hasTable name = true
  columns : ∀ p ∈ indexedColumns, d.hasColumn p.1 p.2 = true
  unkeyed : v < 6 → d.hasColumn "runtime_runs" "idempotency_key" = false
  free : d.hasTable inputsV2 = false
  rows : ∀ name t, d.tables name = some t → ∀ r ∈ t.rows, ∀ column,
    d.hasColumn name column = false → r column = .null

/-- What a migration from version `v` starts from. -/
def known (v : Nat) : List Fact :=
  (tablesOf v).map Fact.table ++ indexedColumns.map (fun p ↦ Fact.column p.1 p.2) ++
    [.free inputsV2] ++ if v < 6 then [.blank "runtime_runs" "idempotency_key"] else []

theorem IsVersion.holds (hd : IsVersion v d) {f : Fact} (hf : f ∈ known v) : f.Holds d := by
  simp only [known, List.mem_append] at hf
  rcases hf with ((htable | hcolumn) | hfree) | hblank
  · obtain ⟨name, hname, rfl⟩ := List.mem_map.mp htable
    exact hd.tables name hname
  · obtain ⟨p, hp, rfl⟩ := List.mem_map.mp hcolumn
    exact hd.columns p hp
  · obtain rfl := List.mem_singleton.mp hfree
    exact hd.free
  · split at hblank
    · next hv =>
        obtain rfl := List.mem_singleton.mp hblank
        exact fun t ht r hr ↦ hd.rows _ t ht r hr _ (hd.unkeyed hv)
    · cases hblank

theorem migrate_supported : ∀ v < 10, 1 ≤ v → supported (known v) (migrate v) = true ∧
    (known v).all Fact.lasting = true ∧ (migrate v).all (fun c ↦ c.tame && c.kept) = true ∧
    (changes v).all Change.plain = true := by
  decide +kernel

section Version

variable (hv : 1 ≤ v ∧ v ≤ 9) (hd : IsVersion v d)

include hv in
theorem migrate_settles : migrating.Settles (migrate v) Change.done := by
  refine settles fun c hc ↦ ?_
  have hall := (migrate_supported v (by omega) hv.1).2.2.1
  rw [List.all_eq_true] at hall
  simpa using hall c hc

include hv hd in
theorem IsVersion.finish : ∃ D, migrating.finish (migrate v) d = .ok D ∧
    D.hasTable inputsV2 = false := by
  obtain ⟨hsupported, hlasting, _⟩ := migrate_supported v (by omega) hv.1
  rw [List.all_eq_true] at hlasting
  obtain ⟨D, hfinish, hD⟩ := finish_succeeds hsupported fun f hf ↦ ⟨hlasting f hf, hd.holds hf⟩
  exact ⟨D, hfinish, hD (.free inputsV2) (by simp [known])⟩

end Version

/-! ## Opening again -/

theorem digits?_toString : ∀ v < 11, digits? (toString v).toList = some v := by decide +kernel

theorem initialise_of_version (hv : 1 ≤ v ∧ v ≤ 9)
    (hrecorded : d.version? = some (.text (toString v))) : initialise d = .ok (migrate v) := by
  have hmeta : d.hasTable metaTable = true := by
    cases ht : d.tables metaTable with
    | none => simp [Database.version?, ht] at hrecorded
    | some t => simp [Database.hasTable, ht]
  have hold : ¬v = runtimeSchemaVersion ∧ ¬runtimeSchemaVersion < v ∧ ¬v < 1 := by
    unfold runtimeSchemaVersion
    omega
  simp only [initialise, hmeta, hrecorded, digits?_toString v (by omega), hold, Bool.not_true,
    Bool.false_eq_true, if_false]

theorem initialise_of_current (hmeta : d.hasTable metaTable = true)
    (hrecorded : d.version? = some (.text (toString runtimeSchemaVersion))) :
    initialise d = .ok [] := by
  simp only [initialise, hmeta, hrecorded, digits?_toString runtimeSchemaVersion (by decide),
    Bool.not_true, Bool.false_eq_true, if_false, if_true]

theorem version?_of_finish (hplain : ∀ c ∈ cs, c.plain = true) (hmeta : d.hasTable metaTable = true)
    (h : migrating.finish cs d = .ok d') : d'.version? = d.version? := by
  induction cs generalizing d with
  | nil =>
      obtain rfl := Except.ok.inj h
      rfl
  | cons c cs ih =>
      rw [List.forall_mem_cons] at hplain
      obtain ⟨d₁, hact, hrest⟩ := bind_eq_ok.mp h
      have hkeeps := (Acts.of_act hact).keeps_meta hplain.1 hmeta
      rw [ih hplain.2 (by rwa [Database.hasTable, hkeeps]) hrest]
      unfold Database.version?
      rw [hkeeps]

theorem withVersion_key (value : String) (r : Row) : withVersion value r "key" = r "key" := by
  unfold withVersion
  split <;> simp

theorem version?_of_update {value : String} (hrecorded : d.version?.isSome = true)
    (h : migrating.act (.version value) d = .ok d') :
    d'.hasTable metaTable = true ∧ d'.version? = some (.text value) := by
  rw [act_version] at h
  simp only [Statement.execute] at h
  split at h
  · cases h
  · next t ht =>
      obtain rfl := Except.ok.inj h
      refine ⟨by simp [hasTable_setTable], ?_⟩
      obtain ⟨stored, hstored⟩ := Option.isSome_iff_exists.mp hrecorded
      obtain ⟨r, hr, _⟩ : ∃ r, t.rows.find? (fun r ↦ r "key" = versionKey) = some r ∧
          r "value" = stored := by
        simpa [Database.version?, ht] using hstored
      have hkey : r "key" = versionKey := by simpa using List.find?_some hr
      have hfind : (t.rows.map (withVersion value)).find? (fun r ↦ r "key" = versionKey) =
          some (withVersion value r) := by
        rw [List.find?_map]
        simp only [Function.comp_def, withVersion_key, hr, Option.map_some]
      have hvalue : withVersion value r "value" = .text value := by simp [withVersion, hkey]
      simp [Database.version?, hfind, hvalue]

/-- The open is stopped inside the rebuild of `runtime_inputs`: after the table was
renamed and before the renamed one was dropped. -/
def stopsInRebuild (d : Database) (n : Nat) : Bool :=
  match initialise d with
  | .ok cs =>
      renameInputs ∈ migrating.executed n cs d && dropInputs ∉ migrating.executed n cs d
  | .error _ => false

def Change.isRebuild : Change → Bool
  | rebuildInputs => true
  | _ => false

theorem Change.eq_rebuildInputs (h : c.isRebuild = true) : c = .rebuildInputs := by
  cases c with
  | rebuildInputs => rfl
  | _ => cases h

/-- Every change but the rebuild is one statement. -/
theorem body_of_not_rebuild (h : c.isRebuild = false) :
    ∃ s, migrating.body c = [s] ∧ s ≠ dropInputs := by
  cases c with
  | rebuildInputs => cases h
  | _ => exact ⟨_, rfl, by simp [dropInputs]⟩

theorem rebuild_once : ∀ v < 10, 1 ≤ v → (migrate v).countP Change.isRebuild ≤ 1 := by
  decide +kernel

theorem dropInputs_last : ∀ m, m < (migrating.body .rebuildInputs).length →
    dropInputs ∉ (migrating.body .rebuildInputs).take m := by
  decide

/-- A migration is stopped between two changes unless it is stopped in the rebuild. -/
theorem checkpoint_of_stopped (hv : 1 ≤ v ∧ v ≤ 9) {n : Nat}
    (hruns : migrating.finish (migrate v) d = .ok D)
    (hout : renameInputs ∈ migrating.executed n (migrate v) d →
      dropInputs ∈ migrating.executed n (migrate v) d) :
    migrating.Checkpoint (migrate v) d (migrating.stopAt n (migrate v) d) := by
  have honce := rebuild_once v (by omega) hv.1
  by_cases hrebuild : ∃ c ∈ migrate v, c.isRebuild = true
  · obtain ⟨c, hc, hcase⟩ := hrebuild
    obtain rfl := Change.eq_rebuildInputs hcase
    obtain ⟨before, after, hsplit⟩ := List.append_of_mem hc
    rw [hsplit] at hruns hout honce ⊢
    simp only [List.countP_append, List.countP_cons, hcase, if_true] at honce
    have hbefore : before.countP Change.isRebuild = 0 := by omega
    have hafter : after.countP Change.isRebuild = 0 := by omega
    rw [List.countP_eq_zero] at hbefore hafter
    refine checkpoint_stopAt_append rfl dropInputs_last ?_ ?_ hruns hout
    · exact fun c hc ↦ body_of_not_rebuild (by simpa using hbefore c hc)
    · intro c hc
      obtain ⟨s, hs, _⟩ := body_of_not_rebuild (by simpa using hafter c hc)
      exact ⟨s, hs⟩
  · refine checkpoint_stopAt ?_ n d
    intro c hc
    obtain ⟨s, hs, _⟩ := body_of_not_rebuild (by simpa using fun h ↦ hrebuild ⟨c, hc, h⟩)
    exact ⟨s, hs⟩

section Version

variable {d₀ : Database} (hv : 1 ≤ v ∧ v ≤ 9) (hd : IsVersion v d₀)

include hv hd

/-- Between two changes the version still stands or the migration is over. -/
theorem initialise_checkpoint (hx : migrating.Checkpoint (migrate v) d₀ d) :
    initialise d = .ok (migrate v) ∨
      (migrating.finish (migrate v) d₀ = .ok d ∧ initialise d = .ok []) := by
  have hplain := (migrate_supported v (by omega) hv.1).2.2.2
  rw [List.all_eq_true] at hplain
  have hmeta : d₀.hasTable metaTable = true := hd.tables metaTable (by simp [tablesOf])
  obtain ⟨before, after, heq, hrun⟩ := hx
  have hprefix : before <+: changes v ++ [Change.version (toString runtimeSchemaVersion)] :=
    ⟨after, heq.symm⟩
  rcases List.prefix_concat_iff.mp hprefix with rfl | hpart
  · refine .inr ⟨hrun, ?_⟩
    rw [finish_append] at hrun
    obtain ⟨d₁, hchanges, hlast⟩ := bind_eq_ok.mp hrun
    obtain ⟨d₂, hact, hend⟩ := bind_eq_ok.mp hlast
    obtain rfl := Except.ok.inj hend
    have hversion := version?_of_finish hplain hmeta hchanges
    obtain ⟨hmeta', hcurrent⟩ := version?_of_update (by rw [hversion, hd.recorded]; rfl) hact
    exact initialise_of_current hmeta' hcurrent
  · have hversion := version?_of_finish (fun c hc ↦ hplain c (hpart.subset hc)) hmeta hrun
    exact .inl (initialise_of_version hv (by rw [hversion, hd.recorded]))

/-- An open that finishes from a checkpoint ends where the first would have ended. -/
theorem opened_checkpoint (hx : migrating.Checkpoint (migrate v) d₀ d) :
    opened d = migrating.finish (migrate v) d₀ := by
  unfold opened
  rcases initialise_checkpoint hv hd hx with hold | ⟨hfinish, hnew⟩
  · rw [hold]
    exact (migrate_settles hv).finish_eq hx
  · rw [hnew, hfinish]
    rfl

theorem openFor_checkpoint (hx : migrating.Checkpoint (migrate v) d₀ d) {n : Nat}
    (hout : stopsInRebuild d n = false) : migrating.Checkpoint (migrate v) d₀ (openFor n d) := by
  rcases initialise_checkpoint hv hd hx with hold | ⟨_, hnew⟩
  · obtain ⟨D, hfinish, _⟩ := hd.finish hv
    have hruns : migrating.finish (migrate v) d = .ok D := by
      rw [(migrate_settles hv).finish_eq hx, hfinish]
    have hstop : renameInputs ∈ migrating.executed n (migrate v) d →
        dropInputs ∈ migrating.executed n (migrate v) d := by
      intro hrename
      by_contra hdrop
      simp [stopsInRebuild, hold, hrename, hdrop] at hout
    simp only [openFor, hold]
    exact (migrate_settles hv).checkpoint_trans hx (checkpoint_of_stopped hv hruns hstop)
  · have hsame : migrating.stopAt n [] d = d := by simp [stopAt, trace]
    simp only [openFor, hnew, hsame]
    exact hx

theorem interrupted_checkpoint {stops : List Nat} (hx : migrating.Checkpoint (migrate v) d₀ d)
    (hout : ∀ before n after, stops = before ++ n :: after →
      stopsInRebuild (interrupted before d) n = false) :
    migrating.Checkpoint (migrate v) d₀ (interrupted stops d) := by
  induction stops generalizing d with
  | nil => exact hx
  | cons n stops ih =>
      refine ih (openFor_checkpoint hv hd hx (hout [] n stops rfl)) ?_
      rintro before m after rfl
      exact hout (n :: before) m after rfl

end Version

/-! ## The auxiliary table stays -/

/-- Only renaming and dropping take a table away. -/
theorem hasTable_execute {s : Statement} (hdrop : s ≠ dropInputs)
    (hrename : ∀ new, s ≠ .renameTable inputsV2 new) (h : s.execute d = .ok d')
    (hthere : d.hasTable inputsV2 = true) : d'.hasTable inputsV2 = true := by
  have hset (name : String) (t : SqlTable) :
      (d.setTable name (some t)).hasTable inputsV2 = true := by
    simp [hasTable_setTable, hthere]
  have hunset {name : String} (hne : inputsV2 ≠ name) :
      (d.setTable name none).hasTable inputsV2 = true := by
    simpa [Database.hasTable, hne] using hthere
  cases s with
  | createTable name columns constraints =>
      obtain rfl := Except.ok.inj h
      split
      · exact hthere
      · exact hset _ _
  | createIndex name index =>
      rw [← act_index] at h
      exact (Acts.of_act h).keeps_table hthere
  | addColumn table column =>
      simp only [Statement.execute] at h
      split at h
      · cases h
      · split at h
        · cases h
        · obtain rfl := Except.ok.inj h
          exact hset _ _
  | renameTable old new =>
      simp only [Statement.execute] at h
      split at h
      · cases h
      · split at h
        · cases h
        · obtain rfl := Except.ok.inj h
          have hne : inputsV2 ≠ old := by
            rintro rfl
            exact hrename new rfl
          rw [hasTable_setTable, hunset hne, Bool.or_true]
  | insertSelect target source columns =>
      simp only [Statement.execute] at h
      split at h
      · obtain rfl := Except.ok.inj h
        exact hset _ _
      · cases h
      · cases h
  | dropTable name =>
      simp only [Statement.execute] at h
      split at h
      · obtain rfl := Except.ok.inj h
        exact hunset fun heq ↦ hdrop (by rw [dropInputs, heq])
      · cases h
  | insertVersion value =>
      rw [← act_insertVersion] at h
      exact (Acts.of_act h).keeps_table hthere
  | updateVersion value =>
      rw [← act_version] at h
      exact (Acts.of_act h).keeps_table hthere

theorem body_renames_inputs {s : Statement} (hs : s ∈ migrating.body c) (new : String) :
    s ≠ .renameTable inputsV2 new := by
  rintro rfl
  cases c <;> simp [migrating, renameInputs, copyInputs, dropInputs, inputsV2] at hs

theorem hasTable_runBody {body : List Statement} (hdrop : dropInputs ∉ body)
    (hbody : ∀ s ∈ body, ∃ c, s ∈ migrating.body c) (h : migrating.runBody body d = .ok d')
    (hthere : d.hasTable inputsV2 = true) : d'.hasTable inputsV2 = true := by
  induction body generalizing d with
  | nil =>
      obtain rfl := Except.ok.inj h
      exact hthere
  | cons s body ih =>
      rw [List.mem_cons, not_or] at hdrop
      rw [List.forall_mem_cons] at hbody
      obtain ⟨d₁, hs, hrest⟩ := bind_eq_ok.mp h
      obtain ⟨c, hc⟩ := hbody.1
      exact ih hdrop.2 hbody.2 hrest
        (hasTable_execute (Ne.symm hdrop.1) (body_renames_inputs hc) hs hthere)

/-- A run that has renamed the table and dropped nothing leaves the renamed table. -/
theorem hasTable_of_renamed {body : List Statement} (hrename : renameInputs ∈ body)
    (hdrop : dropInputs ∉ body) (hbody : ∀ s ∈ body, ∃ c, s ∈ migrating.body c)
    (h : migrating.runBody body d = .ok d') : d'.hasTable inputsV2 = true := by
  induction body generalizing d with
  | nil => cases hrename
  | cons s body ih =>
      rw [List.mem_cons, not_or] at hdrop
      rw [List.forall_mem_cons] at hbody
      obtain ⟨d₁, hs, hrest⟩ := bind_eq_ok.mp h
      rcases List.mem_cons.mp hrename with rfl | hlater
      · refine hasTable_runBody hdrop.2 hbody.2 hrest ?_
        simp only [migrating, renameInputs, Statement.execute] at hs
        split at hs
        · cases hs
        · split at hs
          · cases hs
          · obtain rfl := Except.ok.inj hs
            simp [hasTable_setTable]
      · exact ih hlater hdrop.2 hbody.2 hrest

theorem execute_renameInputs (hthere : d.hasTable inputsV2 = true) :
    ∃ e, renameInputs.execute d = .error e := by
  simp only [renameInputs, Statement.execute, hthere, if_true]
  cases d.tables "runtime_inputs" with
  | none => exact ⟨_, rfl⟩
  | some t => exact ⟨_, rfl⟩

/-- Where the renamed table is there the rebuild fails at its first statement, and
nothing else removes it. -/
theorem hasTable_stopAt (n : Nat) (hthere : d.hasTable inputsV2 = true) :
    (migrating.stopAt n cs d).hasTable inputsV2 = true ∧
      ∀ d', migrating.finish cs d = .ok d' → d'.hasTable inputsV2 = true := by
  refine stopAt_invariant (P := fun d : Database ↦ d.hasTable inputsV2 = true) ?_ hthere
  intro c _ d hd
  have hkeeps : ∀ d', migrating.act c d = .ok d' → d'.hasTable inputsV2 = true :=
    fun d' hact ↦ (Acts.of_act hact).keeps_table hd
  refine ⟨fun hneeded p hp ↦ ?_, hkeeps⟩
  cases hcase : c.isRebuild with
  | true =>
      obtain rfl := Change.eq_rebuildInputs hcase
      obtain ⟨e, hrename⟩ := execute_renameInputs hd
      have hnone : migrating.bodyTrace (migrating.body .rebuildInputs) d = [] :=
        bodyTrace_of_error hrename
      rw [hnone] at hp
      cases hp
  | false =>
      obtain ⟨s, hs, _⟩ := body_of_not_rebuild hcase
      exact hkeeps p.2 (Atomic.act_of_mem ⟨s, hs⟩ hneeded hp)

theorem hasTable_openFor (n : Nat) (hthere : d.hasTable inputsV2 = true) :
    (openFor n d).hasTable inputsV2 = true := by
  unfold openFor
  split
  · exact (hasTable_stopAt n hthere).1
  · exact hthere

theorem hasTable_interrupted (stops : List Nat) (hthere : d.hasTable inputsV2 = true) :
    (interrupted stops d).hasTable inputsV2 = true := by
  induction stops generalizing d with
  | nil => exact hthere
  | cons n stops ih => exact ih (hasTable_openFor n hthere)

theorem hasTable_opened (hthere : d.hasTable inputsV2 = true) (h : opened d = .ok d') :
    d'.hasTable inputsV2 = true := by
  obtain ⟨cs, _, hfinish⟩ := bind_eq_ok.mp h
  exact (hasTable_stopAt 0 hthere).2 d' hfinish

theorem hasTable_of_stopsInRebuild {n : Nat} (h : stopsInRebuild d n = true) :
    (openFor n d).hasTable inputsV2 = true := by
  unfold stopsInRebuild at h
  unfold openFor
  cases hcs : initialise d with
  | error e => simp [hcs] at h
  | ok cs =>
      rw [hcs] at h
      have hinside : renameInputs ∈ migrating.executed n cs d ∧
          dropInputs ∉ migrating.executed n cs d := by simpa using h
      refine hasTable_of_renamed hinside.1 hinside.2 ?_ (runBody_executed n cs d)
      intro s hs
      obtain ⟨c, _, hc⟩ := mem_executed hs
      exact ⟨c, hc⟩

/-! ## The migration resumes -/

/-- Opens of a version-`v` database that are stopped, any number of times and each
after any number of statements, do not matter to the open that finishes exactly when
none of them is stopped inside the rebuild of `runtime_inputs`. -/
theorem migration_resumes_iff (hv : 1 ≤ v ∧ v ≤ 9) (hd : IsVersion v d) (stops : List Nat) :
    (∃ D, opened d = .ok D ∧ opened (interrupted stops d) = .ok D) ↔
      ∀ before n after, stops = before ++ n :: after →
        stopsInRebuild (interrupted before d) n = false := by
  have hfirst : opened d = migrating.finish (migrate v) d := opened_checkpoint hv hd .start
  obtain ⟨D, hfinish, hD⟩ := hd.finish hv
  constructor
  · rintro ⟨D', hopened, hagain⟩ before n after rfl
    by_contra hinside
    rw [Bool.not_eq_false] at hinside
    have hsplit : interrupted (before ++ n :: after) d =
        interrupted after (openFor n (interrupted before d)) := by
      simp [interrupted]
    rw [hsplit] at hagain
    have hthere := hasTable_interrupted after (hasTable_of_stopsInRebuild hinside)
    obtain rfl : D' = D := Except.ok.inj (hopened.symm.trans (hfirst.trans hfinish))
    have hleft := hasTable_opened hthere hagain
    rw [hD] at hleft
    cases hleft
  · intro hout
    refine ⟨D, hfirst.trans hfinish, ?_⟩
    rw [opened_checkpoint hv hd (interrupted_checkpoint hv hd .start hout), hfinish]

/-- What a version-2 build did not have yet. -/
def laterNames : List String :=
  ["idempotency_key", "resumable", "cpu_seconds", "peak_memory_bytes", "peak_processes",
    "process_id", "process_group_id", "process_start_ticks", "storage", "source_artifact_id",
    "source_input_id", "runtime_resource_reservations", "runtime_uploaded_inputs",
    "runtime_workers"]

/-- A run with one stage, one attempt and one recorded input: the row that each table has. -/
def sampleCells (name : String) : List (String × Value) :=
  match name with
  | "runtime_runs" =>
      [("run_id", .text "run-1"), ("task_id", .text "task"), ("status", .text "running"),
        ("task_spec_json", .text "{}"), ("created_at", .text "2026-01-01")]
  | "runtime_stage_runs" =>
      [("stage_run_id", .text "stage-1"), ("run_id", .text "run-1"), ("stage_key", .text "main"),
        ("ordinal", .integer 0), ("plugin_id", .text "plugin"), ("plugin_version", .text "1"),
        ("status", .text "running"), ("created_at", .text "2026-01-01")]
  | "runtime_attempts" =>
      [("attempt_id", .text "att-1"), ("stage_run_id", .text "stage-1"),
        ("attempt_number", .integer 1), ("status", .text "running"), ("workspace", .text "/w"),
        ("worker_id", .text "worker"), ("started_at", .text "2026-01-01")]
  | "runtime_inputs" =>
      [("attempt_id", .text "att-1"), ("destination", .text "a.v"), ("source", .text "/data/a.v"),
        ("present", .integer 1), ("size_bytes", .integer 3), ("created_at", .text "2026-01-01")]
  | _ => []

def rowOf (cells : List (String × Value)) : Row := fun c ↦ (cells.lookup c).getD .null

theorem mem_of_rowOf {cells : List (String × Value)} {c : String} (h : rowOf cells c ≠ .null) :
    ∃ value, (c, value) ∈ cells := by
  unfold rowOf at h
  cases hvalue : cells.lookup c with
  | none => simp [hvalue] at h
  | some value =>
      obtain ⟨before, after, rfl, _⟩ := List.lookup_eq_some_iff.mp hvalue
      exact ⟨value, List.mem_append_right _ List.mem_cons_self⟩

def sampleRows (name : String) : List Row :=
  if name = metaTable then [versionRow "2"]
  else if sampleCells name = [] then []
  else [rowOf (sampleCells name)]

/-- A version-2 database. -/
def sampleDatabase : Database where
  tables name := ddl.findSome? fun c ↦
    match c with
    | .create other columns constraints =>
        if other = name ∧ other ∉ laterNames then
          some { columns := columns.filter fun c ↦ c.name ∉ laterNames
                 constraints := constraints
                 rows := sampleRows name }
        else none
    | _ => none
  indexes _ := none

theorem rows_sampleDatabase {name : String} {t : SqlTable}
    (h : sampleDatabase.tables name = some t) : t.rows = sampleRows name := by
  obtain ⟨c, _, hc⟩ := List.exists_of_findSome?_eq_some h
  cases c with
  | create other columns constraints =>
      simp only at hc
      split_ifs at hc
      obtain rfl := Option.some.inj hc
      rfl
  | _ => cases hc

/-- Every cell has its column. -/
theorem hasColumn_sampleCells (name : String) :
    ∀ cell ∈ sampleCells name, sampleDatabase.hasColumn name cell.1 = true := by
  unfold sampleCells
  split
  case h_5 => exact List.forall_mem_nil _
  all_goals decide +kernel

theorem sampleDatabase_isVersion : IsVersion 2 sampleDatabase where
  recorded := by decide +kernel
  tables := by decide +kernel
  columns := by decide +kernel
  unkeyed := by decide +kernel
  free := by decide +kernel
  rows := by
    intro name t ht r hr column hcolumn
    rw [rows_sampleDatabase ht] at hr
    by_contra hvalue
    unfold sampleRows at hr
    split_ifs at hr with hmeta hcells
    · obtain rfl := List.mem_singleton.mp hr
      subst hmeta
      have hlisted : column = "key" ∨ column = "value" := by
        by_contra hother
        rw [not_or] at hother
        exact hvalue (by simp [versionRow, hother])
      rcases hlisted with rfl | rfl <;> revert hcolumn <;> decide +kernel
    · cases hr
    · obtain rfl := List.mem_singleton.mp hr
      obtain ⟨value, hcell⟩ := mem_of_rowOf hvalue
      rw [hasColumn_sampleCells name _ hcell] at hcolumn
      cases hcolumn

/-- Stopped once after its first statement and once after the rebuild. -/
theorem migration_resumes_sample : IsVersion 2 sampleDatabase ∧
    ∃ D, opened sampleDatabase = .ok D ∧ opened (interrupted [1, 8] sampleDatabase) = .ok D := by
  refine ⟨sampleDatabase_isVersion,
    (migration_resumes_iff ⟨by decide, by decide⟩ sampleDatabase_isVersion [1, 8]).mpr ?_⟩
  intro before n after hstops
  have hcases : (before = [] ∧ n = 1) ∨ (before = [1] ∧ n = 8) := by
    cases before with
    | nil => exact .inl ⟨rfl, (List.cons.inj hstops).1.symm⟩
    | cons first before =>
        cases before with
        | nil =>
            simp only [List.cons_append, List.nil_append, List.cons.injEq] at hstops
            exact .inr ⟨by rw [hstops.1], hstops.2.1.symm⟩
        | cons second before => simp at hstops
  rcases hcases with ⟨rfl, rfl⟩ | ⟨rfl, rfl⟩
  · decide +kernel
  · decide +kernel

/-- The recorded inputs of a database. -/
def inputCount (result : Except String Database) : Option Nat :=
  match result with
  | .ok d => (d.tables "runtime_inputs").map fun t ↦ t.rows.length
  | .error _ => none

/-- Stopped between the new table and the copy, the migration ends with the new table
and no input; stopped before the new table, it ends no more. -/
theorem migration_loses_inputs : IsVersion 2 sampleDatabase ∧
    (¬∃ D, opened sampleDatabase = .ok D ∧ opened (interrupted [4] sampleDatabase) = .ok D) ∧
    inputCount (opened sampleDatabase) = some 1 ∧
    inputCount (opened (interrupted [4] sampleDatabase)) = some 0 ∧
    inputCount (opened (interrupted [3] sampleDatabase)) = none := by
  have hwhole : inputCount (opened sampleDatabase) = some 1 := by decide +kernel
  have hlost : inputCount (opened (interrupted [4] sampleDatabase)) = some 0 := by
    decide +kernel
  refine ⟨sampleDatabase_isVersion, ?_, hwhole, hlost, by decide +kernel⟩
  rintro ⟨D, hopened, hagain⟩
  rw [hopened] at hwhole
  rw [hagain, hwhole] at hlost
  cases hlost

end ChipEvolve.Schema
