import Mathlib.Data.List.Basic
import Mathlib.Data.List.Nodup

namespace UrlPulse.Data.Schema

/-! # Migrations

Tables with named columns, the changes a migration makes to them, and a database that
remembers which migrations it has had.  The cells are the client's.
-/

/-- Rows have one cell for each column; `identity` is the next value of the identity
column. -/
structure Table (Cell : Type) where
  columns : List String
  rows : List (List Cell) := []
  identity : Int := 1
deriving DecidableEq, Repr

namespace Table

variable {Cell : Type}

def WellFormed (table : Table Cell) : Prop :=
  table.columns.Nodup ∧ ∀ row ∈ table.rows, row.length = table.columns.length

def cell? (table : Table Cell) (row : List Cell) (column : String) : Option Cell :=
  (table.columns.zip row).lookup column

/-- The rows there are get the default. -/
def addColumn (column : String) (defaultValue : Cell) (table : Table Cell) : Table Cell where
  columns := table.columns ++ [column]
  rows := table.rows.map fun row => row ++ [defaultValue]
  identity := table.identity

def dropColumn (column : String) (table : Table Cell) : Table Cell where
  columns := table.columns.filter (· ≠ column)
  rows := table.rows.map fun row =>
    ((table.columns.zip row).filter fun entry => entry.1 ≠ column).map Prod.snd
  identity := table.identity

variable {table : Table Cell} {column : String}

/-- A column that is added can be dropped again, and the table is as it was. -/
theorem dropColumn_addColumn (wellFormed : table.WellFormed) (fresh : column ∉ table.columns)
    (defaultValue : Cell) : (table.addColumn column defaultValue).dropColumn column = table := by
  have others : ∀ name ∈ table.columns, name ≠ column := fun name member same => fresh (same ▸ member)
  have kept : table.columns.filter (· ≠ column) = table.columns :=
    List.filter_eq_self.mpr fun name member => by simpa using others name member
  have rows : ∀ row ∈ table.rows,
      (((table.columns ++ [column]).zip (row ++ [defaultValue])).filter fun entry =>
        entry.1 ≠ column).map Prod.snd = row := by
    intro row member
    have sameLength := wellFormed.2 row member
    have cells : (table.columns.zip row).filter (fun entry => entry.1 ≠ column) =
        table.columns.zip row :=
      List.filter_eq_self.mpr fun entry inside => by simpa using others _ (List.of_mem_zip inside).1
    rw [List.zip_append sameLength.symm, List.filter_append, cells]
    simp [List.map_snd_zip (Nat.le_of_eq sameLength)]
  cases table with
  | mk columns rows' identity =>
      simp only [Table.addColumn, dropColumn, List.filter_append, kept, List.map_map]
      simp only [mk.injEq, and_true]
      refine ⟨by simp, ?_⟩
      calc
        _ = rows'.map id := List.map_congr_left rows
        _ = rows' := List.map_id rows'

end Table

/-! ## Changes of the tables -/

abbrev Tables (Cell : Type) := List (String × Table Cell)

inductive Change (Cell : Type) where
  | createTable (name : String) (columns : List String)
  | dropTable (name : String)
  | addColumn (name table : String) (defaultValue : Cell)
  | dropColumn (name table : String)
deriving DecidableEq, Repr

variable {Cell : Type}

def Tables.modify (name : String) (change : Table Cell → Table Cell) (tables : Tables Cell) :
    Tables Cell :=
  tables.map fun entry => if entry.1 = name then (entry.1, change entry.2) else entry

/-- A change that does not fit the tables fails. -/
def Change.apply (tables : Tables Cell) : Change Cell → Option (Tables Cell)
  | .createTable name columns =>
      if name ∈ tables.map Prod.fst then none else some (tables ++ [(name, { columns })])
  | .dropTable name =>
      if name ∈ tables.map Prod.fst then some (tables.filter fun entry => entry.1 ≠ name) else none
  | .addColumn name table defaultValue =>
      match tables.find? fun entry => entry.1 = table with
      | none => none
      | some entry =>
          if name ∈ entry.2.columns then none
          else some (Tables.modify table (·.addColumn name defaultValue) tables)
  | .dropColumn name table =>
      match tables.find? fun entry => entry.1 = table with
      | none => none
      | some entry =>
          if name ∈ entry.2.columns then some (Tables.modify table (·.dropColumn name) tables)
          else none

def applyAll : List (Change Cell) → Tables Cell → Option (Tables Cell)
  | [], tables => some tables
  | change :: rest, tables => (change.apply tables).bind (applyAll rest)

def Tables.WellFormed (tables : Tables Cell) : Prop :=
  (tables.map Prod.fst).Nodup ∧ ∀ entry ∈ tables, entry.2.WellFormed

variable {tables after : Tables Cell} {name column : String} {defaultValue : Cell}

theorem addColumn_some (added : (Change.addColumn column name defaultValue).apply tables = some after) :
    (∃ table, tables.find? (fun entry => entry.1 = name) = some (name, table) ∧
      column ∉ table.columns) ∧
    after = Tables.modify name (·.addColumn column defaultValue) tables := by
  rw [Change.apply] at added
  split at added
  · contradiction
  · rename_i entry found
    split at added
    · contradiction
    · rename_i fresh
      have named : entry.1 = name := by simpa using List.find?_some found
      refine ⟨⟨entry.2, ?_, fresh⟩, (Option.some.inj added).symm⟩
      rw [found, ← named]

/-- The column a change adds, the opposite change drops. -/
theorem dropColumn_of_addColumn (wellFormed : tables.WellFormed)
    (added : (Change.addColumn column name defaultValue).apply tables = some after) :
    (Change.dropColumn column name).apply after = some tables := by
  obtain ⟨⟨table, found, fresh⟩, rfl⟩ := addColumn_some added
  have member := List.mem_of_find?_eq_some found
  have onlyOne : ∀ entry ∈ tables, entry.1 = name → entry = (name, table) :=
    fun entry inside same => List.inj_on_of_nodup_map wellFormed.1 inside member same
  have foundAfter : (Tables.modify name (·.addColumn column defaultValue) tables).find?
      (fun entry => entry.1 = name) = some (name, table.addColumn column defaultValue) := by
    have sameTest : ((fun entry : String × Table Cell => decide (entry.1 = name)) ∘ fun entry =>
        if entry.1 = name then (entry.1, entry.2.addColumn column defaultValue) else entry) =
        fun entry => decide (entry.1 = name) := by
      funext entry
      by_cases same : entry.1 = name <;> simp [same]
    rw [Tables.modify, List.find?_map, sameTest, found]
    simp
  have listed : column ∈ (table.addColumn column defaultValue).columns :=
    List.mem_append_right _ (List.mem_singleton.mpr rfl)
  have restored : Tables.modify name (·.dropColumn column)
      (Tables.modify name (·.addColumn column defaultValue) tables) = tables := by
    rw [Tables.modify, Tables.modify, List.map_map]
    calc
      _ = tables.map id := by
        apply List.map_congr_left
        intro entry inside
        by_cases same : entry.1 = name
        · rw [onlyOne entry inside same]
          simp [Table.dropColumn_addColumn (wellFormed.2 _ member) fresh defaultValue]
        · simp [same]
      _ = tables := List.map_id tables
  simp only [Change.apply, foundAfter, if_pos listed, restored]

theorem dropTable_of_createTable {columns : List String}
    (created : (Change.createTable name columns).apply tables = some after) :
    (Change.dropTable name).apply after = some tables := by
  rw [Change.apply] at created
  split at created
  · contradiction
  · rename_i fresh
    cases created
    simp only [Change.apply, List.map_append, List.mem_append, List.map_cons, List.map_nil,
      List.mem_singleton, or_true, if_true, List.filter_append, Option.some.injEq]
    have kept : tables.filter (fun entry => decide (entry.1 ≠ name)) = tables := by
      refine List.filter_eq_self.mpr fun entry inside => decide_eq_true fun same => fresh ?_
      exact same ▸ List.mem_map_of_mem inside
    rw [kept]
    simp

/-! ## Migrations -/

structure Migration (Cell : Type) where
  id : String
  up : List (Change Cell)
  down : List (Change Cell)
deriving DecidableEq, Repr

/-- A database with the ids of the migrations it has had. -/
structure Versioned (Cell : Type) where
  tables : Tables Cell := []
  applied : List String := []
deriving DecidableEq, Repr

/-- The pending migrations, in order. -/
def migrate : List (Migration Cell) → Versioned Cell → Option (Versioned Cell)
  | [], database => some database
  | migration :: rest, database =>
      if migration.id ∈ database.applied then migrate rest database
      else
        (applyAll migration.up database.tables).bind fun tables =>
          migrate rest { tables, applied := database.applied ++ [migration.id] }

/-- Whatever its up makes of tables, its down takes back. -/
def Migration.Reversible (migration : Migration Cell) : Prop :=
  ∀ tables after : Tables Cell, tables.WellFormed → applyAll migration.up tables = some after →
    applyAll migration.down after = some tables

/-- The last migration is taken back first. -/
def rollback : List (Migration Cell) → Tables Cell → Option (Tables Cell)
  | [], tables => some tables
  | migration :: rest, tables => (rollback rest tables).bind (applyAll migration.down)

theorem applyAll_singleton (change : Change Cell) (tables : Tables Cell) :
    applyAll [change] tables = change.apply tables := by
  rw [applyAll]
  cases change.apply tables with
  | none => rfl
  | some after => rfl

theorem reversible_addColumn (id column name : String) (defaultValue : Cell) :
    ({ id, up := [.addColumn column name defaultValue]
       down := [.dropColumn column name] } : Migration Cell).Reversible := by
  intro tables after wellFormed added
  rw [applyAll_singleton] at added ⊢
  exact dropColumn_of_addColumn wellFormed added

theorem reversible_createTables (id first second : String) (firstColumns secondColumns : List String) :
    ({ id, up := [.createTable first firstColumns, .createTable second secondColumns]
       down := [.dropTable second, .dropTable first] } : Migration Cell).Reversible := by
  intro tables after _ created
  rw [applyAll] at created
  obtain ⟨between, firstCreated, secondCreated⟩ := Option.bind_eq_some_iff.mp created
  rw [applyAll_singleton] at secondCreated
  simp only [applyAll, dropTable_of_createTable secondCreated, dropTable_of_createTable firstCreated,
    Option.bind_some]

theorem reversible_nothing (id : String) :
    ({ id, up := [], down := [] } : Migration Cell).Reversible := by
  intro tables after _ same
  cases same
  rfl

variable {migration : Migration Cell} {migrations : List (Migration Cell)}
  {database next : Versioned Cell}

theorem migrate_of_applied (had : ∀ migration ∈ migrations, migration.id ∈ database.applied) :
    migrate migrations database = some database := by
  induction migrations with
  | nil => rfl
  | cons migration rest ih =>
      rw [migrate, if_pos (had migration List.mem_cons_self)]
      exact ih fun other member => had other (List.mem_cons_of_mem migration member)

theorem applied_of_migrate (migrated : migrate migrations database = some next) :
    database.applied ⊆ next.applied ∧ ∀ migration ∈ migrations, migration.id ∈ next.applied := by
  induction migrations generalizing database with
  | nil =>
      cases migrated
      exact ⟨List.Subset.refl _, fun _ member => by contradiction⟩
  | cons migration rest ih =>
      rw [migrate] at migrated
      split at migrated
      · rename_i had
        obtain ⟨kept, all⟩ := ih migrated
        exact ⟨kept, List.forall_mem_cons.mpr ⟨kept had, all⟩⟩
      · obtain ⟨tables, -, later⟩ := Option.bind_eq_some_iff.mp migrated
        obtain ⟨kept, all⟩ := ih later
        refine ⟨fun id member => kept (List.mem_append_left _ member), ?_⟩
        exact List.forall_mem_cons.mpr ⟨kept (List.mem_append_right _ (List.mem_singleton.mpr rfl)), all⟩

/-- A second start finds nothing left to do. -/
theorem migrate_again (migrated : migrate migrations database = some next) :
    migrate migrations next = some next :=
  migrate_of_applied (applied_of_migrate migrated).2

theorem migrate_append (first second : List (Migration Cell)) (database : Versioned Cell) :
    migrate (first ++ second) database = (migrate first database).bind (migrate second) := by
  induction first generalizing database with
  | nil => rfl
  | cons migration rest ih =>
      rw [List.cons_append, migrate, migrate]
      split
      · exact ih database
      · cases applyAll migration.up database.tables with
        | none => rfl
        | some tables => exact ih _

end UrlPulse.Data.Schema
