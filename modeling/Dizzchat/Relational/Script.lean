import Dizzchat.Relational.Validity

set_option autoImplicit false

/-! # Scripts

Statements that run one after the other in one transaction. What a script does to the schema can be
computed without the rows (`editAll`), what it does to the rows without the schema (`carryAll`), and
what is left to prove of a script is that the rows meet the demands of its statements
(`runAll_eq_ok`). -/

namespace Relational

variable {N V T : Type} [DecidableEq N]

/-- It leaves the rows as they are. -/
def Statement.leavesRows : Statement N V T → Bool
  | .createTable _ | .setDefault .. | .setNullable .. | .createIndex .. | .dropIndex ..
  | .createUnique .. | .dropUnique .. => true
  | .dropTable _ | .addColumn .. | .dropColumn .. | .insertSelect .. => false

/-- The schema after a script. -/
def editAll : List (Statement N V T) → Schema N V T → Option (Schema N V T)
  | [], schema => some schema
  | s :: rest, schema => match s.edit schema with
    | none => none
    | some schema' => if schema'.WellFormed then editAll rest schema' else none

variable {s : Statement N V T} {script rest : List (Statement N V T)} {schema schema' : Schema N V T}

theorem editAll_cons : editAll (s :: rest) schema = some schema' ↔
    ∃ between, s.edit schema = some between ∧ between.WellFormed ∧
      editAll rest between = some schema' := by
  rw [editAll]
  cases s.edit schema with
  | none => simp
  | some between =>
      simp only [Option.some.injEq, exists_eq_left']
      split
      · next hwell => simp [hwell]
      · next hwell => simp [hwell]

section Rows

variable [Values V T]

/-- The rows after a script. -/
def carryAll (script : List (Statement N V T)) (rows : N → List (Row N V)) : N → List (Row N V) :=
  script.foldl (fun rows s => s.carry rows) rows

/-- What a script asks of the rows. -/
def DemandsAll : List (Statement N V T) → Schema N V T → (N → List (Row N V)) → Prop
  | [], _, _ => True
  | s :: rest, schema, rows => ∃ schema', s.edit schema = some schema' ∧ s.Demands schema' rows ∧
      DemandsAll rest schema' (s.carry rows)

variable {rows : N → List (Row N V)}

theorem carry_of_leavesRows (h : s.leavesRows = true) : s.carry rows = rows := by
  have hsame : Function.update rows s.table ((rows s.table).map id) = rows := by
    rw [List.map_id, Function.update_eq_self]
  cases s with
  | createTable | setDefault | setNullable | createIndex | dropIndex | createUnique | dropUnique =>
      exact hsame
  | dropTable | addColumn | dropColumn | insertSelect => cases h

/-- Of a script only the statements that touch rows matter to them. -/
theorem carryAll_filter :
    carryAll script rows = carryAll (script.filter fun s => !s.leavesRows) rows := by
  induction script generalizing rows with
  | nil => rfl
  | cons s rest ih =>
      show carryAll rest (s.carry rows) = _
      rw [ih, List.filter_cons]
      cases hleaves : s.leavesRows with
      | true =>
          rw [carry_of_leavesRows hleaves]
          rfl
      | false => rfl

/-- A row that is inserted, by its fields. -/
theorem inserted_eq_rowOf (columns sourceColumns : List N) (row : Row N V) :
    Statement.inserted columns sourceColumns row = rowOf (columns.zip (sourceColumns.map row)) := by
  funext name
  unfold Statement.inserted rowOf
  induction columns generalizing sourceColumns with
  | nil => rfl
  | cons column columns ih =>
      cases sourceColumns with
      | nil => rfl
      | cons source sourceColumns =>
          simp only [List.map_cons, List.zip_cons_cons, List.lookup_cons]
          cases name == column with
          | true => rfl
          | false => exact ih sourceColumns

omit [Values V T] in
theorem update_map_self {n : N} {f : Row N V → Row N V} (hf : ∀ row ∈ rows n, f row = row) :
    Function.update rows n ((rows n).map f) = rows := by
  have hmap : (rows n).map f = (rows n).map id := List.map_congr_left hf
  rw [hmap, List.map_id, Function.update_eq_self]

/-- A column comes as it was, NULL in every row. -/
theorem carry_addColumn {n : N} {column : Column N V T} (hdefault : column.serverDefault = none)
    (hblank : ∀ row ∈ rows n, row column.name = Values.null) :
    (Statement.addColumn n column).carry rows = rows := by
  refine update_map_self fun row hrow => ?_
  show Function.update row column.name (column.serverDefault.getD Values.null) = row
  rw [hdefault, Option.getD_none, ← hblank row hrow, Function.update_eq_self]

/-- A column that is NULL in every row goes unnoticed. -/
theorem carry_dropColumn {n column : N} (hblank : ∀ row ∈ rows n, row column = Values.null) :
    (Statement.dropColumn n column).carry rows = rows := by
  refine update_map_self fun row hrow => ?_
  show Function.update row column Values.null = row
  rw [← hblank row hrow, Function.update_eq_self]

/-- To drop a column that has been added takes it back, whatever default it came with. -/
theorem carry_dropColumn_addColumn {n : N} (column : Column N V T)
    (hblank : ∀ row ∈ rows n, row column.name = Values.null) :
    (Statement.dropColumn n column.name).carry ((Statement.addColumn n column).carry rows) = rows := by
  show Function.update (Function.update rows n _) n ((Function.update rows n _ n).map _) = rows
  rw [Function.update_self, Function.update_idem, List.map_map]
  refine update_map_self fun row hrow => ?_
  show Function.update (Function.update row column.name _) column.name Values.null = row
  rw [Function.update_idem, ← hblank row hrow, Function.update_eq_self]

/-- To drop a table takes back what was written into it, if it was empty before. -/
theorem carry_dropTable {n : N} {rows' : N → List (Row N V)} (hempty : rows n = [])
    (hother : ∀ m, m ≠ n → rows' m = rows m) :
    (Statement.dropTable (T := T) n).carry rows' = rows := by
  funext m
  show Function.update rows' n [] m = rows m
  by_cases hm : m = n
  · rw [hm, Function.update_self, hempty]
  · rw [Function.update_of_ne hm, hother m hm]

variable [DecidableEq V] {db db' : Database N V T}

theorem runAll_cons : runAll (s :: rest) db = .ok db' ↔
    ∃ between, s.run db = .ok between ∧ runAll rest between = .ok db' := by
  rw [runAll]
  cases s.run db with
  | error e => simp
  | ok between => simp

theorem runAll_append : runAll (script ++ rest) db = .ok db' ↔
    ∃ between, runAll script db = .ok between ∧ runAll rest between = .ok db' := by
  induction script generalizing db with
  | nil => simp [runAll]
  | cons s script ih =>
      simp only [List.cons_append, runAll_cons, ih]
      constructor
      · rintro ⟨first, hfirst, between, hscript, hrest⟩
        exact ⟨between, ⟨first, hfirst, hscript⟩, hrest⟩
      · rintro ⟨between, ⟨first, hfirst, hscript⟩, hrest⟩
        exact ⟨first, hfirst, between, hscript, hrest⟩

theorem runAll_valid (hvalid : db.Valid) (h : runAll script db = .ok db') : db'.Valid := by
  induction script generalizing db with
  | nil =>
      rw [runAll] at h
      exact Except.ok.inj h ▸ hvalid
  | cons s rest ih =>
      obtain ⟨between, hfirst, hrest⟩ := runAll_cons.1 h
      exact ih (run_valid hvalid hfirst) hrest

/-- When a script goes through on a valid database, and what it does. -/
theorem runAll_eq_ok (hvalid : db.Valid) : runAll script db = .ok db' ↔
    ∃ schema, editAll script db.schema = some schema ∧ DemandsAll script db.schema db.rows ∧
      db' = ⟨schema, carryAll script db.rows⟩ := by
  induction script generalizing db with
  | nil =>
      rw [runAll]
      constructor
      · intro h
        exact ⟨db.schema, rfl, trivial, (Except.ok.inj h).symm⟩
      · rintro ⟨schema, hschema, -, rfl⟩
        obtain rfl := Option.some.inj hschema
        rfl
  | cons s rest ih =>
      rw [runAll_cons]
      constructor
      · rintro ⟨between, hrun, hrest⟩
        obtain ⟨schema, hschema, hdemands, rfl⟩ := (ih (run_valid hvalid hrun)).1 hrest
        obtain ⟨first, hedit, hwell, hkeeps, rfl⟩ := run_eq_ok.1 hrun
        exact ⟨schema, editAll_cons.2 ⟨first, hedit, hwell, hschema⟩,
          ⟨first, hedit, (keeps_iff hvalid hedit hwell).1 hkeeps, hdemands⟩, rfl⟩
      · rintro ⟨schema, hschema, ⟨first, hedit, hdemand, hdemands⟩, rfl⟩
        obtain ⟨first', hedit', hwell, hrest⟩ := editAll_cons.1 hschema
        obtain rfl : first = first' := Option.some.inj (hedit.symm.trans hedit')
        have hrun : s.run db = .ok ⟨first, s.carry db.rows⟩ :=
          run_eq_ok.2 ⟨first, hedit, hwell, (keeps_iff hvalid hedit hwell).2 hdemand, rfl⟩
        exact ⟨_, hrun, (ih (run_valid hvalid hrun)).2 ⟨schema, hrest, hdemands, rfl⟩⟩

end Rows

end Relational
