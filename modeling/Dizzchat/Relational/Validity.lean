import Dizzchat.Relational.Schema

set_option autoImplicit false

/-! # Statements on valid databases

What a statement does to a schema is said once (`Edits`), and what it asks of the rows (`Demands`). A valid
database stays valid, whatever is run (`run_valid`), and on one a statement goes through exactly if its
schema is well formed and the rows meet its demands (`keeps_iff`). -/

namespace Relational

variable {N V T : Type} [DecidableEq N]

/-! ## Schemas -/

/-- What a statement does to a schema, one constructor for each way. -/
inductive Statement.Edits (schema : Schema N V T) : Statement N V T → Schema N V T → Prop
  | created (t : Table N V T) : Edits schema (.createTable t) (schema ++ [t])
  | dropped {name : N} (hname : name ∈ schema.names) :
      Edits schema (.dropTable name) (schema.filter fun t => t.name ≠ name)
  | changed {s : Statement N V T} {t t' : Table N V T} (ht : t ∈ schema) (hname : t.name = s.table)
      (hon : s.onTable t = some t') :
      Edits schema s (schema.map fun u => if u.name = s.table then t' else u)

section Edits

variable {schema schema' : Schema N V T} {s : Statement N V T} {t t' u : Table N V T}

theorem edit_edits (h : s.edit schema = some schema') : s.Edits schema schema' := by
  unfold Statement.edit at h
  split at h
  · exact Option.some.inj h ▸ .created _
  · split at h
    · next hname => exact Option.some.inj h ▸ .dropped hname
    · cases h
  · split at h
    · split at h
      · cases h
      · next t ht =>
          obtain ⟨t', hon, rfl⟩ := Option.map_eq_some_iff.1 h
          have hname : t.name = s.table := by simpa using List.find?_some ht
          exact .changed (List.mem_of_find?_eq_some ht) hname hon
    · cases h

theorem onTable_name (h : s.onTable t = some t') : t'.name = t.name := by
  cases s with
  | createTable | dropTable => cases h
  | addColumn | createIndex | createUnique => exact (Option.some.inj h) ▸ rfl
  | dropColumn | setDefault | setNullable | dropIndex | dropUnique | insertSelect =>
      simp only [Statement.onTable, Statement.alterColumn] at h
      split at h
      · exact (Option.some.inj h) ▸ rfl
      · cases h

/-- The other tables stay as they are. -/
theorem Statement.Edits.other (h : s.Edits schema schema') (hne : u.name ≠ s.table) :
    u ∈ schema' ↔ u ∈ schema := by
  cases h with
  | created t =>
      have hu : u ≠ t := fun heq => hne (congrArg Table.name heq)
      simp [hu]
  | dropped hname => exact List.mem_filter.trans (and_iff_left (decide_eq_true hne))
  | changed ht hname hon =>
      constructor
      · intro hu
        obtain ⟨u₀, hu₀, heq⟩ := List.mem_map.1 hu
        split at heq
        · exact absurd ((congrArg Table.name heq).symm.trans ((onTable_name hon).trans hname)) hne
        · exact heq ▸ hu₀
      · intro hu
        exact List.mem_map.2 ⟨u, hu, if_neg hne⟩

end Edits

/-! ## Rows -/

section Rows

variable [Values V T] {rows : N → List (Row N V)} {schema schema' : Schema N V T} {s : Statement N V T}
  {t t' : Table N V T} {row : Row N V}

theorem carry_other {n : N} (hne : n ≠ s.table) : s.carry rows n = rows n := by
  cases s <;> exact Function.update_of_ne hne _ _

/-- A row is what it was in the columns that stay. -/
theorem onRow_eq (hon : s.onTable t = some t') (hnodup : t'.names.Nodup) (row : Row N V) {name : N}
    (hname : name ∈ t.names) (hname' : name ∈ t'.names) : s.onRow row name = row name := by
  cases s with
  | addColumn _ column =>
      obtain rfl := Option.some.inj hon
      have hnames : (t.names ++ [column.name]).Nodup := by simpa [Table.names] using hnodup
      have hne : name ≠ column.name := by
        rintro rfl
        exact (List.nodup_append.1 hnames).2.2 _ hname _ (List.mem_singleton_self _) rfl
      exact Function.update_of_ne hne _ _
  | dropColumn _ column =>
      simp only [Statement.onTable] at hon
      split at hon
      · obtain rfl := Option.some.inj hon
        obtain ⟨c, hc, rfl⟩ := List.mem_map.1 hname'
        have hne : c.name ≠ column := by simpa using (List.mem_filter.1 hc).2
        exact Function.update_of_ne hne _ _
      · cases hon
  | createTable | dropTable | setDefault | setNullable | createIndex | dropIndex | createUnique
  | dropUnique | insertSelect => rfl

theorem onRow_mem_carry (hs : ∀ name, s ≠ .dropTable name) (hrow : row ∈ rows s.table) :
    s.onRow row ∈ s.carry rows s.table := by
  cases s with
  | dropTable name => exact absurd rfl (hs name)
  | insertSelect name columns source sourceColumns =>
      simp only [Statement.carry, Statement.table, Function.update_self]
      exact List.mem_append_left _ hrow
  | createTable | addColumn | dropColumn | setDefault | setNullable | createIndex | dropIndex
  | createUnique | dropUnique =>
      simp only [Statement.carry, Function.update_self]
      exact List.mem_map_of_mem hrow

/-- Where a row comes from. -/
theorem mem_carry (hrow : row ∈ s.carry rows s.table) :
    (∃ old ∈ rows s.table, s.onRow old = row) ∨
      ∃ name columns source sourceColumns, s = .insertSelect name columns source sourceColumns ∧
        ∃ selected ∈ rows source, Statement.inserted columns sourceColumns selected = row := by
  cases s with
  | dropTable name => simp [Statement.carry, Statement.table] at hrow
  | insertSelect name columns source sourceColumns =>
      simp only [Statement.carry, Statement.table, Function.update_self] at hrow
      rcases List.mem_append.1 hrow with hold | hnew
      · exact .inl ⟨row, hold, rfl⟩
      · exact .inr ⟨_, _, _, _, rfl, List.mem_map.1 hnew⟩
  | createTable | addColumn | dropColumn | setDefault | setNullable | createIndex | dropIndex
  | createUnique | dropUnique =>
      simp only [Statement.carry, Function.update_self] at hrow
      exact .inl (List.mem_map.1 hrow)

/-- A row that a reference goes to is still there. -/
theorem target_carried (h : s.Edits schema schema') (hold : schema.WellFormed)
    (hnew : schema'.WellFormed) {key : ForeignKey N} (ht : t ∈ schema) (hkey : key ∈ t.foreignKeys)
    (ht' : t' ∈ schema') (hkey' : key ∈ t'.foreignKeys) {target : Row N V}
    (htarget : target ∈ rows key.refTable) :
    ∃ target' ∈ s.carry rows key.refTable, key.refColumns.map target' = key.refColumns.map target := by
  by_cases hself : key.refTable = s.table
  case neg => exact ⟨target, by rwa [carry_other hself], rfl⟩
  obtain ⟨u, hu, huname, hukeys, -⟩ := ((hold.tables t ht).foreignKeys key hkey).2
  obtain ⟨u', hu', huname', hukeys', -⟩ := ((hnew.tables t' ht').foreignKeys key hkey').2
  rw [hself] at huname huname' htarget ⊢
  have hcolumns : ∀ name ∈ key.refColumns, name ∈ u.names := ((hold.tables u hu).keys _ hukeys).2
  have hcolumns' : ∀ name ∈ key.refColumns, name ∈ u'.names := ((hnew.tables u' hu').keys _ hukeys').2
  have hdrop : ∀ name, s ≠ .dropTable name := by
    rintro name rfl
    cases h with
    | dropped => exact absurd huname' (of_decide_eq_true (List.mem_filter.1 hu').2)
    | changed _ _ hon => cases hon
  refine ⟨s.onRow target, onRow_mem_carry hdrop htarget, List.map_congr_left fun name hname => ?_⟩
  cases h with
  | created => rfl
  | dropped => exact absurd rfl (hdrop _)
  | @changed _ u₀ u₀' hu₀ hname₀ hon =>
      obtain rfl := Schema.eq_of_name hold.names hu hu₀ (huname.trans hname₀.symm)
      have hmem : u₀' ∈ schema.map fun u => if u.name = s.table then u₀' else u :=
        List.mem_map.2 ⟨u, hu, if_pos huname⟩
      obtain rfl := Schema.eq_of_name hnew.names hu' hmem
        (huname'.trans ((onTable_name hon).trans hname₀).symm)
      exact onRow_eq hon (hnew.tables u' hu').names target (hcolumns name hname) (hcolumns' name hname)

omit [Values V T] in
theorem alterColumn_names {name : N} (f : Column N V T → Column N V T) (hf : ∀ c, (f c).name = c.name)
    (h : Statement.alterColumn name f t = some t') : t'.names = t.names := by
  unfold Statement.alterColumn at h
  split at h
  · obtain rfl := Option.some.inj h
    simp only [Table.names, List.map_map]
    refine List.map_congr_left fun c _ => ?_
    simp only [Function.comp_apply]
    split
    · exact hf c
    · rfl
  · cases h

/-- Where the table has no column, a row has nothing. -/
theorem onRow_blank (hon : s.onTable t = some t')
    (hblank : ∀ name, name ∉ t.names → row name = Values.null) {name : N} (hname : name ∉ t'.names) :
    s.onRow row name = Values.null := by
  cases s with
  | createTable | dropTable => cases hon
  | addColumn _ column =>
      obtain rfl := Option.some.inj hon
      have hnames : name ∉ t.names ++ [column.name] := by simpa [Table.names] using hname
      rw [List.mem_append, not_or, List.mem_singleton] at hnames
      exact (Function.update_of_ne hnames.2 _ _).trans (hblank name hnames.1)
  | dropColumn _ column =>
      simp only [Statement.onTable] at hon
      split at hon
      · obtain rfl := Option.some.inj hon
        simp only [Statement.onRow]
        rcases eq_or_ne name column with rfl | hne
        · exact Function.update_self _ _ _
        · rw [Function.update_of_ne hne]
          refine hblank name fun hold => hname ?_
          obtain ⟨c, hc, rfl⟩ := List.mem_map.1 hold
          exact List.mem_map.2 ⟨c, List.mem_filter.2 ⟨hc, decide_eq_true hne⟩, rfl⟩
      · cases hon
  | setDefault _ column value =>
      have hnames : t'.names = t.names :=
        alterColumn_names (fun c => { c with serverDefault := value }) (fun _ => rfl) hon
      exact hblank name (hnames ▸ hname)
  | setNullable _ column nullable =>
      have hnames : t'.names = t.names :=
        alterColumn_names (fun c => { c with nullable }) (fun _ => rfl) hon
      exact hblank name (hnames ▸ hname)
  | createIndex | createUnique =>
      obtain rfl := Option.some.inj hon
      exact hblank name hname
  | dropIndex | dropUnique | insertSelect =>
      simp only [Statement.onTable] at hon
      split at hon
      · obtain rfl := Option.some.inj hon
        exact hblank name hname
      · cases hon

theorem inserted_blank {columns sourceColumns : List N} {name : N} (hname : name ∉ columns) :
    Statement.inserted columns sourceColumns row name = Values.null := by
  unfold Statement.inserted
  split
  · next source hlookup =>
      obtain ⟨before, after, hzip, -⟩ := List.lookup_eq_some_iff.1 hlookup
      have hpair : (name, source) ∈ columns.zip sourceColumns := by simp [hzip]
      exact absurd (List.of_mem_zip hpair).1 hname
  · rfl

variable [DecidableEq V] {db db' : Database N V T}

theorem run_eq_ok : s.run db = .ok db' ↔ ∃ schema, s.edit db.schema = some schema ∧
    schema.WellFormed ∧ s.Keeps schema (s.carry db.rows) ∧ db' = ⟨schema, s.carry db.rows⟩ := by
  unfold Statement.run
  cases s.edit db.schema with
  | none => simp
  | some schema =>
      simp only [Option.some.injEq, exists_eq_left']
      split
      · next hwell =>
          split
          · next hkeeps => simp [hwell, hkeeps, eq_comm]
          · next hkeeps => simp [hkeeps]
      · next hwell => simp [hwell]

/-- Whatever is run on a valid database, it stays valid. -/
theorem run_valid (hvalid : db.Valid) (h : s.run db = .ok db') : db'.Valid := by
  obtain ⟨schema, hedit, hwell, hkeeps, rfl⟩ := run_eq_ok.1 h
  have hedits := edit_edits hedit
  constructor
  case wellFormed => exact hwell
  case holds =>
    intro t ht
    by_cases hname : t.name = s.table
    case pos => exact hkeeps t ht hname
    have hold : t ∈ db.schema := (hedits.other hname).1 ht
    have hholds := hvalid.holds t hold
    have hrows : s.carry db.rows t.name = db.rows t.name := carry_other hname
    refine ⟨fun row hrow => hholds.fits row (hrows ▸ hrow), fun columns hcolumns => ?_, ?_⟩
    · show Distinct columns (s.carry db.rows t.name)
      rw [hrows]
      exact hholds.keys columns hcolumns
    · intro key hkey row hrow hcomplete
      replace hrow : row ∈ db.rows t.name := hrows ▸ hrow
      obtain ⟨target, htarget, hsame⟩ := hholds.refs key hkey row hrow hcomplete
      obtain ⟨target', htarget', hsame'⟩ :=
        target_carried hedits hvalid.wellFormed hwell hold hkey ht hkey htarget
      exact ⟨target', htarget', hsame'.trans hsame⟩
  case blank =>
    intro t ht row hrow name hblank
    by_cases hname : t.name = s.table
    case neg =>
      replace hrow : row ∈ s.carry db.rows t.name := hrow
      rw [carry_other hname] at hrow
      exact hvalid.blank t ((hedits.other hname).1 ht) row hrow name hblank
    replace hrow : row ∈ s.carry db.rows s.table := hname ▸ hrow
    cases hedits with
    | created t₀ =>
        have hnew : t₀.name ∉ db.schema.names := by
          have hnames := hwell.names
          simp only [Schema.names, List.map_append, List.map_singleton] at hnames
          exact fun hmem => (List.nodup_append.1 hnames).2.2 _ hmem _ (List.mem_singleton_self _) rfl
        simp only [Statement.carry, Statement.table, Function.update_self, hvalid.empty _ hnew,
          List.map_nil, List.not_mem_nil] at hrow
    | dropped => exact absurd hname (of_decide_eq_true (List.mem_filter.1 ht).2)
    | @changed _ t₀ t₀' ht₀ hname₀ hon =>
        have hmem : t₀' ∈ db.schema.map fun u => if u.name = s.table then t₀' else u :=
          List.mem_map.2 ⟨t₀, ht₀, if_pos hname₀⟩
        obtain rfl := Schema.eq_of_name hwell.names ht hmem
          (hname.trans ((onTable_name hon).trans hname₀).symm)
        rcases mem_carry hrow with ⟨old, hold, rfl⟩ | ⟨_, columns, _, _, rfl, selected, -, rfl⟩
        · exact onRow_blank hon (hvalid.blank t₀ ht₀ old (hname₀ ▸ hold)) hblank
        · simp only [Statement.onTable] at hon
          split at hon
          · next hperm =>
              obtain rfl := Option.some.inj hon
              exact inserted_blank fun hmem => hblank (hperm.1.mem_iff.1 hmem)
          · cases hon
  case empty =>
    intro name hname
    show s.carry db.rows name = []
    by_cases hself : name = s.table
    case neg =>
      rw [carry_other hself]
      refine hvalid.empty name fun hmem => hname ?_
      obtain ⟨u, hu, rfl⟩ := List.mem_map.1 hmem
      exact List.mem_map.2 ⟨u, (hedits.other hself).2 hu, rfl⟩
    subst hself
    cases hedits with
    | created t => exact absurd (List.mem_map.2 ⟨t, by simp, rfl⟩) hname
    | dropped => exact Function.update_self _ _ _
    | @changed _ t₀ t₀' ht₀ hname₀ hon =>
        refine absurd (List.mem_map.2 ⟨t₀', ?_, (onTable_name hon).trans hname₀⟩) hname
        exact List.mem_map.2 ⟨t₀, ht₀, if_pos hname₀⟩

end Rows

/-! ## What a statement asks of the rows -/

/-- What the rows have to be like, before the statement. -/
def Statement.Demands [Values V T] (s : Statement N V T) (schema : Schema N V T)
    (rows : N → List (Row N V)) : Prop :=
  match s with
  | .addColumn name column =>
      rows name ≠ [] → column.Admits (column.serverDefault.getD Values.null)
  | .setNullable name column nullable =>
      nullable = false → ∀ row ∈ rows name, row column ≠ Values.null
  | .createIndex name index => index.unique = true → Distinct index.columns (rows name)
  | .createUnique name unique => Distinct unique.columns (rows name)
  | .insertSelect .. => s.Keeps schema (s.carry rows)
  | .createTable _ | .dropTable _ | .dropColumn .. | .setDefault .. | .dropIndex .. | .dropUnique .. => True

section Demands

variable [Values V T] {rows : N → List (Row N V)} {schema schema' : Schema N V T} {s : Statement N V T}
  {t t' : Table N V T}

omit [DecidableEq N] in
/-- Rows with a NULL in a key collide with none. -/
theorem distinct_of_null {columns : List N} {rows : List (Row N V)} {name : N} (hname : name ∈ columns)
    (hnull : ∀ row ∈ rows, row name = Values.null) : Distinct columns rows := by
  refine List.pairwise_of_forall_mem_list fun row hrow _ _ hcollide => ?_
  exact hcollide.1 name hname (hnull row hrow)

omit [DecidableEq N] in
theorem distinct_map {columns : List N} {f : Row N V → Row N V} {rows : List (Row N V)}
    (hf : ∀ row, ∀ name ∈ columns, f row name = row name) :
    Distinct columns (rows.map f) ↔ Distinct columns rows := by
  have hmap : ∀ row, columns.map (f row) = columns.map row := by
    intro row
    exact List.map_congr_left (hf row)
  have hcomplete : ∀ row, Complete columns (f row) ↔ Complete columns row := by
    intro row
    refine forall₂_congr fun name hname => ?_
    rw [hf row name hname]
  unfold Distinct Collide
  rw [List.pairwise_map]
  simp only [hmap, hcomplete]

omit [DecidableEq N] in
theorem admits_of_fits {c c' : Column N V T} {v : V} (h : c.Admits v) (htype : c'.type = c.type)
    (hnull : v = Values.null → c'.nullable = true) : c'.Admits v :=
  ⟨hnull, fun hv => htype ▸ h.2 hv⟩

/-- A statement changes a table of a valid database, and the schema stays well formed. -/
structure Statement.Changes (db : Database N V T) (s : Statement N V T) (t t' : Table N V T) :
    Prop where
  valid : db.Valid
  wellFormed : Schema.WellFormed (db.schema.map fun u => if u.name = s.table then t' else u)
  mem : t ∈ db.schema
  named : t.name = s.table
  onTable : s.onTable t = some t'

namespace Statement.Changes

variable {db : Database N V T}

theorem named' (h : s.Changes db t t') : t'.name = s.table := (onTable_name h.onTable).trans h.named

theorem mem' (h : s.Changes db t t') :
    t' ∈ db.schema.map fun u => if u.name = s.table then t' else u :=
  List.mem_map.2 ⟨t, h.mem, if_pos h.named⟩

/-- A row is what it was in a column that stays. -/
theorem onRow (h : s.Changes db t t') (row : Row N V) {name : N} (hname : name ∈ t.names)
    (hname' : name ∈ t'.names) : s.onRow row name = row name :=
  onRow_eq h.onTable (h.wellFormed.tables t' h.mem').names row hname hname'

theorem admits (h : s.Changes db t t') {row : Row N V} (hrow : row ∈ db.rows s.table)
    {c : Column N V T} (hc : c ∈ t.columns) : c.Admits (row c.name) :=
  (h.valid.holds t h.mem).fits row (h.named.symm ▸ hrow) c hc

/-- A row is carried to one that keeps what is asked of it. -/
theorem fits (h : s.Changes db t t') (hholds : t'.Holds (s.carry db.rows)) {row : Row N V}
    (hrow : row ∈ db.rows s.table) {c : Column N V T} (hc : c ∈ t'.columns) :
    c.Admits (s.onRow row c.name) := by
  have hdrop : ∀ name, s ≠ .dropTable name := by
    rintro name rfl
    cases h.onTable
  exact hholds.fits _ (h.named'.symm ▸ onRow_mem_carry hdrop hrow) c hc

/-- The rows of a changed table keep its constraints, if they keep those that are new. -/
theorem holds (h : s.Changes db t t')
    (hinsert : ∀ name columns source sourceColumns,
      s ≠ .insertSelect name columns source sourceColumns)
    (hfits : ∀ row ∈ db.rows s.table, ∀ c ∈ t'.columns, c.Admits (s.onRow row c.name))
    (hkeys : ∀ columns ∈ t'.keys,
      columns ∈ t.keys ∨ Distinct columns ((db.rows s.table).map s.onRow))
    (hrefs : ∀ key ∈ t'.foreignKeys, key ∈ t.foreignKeys) : t'.Holds (s.carry db.rows) := by
  have hold := h.valid.wellFormed.tables t h.mem
  have hnew := h.wellFormed.tables t' h.mem'
  have hholds := h.valid.holds t h.mem
  have hcarry : s.carry db.rows s.table = (db.rows s.table).map s.onRow := by
    have hon := h.onTable
    cases s with
    | insertSelect => exact absurd rfl (hinsert _ _ _ _)
    | createTable | dropTable => cases hon
    | addColumn | dropColumn | setDefault | setNullable | createIndex | dropIndex | createUnique
    | dropUnique => exact Function.update_self _ _ _
  have hmem : ∀ row' ∈ s.carry db.rows t'.name, ∃ row ∈ db.rows s.table, s.onRow row = row' := by
    intro row' hrow'
    rw [h.named', hcarry] at hrow'
    exact List.mem_map.1 hrow'
  constructor
  case fits =>
    intro row' hrow' c hc
    obtain ⟨row, hrow, rfl⟩ := hmem row' hrow'
    exact hfits row hrow c hc
  case keys =>
    intro columns hcolumns
    rw [h.named', hcarry]
    rcases hkeys columns hcolumns with hkey | hdistinct
    · refine (distinct_map fun row name hname => ?_).2 (h.named ▸ hholds.keys columns hkey)
      exact h.onRow row ((hold.keys _ hkey).2 name hname) ((hnew.keys _ hcolumns).2 name hname)
    · exact hdistinct
  case refs =>
    intro key hkey row' hrow' hcomplete
    obtain ⟨row, hrow, rfl⟩ := hmem row' hrow'
    have hsame : ∀ name ∈ key.columns, s.onRow row name = row name := fun name hname =>
      h.onRow row ((hold.foreignKeys key (hrefs key hkey)).1 name hname)
        ((hnew.foreignKeys key hkey).1 name hname)
    obtain ⟨target, htarget, hkeys⟩ := hholds.refs key (hrefs key hkey) row (h.named.symm ▸ hrow)
      fun name hname => hsame name hname ▸ hcomplete name hname
    obtain ⟨target', htarget', hkeys'⟩ := target_carried (.changed h.mem h.named h.onTable)
      h.valid.wellFormed h.wellFormed h.mem (hrefs key hkey) h.mem' hkey htarget
    refine ⟨target', htarget', ?_⟩
    rw [hkeys', hkeys]
    exact (List.map_congr_left hsame).symm

/-! The statements that change a table, one after the other. -/

theorem addColumn {name : N} {column : Column N V T} (h : (addColumn name column).Changes db t t') :
    t'.Holds ((addColumn name column).carry db.rows) ↔
      (db.rows name ≠ [] → column.Admits (column.serverDefault.getD Values.null)) := by
  obtain rfl := Option.some.inj h.onTable
  constructor
  · intro hholds hne
    obtain ⟨row, hrow⟩ := List.exists_mem_of_ne_nil _ hne
    have hadmits := h.fits hholds hrow (List.mem_append_right _ (List.mem_singleton_self column))
    simpa [Statement.onRow] using hadmits
  · intro hdemand
    refine h.holds (fun _ _ _ _ hne => by cases hne) (fun row hrow c hc => ?_)
      (fun _ hcolumns => .inl hcolumns) fun _ hkey => hkey
    rcases List.mem_append.1 hc with hc' | hc'
    · rw [h.onRow row (List.mem_map_of_mem hc') (List.mem_map_of_mem hc)]
      exact h.admits hrow hc'
    · obtain rfl := List.mem_singleton.1 hc'
      simpa [Statement.onRow] using hdemand (List.ne_nil_of_mem hrow)

theorem dropColumn {name column : N} (h : (dropColumn name column).Changes db t t') :
    t'.Holds ((dropColumn name column).carry db.rows) := by
  have hon := h.onTable
  simp only [Statement.onTable] at hon
  split at hon
  case isFalse => cases hon
  obtain rfl := Option.some.inj hon
  refine h.holds (fun _ _ _ _ hne => by cases hne) (fun row hrow c hc => ?_)
    (fun columns hcolumns => .inl ?_) fun _ hkey => List.mem_of_mem_filter hkey
  · have hc' : c ∈ t.columns := List.mem_of_mem_filter hc
    rw [h.onRow row (List.mem_map_of_mem hc') (List.mem_map_of_mem hc)]
    exact h.admits hrow hc'
  · simp only [Table.keys, List.mem_cons, List.mem_append, List.mem_map, List.mem_filter]
      at hcolumns ⊢
    grind

theorem setDefault {name column : N} {value : Option V}
    (h : (setDefault name column value).Changes db t t') :
    t'.Holds ((setDefault name column value).carry db.rows) := by
  have hon := h.onTable
  simp only [Statement.onTable, alterColumn] at hon
  split at hon
  case isFalse => cases hon
  obtain rfl := Option.some.inj hon
  refine h.holds (fun _ _ _ _ hne => by cases hne) (fun row hrow c hc => ?_)
    (fun _ hcolumns => .inl hcolumns) fun _ hkey => hkey
  obtain ⟨c₀, hc₀, rfl⟩ := List.mem_map.1 hc
  have hadmits : c₀.Admits (row c₀.name) := h.admits hrow hc₀
  split
  · exact admits_of_fits hadmits rfl hadmits.1
  · exact hadmits

theorem setNullable {name column : N} {nullable : Bool}
    (h : (setNullable name column nullable).Changes db t t') :
    t'.Holds ((setNullable name column nullable).carry db.rows) ↔
      (nullable = false → ∀ row ∈ db.rows name, row column ≠ Values.null) := by
  have hon := h.onTable
  simp only [Statement.onTable, alterColumn] at hon
  split at hon
  case isFalse => cases hon
  next hcolumn =>
  obtain rfl := Option.some.inj hon
  constructor
  · rintro hholds rfl row hrow hnull
    obtain ⟨c, hc, rfl⟩ := List.mem_map.1 hcolumn
    have hc' : { c with nullable := false } ∈ t.columns.map fun c' =>
        if c'.name = c.name then { c' with nullable := false } else c' :=
      List.mem_map.2 ⟨c, hc, if_pos rfl⟩
    cases (h.fits hholds hrow hc').1 hnull
  · intro hdemand
    refine h.holds (fun _ _ _ _ hne => by cases hne) (fun row hrow c hc => ?_)
      (fun _ hcolumns => .inl hcolumns) fun _ hkey => hkey
    obtain ⟨c₀, hc₀, rfl⟩ := List.mem_map.1 hc
    have hadmits : c₀.Admits (row c₀.name) := h.admits hrow hc₀
    split
    · next hsame =>
        refine admits_of_fits hadmits rfl fun hnull => ?_
        cases nullable with
        | true => rfl
        | false => exact absurd (hsame ▸ hnull) (hdemand rfl row hrow)
    · exact hadmits

/-- Of a statement that changes nothing but indexes and unique constraints only the new keys matter. -/
theorem keys (h : s.Changes db t t') (hrow : ∀ row, s.onRow row = row)
    (hinsert : ∀ name columns source sourceColumns,
      s ≠ .insertSelect name columns source sourceColumns)
    (hcolumns : t'.columns = t.columns) (hrefs : t'.foreignKeys = t.foreignKeys) :
    t'.Holds (s.carry db.rows) ↔
      ∀ columns ∈ t'.keys, columns ∉ t.keys → Distinct columns (db.rows s.table) := by
  have hmap : (db.rows s.table).map s.onRow = db.rows s.table := by
    rw [show s.onRow = id from funext hrow, List.map_id]
  have hcarry : s.carry db.rows s.table = db.rows s.table := by
    rw [← hmap]
    have hon := h.onTable
    cases s with
    | insertSelect => exact absurd rfl (hinsert _ _ _ _)
    | createTable | dropTable => cases hon
    | addColumn | dropColumn | setDefault | setNullable | createIndex | dropIndex | createUnique
    | dropUnique =>
        rw [hmap]
        exact (Function.update_self _ _ _).trans hmap
  constructor
  · intro hholds columns hkey _
    have hdistinct := hholds.keys columns hkey
    rwa [h.named', hcarry] at hdistinct
  · intro hdemand
    refine h.holds hinsert (fun row hmem c hc => ?_) (fun columns hkey => ?_) fun key hkey => hrefs ▸ hkey
    · rw [hrow]
      exact h.admits hmem (hcolumns ▸ hc)
    · rw [hmap]
      exact or_iff_not_imp_left.2 (hdemand columns hkey)

theorem createIndex {name : N} {index : Index N} (h : (createIndex name index).Changes db t t') :
    t'.Holds ((createIndex name index).carry db.rows) ↔
      (index.unique = true → Distinct index.columns (db.rows name)) := by
  obtain rfl := Option.some.inj h.onTable
  refine (h.keys (fun _ => rfl) (fun _ _ _ _ hne => by cases hne) rfl rfl).trans ?_
  constructor
  · intro hnew hunique
    by_cases hkey : index.columns ∈ t.keys
    · have hdistinct : Distinct index.columns (db.rows t.name) := (h.valid.holds t h.mem).keys _ hkey
      rwa [h.named] at hdistinct
    · exact hnew _ (by simp [Table.keys, hunique]) hkey
  · intro hdemand columns hkey hkey'
    obtain ⟨hunique, rfl⟩ : index.unique = true ∧ columns = index.columns := by
      simp only [Table.keys, List.filter_append, List.map_append, List.mem_cons, List.mem_append]
        at hkey hkey'
      grind
    exact hdemand hunique

theorem createUnique {name : N} {unique : Unique N} (h : (createUnique name unique).Changes db t t') :
    t'.Holds ((createUnique name unique).carry db.rows) ↔ Distinct unique.columns (db.rows name) := by
  obtain rfl := Option.some.inj h.onTable
  refine (h.keys (fun _ => rfl) (fun _ _ _ _ hne => by cases hne) rfl rfl).trans ?_
  constructor
  · intro hnew
    by_cases hkey : unique.columns ∈ t.keys
    · have hdistinct : Distinct unique.columns (db.rows t.name) := (h.valid.holds t h.mem).keys _ hkey
      rwa [h.named] at hdistinct
    · exact hnew _ (by simp [Table.keys]) hkey
  · intro hdemand columns hkey hkey'
    obtain rfl : columns = unique.columns := by
      simp only [Table.keys, List.map_append, List.map_singleton, List.mem_cons, List.mem_append]
        at hkey hkey'
      grind
    exact hdemand

theorem dropIndex {name index : N} (h : (dropIndex name index).Changes db t t') :
    t'.Holds ((dropIndex name index).carry db.rows) := by
  have hon := h.onTable
  simp only [Statement.onTable] at hon
  split at hon
  case isFalse => cases hon
  obtain rfl := Option.some.inj hon
  refine (h.keys (fun _ => rfl) (fun _ _ _ _ hne => by cases hne) rfl rfl).2 ?_
  intro columns hkey hkey'
  refine absurd ?_ hkey'
  simp only [Table.keys, List.mem_cons, List.mem_append, List.mem_map, List.mem_filter] at hkey ⊢
  grind

theorem dropUnique {name unique : N} (h : (dropUnique name unique).Changes db t t') :
    t'.Holds ((dropUnique name unique).carry db.rows) := by
  have hon := h.onTable
  simp only [Statement.onTable] at hon
  split at hon
  case isFalse => cases hon
  obtain rfl := Option.some.inj hon
  refine (h.keys (fun _ => rfl) (fun _ _ _ _ hne => by cases hne) rfl rfl).2 ?_
  intro columns hkey hkey'
  refine absurd ?_ hkey'
  simp only [Table.keys, List.mem_cons, List.mem_append, List.mem_map, List.mem_filter] at hkey ⊢
  grind

end Statement.Changes

variable {db : Database N V T}

/-- On a valid database the rows keep the constraints after a statement exactly if they meet its demands
    before it. -/
theorem keeps_iff (hvalid : db.Valid) (hedit : s.edit db.schema = some schema)
    (hwell : schema.WellFormed) :
    s.Keeps schema (s.carry db.rows) ↔ s.Demands schema db.rows := by
  cases edit_edits hedit with
  | created t₀ =>
      refine iff_of_true (fun t ht hname => ?_) trivial
      have hnames := hwell.names
      simp only [Schema.names, List.map_append, List.map_singleton] at hnames
      have hnew : t₀.name ∉ db.schema.names := fun hmem =>
        (List.nodup_append.1 hnames).2.2 _ hmem _ (List.mem_singleton_self _) rfl
      have hrows : (Statement.createTable t₀).carry db.rows t.name = [] := by
        rw [hname]
        simp only [Statement.carry, Statement.table, Function.update_self, hvalid.empty _ hnew,
          List.map_nil]
      refine ⟨fun row hrow => ?_, fun columns _ => ?_, fun key _ row hrow => ?_⟩
      · rw [hrows] at hrow
        cases hrow
      · rw [hrows]
        exact List.Pairwise.nil
      · rw [hrows] at hrow
        cases hrow
  | dropped =>
      exact iff_of_true
        (fun t ht hname => absurd hname (of_decide_eq_true (List.mem_filter.1 ht).2)) trivial
  | @changed _ t t' ht hname hon =>
      have h : s.Changes db t t' := ⟨hvalid, hwell, ht, hname, hon⟩
      have hkeeps : s.Keeps (db.schema.map fun u => if u.name = s.table then t' else u)
          (s.carry db.rows) ↔ t'.Holds (s.carry db.rows) := by
        constructor
        · intro hall
          exact hall t' h.mem' h.named'
        · intro hholds u hu huname
          rw [Schema.eq_of_name hwell.names hu h.mem' (huname.trans h.named'.symm)]
          exact hholds
      cases s with
      | createTable | dropTable => cases hon
      | insertSelect => rfl
      | addColumn => exact hkeeps.trans h.addColumn
      | dropColumn => exact hkeeps.trans (iff_of_true h.dropColumn trivial)
      | setDefault => exact hkeeps.trans (iff_of_true h.setDefault trivial)
      | setNullable => exact hkeeps.trans h.setNullable
      | createIndex => exact hkeeps.trans h.createIndex
      | createUnique => exact hkeeps.trans h.createUnique
      | dropIndex => exact hkeeps.trans (iff_of_true h.dropIndex trivial)
      | dropUnique => exact hkeeps.trans (iff_of_true h.dropUnique trivial)

end Demands

end Relational
