import Dizzchat.Persistence.Revisions

set_option autoImplicit false

/-! # Migrations

`alembic upgrade head`, which every replica runs on boot, and the downgrades. Alembic is a package; what is
here of it is what its documentation says: the revisions after the one that the database names run in
their order, in one transaction. The lock of `env.py` makes the boots come one after the other.

`upgrade_step` and `downgrade_step` say of one revision what it asks of the rows and what it leaves;
`upgrade_run` and `downgrade_run` put them together. -/

namespace Dizzchat

namespace Migrations

open Relational (DemandsAll carryAll carryAll_filter editAll runAll runAll_append runAll_eq_ok
  runAll_valid)

abbrev SqlRows := String → List SqlRow

/-- A database that the first revisions have made, with any rows. -/
structure AtRevision (k : ℕ) (db : SqlDatabase) : Prop where
  valid : db.Valid
  schema : db.schema = schemas k

/-! ## What is known of the rows at a revision -/

section Facts

variable {k : ℕ} {db : SqlDatabase}

theorem AtRevision.absent (h : AtRevision k db) {table : String} (htable : table ∉ (schemas k).names) :
    db.rows table = [] := by
  refine h.valid.empty table ?_
  rwa [h.schema]

theorem AtRevision.blank (h : AtRevision k db) (table column : String)
    (hcolumn : ∃ t ∈ schemas k, t.name = table ∧ column ∉ t.names) :
    ∀ row ∈ db.rows table, row column = .null := by
  obtain ⟨t, ht, rfl, hblank⟩ := hcolumn
  intro row hrow
  exact h.valid.blank t (h.schema ▸ ht) row hrow column hblank

theorem AtRevision.admits (h : AtRevision k db) {table : String}
    {c : Relational.Column String SqlValue SqlType}
    (hcolumn : ∃ t ∈ schemas k, t.name = table ∧ c ∈ t.columns) :
    ∀ row ∈ db.rows table, c.Admits (row c.name) := by
  obtain ⟨t, ht, rfl, hc⟩ := hcolumn
  intro row hrow
  exact (h.valid.holds t (h.schema ▸ ht)).fits row hrow c hc

theorem AtRevision.distinct (h : AtRevision k db) {table : String} {columns : List String}
    (hkey : ∃ t ∈ schemas k, t.name = table ∧ columns ∈ t.keys) :
    Relational.Distinct columns (db.rows table) := by
  obtain ⟨t, ht, rfl, hcolumns⟩ := hkey
  exact (h.valid.holds t (h.schema ▸ ht)).keys columns hcolumns

end Facts

theorem history_cases {k : ℕ} {r : Revision} (hr : history[k]? = some r) :
    (k = 0 ∧ r = createIdentityTables) ∨ (k = 1 ∧ r = createConversationsTables) ∨
      (k = 2 ∧ r = addMessageRole) ∨ (k = 3 ∧ r = addClientMessageId) ∨
      (k = 4 ∧ r = addConversationParticipants) := by
  obtain ⟨hlt, hget⟩ := List.getElem?_eq_some_iff.1 hr
  have hrange : k = 0 ∨ k = 1 ∨ k = 2 ∨ k = 3 ∨ k = 4 := by
    have hfive : history.length = 5 := rfl
    omega
  rcases hrange with rfl | rfl | rfl | rfl | rfl <;> simp [← hget, history]

/-! ## Upwards -/

/-- The membership of the owner of a conversation, as the last revision inserts it. -/
def ownerRow (conversation : SqlRow) : SqlRow :=
  Relational.rowOf [("conversation_id", conversation "id"), ("user_id", conversation "owner_id"),
    ("joined_at", conversation "created_at")]

/-- What a revision makes of the rows. -/
def upgradeRows : ℕ → SqlRows → SqlRows
  | 2, rows => Function.update rows "messages"
      ((rows "messages").map fun row => Function.update row "role" (.text "user"))
  | 4, rows => Function.update rows "conversation_participants" ((rows "conversations").map ownerRow)
  | _, rows => rows

/-- A revision writes into one table at most. -/
theorem upgradeRows_of_ne {k : ℕ} (rows : SqlRows) {table : String} (hmessages : table ≠ "messages")
    (hparticipants : table ≠ "conversation_participants") : upgradeRows k rows table = rows table := by
  unfold upgradeRows
  split
  · exact Function.update_of_ne hmessages _ _
  · exact Function.update_of_ne hparticipants _ _
  · rfl

theorem upgradeRows_participants (rows : SqlRows) :
    upgradeRows 4 rows "conversation_participants" = (rows "conversations").map ownerRow := by
  simp [upgradeRows]

theorem upgradeRows_messages (rows : SqlRows) :
    upgradeRows 2 rows "messages" =
      (rows "messages").map fun row => Function.update row "role" (.text "user") := by
  simp [upgradeRows]

section Upgrade

variable {db : SqlDatabase}

theorem createIdentityTables_upgrades (h : AtRevision 0 db) :
    DemandsAll createIdentityTables.upgrade (schemas 0) db.rows ∧
      carryAll createIdentityTables.upgrade db.rows = upgradeRows 0 db.rows := by
  refine ⟨⟨_, rfl, trivial, _, rfl, ?_, _, rfl, trivial, _, rfl, ?_, trivial⟩, ?_⟩
  · intro _
    rw [Relational.carry_of_leavesRows rfl, h.absent (by decide)]
    exact List.Pairwise.nil
  · intro hunique
    cases hunique
  · rw [carryAll_filter]
    rfl

theorem createConversationsTables_upgrades (rows : SqlRows) :
    DemandsAll createConversationsTables.upgrade (schemas 1) rows ∧
      carryAll createConversationsTables.upgrade rows = upgradeRows 1 rows := by
  refine ⟨⟨_, rfl, trivial, _, rfl, ?_, _, rfl, trivial, _, rfl, ?_, trivial⟩, ?_⟩
  · intro hunique
    cases hunique
  · intro hunique
    cases hunique
  · rw [carryAll_filter]
    rfl

/-- The default is a value that the new column takes. -/
theorem addMessageRole_upgrades (rows : SqlRows) :
    DemandsAll addMessageRole.upgrade (schemas 2) rows ∧
      carryAll addMessageRole.upgrade rows = upgradeRows 2 rows := by
  refine ⟨⟨_, rfl, ?_, _, rfl, trivial, _, rfl, ?_, trivial⟩, ?_⟩
  · intro _
    exact ⟨by decide, by decide⟩
  · intro hnullable
    cases hnullable
  · rw [carryAll_filter]
    rfl

/-- Messages without a key collide with none. -/
theorem addClientMessageId_upgrades (h : AtRevision 3 db) :
    DemandsAll addClientMessageId.upgrade (schemas 3) db.rows ∧
      carryAll addClientMessageId.upgrade db.rows = upgradeRows 3 db.rows := by
  have hblank := h.blank "messages" "client_message_id" (by decide +kernel)
  refine ⟨⟨_, rfl, ?_, _, rfl, ?_, trivial⟩, ?_⟩
  · intro _
    exact ⟨fun _ => rfl, fun hvalue => absurd rfl hvalue⟩
  · rw [Relational.carry_addColumn rfl hblank]
    exact Relational.distinct_of_null (List.mem_cons_of_mem _ (List.mem_singleton_self _)) hblank
  · rw [carryAll_filter]
    exact Relational.carry_addColumn rfl hblank

/-- The memberships of the owners keep the constraints of their table. -/
theorem ownerRows_hold (h : AtRevision 4 db) {t : SqlTable} (ht : t ∈ schemas 5)
    (hname : t.name = "conversation_participants") : t.Holds (upgradeRows 4 db.rows) := by
  have hshape : ∀ t ∈ schemas 5, t.name = "conversation_participants" →
      (∀ c ∈ t.columns, c ∈ [⟨"conversation_id", .uuid, false, none⟩, ⟨"user_id", .uuid, false, none⟩,
        (⟨"joined_at", .dateTime, false, none⟩ : Relational.Column String SqlValue SqlType)]) ∧
      (∀ columns ∈ t.keys, columns = ["conversation_id", "user_id"]) ∧
      ∀ key ∈ t.foreignKeys, key = ⟨["conversation_id"], "conversations", ["id"], false⟩ := by
    decide +kernel
  obtain ⟨hcolumns, hkeys, hrefs⟩ := hshape t ht hname
  have hconversations : upgradeRows 4 db.rows "conversations" = db.rows "conversations" :=
    upgradeRows_of_ne db.rows (by decide) (by decide)
  have hrows : upgradeRows 4 db.rows t.name = (db.rows "conversations").map ownerRow := by
    rw [hname, upgradeRows_participants]
  constructor
  case fits =>
    intro row hrow c hc
    rw [hrows] at hrow
    obtain ⟨conversation, hmem, rfl⟩ := List.mem_map.1 hrow
    -- what is inserted comes from a column of the same type
    have hcolumn := hcolumns c hc
    simp only [List.mem_cons, List.not_mem_nil, or_false] at hcolumn
    rcases hcolumn with rfl | rfl | rfl
    · exact h.admits (c := ⟨"id", .uuid, false, none⟩) (by decide +kernel) _ hmem
    · exact h.admits (c := ⟨"owner_id", .uuid, false, none⟩) (by decide +kernel) _ hmem
    · exact h.admits (c := ⟨"created_at", .dateTime, false, none⟩) (by decide +kernel) _ hmem
  case keys =>
    intro columns hkey
    have hids : Relational.Distinct ["id"] (db.rows "conversations") := h.distinct (by decide +kernel)
    rw [hrows, hkeys columns hkey]
    refine List.pairwise_map.2 (hids.imp fun hapart hcollide => hapart ⟨?_, ?_⟩)
    · intro name hname
      obtain rfl := List.mem_singleton.1 hname
      exact hcollide.1 "conversation_id" List.mem_cons_self
    · have hsame := (List.cons.inj hcollide.2).1
      exact congrArg (fun value => [value]) hsame
  case refs =>
    intro key hkey row hrow _
    rw [hrows] at hrow
    obtain ⟨conversation, hmem, rfl⟩ := List.mem_map.1 hrow
    rw [hrefs key hkey]
    exact ⟨conversation, hconversations ▸ hmem, rfl⟩

theorem addConversationParticipants_upgrades (h : AtRevision 4 db) :
    DemandsAll addConversationParticipants.upgrade (schemas 4) db.rows ∧
      carryAll addConversationParticipants.upgrade db.rows = upgradeRows 4 db.rows := by
  have hcarry : carryAll addConversationParticipants.upgrade db.rows = upgradeRows 4 db.rows := by
    rw [carryAll_filter]
    show Function.update db.rows "conversation_participants" (db.rows "conversation_participants" ++ _) = _
    rw [h.absent (by decide +kernel), List.nil_append,
      funext (Relational.inserted_eq_rowOf _ _)]
    rfl
  refine ⟨⟨_, rfl, trivial, _, rfl, ?_, _, rfl, ?_, trivial⟩, hcarry⟩
  · intro hunique
    cases hunique
  · show ∀ t ∈ schemas 5, t.name = "conversation_participants" → t.Holds _
    intro t ht hname
    have hrows := ownerRows_hold h ht hname
    rw [← hcarry] at hrows
    exact hrows

/-- A revision goes through on every database at the one before. -/
theorem upgrade_step {k : ℕ} {r : Revision} (hr : history[k]? = some r) (h : AtRevision k db) :
    runAll r.upgrade db = .ok ⟨schemas (k + 1), upgradeRows k db.rows⟩ ∧
      AtRevision (k + 1) ⟨schemas (k + 1), upgradeRows k db.rows⟩ := by
  have hlt : k < history.length := (List.getElem?_eq_some_iff.1 hr).1
  have hupgrades : DemandsAll r.upgrade (schemas k) db.rows ∧
      carryAll r.upgrade db.rows = upgradeRows k db.rows := by
    rcases history_cases hr with ⟨rfl, rfl⟩ | ⟨rfl, rfl⟩ | ⟨rfl, rfl⟩ | ⟨rfl, rfl⟩ | ⟨rfl, rfl⟩
    · exact createIdentityTables_upgrades h
    · exact createConversationsTables_upgrades db.rows
    · exact addMessageRole_upgrades db.rows
    · exact addClientMessageId_upgrades h
    · exact addConversationParticipants_upgrades h
  obtain ⟨r', hr', hedit, -⟩ := revision_edits k hlt
  obtain rfl := Option.some.inj (hr.symm.trans hr')
  have hrun : runAll r.upgrade db = .ok ⟨schemas (k + 1), upgradeRows k db.rows⟩ := by
    refine (runAll_eq_ok h.valid).2 ⟨schemas (k + 1), ?_, ?_, ?_⟩
    · rw [h.schema]
      exact hedit
    · rw [h.schema]
      exact hupgrades.1
    · rw [hupgrades.2]
  exact ⟨hrun, runAll_valid h.valid hrun, rfl⟩

end Upgrade

/-! ## Downwards -/

/-- The values of `sender_id`, NULL for the messages of the assistant. -/
def senders (rows : SqlRows) : List SqlValue := (rows "messages").map fun row => row "sender_id"

theorem null_notMem_senders {rows : SqlRows} :
    .null ∉ senders rows ↔ ∀ row ∈ rows "messages", row "sender_id" ≠ .null := by
  simp [senders]

section Downgrade

variable {k : ℕ} {r : Revision} {db : SqlDatabase}

/-- Only the way back past the roles asks for something: that no sender is NULL. -/
theorem downgrade_demands (hr : history[k]? = some r) (rows : SqlRows) :
    DemandsAll r.downgrade (schemas (k + 1)) rows ↔
      (k = 2 → .null ∉ senders rows) := by
  rcases history_cases hr with ⟨rfl, rfl⟩ | ⟨rfl, rfl⟩ | ⟨rfl, rfl⟩ | ⟨rfl, rfl⟩ | ⟨rfl, rfl⟩
  · refine iff_of_true ?_ (by simp)
    exact ⟨_, rfl, trivial, _, rfl, trivial, _, rfl, trivial, _, rfl, trivial, trivial⟩
  · refine iff_of_true ?_ (by simp)
    exact ⟨_, rfl, trivial, _, rfl, trivial, _, rfl, trivial, _, rfl, trivial, trivial⟩
  · constructor
    · rintro ⟨_, -, hsenders, -⟩ -
      exact null_notMem_senders.2 (hsenders rfl)
    · intro hsenders
      exact ⟨_, rfl, fun _ => null_notMem_senders.1 (hsenders rfl), _, rfl, trivial, trivial⟩
  · exact iff_of_true ⟨_, rfl, trivial, _, rfl, trivial, trivial⟩ (by simp)
  · exact iff_of_true ⟨_, rfl, trivial, _, rfl, trivial, trivial⟩ (by simp)

/-- A revision that has just been run is taken back without a trace. -/
theorem downgrade_rows (hr : history[k]? = some r) (h : AtRevision k db) :
    carryAll r.downgrade (upgradeRows k db.rows) = db.rows := by
  rw [carryAll_filter]
  rcases history_cases hr with ⟨rfl, rfl⟩ | ⟨rfl, rfl⟩ | ⟨rfl, rfl⟩ | ⟨rfl, rfl⟩ | ⟨rfl, rfl⟩
  · show Relational.Statement.carry (.dropTable "users")
      (Relational.Statement.carry (.dropTable "refresh_tokens") db.rows) = db.rows
    rw [Relational.carry_dropTable (h.absent (by decide +kernel)) fun _ _ => rfl]
    exact Relational.carry_dropTable (h.absent (by decide +kernel)) fun _ _ => rfl
  · show Relational.Statement.carry (.dropTable "conversations")
      (Relational.Statement.carry (.dropTable "messages") db.rows) = db.rows
    rw [Relational.carry_dropTable (h.absent (by decide +kernel)) fun _ _ => rfl]
    exact Relational.carry_dropTable (h.absent (by decide +kernel)) fun _ _ => rfl
  · exact Relational.carry_dropColumn_addColumn ⟨"role", .string (some 16), false, some (.text "user")⟩
      (h.blank "messages" "role" (by decide +kernel))
  · exact Relational.carry_dropColumn (h.blank "messages" "client_message_id" (by decide +kernel))
  · refine Relational.carry_dropTable (h.absent (by decide +kernel)) fun table hne => ?_
    exact Function.update_of_ne hne _ _

theorem downgrade_restores (hr : history[k]? = some r) (h : AtRevision k db) :
    runAll r.downgrade ⟨schemas (k + 1), upgradeRows k db.rows⟩ = .ok db := by
  obtain ⟨r', hr', -, hedit⟩ := revision_edits k (List.getElem?_eq_some_iff.1 hr).1
  obtain rfl := Option.some.inj (hr.symm.trans hr')
  refine (runAll_eq_ok (upgrade_step hr h).2.valid).2 ⟨schemas k, hedit, ?_, ?_⟩
  · refine (downgrade_demands hr _).2 ?_
    rintro rfl
    -- before the roles every message had a sender
    refine null_notMem_senders.2 fun row hrow => ?_
    replace hrow : row ∈ upgradeRows 2 db.rows "messages" := hrow
    rw [upgradeRows_messages] at hrow
    obtain ⟨old, hold, rfl⟩ := List.mem_map.1 hrow
    intro hnull
    cases (h.admits (c := ⟨"sender_id", .uuid, false, none⟩) (by decide +kernel) old hold).1 hnull
  · rw [downgrade_rows hr h, ← h.schema]

/-- On a database with any rows. -/
theorem downgrade_step (hr : history[k]? = some r) (h : AtRevision (k + 1) db) :
    (∃ db', runAll r.downgrade db = .ok db') ↔
      (k = 2 → .null ∉ senders db.rows) := by
  obtain ⟨r', hr', -, hedit⟩ := revision_edits k (List.getElem?_eq_some_iff.1 hr).1
  obtain rfl := Option.some.inj (hr.symm.trans hr')
  rw [← downgrade_demands hr, ← h.schema]
  constructor
  · rintro ⟨db', hrun⟩
    obtain ⟨_, -, hdemands, -⟩ := (runAll_eq_ok h.valid).1 hrun
    exact hdemands
  · intro hdemands
    exact ⟨_, (runAll_eq_ok h.valid).2 ⟨schemas k, h.schema ▸ hedit, hdemands, rfl⟩⟩

theorem downgrade_at (hr : history[k]? = some r) (h : AtRevision (k + 1) db) {db' : SqlDatabase}
    (hrun : runAll r.downgrade db = .ok db') :
    AtRevision k db' ∧ db'.rows = carryAll r.downgrade db.rows := by
  obtain ⟨r', hr', -, hedit⟩ := revision_edits k (List.getElem?_eq_some_iff.1 hr).1
  obtain rfl := Option.some.inj (hr.symm.trans hr')
  obtain ⟨schema, hschema, -, rfl⟩ := (runAll_eq_ok h.valid).1 hrun
  rw [h.schema, hedit] at hschema
  exact ⟨⟨runAll_valid h.valid hrun, (Option.some.inj hschema).symm⟩, rfl⟩

/-- The way back as far as the roles leaves the senders alone. -/
theorem downgrade_senders (hr : history[k]? = some r) (hk : 2 ≤ k) (rows : SqlRows) :
    senders (carryAll r.downgrade rows) = senders rows := by
  rw [carryAll_filter]
  rcases history_cases hr with ⟨rfl, rfl⟩ | ⟨rfl, rfl⟩ | ⟨rfl, rfl⟩ | ⟨rfl, rfl⟩ | ⟨rfl, rfl⟩
  · omega
  · omega
  · show ((Function.update rows "messages" ((rows "messages").map _) "messages").map _) = _
    rw [Function.update_self, List.map_map]
    rfl
  · show ((Function.update rows "messages" ((rows "messages").map _) "messages").map _) = _
    rw [Function.update_self, List.map_map]
    rfl
  · show ((Function.update rows "conversation_participants" [] "messages").map _) = _
    rw [Function.update_of_ne (by decide)]
    rfl

end Downgrade

/-! ## From any revision to the head and back -/

/-- The revisions after the first `k`, one after the other. -/
def upgradeScript (k : ℕ) : List SqlStatement := (history.drop k).flatMap Revision.upgrade

/-- And back to the first `k`. -/
def downgradeScript (k : ℕ) : List SqlStatement := (history.drop k).reverse.flatMap Revision.downgrade

/-- What the rows of a database at revision `k` are at the head. -/
def upgraded (k : ℕ) (rows : SqlRows) : SqlRows := fun table =>
  if table = "messages" ∧ k ≤ 2 then
    (rows "messages").map fun row => Function.update row "role" (.text "user")
  else if table = "conversation_participants" ∧ k ≤ 4 then (rows "conversations").map ownerRow
  else rows table

theorem upgraded_participants {k : ℕ} (hk : k ≤ 4) (rows : SqlRows) :
    upgraded k rows "conversation_participants" = (rows "conversations").map ownerRow := by
  simp [upgraded, hk]

section Scripts

variable {k : ℕ} {r : Revision} {db : SqlDatabase}

theorem drop_of_getElem (hr : history[k]? = some r) : history.drop k = r :: history.drop (k + 1) := by
  obtain ⟨hlt, rfl⟩ := List.getElem?_eq_some_iff.1 hr
  exact List.drop_eq_getElem_cons hlt

theorem upgradeScript_eq (hr : history[k]? = some r) :
    upgradeScript k = r.upgrade ++ upgradeScript (k + 1) := by
  rw [upgradeScript, drop_of_getElem hr]
  rfl

theorem downgradeScript_eq (hr : history[k]? = some r) :
    downgradeScript k = downgradeScript (k + 1) ++ r.downgrade := by
  rw [downgradeScript, drop_of_getElem hr, List.reverse_cons, List.flatMap_append,
    List.flatMap_singleton]
  rfl

theorem upgraded_step (hr : history[k]? = some r) (rows : SqlRows) :
    upgraded (k + 1) (upgradeRows k rows) = upgraded k rows := by
  funext table
  rcases history_cases hr with ⟨rfl, -⟩ | ⟨rfl, -⟩ | ⟨rfl, -⟩ | ⟨rfl, -⟩ | ⟨rfl, -⟩
  · simp [upgraded, upgradeRows]
  · simp [upgraded, upgradeRows]
  · by_cases hmessages : table = "messages"
    · simp [upgraded, upgradeRows, hmessages]
    · simp [upgraded, upgradeRows, hmessages]
  · simp [upgraded, upgradeRows]
  · by_cases hparticipants : table = "conversation_participants"
    · simp [upgraded, upgradeRows, hparticipants]
    · simp [upgraded, upgradeRows, hparticipants]

theorem upgraded_head (rows : SqlRows) : upgraded history.length rows = rows := by
  funext table
  simp [upgraded, history]

/-- Every database reaches the head, with these rows, and comes back from there as it was. -/
theorem upgrade_run (hk : k ≤ history.length) (h : AtRevision k db) :
    runAll (upgradeScript k) db = .ok ⟨schemas history.length, upgraded k db.rows⟩ ∧
      AtRevision history.length ⟨schemas history.length, upgraded k db.rows⟩ ∧
      runAll (downgradeScript k) ⟨schemas history.length, upgraded k db.rows⟩ = .ok db := by
  -- on the number of revisions that are still to come
  induction hn : history.length - k generalizing k db with
  | zero =>
      obtain rfl : k = history.length := by omega
      rw [upgraded_head, ← h.schema]
      exact ⟨rfl, h, rfl⟩
  | succ n ih =>
      have hlt : k < history.length := by omega
      have hr : history[k]? = some history[k] := List.getElem?_eq_getElem hlt
      obtain ⟨hup, hat⟩ := upgrade_step hr h
      obtain ⟨hrest, hhead, hback⟩ := ih hlt hat (by omega)
      rw [upgraded_step hr] at hrest hhead hback
      refine ⟨?_, hhead, ?_⟩
      · rw [upgradeScript_eq hr]
        exact runAll_append.2 ⟨_, hup, hrest⟩
      · rw [downgradeScript_eq hr]
        exact runAll_append.2 ⟨_, hback, downgrade_restores hr h⟩

/-- The way back from the head goes through as long as it stops before the roles, or every message has a
    sender. -/
theorem downgrade_run (hk : k ≤ history.length) (h : AtRevision history.length db) :
    ((∃ db', runAll (downgradeScript k) db = .ok db') ↔
      (k ≤ 2 → .null ∉ senders db.rows)) ∧
    ∀ db', runAll (downgradeScript k) db = .ok db' →
      AtRevision k db' ∧ (2 ≤ k → senders db'.rows = senders db.rows) := by
  induction hn : history.length - k generalizing k with
  | zero =>
      obtain rfl : k = history.length := by omega
      refine ⟨iff_of_true ⟨db, rfl⟩ fun hle => absurd hle (by decide), ?_⟩
      intro db' hrun
      obtain rfl := Except.ok.inj hrun
      exact ⟨h, fun _ => rfl⟩
  | succ n ih =>
      have hlt : k < history.length := by omega
      have hr : history[k]? = some history[k] := List.getElem?_eq_getElem hlt
      obtain ⟨hthrough, hafter⟩ := ih hlt (by omega)
      rw [downgradeScript_eq hr]
      simp only [runAll_append]
      constructor
      · constructor
        · rintro ⟨db', between, hbetween, hrun⟩ hroles
          obtain ⟨hat, hsenders⟩ := hafter between hbetween
          by_cases hlast : k = 2
          · rw [← hsenders (by omega)]
            exact (downgrade_step hr hat).1 ⟨db', hrun⟩ hlast
          · exact hthrough.1 ⟨between, hbetween⟩ (by omega)
        · intro hnone
          obtain ⟨between, hbetween⟩ := hthrough.2 fun hle => hnone (by omega)
          obtain ⟨hat, hsenders⟩ := hafter between hbetween
          obtain ⟨db', hrun⟩ := (downgrade_step hr hat).2 fun hlast => by
            rw [hsenders (by omega)]
            exact hnone hlast.le
          exact ⟨db', between, hbetween, hrun⟩
      · rintro db' ⟨between, hbetween, hrun⟩
        obtain ⟨hat, hsenders⟩ := hafter between hbetween
        obtain ⟨hat', hrows⟩ := downgrade_at hr hat hrun
        refine ⟨hat', fun hle => ?_⟩
        rw [hrows, downgrade_senders hr hle, hsenders (by omega)]

end Scripts

/-! ## Boots -/

/-- A database with its row of `alembic_version`, if it has one. -/
structure Migrated where
  version : Option String
  database : SqlDatabase

inductive MigrationError
  | unknownRevision
  | refused (refusal : Relational.Refusal)
deriving DecidableEq

/-- The revisions after the one that a database names. -/
def pending : Option String → Option (List Revision)
  | none => some history
  | some version =>
      (history.findIdx? fun r => r.revision = version).map fun k => history.drop (k + 1)

/-- `run_migrations`: `alembic upgrade head`, with the lock of `env.py` around it. -/
def runMigrations (m : Migrated) : Except MigrationError Migrated :=
  match pending m.version with
  | none => .error .unknownRevision
  | some revisions => match runAll (revisions.flatMap Revision.upgrade) m.database with
    | .error refusal => .error (.refused refusal)
    | .ok database => .ok ⟨(revisions.getLast?.map Revision.revision).or m.version, database⟩

/-- What a database that the first revisions have made names. -/
def versionAt (k : ℕ) : Option String := (history.take k).getLast?.map Revision.revision

theorem pending_versionAt : ∀ k < history.length + 1, pending (versionAt k) = some (history.drop k) ∧
    ((history.drop k).getLast?.map Revision.revision).or (versionAt k) = versionAt history.length := by
  decide +kernel

theorem runMigrations_eq {k : ℕ} (hk : k ≤ history.length) {db : SqlDatabase} (h : AtRevision k db) :
    runMigrations ⟨versionAt k, db⟩ =
      .ok ⟨versionAt history.length, schemas history.length, upgraded k db.rows⟩ := by
  obtain ⟨hpending, hversion⟩ := pending_versionAt k (Nat.lt_succ_of_le hk)
  obtain ⟨hrun, -⟩ := upgrade_run hk h
  simp only [runMigrations, hpending]
  rw [← upgradeScript, hrun, hversion]

/-- Whatever revision a database is at and whatever rows it has, the first boot takes it to the head, and
    every later one leaves it there. Every message from before the roles gets the role of a user, every
    conversation from before the participants the membership of its owner, and nothing else changes;
    the way back to the revision restores every row. -/
theorem boots_reach_head {k : ℕ} (hk : k ≤ history.length) {db : SqlDatabase} (h : AtRevision k db) :
    ∃ head : Migrated, runMigrations ⟨versionAt k, db⟩ = .ok head ∧ runMigrations head = .ok head ∧
      AtRevision history.length head.database ∧ head.database.rows = upgraded k db.rows ∧
      runAll (downgradeScript k) head.database = .ok db := by
  obtain ⟨-, hat, hback⟩ := upgrade_run hk h
  refine ⟨_, runMigrations_eq hk h, ?_, hat, rfl, hback⟩
  have hagain := runMigrations_eq le_rfl hat
  rwa [upgraded_head] at hagain

/-- A conversation with a message, from before the roles. -/
def earlyContents : List (String × List (List (String × SqlValue))) := [
  ("conversations", [[("id", .uuid 1), ("owner_id", .uuid 10), ("title", .text "Team"),
    ("created_at", .dateTime ⟨0, 0⟩), ("updated_at", .dateTime ⟨0, 0⟩)]]),
  ("messages", [[("id", .bigInteger 1), ("conversation_id", .uuid 1), ("sender_id", .uuid 10),
    ("content", .text "hello"), ("created_at", .dateTime ⟨1, 0⟩)]])]

theorem boots_reach_head_early :
    ∃ head : Migrated,
      runMigrations ⟨some "0002_conversations", schemas 2, Relational.rowsOf earlyContents⟩ = .ok head ∧
      runMigrations head = .ok head ∧
      (head.database.rows "messages").map (fun row => row "role") = [.text "user"] ∧
      (head.database.rows "conversation_participants").map
        (fun row => (row "conversation_id", row "user_id")) = [(.uuid 1, .uuid 10)] := by
  have hat : AtRevision 2 ⟨schemas 2, Relational.rowsOf earlyContents⟩ :=
    ⟨Relational.valid_of_contents (by decide +kernel) (by decide +kernel) (by decide +kernel)
      (by decide +kernel), rfl⟩
  obtain ⟨head, hrun, hagain, -, hrows, -⟩ := boots_reach_head (by decide) hat
  refine ⟨head, hrun, hagain, ?_, ?_⟩
  · rw [hrows]
    decide +kernel
  · rw [hrows]
    decide +kernel

/-- From the head, with any rows, the way back to a revision goes through just when the revision has roles
    or every message has a sender. -/
theorem downgrades_iff {k : ℕ} (hk : k ≤ history.length) {db : SqlDatabase}
    (h : AtRevision history.length db) :
    (∃ db', runAll (downgradeScript k) db = .ok db' ∧ AtRevision k db') ↔
      (k ≤ 2 → .null ∉ senders db.rows) := by
  obtain ⟨hthrough, hafter⟩ := downgrade_run hk h
  rw [← hthrough]
  constructor
  · rintro ⟨db', hrun, -⟩
    exact ⟨db', hrun⟩
  · rintro ⟨db', hrun⟩
    exact ⟨db', hrun, (hafter db' hrun).1⟩

/-- A conversation with a reply of the assistant. -/
def answeredContents : List (String × List (List (String × SqlValue))) := [
  ("conversations", [[("id", .uuid 1), ("owner_id", .uuid 10), ("title", .text "Team"),
    ("created_at", .dateTime ⟨0, 0⟩), ("updated_at", .dateTime ⟨0, 0⟩)]]),
  ("messages", [[("id", .bigInteger 1), ("conversation_id", .uuid 1), ("role", .text "assistant"),
    ("content", .text "hello"), ("created_at", .dateTime ⟨1, 0⟩)]]),
  ("conversation_participants", [[("conversation_id", .uuid 1), ("user_id", .uuid 10),
    ("joined_at", .dateTime ⟨0, 0⟩)]])]

theorem downgrades_iff_answered :
    (∃ db', runAll (downgradeScript 3) ⟨schemas 5, Relational.rowsOf answeredContents⟩ = .ok db' ∧
      AtRevision 3 db') ∧
    ¬ ∃ db', runAll (downgradeScript 2) ⟨schemas 5, Relational.rowsOf answeredContents⟩ = .ok db' ∧
      AtRevision 2 db' := by
  have hat : AtRevision history.length ⟨schemas 5, Relational.rowsOf answeredContents⟩ :=
    ⟨Relational.valid_of_contents (by decide +kernel) (by decide +kernel) (by decide +kernel)
      (by decide +kernel), rfl⟩
  constructor
  · refine (downgrades_iff (by decide) hat).2 fun hroles => ?_
    exact absurd hroles (by decide)
  · rw [downgrades_iff (by decide) hat]
    intro hsenders
    exact hsenders le_rfl (by decide +kernel)

end Migrations

end Dizzchat
