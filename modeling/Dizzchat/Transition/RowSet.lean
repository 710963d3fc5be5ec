import Mathlib.Data.Finset.Image
import Mathlib.Data.Finset.Card
import Mathlib.Data.Finset.Prod

set_option autoImplicit false

/-! # A table of inserts and deletes under READ COMMITTED

`RowSet τ κ ρ` is a table with a primary key whose rows are inserted and deleted, never updated: the
committed rows, and what the open transactions `τ` have inserted and deleted. An `INSERT` waits while
another open transaction has written its key, and a `DELETE` while another one has deleted its row; a
`DELETE` does not see a row that is not committed. A transaction writes a key at most once.

`Keyed` is what the primary key buys: no two committed rows have one key, and whoever has a row open
is the only one and finds its key free. -/

namespace Transition

variable {τ κ ρ : Type*}

structure RowSet (τ κ ρ : Type*) where
  rows : Finset ρ
  inserts : Finset (τ × ρ)
  deletes : Finset (τ × κ)

/-- How a statement turns out: it waits for another transaction, violates the primary key, or is
    done. -/
inductive Statement (α : Type*)
  | blocked
  | duplicate
  | done (result : α)

namespace RowSet

variable [DecidableEq τ] [DecidableEq κ] [DecidableEq ρ] (key : ρ → κ)

/-- Some committed row has this key. -/
def Has (k : κ) (S : RowSet τ κ ρ) : Prop := ∃ r ∈ S.rows, key r = k

instance (k : κ) (S : RowSet τ κ ρ) : Decidable (S.Has key k) :=
  inferInstanceAs (Decidable (∃ r ∈ S.rows, key r = k))

/-- Another open transaction has inserted or deleted a row of this key. -/
def Held (t : τ) (k : κ) (S : RowSet τ κ ρ) : Prop :=
  (∃ w ∈ S.inserts, w.1 ≠ t ∧ key w.2 = k) ∨ ∃ w ∈ S.deletes, w.1 ≠ t ∧ w.2 = k

instance (t : τ) (k : κ) (S : RowSet τ κ ρ) : Decidable (S.Held key t k) :=
  inferInstanceAs (Decidable (_ ∨ _))

/-- A row with this key is committed, or transaction `t` has inserted one. -/
def Taken (t : τ) (k : κ) (S : RowSet τ κ ρ) : Prop :=
  S.Has key k ∨ ∃ w ∈ S.inserts, w.1 = t ∧ key w.2 = k

instance (t : τ) (k : κ) (S : RowSet τ κ ρ) : Decidable (S.Taken key t k) :=
  inferInstanceAs (Decidable (_ ∨ _))

/-- `INSERT` of rows with different keys by transaction `t`. -/
def insert (t : τ) (new : Finset ρ) (S : RowSet τ κ ρ) : Statement (RowSet τ κ ρ) :=
  if ∃ r ∈ new, S.Held key t (key r) then .blocked
  else if ∃ r ∈ new, S.Taken key t (key r) then .duplicate
  else .done { S with inserts := S.inserts ∪ new.image fun r => (t, r) }

/-- `DELETE` of the row with key `k` by transaction `t`, and whether there is one; `none` while the
    row is locked. -/
def delete (t : τ) (k : κ) (S : RowSet τ κ ρ) : Option (RowSet τ κ ρ × Bool) :=
  if S.Has key k then
    if ∃ w ∈ S.deletes, w.1 ≠ t ∧ w.2 = k then none
    else some ({ S with deletes := Insert.insert (t, k) S.deletes }, true)
  else some (S, false)

/-- `ROLLBACK` of transaction `t`. -/
def rollback (t : τ) (S : RowSet τ κ ρ) : RowSet τ κ ρ :=
  { S with
    inserts := S.inserts.filter fun w => w.1 ≠ t
    deletes := S.deletes.filter fun w => w.1 ≠ t }

/-- The rows transaction `t` has inserted. -/
def inserted (t : τ) (S : RowSet τ κ ρ) : Finset ρ :=
  (S.inserts.filter fun w => w.1 = t).image Prod.snd

/-- `COMMIT` of transaction `t`: what it has inserted and deleted becomes visible together. -/
def commit (t : τ) (S : RowSet τ κ ρ) : RowSet τ κ ρ :=
  { S.rollback t with
    rows := (S.rows ∪ S.inserted t).filter fun r => (t, key r) ∉ S.deletes }

variable {key} {t u : τ} {k : κ} {r : ρ} {S S' : RowSet τ κ ρ}

omit [DecidableEq κ] [DecidableEq ρ] in
@[simp]
theorem rollback_rows : (S.rollback t).rows = S.rows := rfl

omit [DecidableEq κ] [DecidableEq ρ] in
@[simp]
theorem mem_rollback_inserts {w : τ × ρ} :
    w ∈ (S.rollback t).inserts ↔ w ∈ S.inserts ∧ w.1 ≠ t := by
  simp [rollback]

omit [DecidableEq κ] [DecidableEq ρ] in
@[simp]
theorem mem_rollback_deletes {w : τ × κ} :
    w ∈ (S.rollback t).deletes ↔ w ∈ S.deletes ∧ w.1 ≠ t := by
  simp [rollback]

@[simp]
theorem commit_inserts : (S.commit key t).inserts = (S.rollback t).inserts := rfl

@[simp]
theorem commit_deletes : (S.commit key t).deletes = (S.rollback t).deletes := rfl

theorem mem_commit_rows :
    r ∈ (S.commit key t).rows ↔
      (r ∈ S.rows ∨ (t, r) ∈ S.inserts) ∧ (t, key r) ∉ S.deletes := by
  simp [commit, inserted]

/-- Which keys there are after a commit. -/
theorem has_commit :
    (S.commit key t).Has key k ↔
      (S.Has key k ∨ ∃ r, (t, r) ∈ S.inserts ∧ key r = k) ∧ (t, k) ∉ S.deletes := by
  simp only [Has, mem_commit_rows]
  constructor
  · rintro ⟨r, ⟨hr, hdelete⟩, rfl⟩
    exact ⟨hr.imp (fun h => ⟨r, h, rfl⟩) fun h => ⟨r, h, rfl⟩, hdelete⟩
  · rintro ⟨⟨r, hr, rfl⟩ | ⟨r, hr, rfl⟩, hdelete⟩
    · exact ⟨r, ⟨.inl hr, hdelete⟩, rfl⟩
    · exact ⟨r, ⟨.inr hr, hdelete⟩, rfl⟩

/-- What a successful `INSERT` does: its keys are free, and the rows are added. -/
theorem insert_eq_done {new : Finset ρ} (h : S.insert key t new = .done S') :
    (∀ r ∈ new, ¬ S.Held key t (key r) ∧ ¬ S.Taken key t (key r)) ∧
      S' = { S with inserts := S.inserts ∪ new.image fun r => (t, r) } := by
  unfold insert at h
  split at h
  · cases h
  · next hheld =>
      split at h
      · cases h
      · next htaken =>
          cases h
          exact ⟨fun r hr => ⟨fun hh => hheld ⟨r, hr, hh⟩, fun hh => htaken ⟨r, hr, hh⟩⟩, rfl⟩

/-- An `INSERT` violates the primary key only on a key that is taken. -/
theorem insert_eq_duplicate {new : Finset ρ} (h : S.insert key t new = .duplicate) :
    ∃ r ∈ new, S.Taken key t (key r) := by
  unfold insert at h
  split at h
  · cases h
  · split at h
    · next htaken => exact htaken
    · cases h

/-- An `INSERT` waits only for one who holds the key. -/
theorem insert_eq_blocked {new : Finset ρ} (h : S.insert key t new = .blocked) :
    ∃ r ∈ new, S.Held key t (key r) := by
  unfold insert at h
  split at h
  · next hheld => exact hheld
  · split at h <;> cases h

omit [DecidableEq ρ] in
/-- What a `DELETE` does: it marks the committed row, or there is none. -/
theorem delete_eq_some {found : Bool} (h : S.delete key t k = some (S', found)) :
    found = true ∧ S.Has key k ∧ S' = { S with deletes := Insert.insert (t, k) S.deletes } ∨
      found = false ∧ ¬ S.Has key k ∧ S' = S := by
  unfold delete at h
  split at h
  · next hhas =>
      split at h
      · cases h
      · cases h
        exact .inl ⟨rfl, hhas, rfl⟩
  · next hhas =>
      cases h
      exact .inr ⟨rfl, hhas, rfl⟩

/-! ## The primary key -/

/-- No two committed rows have one key; a row that is open is alone with its key. -/
structure Keyed (key : ρ → κ) (S : RowSet τ κ ρ) : Prop where
  rows : ∀ a ∈ S.rows, ∀ b ∈ S.rows, key a = key b → a = b
  inserts : ∀ v ∈ S.inserts, ∀ w ∈ S.inserts, key v.2 = key w.2 → v = w
  fresh : ∀ w ∈ S.inserts, ¬ S.Has key (key w.2)

omit [DecidableEq τ] [DecidableEq κ] [DecidableEq ρ] in
theorem keyed_of_rows (hrows : ∀ a ∈ S.rows, ∀ b ∈ S.rows, key a = key b → a = b)
    (hinserts : S.inserts = ∅) : S.Keyed key where
  rows := hrows
  inserts v hv := absurd (hinserts ▸ hv) (Finset.notMem_empty v)
  fresh w hw := absurd (hinserts ▸ hw) (Finset.notMem_empty w)

theorem Keyed.insert {new : Finset ρ} (hS : S.Keyed key)
    (hnew : ∀ a ∈ new, ∀ b ∈ new, key a = key b → a = b)
    (h : S.insert key t new = .done S') : S'.Keyed key := by
  obtain ⟨hfree, rfl⟩ := insert_eq_done h
  -- an open row with the key of a new one would hold it or be of the same transaction
  have hother : ∀ w ∈ S.inserts, ∀ r ∈ new, key w.2 ≠ key r := by
    intro w hw r hr hk
    rcases eq_or_ne w.1 t with hown | hne
    · exact (hfree r hr).2 (.inr ⟨w, hw, hown, hk⟩)
    · exact (hfree r hr).1 (.inl ⟨w, hw, hne, hk⟩)
  refine ⟨hS.rows, fun v hv w hw hk => ?_, fun w hw => ?_⟩
  · simp only [Finset.mem_union, Finset.mem_image] at hv hw
    rcases hv with hv | ⟨a, ha, rfl⟩ <;> rcases hw with hw | ⟨b, hb, rfl⟩
    · exact hS.inserts v hv w hw hk
    · exact absurd hk (hother v hv b hb)
    · exact absurd hk.symm (hother w hw a ha)
    · rw [hnew a ha b hb hk]
  · simp only [Finset.mem_union, Finset.mem_image] at hw
    rcases hw with hw | ⟨b, hb, rfl⟩
    · exact hS.fresh w hw
    · exact fun hhas => (hfree b hb).2 (.inl hhas)

omit [DecidableEq ρ] in
theorem Keyed.delete {found : Bool} (hS : S.Keyed key)
    (h : S.delete key t k = some (S', found)) : S'.Keyed key := by
  rcases delete_eq_some h with ⟨-, -, rfl⟩ | ⟨-, -, rfl⟩
  · exact ⟨hS.rows, hS.inserts, hS.fresh⟩
  · exact hS

omit [DecidableEq κ] [DecidableEq ρ] in
theorem Keyed.rollback (hS : S.Keyed key) (t : τ) : (S.rollback t).Keyed key where
  rows := hS.rows
  inserts v hv w hw :=
    hS.inserts v (mem_rollback_inserts.1 hv).1 w (mem_rollback_inserts.1 hw).1
  fresh w hw := hS.fresh w (mem_rollback_inserts.1 hw).1

theorem Keyed.commit (hS : S.Keyed key) (t : τ) : (S.commit key t).Keyed key where
  rows a ha b hb hk := by
    rcases (mem_commit_rows.1 ha).1 with ha | ha <;> rcases (mem_commit_rows.1 hb).1 with hb | hb
    · exact hS.rows a ha b hb hk
    · exact absurd ⟨a, ha, hk⟩ (hS.fresh _ hb)
    · exact absurd ⟨b, hb, hk.symm⟩ (hS.fresh _ ha)
    · exact congrArg Prod.snd (hS.inserts _ ha _ hb hk)
  inserts := (hS.rollback t).inserts
  fresh w hw := by
    obtain ⟨hw, hne⟩ := mem_rollback_inserts.1 hw
    rintro ⟨r, hr, hk⟩
    rcases (mem_commit_rows.1 hr).1 with hr | hr
    · exact hS.fresh w hw ⟨r, hr, hk⟩
    · exact hne (congrArg Prod.fst (hS.inserts _ hr w hw hk)).symm

/-! ## What a statement can do -/

/-- What a statement of transaction `t` can do. -/
inductive Touches (key : ρ → κ) (t : τ) (S : RowSet τ κ ρ) : RowSet τ κ ρ → Prop
  | none : Touches key t S S
  | insert {new : Finset ρ} {S' : RowSet τ κ ρ}
      (hnew : ∀ a ∈ new, ∀ b ∈ new, key a = key b → a = b)
      (h : S.insert key t new = .done S') : Touches key t S S'
  | delete {k : κ} {found : Bool} {S' : RowSet τ κ ρ} (h : S.delete key t k = some (S', found)) :
      Touches key t S S'
  | commit : Touches key t S (S.commit key t)
  | rollback : Touches key t S (S.rollback t)

theorem Touches.keyed (h : Touches key t S S') (hS : S.Keyed key) : S'.Keyed key := by
  cases h with
  | none => exact hS
  | insert hnew h => exact hS.insert hnew h
  | delete h => exact hS.delete h
  | commit => exact hS.commit t
  | rollback => exact hS.rollback t

/-- What another transaction has open stays as it is. -/
theorem Touches.of_ne (h : Touches key t S S') (hu : u ≠ t) :
    (∀ r, (u, r) ∈ S'.inserts ↔ (u, r) ∈ S.inserts) ∧
      ∀ k, (u, k) ∈ S'.deletes ↔ (u, k) ∈ S.deletes := by
  cases h with
  | none => simp
  | insert hnew h =>
      obtain ⟨-, rfl⟩ := insert_eq_done h
      simp [hu.symm]
  | delete h =>
      rcases delete_eq_some h with ⟨-, -, rfl⟩ | ⟨-, -, rfl⟩ <;> simp [hu]
  | commit | rollback => simp [hu]

omit [DecidableEq τ] [DecidableEq ρ] in
/-- At most one committed row has the key, and exactly one if any has it. -/
theorem Keyed.card_filter (hS : S.Keyed key) (k : κ) :
    (S.rows.filter fun r => key r = k).card = if S.Has key k then 1 else 0 := by
  split
  · next hhas =>
      obtain ⟨r, hr, hk⟩ := hhas
      refine Finset.card_eq_one.2 ⟨r, Finset.ext fun a => ?_⟩
      simp only [Finset.mem_filter, Finset.mem_singleton]
      constructor
      · rintro ⟨ha, hak⟩
        exact hS.rows a ha r hr (hak.trans hk.symm)
      · rintro rfl
        exact ⟨hr, hk⟩
  · next hhas =>
      refine Finset.card_eq_zero.2 (Finset.filter_eq_empty_iff.2 fun a ha hak => ?_)
      exact hhas ⟨a, ha, hak⟩

/-! ## One transaction at a time -/

section Idle

variable {rows new : Finset ρ}

theorem insert_idle : (⟨rows, ∅, ∅⟩ : RowSet τ κ ρ).insert key t new =
    if ∃ r ∈ new, ∃ a ∈ rows, key a = key r then .duplicate
    else .done ⟨rows, new.image fun r => (t, r), ∅⟩ := by
  simp [insert, Held, Taken, Has]

omit [DecidableEq ρ] in
theorem delete_idle : (⟨rows, ∅, ∅⟩ : RowSet τ κ ρ).delete key t k =
    if ∃ a ∈ rows, key a = k then some (⟨rows, ∅, {(t, k)}⟩, true)
    else some (⟨rows, ∅, ∅⟩, false) := by
  simp [delete, Has]

theorem commit_idle : (⟨rows, ∅, ∅⟩ : RowSet τ κ ρ).commit key t = ⟨rows, ∅, ∅⟩ := by
  simp [commit, rollback, inserted]

omit [DecidableEq κ] [DecidableEq ρ] in
theorem rollback_idle : (⟨rows, ∅, ∅⟩ : RowSet τ κ ρ).rollback t = ⟨rows, ∅, ∅⟩ := by
  simp [rollback]

theorem commit_inserted : (⟨rows, new.image fun r => (t, r), ∅⟩ : RowSet τ κ ρ).commit key t =
    ⟨rows ∪ new, ∅, ∅⟩ := by
  simp [commit, rollback, inserted, Finset.filter_image, Finset.image_image, Function.comp_def]

omit [DecidableEq κ] in
theorem rollback_inserted : (⟨rows, new.image fun r => (t, r), ∅⟩ : RowSet τ κ ρ).rollback t =
    ⟨rows, ∅, ∅⟩ := by
  simp [rollback, Finset.filter_image]

theorem commit_deleted : (⟨rows, ∅, {(t, k)}⟩ : RowSet τ κ ρ).commit key t =
    ⟨rows.filter fun r => key r ≠ k, ∅, ∅⟩ := by
  simp [commit, rollback, inserted]

omit [DecidableEq κ] [DecidableEq ρ] in
theorem rollback_deleted : (⟨rows, ∅, {(t, k)}⟩ : RowSet τ κ ρ).rollback t = ⟨rows, ∅, ∅⟩ := by
  simp [rollback]

end Idle

end RowSet

end Transition
