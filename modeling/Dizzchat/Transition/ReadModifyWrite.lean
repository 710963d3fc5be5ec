import Dizzchat.Transition.Run
import Dizzchat.Transition.Table

set_option autoImplicit false

/-! # Read, decide in memory, write back

A call is one transaction: it reads the row under its key, decides on that copy, sets columns of
the row with one `UPDATE`, and commits. Nothing protects the row between the read and the `UPDATE`.

`Serializable` compares a reached state with running the ended calls one at a time. The commit order
is such an order in every run in which each `UPDATE` finds a row on which the call would still
decide the same (`Rereads`): from there on the row lock keeps the row as it is, so the call might
as well have been run alone at its commit. -/

namespace Transition

variable {ι κ ρ α ε : Type*} [DecidableEq ι] [DecidableEq κ]

/-- How far a call has come: it holds the row it read and what it decided. -/
inductive Rmw (ρ α ε : Type*)
  | started
  | decided (row : Option ρ) (decision : α)
  | updated (row : Option ρ) (decision : α)
  | ended (outcome : Except ε α)

/-- The row a call has decided on, until it updates. -/
def Rmw.decidedOn : Rmw ρ α ε → Option ρ
  | .decided row _ => row
  | .started | .updated .. | .ended _ => none

/-- The call is over. -/
def Rmw.hasEnded : Rmw ρ α ε → Bool
  | .ended _ => true
  | .started | .decided .. | .updated .. => false

theorem Rmw.hasEnded_eq_true {l : Rmw ρ α ε} (h : l.hasEnded = true) :
    ∃ outcome, l = .ended outcome := by
  cases l with
  | ended outcome => exact ⟨outcome, rfl⟩
  | started | decided | updated => cases h

inductive RmwStep
  | read
  | update
  | commit
deriving DecidableEq

/-- A family of calls: the row each of them works on, what it decides on a row, and the columns a
    decision sets. -/
structure RmwCalls (ι κ ρ α ε : Type*) where
  key : ρ → κ
  target : ι → κ
  decide : ι → Option ρ → Except ε α
  set : α → ρ → ρ

namespace RmwCalls

variable (calls : RmwCalls ι κ ρ α ε)

/-- The row call `i` works on. -/
def row (i : ι) (rows : List ρ) : Option ρ := lookup calls.key (calls.target i) rows

/-- The steps of one call. -/
def program (i : ι) : RmwStep → Table ι ρ → Rmw ρ α ε → Option (Table ι ρ × Rmw ρ α ε)
  | .read, T, .started =>
      match calls.decide i (calls.row i T.rows) with
      | .error e => some (T, .ended (.error e))
      | .ok a => some (T, .decided (calls.row i T.rows) a)
  | .update, T, .decided read a =>
      match calls.row i T.rows with
      | none => some (T, .updated read a)
      | some r => (T.update calls.key i (calls.set a r)).map fun T' => (T', .updated read a)
  | .commit, T, .updated _ a => some (T.commit calls.key i, .ended (.ok a))
  | _, _, _ => none

/-- All calls are about to start. -/
def init (rows : List ρ) : World ι (Table ι ρ) (Rmw ρ α ε) :=
  ⟨{ rows, writes := [] }, fun _ => .started⟩

/-! ## Serial execution -/

/-- Run one call alone. -/
def alone (rows : List ρ) (i : ι) : List ρ × Except ε α :=
  match calls.decide i (calls.row i rows) with
  | .error e => (rows, .error e)
  | .ok a => (match calls.row i rows with
      | none => rows
      | some r => upsert calls.key (calls.set a r) rows, .ok a)

/-- Run the calls one at a time: the rows they leave and the outcome of each. -/
def serially : List ρ → List ι → List ρ × List (ι × Except ε α)
  | rows, [] => (rows, [])
  | rows, i :: order =>
      let (rows', outcome) := calls.alone rows i
      let (rows'', outcomes) := serially rows' order
      (rows'', (i, outcome) :: outcomes)

/-- Some serial order of the ended calls leaves the same rows and gives each call its outcome. -/
def Serializable (rows : List ρ) (w : World ι (Table ι ρ) (Rmw ρ α ε)) : Prop :=
  ∃ order : List ι, order.Nodup ∧ (calls.serially rows order).1 = w.shared.rows ∧
    ∀ i outcome, w.proc i = .ended outcome ↔ (i, outcome) ∈ (calls.serially rows order).2

omit [DecidableEq ι] in
theorem serially_concat (rows : List ρ) (order : List ι) (i : ι) :
    calls.serially rows (order ++ [i]) =
      ((calls.alone (calls.serially rows order).1 i).1,
        (calls.serially rows order).2 ++ [(i, (calls.alone (calls.serially rows order).1 i).2)]) := by
  induction order generalizing rows with
  | nil => rfl
  | cons j order ih => simp only [List.cons_append, serially, ih]

omit [DecidableEq ι] in
theorem mem_of_mem_serially {rows : List ρ} {order : List ι} {i : ι} {outcome : Except ε α}
    (h : (i, outcome) ∈ (calls.serially rows order).2) : i ∈ order := by
  induction order generalizing rows with
  | nil => exact absurd h (by simp [serially])
  | cons j order ih =>
      rcases List.mem_cons.1 h with h | h
      · exact List.mem_cons.2 (Or.inl (congrArg Prod.fst h))
      · exact List.mem_cons_of_mem _ (ih h)

/-! ## What a step can do -/

variable {calls}
variable {i : ι} {T T' : Table ι ρ} {l l' : Rmw ρ α ε}

theorem program_read (h : calls.program i .read T l = some (T', l')) :
    T' = T ∧ l = .started ∧
      ((∃ e, calls.decide i (calls.row i T.rows) = .error e ∧ l' = .ended (.error e)) ∨
        ∃ a, calls.decide i (calls.row i T.rows) = .ok a ∧
          l' = .decided (calls.row i T.rows) a) := by
  cases l with
  | started =>
      rw [program] at h
      split at h
      · next e he =>
          obtain ⟨rfl, rfl⟩ := Prod.mk.inj (Option.some.inj h)
          exact ⟨rfl, rfl, Or.inl ⟨e, he, rfl⟩⟩
      · next a ha =>
          obtain ⟨rfl, rfl⟩ := Prod.mk.inj (Option.some.inj h)
          exact ⟨rfl, rfl, Or.inr ⟨a, ha, rfl⟩⟩
  | decided | updated | ended => cases h

theorem program_update (h : calls.program i .update T l = some (T', l')) :
    ∃ read a, l = .decided read a ∧ l' = .updated read a ∧
      ((calls.row i T.rows = none ∧ T' = T) ∨
        ∃ r, calls.row i T.rows = some r ∧
          (∀ v ∈ T.writes, calls.key v.2 = calls.key (calls.set a r) → v.1 = i) ∧
          T' = T.write i (calls.set a r)) := by
  cases l with
  | decided read a =>
      rw [program] at h
      split at h
      · next hrow =>
          obtain ⟨rfl, rfl⟩ := Prod.mk.inj (Option.some.inj h)
          exact ⟨read, a, rfl, rfl, Or.inl ⟨hrow, rfl⟩⟩
      · next r hrow =>
          obtain ⟨T₁, hupd, h⟩ := Option.map_eq_some_iff.1 h
          obtain ⟨rfl, rfl⟩ := Prod.mk.inj h
          obtain ⟨hfree, rfl⟩ := Table.update_eq_some.1 hupd
          exact ⟨read, a, rfl, rfl, Or.inr ⟨r, hrow, hfree, rfl⟩⟩
  | started | updated | ended => cases h

theorem program_commit (h : calls.program i .commit T l = some (T', l')) :
    ∃ read a, l = .updated read a ∧ l' = .ended (.ok a) ∧ T' = T.commit calls.key i := by
  cases l with
  | updated read a =>
      obtain ⟨rfl, rfl⟩ := Prod.mk.inj (Option.some.inj h)
      exact ⟨read, a, rfl, rfl, rfl⟩
  | started | decided | ended => cases h

/-! ## The commit order is a serial order -/

/-- An `UPDATE` finds a row on which the call still decides what it decided on the row it read. -/
def Rereads (calls : RmwCalls ι κ ρ α ε) (w : World ι (Table ι ρ) (Rmw ρ α ε)) :
    ι × RmwStep → Prop
  | (i, .update) => ∀ read a, w.proc i = .decided read a →
      ∃ r, calls.row i w.shared.rows = some r ∧ calls.decide i (some r) = .ok a
  | (_, .read) | (_, .commit) => True

/-- The image a call has open: the current row with the decided columns set. -/
def images (calls : RmwCalls ι κ ρ α ε) (rows : List ρ) (i : ι) : Rmw ρ α ε → List ρ
  | .updated _ a => ((calls.row i rows).map (calls.set a)).toList
  | .started | .decided .. | .ended _ => []

structure SerialInv (calls : RmwCalls ι κ ρ α ε) (rows : List ρ)
    (w : World ι (Table ι ρ) (Rmw ρ α ε)) : Prop where
  exclusive : w.shared.Exclusive calls.key
  own : ∀ i, w.shared.own i = calls.images w.shared.rows i (w.proc i)
  /-- A call that holds its row would decide the same on it now. -/
  holds : ∀ i read a, w.proc i = .updated read a →
    ∃ r, calls.row i w.shared.rows = some r ∧ calls.decide i (some r) = .ok a
  serial : calls.Serializable rows w

theorem serialInv_init (rows : List ρ) : calls.SerialInv rows (init rows) where
  exclusive := Table.exclusive_of_writes_nil rfl
  own _ := rfl
  holds _ _ _ h := by cases h
  serial := ⟨[], List.nodup_nil, rfl, fun i outcome => by simp [init, serially]⟩

/-- A call that ends extends the serial order, if running it alone does what it did. -/
theorem Serializable.concat {rows : List ρ} {w : World ι (Table ι ρ) (Rmw ρ α ε)}
    (h : calls.Serializable rows w) {i : ι} {T : Table ι ρ} {outcome : Except ε α}
    (hi : ∀ o, w.proc i ≠ .ended o)
    (halone : calls.alone w.shared.rows i = (T.rows, outcome)) :
    calls.Serializable rows ⟨T, Function.update w.proc i (.ended outcome)⟩ := by
  obtain ⟨order, hnodup, hrows, hmem⟩ := h
  have hnew : ∀ o, (i, o) ∉ (calls.serially rows order).2 := fun o ho => hi o ((hmem i o).2 ho)
  have hfresh : i ∉ order := by
    intro hin
    -- A call of the order has an outcome in it.
    have hout : ∀ (rs : List ρ) (js : List ι), i ∈ js → ∃ o, (i, o) ∈ (calls.serially rs js).2 := by
      intro rs js
      induction js generalizing rs with
      | nil => intro h; cases h
      | cons j js ih =>
          intro h
          rcases List.mem_cons.1 h with rfl | h
          · exact ⟨_, List.mem_cons_self⟩
          · obtain ⟨o, ho⟩ := ih (calls.alone rs j).1 h
            exact ⟨o, List.mem_cons_of_mem _ ho⟩
    obtain ⟨o, ho⟩ := hout rows order hin
    exact hnew o ho
  refine ⟨order ++ [i], ?_, ?_, fun j o => ?_⟩
  · exact List.nodup_append.2 ⟨hnodup, by simp, fun a ha b hb => by
      rw [List.mem_singleton.1 hb]; exact fun hab => hfresh (hab ▸ ha)⟩
  · rw [serially_concat, hrows, halone]
  · rw [serially_concat, hrows, halone, List.mem_append, ← hmem j o, List.mem_singleton]
    by_cases hj : j = i
    · subst hj
      simp only [Function.update_self, hi o, false_or, Prod.mk.injEq, true_and, Rmw.ended.injEq]
      exact eq_comm
    · simp [hj]

/-- A step that ends no call leaves the serial order as it is. -/
theorem Serializable.congr {rows : List ρ} {w : World ι (Table ι ρ) (Rmw ρ α ε)}
    (h : calls.Serializable rows w) {i : ι} {T : Table ι ρ} {l : Rmw ρ α ε}
    (hT : T.rows = w.shared.rows) (hi : ∀ o, w.proc i ≠ .ended o) (hl : ∀ o, l ≠ .ended o) :
    calls.Serializable rows ⟨T, Function.update w.proc i l⟩ := by
  obtain ⟨order, hnodup, hrows, hmem⟩ := h
  refine ⟨order, hnodup, hrows.trans hT.symm, fun j o => ?_⟩
  rw [← hmem j o]
  by_cases hj : j = i
  · subst hj
    simp only [Function.update_self, hi o, hl o]
  · simp only [Function.update_of_ne hj]

/-- The read writes nothing; a call that ends at it has run alone at this moment. -/
theorem serialInv_read {rows : List ρ} {w : World ι (Table ι ρ) (Rmw ρ α ε)}
    (hw : calls.SerialInv rows w) {i : ι} {T : Table ι ρ} {l : Rmw ρ α ε}
    (h : calls.program i .read w.shared (w.proc i) = some (T, l)) :
    calls.SerialInv rows ⟨T, Function.update w.proc i l⟩ := by
  obtain ⟨rfl, hi, hl⟩ := program_read h
  have hnot : ∀ o, w.proc i ≠ .ended o := fun o => by simp [hi]
  have himages : calls.images w.shared.rows i l = calls.images w.shared.rows i (w.proc i) := by
    rw [hi]
    rcases hl with ⟨_, _, rfl⟩ | ⟨_, _, rfl⟩ <;> rfl
  refine ⟨hw.exclusive, fun j => ?_, fun j read a hj => ?_, ?_⟩
  · by_cases hj : j = i
    · subst hj
      simp only [Function.update_self, himages, hw.own j]
    · simpa only [Function.update_of_ne hj] using hw.own j
  · by_cases hji : j = i
    · subst hji
      simp only [Function.update_self] at hj
      rcases hl with ⟨_, _, rfl⟩ | ⟨_, _, rfl⟩ <;> cases hj
    · simp only [Function.update_of_ne hji] at hj
      exact hw.holds j read a hj
  · rcases hl with ⟨e, he, rfl⟩ | ⟨a, _, rfl⟩
    · exact hw.serial.concat hnot (by rw [alone, he])
    · exact hw.serial.congr rfl hnot (by simp)

/-- The `UPDATE` takes the row lock on a row that still gives the same decision. -/
theorem serialInv_update {rows : List ρ} {w : World ι (Table ι ρ) (Rmw ρ α ε)}
    (hw : calls.SerialInv rows w) {i : ι} {T : Table ι ρ} {l : Rmw ρ α ε}
    (hreread : calls.Rereads w (i, .update))
    (h : calls.program i .update w.shared (w.proc i) = some (T, l)) :
    calls.SerialInv rows ⟨T, Function.update w.proc i l⟩ := by
  obtain ⟨read, a, hi, rfl, hT⟩ := program_update h
  obtain ⟨r, hrow, hdecide⟩ := hreread read a hi
  obtain ⟨hfree, rfl⟩ : (∀ v ∈ w.shared.writes, calls.key v.2 = calls.key (calls.set a r) →
      v.1 = i) ∧ T = w.shared.write i (calls.set a r) := by
    rcases hT with ⟨hnone, _⟩ | ⟨r', hrow', hfree, rfl⟩
    · rw [hrow] at hnone
      cases hnone
    · obtain rfl : r = r' := Option.some.inj (hrow.symm.trans hrow')
      exact ⟨hfree, rfl⟩
  refine ⟨hw.exclusive.write hfree, fun j => ?_, fun j read' a' hj => ?_, ?_⟩
  · rw [Table.own_write, hw.own j]
    by_cases hj : j = i
    · subst hj
      simp [hi, images, hrow]
    · simp only [if_neg (Ne.symm hj), Function.update_of_ne hj, Table.write_rows]
  · by_cases hji : j = i
    · subst hji
      simp only [Function.update_self, Rmw.updated.injEq] at hj
      obtain ⟨rfl, rfl⟩ := hj
      exact ⟨r, hrow, hdecide⟩
    · simp only [Function.update_of_ne hji] at hj
      exact hw.holds j read' a' hj
  · exact hw.serial.congr rfl (fun o => by simp [hi]) (by simp)

/-- The commit: what it makes visible is what the call does when it is run alone now. -/
theorem serialInv_commit {rows : List ρ} {w : World ι (Table ι ρ) (Rmw ρ α ε)}
    (hkey : ∀ a r, calls.key (calls.set a r) = calls.key r)
    (hw : calls.SerialInv rows w) {i : ι} {T : Table ι ρ} {l : Rmw ρ α ε}
    (h : calls.program i .commit w.shared (w.proc i) = some (T, l)) :
    calls.SerialInv rows ⟨T, Function.update w.proc i l⟩ := by
  obtain ⟨read, a, hi, rfl, rfl⟩ := program_commit h
  obtain ⟨r, hrow, hdecide⟩ := hw.holds i read a hi
  have hown : w.shared.own i = [calls.set a r] := by simp [hw.own i, hi, images, hrow]
  have hrows : (w.shared.commit calls.key i).rows = upsert calls.key (calls.set a r)
      w.shared.rows := by
    simp only [Table.commit, hown, List.foldl_cons, List.foldl_nil]
  have htarget : calls.key (calls.set a r) = calls.target i :=
    (hkey a r).trans (key_of_lookup hrow)
  -- A call that holds its row works on another row than `i`.
  have hother : ∀ j, j ≠ i → ∀ read' a', w.proc j = .updated read' a' →
      calls.row j (w.shared.commit calls.key i).rows = calls.row j w.shared.rows := by
    intro j hji read' a' hj
    obtain ⟨r', hrow', _⟩ := hw.holds j read' a' hj
    refine Table.lookup_commit_of_not_written fun v hv hk => hji ?_
    have hmine : (j, calls.set a' r') ∈ w.shared.writes :=
      Table.mem_own.1 (by simp [hw.own j, hj, images, hrow'])
    refine hw.exclusive _ hmine _ hv ?_
    rw [hkey, key_of_lookup hrow', hk]
  refine ⟨hw.exclusive.commit i, fun j => ?_, fun j read' a' hj => ?_, ?_⟩
  · by_cases hji : j = i
    · subst hji
      simp only [Table.own_commit_self, Function.update_self, images]
    · simp only [Table.own_commit_of_ne hji, Function.update_of_ne hji, hw.own j]
      cases hj : w.proc j with
      | updated read' a' => simp only [images, hother j hji read' a' hj]
      | started | decided | ended => rfl
  · by_cases hji : j = i
    · subst hji
      simp only [Function.update_self, reduceCtorEq] at hj
    · simp only [Function.update_of_ne hji] at hj
      exact hother j hji read' a' hj ▸ hw.holds j read' a' hj
  · refine hw.serial.concat (fun o => by simp [hi]) ?_
    simp only [alone, hrow, hdecide, hrows]

/-- Every run whose updates find the row as decided on is serializable. -/
theorem serializable_of_rereads (hkey : ∀ a r, calls.key (calls.set a r) = calls.key r)
    {rows : List ρ} {es : List (ι × RmwStep)} {w : World ι (Table ι ρ) (Rmw ρ α ε)}
    (hC : StepsMeet (World.move calls.program) calls.Rereads (init rows) es)
    (hrun : exec (World.move calls.program) (init rows) es = some w) :
    calls.Serializable rows w := by
  refine (exec_invariant_of_stepsMeet (I := calls.SerialInv rows) (fun w e w' hw hC h => ?_)
    (serialInv_init rows) hC hrun).serial
  obtain ⟨i, c⟩ := e
  obtain ⟨T, l, hstep, rfl⟩ := World.move_eq_some.1 h
  cases c with
  | read => exact serialInv_read hw hstep
  | update => exact serialInv_update hw hC hstep
  | commit => exact serialInv_commit hkey hw hstep

/-! ## What a call has read -/

/-- Every decision was made on the row read for it; and in the columns `f`, which no call sets, every
    row, every open image and every row a call has read are as they were at first. -/
structure Snapshot {β : Type*} (calls : RmwCalls ι κ ρ α ε) (f : ρ → β) (rows : List ρ)
    (w : World ι (Table ι ρ) (Rmw ρ α ε)) : Prop where
  decides : ∀ i read a, w.proc i = .decided read a → calls.decide i read = .ok a
  read_eq : ∀ i read a, w.proc i = .decided read a →
    read.map f = (lookup calls.key (calls.target i) rows).map f
  row_eq : ∀ k, (lookup calls.key k w.shared.rows).map f = (lookup calls.key k rows).map f
  write_eq : ∀ v ∈ w.shared.writes, some (f v.2) = (lookup calls.key (calls.key v.2) rows).map f

omit [DecidableEq ι] in
theorem snapshot_init {β : Type*} (f : ρ → β) (rows : List ρ) :
    calls.Snapshot f rows (init rows) where
  decides _ _ _ h := by cases h
  read_eq _ _ _ h := by cases h
  row_eq _ := rfl
  write_eq _ hv := by cases hv

theorem snapshot_step {β : Type*} {f : ρ → β} (hf : ∀ a r, f (calls.set a r) = f r)
    (hkey : ∀ a r, calls.key (calls.set a r) = calls.key r) {rows : List ρ}
    {w w' : World ι (Table ι ρ) (Rmw ρ α ε)} {e : ι × RmwStep} (hw : calls.Snapshot f rows w)
    (h : World.move calls.program w e = some w') : calls.Snapshot f rows w' := by
  obtain ⟨i, c⟩ := e
  obtain ⟨T, l, hstep, rfl⟩ := World.move_eq_some.1 h
  -- Only a read makes a new decision.
  have hold : (∀ read a, l ≠ .decided read a) → ∀ j read a,
      Function.update w.proc i l j = .decided read a → w.proc j = .decided read a := by
    intro hl j read a hj
    by_cases hji : j = i
    · rw [hji, Function.update_self] at hj
      exact absurd hj (hl read a)
    · rwa [Function.update_of_ne hji] at hj
  have hkeep : (∀ read a, l ≠ .decided read a) →
      (∀ k, (lookup calls.key k T.rows).map f = (lookup calls.key k rows).map f) →
      (∀ v ∈ T.writes, some (f v.2) = (lookup calls.key (calls.key v.2) rows).map f) →
      calls.Snapshot f rows ⟨T, Function.update w.proc i l⟩ := fun hl hrow hwrite =>
    ⟨fun j read a hj => hw.decides j read a (hold hl j read a hj),
      fun j read a hj => hw.read_eq j read a (hold hl j read a hj), hrow, hwrite⟩
  cases c with
  | read =>
      obtain ⟨rfl, _, ⟨_, _, rfl⟩ | ⟨a, hdecide, rfl⟩⟩ := program_read hstep
      · exact hkeep (by simp) hw.row_eq hw.write_eq
      · refine ⟨fun j read a' hj => ?_, fun j read a' hj => ?_, hw.row_eq, hw.write_eq⟩ <;>
          by_cases hji : j = i
        · subst hji
          simp only [Function.update_self, Rmw.decided.injEq] at hj
          exact hj.1 ▸ hj.2 ▸ hdecide
        · simp only [Function.update_of_ne hji] at hj
          exact hw.decides j read a' hj
        · subst hji
          simp only [Function.update_self, Rmw.decided.injEq] at hj
          exact hj.1 ▸ hw.row_eq _
        · simp only [Function.update_of_ne hji] at hj
          exact hw.read_eq j read a' hj
  | update =>
      obtain ⟨read, a, hi, rfl, ⟨_, rfl⟩ | ⟨r, hrow, _, rfl⟩⟩ := program_update hstep
      · exact hkeep (by simp) hw.row_eq hw.write_eq
      · refine hkeep (by simp) hw.row_eq fun v hv => ?_
        rcases Table.mem_write.1 hv with hv | rfl
        · exact hw.write_eq v hv
        · rw [hf, hkey, key_of_lookup hrow, ← hw.row_eq]
          exact (congrArg (Option.map f) hrow).symm
  | commit =>
      obtain ⟨read, a, hi, rfl, rfl⟩ := program_commit hstep
      exact hkeep (by simp) (Table.map_lookup_commit hw.row_eq fun r hr => hw.write_eq _ hr)
        fun v hv => hw.write_eq v (Table.mem_rollback.1 hv).1

/-- A run is serializable if each `UPDATE` finds a row that agrees with the row the call decided
    on, where agreement is what keeps the decision the same. -/
theorem serializable_of_agrees {β : Type*} (f : ρ → β) (agrees : ι → ρ → ρ → Prop)
    (hf : ∀ a r, f (calls.set a r) = f r) (hkey : ∀ a r, calls.key (calls.set a r) = calls.key r)
    (hnone : ∀ i a, calls.decide i none ≠ .ok a)
    (hagrees : ∀ i read r a, calls.decide i (some read) = .ok a → f read = f r →
      agrees i read r → calls.decide i (some r) = .ok a)
    {rows : List ρ} {es : List (ι × RmwStep)} {w : World ι (Table ι ρ) (Rmw ρ α ε)}
    (hC : StepsMeet (World.move calls.program) (fun w e => e.2 = .update →
      ∀ read ∈ (w.proc e.1).decidedOn, ∀ r ∈ calls.row e.1 w.shared.rows, agrees e.1 read r)
      (init rows) es)
    (hrun : exec (World.move calls.program) (init rows) es = some w) :
    calls.Serializable rows w := by
  refine serializable_of_rereads hkey (StepsMeet.of_invariant (I := calls.Snapshot f rows)
    (fun w e w' hw h => snapshot_step hf hkey hw h) (fun w e hw hagree => ?_)
    (snapshot_init f rows) hC) hrun
  obtain ⟨i, c⟩ := e
  cases c with
  | read | commit => trivial
  | update =>
      intro read a hi
      cases read with
      | none => exact absurd (hw.decides i none a hi) (hnone i a)
      | some r =>
          -- The row is still there: its `f` columns are those of the row read.
          have hrow : (calls.row i w.shared.rows).map f = some (f r) :=
            (hw.row_eq (calls.target i)).trans (hw.read_eq i (some r) a hi).symm
          obtain ⟨r', hr', hf'⟩ := Option.map_eq_some_iff.1 hrow
          exact ⟨r', hr', hagrees i r r' a (hw.decides i (some r) a hi) hf'.symm
            (hagree rfl r (by rw [hi]; rfl) r' hr')⟩

end RmwCalls

end Transition
