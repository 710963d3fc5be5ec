import Mathlib.Data.List.Perm.Basic
import Mathlib.Data.List.Pairwise

set_option autoImplicit false

/-! # A table under READ COMMITTED

`Table τ ρ` is one table seen by transactions `τ`: the committed rows, and the row images the open
transactions have written so far. A statement reads the committed rows of the moment it runs; an
`UPDATE` or `INSERT` waits while another open transaction has written a row that clashes with it
(the row lock of an update, the unique index of an insert); `commit` makes the images of one
transaction visible all at once and `rollback` drops them.

Two invariants carry the uses of a table. `Exclusive`: two open images of one key belong to one
transaction, so what a transaction updates cannot change under it before it commits. `Distinct`:
committed rows and open images never clash, which is what a unique constraint buys. -/

namespace Transition

variable {τ κ ρ : Type*} [DecidableEq τ] [DecidableEq κ]

/-! ## Rows by key -/

/-- The row stored under a key. -/
def lookup (key : ρ → κ) (k : κ) (rows : List ρ) : Option ρ :=
  rows.find? fun r => decide (key r = k)

/-- Replace the row with the key of `r`, or append `r` when there is none. -/
def upsert (key : ρ → κ) (r : ρ) : List ρ → List ρ
  | [] => [r]
  | x :: xs => if key x = key r then r :: xs else x :: upsert key r xs

variable {key : ρ → κ}

theorem key_of_lookup {k : κ} {rows : List ρ} {r : ρ} (h : lookup key k rows = some r) :
    key r = k := by
  simpa using List.find?_some h

theorem mem_of_lookup {k : κ} {rows : List ρ} {r : ρ} (h : lookup key k rows = some r) :
    r ∈ rows :=
  List.mem_of_find?_eq_some h

theorem lookup_upsert (k : κ) (r : ρ) (rows : List ρ) :
    lookup key k (upsert key r rows) = if key r = k then some r else lookup key k rows := by
  induction rows with
  | nil => by_cases h : key r = k <;> simp [upsert, lookup, h]
  | cons x xs ih =>
      rw [upsert]
      by_cases hx : key x = key r
      · rw [if_pos hx]
        by_cases h : key r = k
        · simp [lookup, h]
        · simp [lookup, hx, h]
      · rw [if_neg hx]
        by_cases hk : key x = k
        · have h : ¬ key r = k := fun h => hx (hk.trans h.symm)
          simp [lookup, hk, h]
        · have hskip : ∀ ys, lookup key k (x :: ys) = lookup key k ys := by
            intro ys; simp [lookup, hk]
          rw [hskip, hskip, ih]

/-- No key loses its row. -/
theorem lookup_upsert_ne_none {k : κ} {r : ρ} {rows : List ρ} (h : lookup key k rows ≠ none) :
    lookup key k (upsert key r rows) ≠ none := by
  rw [lookup_upsert]
  split
  · simp
  · exact h

theorem mem_upsert {r x : ρ} {rows : List ρ} (h : x ∈ upsert key r rows) : x = r ∨ x ∈ rows := by
  induction rows with
  | nil => exact Or.inl (by simpa [upsert] using h)
  | cons y ys ih =>
      rw [upsert] at h
      split at h
      · exact (List.mem_cons.1 h).imp_right (List.mem_cons_of_mem _)
      · rcases List.mem_cons.1 h with rfl | h
        · exact Or.inr List.mem_cons_self
        · exact (ih h).imp_right (List.mem_cons_of_mem _)

/-- Rows with different keys stay so. -/
theorem nodup_upsert {r : ρ} {rows : List ρ} (h : (rows.map key).Nodup) :
    ((upsert key r rows).map key).Nodup := by
  induction rows with
  | nil => simp [upsert]
  | cons x xs ih =>
      rw [List.map_cons, List.nodup_cons] at h
      rw [upsert]
      split
      · next hx =>
          rw [List.map_cons, List.nodup_cons, ← hx]
          exact h
      · next hx =>
          rw [List.map_cons, List.nodup_cons]
          refine ⟨fun hmem => ?_, ih h.2⟩
          obtain ⟨y, hy, hk⟩ := List.mem_map.1 hmem
          rcases mem_upsert hy with rfl | hy
          · exact hx hk.symm
          · exact h.1 (hk ▸ List.mem_map_of_mem hy)

/-- Among rows with different keys a row is the one found under its key. -/
theorem lookup_of_mem {rows : List ρ} (h : (rows.map key).Nodup) {r : ρ} (hr : r ∈ rows) :
    lookup key (key r) rows = some r := by
  induction rows with
  | nil => exact absurd hr List.not_mem_nil
  | cons x xs ih =>
      rw [List.map_cons, List.nodup_cons] at h
      rcases List.mem_cons.1 hr with rfl | hr
      · simp [lookup]
      · have hne : key x ≠ key r := fun he => h.1 (he ▸ List.mem_map_of_mem hr)
        rw [← ih h.2 hr]
        simp [lookup, hne]

theorem lookup_eq_none {k : κ} {rows : List ρ} :
    lookup key k rows = none ↔ ∀ r ∈ rows, key r ≠ k := by
  simp [lookup]

/-- A row with a new key is appended. -/
theorem upsert_of_fresh {r : ρ} {rows : List ρ} (h : ∀ x ∈ rows, key x ≠ key r) :
    upsert key r rows = rows ++ [r] := by
  induction rows with
  | nil => rfl
  | cons x xs ih =>
      rw [upsert, if_neg (h x List.mem_cons_self), ih fun y hy => h y (List.mem_cons_of_mem _ hy)]
      rfl

/-! ## The table -/

/-- A table as the open transactions see it. -/
structure Table (τ ρ : Type*) where
  /-- The committed rows. -/
  rows : List ρ
  /-- The uncommitted row images with the transaction that wrote them, oldest first. -/
  writes : List (τ × ρ)

/-- How an `INSERT` turns out: it waits for another transaction, violates the unique constraint,
    or leaves its row among the uncommitted ones. -/
inductive Inserted (τ ρ : Type*)
  | blocked
  | duplicate
  | done (T : Table τ ρ)

namespace Table

/-- Another open transaction has written a row that clashes with `r`. -/
def blocked (clash : ρ → ρ → Bool) (t : τ) (r : ρ) (T : Table τ ρ) : Bool :=
  T.writes.any fun w => decide (w.1 ≠ t) && clash w.2 r

/-- Add a row image to those transaction `t` has written. -/
def write (t : τ) (r : ρ) (T : Table τ ρ) : Table τ ρ :=
  { T with writes := T.writes ++ [(t, r)] }

/-- `UPDATE` by transaction `t`, writing the row image `r`; `none` while the row is locked. -/
def update (key : ρ → κ) (t : τ) (r : ρ) (T : Table τ ρ) : Option (Table τ ρ) :=
  if T.blocked (fun x y => decide (key x = key y)) t r then none
  else some (T.write t r)

/-- `INSERT` by transaction `t` under the unique constraint `clash`. -/
def insert (clash : ρ → ρ → Bool) (t : τ) (r : ρ) (T : Table τ ρ) : Inserted τ ρ :=
  if T.blocked clash t r then .blocked
  else if T.rows.any (clash · r) || T.writes.any (fun w => clash w.2 r) then .duplicate
  else .done (T.write t r)

/-- The images transaction `t` has written. -/
def own (t : τ) (T : Table τ ρ) : List ρ :=
  (T.writes.filter fun w => decide (w.1 = t)).map Prod.snd

/-- `ROLLBACK` of transaction `t`. -/
def rollback (t : τ) (T : Table τ ρ) : Table τ ρ :=
  { T with writes := T.writes.filter fun w => decide (w.1 ≠ t) }

/-- `COMMIT` of transaction `t`: its images become visible together. -/
def commit (key : ρ → κ) (t : τ) (T : Table τ ρ) : Table τ ρ :=
  { T.rollback t with rows := (T.own t).foldl (fun rows r => upsert key r rows) T.rows }

omit [DecidableEq τ] in
@[simp]
theorem write_rows (t : τ) (r : ρ) (T : Table τ ρ) : (T.write t r).rows = T.rows := rfl

omit [DecidableEq τ] in
@[simp]
theorem mem_write {t : τ} {r : ρ} {T : Table τ ρ} {w : τ × ρ} :
    w ∈ (T.write t r).writes ↔ w ∈ T.writes ∨ w = (t, r) := by
  simp [write]

@[simp]
theorem commit_writes (t : τ) (T : Table τ ρ) :
    (T.commit key t).writes = (T.rollback t).writes := rfl

theorem mem_own {t : τ} {T : Table τ ρ} {r : ρ} : r ∈ T.own t ↔ (t, r) ∈ T.writes := by
  simp [own]

theorem mem_rollback {t : τ} {T : Table τ ρ} {w : τ × ρ} :
    w ∈ (T.rollback t).writes ↔ w ∈ T.writes ∧ w.1 ≠ t := by
  simp [rollback]

theorem own_rollback_self (t : τ) (T : Table τ ρ) : (T.rollback t).own t = [] := by
  simp [own, rollback]

theorem own_rollback_of_ne {t u : τ} (h : u ≠ t) (T : Table τ ρ) :
    (T.rollback t).own u = T.own u := by
  simp only [own, rollback, List.filter_filter]
  congr 1
  apply List.filter_congr
  intro w _
  by_cases hw : w.1 = u
  · simp [hw, h]
  · simp [hw]

theorem own_write (t u : τ) (r : ρ) (T : Table τ ρ) :
    (T.write t r).own u = if t = u then T.own u ++ [r] else T.own u := by
  by_cases h : t = u <;> simp [own, write, List.filter_append, h]

theorem own_commit_self (t : τ) (T : Table τ ρ) : (T.commit key t).own t = [] :=
  own_rollback_self t T

theorem own_commit_of_ne {t u : τ} (h : u ≠ t) (T : Table τ ρ) :
    (T.commit key t).own u = T.own u :=
  own_rollback_of_ne h T

/-! ## What a commit changes -/

theorem lookup_foldl_upsert_of_fresh {k : κ} {rs rows : List ρ} (h : ∀ r ∈ rs, key r ≠ k) :
    lookup key k (rs.foldl (fun rows r => upsert key r rows) rows) = lookup key k rows := by
  induction rs generalizing rows with
  | nil => rfl
  | cons r rs ih =>
      rw [List.foldl_cons, ih fun x hx => h x (List.mem_cons_of_mem _ hx), lookup_upsert,
        if_neg (h r List.mem_cons_self)]

/-- A key the transaction did not write keeps its row. -/
theorem lookup_commit_of_not_written {t : τ} {k : κ} {T : Table τ ρ}
    (h : ∀ r, (t, r) ∈ T.writes → key r ≠ k) :
    lookup key k (T.commit key t).rows = lookup key k T.rows :=
  lookup_foldl_upsert_of_fresh fun r hr => h r (mem_own.1 hr)

/-- A view `f` of the row under each key that every image of the transaction agrees with. -/
theorem map_lookup_commit {β : Type*} {f : ρ → β} {g : κ → Option β} {t : τ} {T : Table τ ρ}
    (hrows : ∀ k, (lookup key k T.rows).map f = g k)
    (hwrites : ∀ r, (t, r) ∈ T.writes → some (f r) = g (key r)) (k : κ) :
    (lookup key k (T.commit key t).rows).map f = g k := by
  have hfold : ∀ (rs rows : List ρ), (∀ r ∈ rs, some (f r) = g (key r)) →
      (∀ k, (lookup key k rows).map f = g k) →
      (lookup key k (rs.foldl (fun rows r => upsert key r rows) rows)).map f = g k := by
    intro rs
    induction rs with
    | nil => intro rows _ hrows; exact hrows k
    | cons r rs ih =>
        intro rows hrs hrows
        refine ih _ (fun x hx => hrs x (List.mem_cons_of_mem _ hx)) fun k' => ?_
        rw [lookup_upsert]
        split
        · next hk => exact hk ▸ hrs r List.mem_cons_self
        · exact hrows k'
  exact hfold _ _ (fun r hr => hwrites r (mem_own.1 hr)) hrows

theorem mem_commit_rows {t : τ} {T : Table τ ρ} {r : ρ} (h : r ∈ (T.commit key t).rows) :
    (t, r) ∈ T.writes ∨ r ∈ T.rows := by
  have hfold : ∀ (rs rows : List ρ), r ∈ rs.foldl (fun rows r => upsert key r rows) rows →
      r ∈ rs ∨ r ∈ rows := by
    intro rs
    induction rs with
    | nil => intro rows h; exact Or.inr h
    | cons x xs ih =>
        intro rows h
        rcases ih _ h with h | h
        · exact Or.inl (List.mem_cons_of_mem _ h)
        · rcases mem_upsert h with rfl | h
          · exact Or.inl List.mem_cons_self
          · exact Or.inr h
  exact (hfold _ _ h).imp_left mem_own.1

/-- A commit keeps the keys of the committed rows different. -/
theorem nodup_commit {t : τ} {T : Table τ ρ} (h : (T.rows.map key).Nodup) :
    ((T.commit key t).rows.map key).Nodup := by
  have hfold : ∀ (rs rows : List ρ), (rows.map key).Nodup →
      ((rs.foldl (fun rows r => upsert key r rows) rows).map key).Nodup := by
    intro rs
    induction rs with
    | nil => exact fun rows hrows => hrows
    | cons r rs ih => exact fun rows hrows => ih _ (nodup_upsert hrows)
  exact hfold _ _ h

/-! ## One open image per key -/

/-- Open images of one key belong to one transaction. -/
def Exclusive (key : ρ → κ) (T : Table τ ρ) : Prop :=
  ∀ w ∈ T.writes, ∀ w' ∈ T.writes, key w.2 = key w'.2 → w.1 = w'.1

omit [DecidableEq τ] [DecidableEq κ] in
theorem exclusive_of_writes_nil {T : Table τ ρ} (h : T.writes = []) : T.Exclusive key := by
  intro w hw
  rw [h] at hw
  exact absurd hw (by simp)

omit [DecidableEq κ] in
theorem Exclusive.rollback {T : Table τ ρ} (h : T.Exclusive key) (t : τ) :
    (T.rollback t).Exclusive key :=
  fun w hw w' hw' => h w (mem_rollback.1 hw).1 w' (mem_rollback.1 hw').1

theorem Exclusive.commit {T : Table τ ρ} (h : T.Exclusive key) (t : τ) :
    (T.commit key t).Exclusive key :=
  h.rollback t

omit [DecidableEq τ] [DecidableEq κ] in
/-- Appending an image nobody else has open keeps the table exclusive. -/
theorem Exclusive.write {T : Table τ ρ} (h : T.Exclusive key) {t : τ} {r : ρ}
    (hfree : ∀ w ∈ T.writes, key w.2 = key r → w.1 = t) :
    (T.write t r).Exclusive key := by
  intro w hw w' hw' hk
  rw [mem_write] at hw hw'
  rcases hw with hw | rfl <;> rcases hw' with hw' | rfl
  · exact h w hw w' hw' hk
  · exact hfree w hw hk
  · exact (hfree w' hw' hk.symm).symm
  · rfl

/-- What a successful `UPDATE` does: nobody else holds the row, and the image is added. -/
theorem update_eq_some {t : τ} {r : ρ} {T T' : Table τ ρ} :
    T.update key t r = some T' ↔
      (∀ w ∈ T.writes, key w.2 = key r → w.1 = t) ∧
        T' = T.write t r := by
  rw [update]
  split
  · next hb =>
      simp only [reduceCtorEq, false_iff, not_and]
      intro hfree
      simp only [blocked, List.any_eq_true, Bool.and_eq_true, decide_eq_true_eq] at hb
      obtain ⟨w, hw, hne, hk⟩ := hb
      exact absurd (hfree w hw hk) hne
  · next hb =>
      simp only [blocked, List.any_eq_true, Bool.and_eq_true, decide_eq_true_eq, not_exists,
        not_and] at hb
      simp only [Option.some.injEq, eq_comm (b := T'), iff_and_self]
      intro _ w hw hk
      by_contra hne
      exact hb w hw hne hk

theorem Exclusive.update {T T' : Table τ ρ} (h : T.Exclusive key) {t : τ} {r : ρ}
    (hu : T.update key t r = some T') : T'.Exclusive key := by
  obtain ⟨hfree, rfl⟩ := update_eq_some.1 hu
  exact h.write hfree

/-- What a successful `INSERT` does: the row clashes with nothing, and is added. -/
theorem insert_eq_done {clash : ρ → ρ → Bool} {t : τ} {r : ρ} {T T' : Table τ ρ} :
    T.insert clash t r = .done T' ↔
      (∀ x ∈ T.rows, clash x r = false) ∧ (∀ w ∈ T.writes, clash w.2 r = false) ∧
        T' = T.write t r := by
  rw [insert]
  split
  · next hb =>
      simp only [reduceCtorEq, false_iff, not_and]
      intro _ hw
      simp only [blocked, List.any_eq_true, Bool.and_eq_true] at hb
      obtain ⟨w, hmem, _, hclash⟩ := hb
      exact absurd hclash (by simp [hw w hmem])
  · split
    · next hd =>
        simp only [reduceCtorEq, false_iff, not_and]
        intro hr hw
        simp only [Bool.or_eq_true, List.any_eq_true] at hd
        rcases hd with ⟨x, hx, hclash⟩ | ⟨w, hmem, hclash⟩
        · exact absurd hclash (by simp [hr x hx])
        · exact absurd hclash (by simp [hw w hmem])
    · next hd =>
        simp only [Bool.or_eq_true, List.any_eq_true, not_or, not_exists, not_and,
          Bool.not_eq_true] at hd
        simp only [Inserted.done.injEq, eq_comm (b := T')]
        exact ⟨fun h => ⟨hd.1, hd.2, h⟩, fun h => h.2.2⟩

/-- An `INSERT` that is not waiting violates the constraint only on a committed row, or on a row
    of its own transaction. -/
theorem insert_eq_duplicate {clash : ρ → ρ → Bool} {t : τ} {r : ρ} {T : Table τ ρ}
    (h : T.insert clash t r = .duplicate) :
    (∃ x ∈ T.rows, clash x r = true) ∨ ∃ x, (t, x) ∈ T.writes ∧ clash x r = true := by
  rw [insert] at h
  split at h
  · cases h
  · next hb =>
      split at h
      · next hd =>
          simp only [Bool.or_eq_true, List.any_eq_true] at hd
          refine hd.imp_right ?_
          rintro ⟨w, hmem, hclash⟩
          refine ⟨w.2, ?_, hclash⟩
          simp only [blocked, List.any_eq_true, Bool.and_eq_true, decide_eq_true_eq, not_exists,
            not_and] at hb
          have hown : w.1 = t := by
            by_contra hne
            exact hb w hmem hne hclash
          exact hown ▸ hmem
      · cases h

/-- An `INSERT` waits only for a transaction that has a clashing row open. -/
theorem insert_eq_blocked {clash : ρ → ρ → Bool} {t : τ} {r : ρ} {T : Table τ ρ}
    (h : T.insert clash t r = .blocked) : ∃ w ∈ T.writes, w.1 ≠ t ∧ clash w.2 r = true := by
  rw [insert] at h
  split at h
  · next hb => simpa [blocked] using hb
  · split at h <;> cases h

/-! ## What a statement can do -/

/-- What a statement of transaction `t` can do: nothing, add an image of a row nobody else has open,
    or end the transaction. -/
inductive Touches (key : ρ → κ) (t : τ) (T : Table τ ρ) : Table τ ρ → Prop
  | none : Touches key t T T
  | write (r : ρ) (hfree : ∀ w ∈ T.writes, key w.2 = key r → w.1 = t) :
      Touches key t T (T.write t r)
  | commit : Touches key t T (T.commit key t)
  | rollback : Touches key t T (T.rollback t)

theorem Touches.exclusive {t : τ} {T T' : Table τ ρ} (h : Touches key t T T')
    (hT : T.Exclusive key) : T'.Exclusive key := by
  cases h with
  | none => exact hT
  | write r hfree => exact hT.write hfree
  | commit => exact hT.commit t
  | rollback => exact hT.rollback t

theorem Touches.own_of_ne {t u : τ} {T T' : Table τ ρ} (h : Touches key t T T') (hu : u ≠ t) :
    T'.own u = T.own u := by
  cases h with
  | none => rfl
  | write r => rw [own_write, if_neg (Ne.symm hu)]
  | commit => exact own_commit_of_ne hu T
  | rollback => exact own_rollback_of_ne hu T

theorem Touches.nodup {t : τ} {T T' : Table τ ρ} (h : Touches key t T T')
    (hT : (T.rows.map key).Nodup) : (T'.rows.map key).Nodup := by
  cases h with
  | none | write | rollback => exact hT
  | commit => exact nodup_commit hT

/-- The committed row of a key after the commit of a transaction with one open image. -/
theorem lookup_commit_of_own {t : τ} {T : Table τ ρ} {r : ρ} (hown : T.own t = [r]) (k : κ) :
    lookup key k (T.commit key t).rows = if key r = k then some r else lookup key k T.rows := by
  rw [commit, hown, List.foldl_cons, List.foldl_nil, lookup_upsert]

theorem lookup_commit_of_own_nil {t : τ} {T : Table τ ρ} (hown : T.own t = []) (k : κ) :
    lookup key k (T.commit key t).rows = lookup key k T.rows := by
  rw [commit, hown, List.foldl_nil]

/-! ## One transaction at a time -/

theorem insert_idle {clash : ρ → ρ → Bool} {t : τ} {r : ρ} {rows : List ρ} :
    (⟨rows, []⟩ : Table τ ρ).insert clash t r =
      if rows.any (clash · r) then .duplicate else .done ⟨rows, [(t, r)]⟩ := by
  simp [insert, blocked, write]

theorem update_idle {t : τ} {r : ρ} {rows : List ρ} :
    (⟨rows, []⟩ : Table τ ρ).update key t r = some ⟨rows, [(t, r)]⟩ := by
  simp [update, blocked, write]

theorem commit_idle {t : τ} {rows : List ρ} :
    (⟨rows, []⟩ : Table τ ρ).commit key t = ⟨rows, []⟩ := by
  simp [commit, rollback, own]

theorem rollback_idle {t : τ} {rows : List ρ} :
    (⟨rows, []⟩ : Table τ ρ).rollback t = ⟨rows, []⟩ := by
  simp [rollback]

theorem commit_written {t : τ} {r : ρ} {rows : List ρ} :
    (⟨rows, [(t, r)]⟩ : Table τ ρ).commit key t = ⟨upsert key r rows, []⟩ := by
  simp [commit, rollback, own]

theorem rollback_written {t : τ} {r : ρ} {rows : List ρ} :
    (⟨rows, [(t, r)]⟩ : Table τ ρ).rollback t = ⟨rows, []⟩ := by
  simp [rollback]

/-! ## Rows that never clash -/

/-- Committed rows and open images are pairwise free of clashes. -/
def Distinct (clash : ρ → ρ → Bool) (T : Table τ ρ) : Prop :=
  (T.rows ++ T.writes.map Prod.snd).Pairwise fun a b => clash a b = false

variable {clash : ρ → ρ → Bool}

omit [DecidableEq τ] in
theorem Distinct.rows {T : Table τ ρ} (h : T.Distinct clash) :
    T.rows.Pairwise fun a b => clash a b = false :=
  (List.pairwise_append.1 h).1

omit [DecidableEq τ] in
theorem Distinct.eq_of_clash {T : Table τ ρ} (h : T.Distinct clash)
    (hsymm : ∀ a b, clash a b = clash b a) {a b : ρ} (ha : a ∈ T.rows) (hb : b ∈ T.rows)
    (hclash : clash a b = true) : a = b := by
  by_contra hne
  have hsymm' : Std.Symm fun a b => clash a b = false := ⟨fun a b h => hsymm a b ▸ h⟩
  rw [h.rows.forall ha hb hne] at hclash
  cases hclash

omit [DecidableEq τ] in
theorem Distinct.row_write {T : Table τ ρ} (h : T.Distinct clash) {x : ρ} {w : τ × ρ}
    (hx : x ∈ T.rows) (hw : w ∈ T.writes) : clash x w.2 = false :=
  (List.pairwise_append.1 h).2.2 x hx w.2 (List.mem_map_of_mem hw)

theorem Distinct.insert {T T' : Table τ ρ} (h : T.Distinct clash) {t : τ} {r : ρ}
    (hi : T.insert clash t r = .done T') : T'.Distinct clash := by
  obtain ⟨hrows, hwrites, rfl⟩ := insert_eq_done.1 hi
  have hall : ∀ x ∈ T.rows ++ T.writes.map Prod.snd, clash x r = false := by
    intro x hx
    rcases List.mem_append.1 hx with hx | hx
    · exact hrows x hx
    · obtain ⟨w, hw, rfl⟩ := List.mem_map.1 hx
      exact hwrites w hw
  simp only [Distinct, write, List.map_append, List.map_cons, List.map_nil, ← List.append_assoc]
  exact List.pairwise_append.2 ⟨h, List.pairwise_singleton _ _, fun x hx y hy => by
    rw [List.mem_singleton.1 hy]; exact hall x hx⟩

theorem Distinct.rollback {T : Table τ ρ} (h : T.Distinct clash) (t : τ) :
    (T.rollback t).Distinct clash :=
  h.sublist ((List.Sublist.refl _).append (List.filter_sublist.map _))

/-- Rows that clash with nothing are appended by a commit. -/
theorem commit_rows_of_distinct {T : Table τ ρ} (hkey : ∀ a b, key a = key b → clash a b = true)
    (h : T.Distinct clash) (t : τ) : (T.commit key t).rows = T.rows ++ T.own t := by
  have hown : (T.rows ++ T.own t).Pairwise fun a b => clash a b = false :=
    h.sublist ((List.Sublist.refl _).append (List.filter_sublist.map _))
  have hfold : ∀ (rs rows : List ρ), ((rows ++ rs).Pairwise fun a b => clash a b = false) →
      rs.foldl (fun rows r => upsert key r rows) rows = rows ++ rs := by
    intro rs
    induction rs with
    | nil => intro rows _; simp
    | cons r rs ih =>
        intro rows hp
        have hfresh : ∀ x ∈ rows, key x ≠ key r := by
          intro x hx he
          have hno := (List.pairwise_append.1 hp).2.2 x hx r List.mem_cons_self
          rw [hkey x r he] at hno
          cases hno
        rw [List.foldl_cons, upsert_of_fresh hfresh, ih _ (by simpa using hp)]
        simp
  exact hfold _ _ hown

theorem Distinct.commit {T : Table τ ρ} (hkey : ∀ a b, key a = key b → clash a b = true)
    (hsymm : ∀ a b, clash a b = clash b a) (h : T.Distinct clash) (t : τ) :
    (T.commit key t).Distinct clash := by
  have hperm : (T.own t ++ (T.rollback t).writes.map Prod.snd).Perm (T.writes.map Prod.snd) := by
    rw [own, ← List.map_append]
    refine List.Perm.map _ ?_
    have hsplit := List.filter_append_perm (fun w : τ × ρ => decide (w.1 = t)) T.writes
    simpa only [Table.rollback, decide_not] using hsplit
  have hsymm' : ∀ {a b : ρ}, clash a b = false → clash b a = false := fun h => hsymm _ _ ▸ h
  rw [Distinct, commit_rows_of_distinct hkey h, commit_writes, List.append_assoc]
  exact (List.Perm.pairwise_iff hsymm' (hperm.append_left _)).2 h

end Table

end Transition
