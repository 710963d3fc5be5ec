import Mathlib.Logic.Function.Basic

set_option autoImplicit false

/-! # Locks

A lock is `Option ω`: free, or held by an owner. Every process knows from its own local state
whether it is inside the critical section. `LockMove` is what a move of one process may do to the
lock, and `LockOwned` is the invariant it keeps: the processes inside are exactly the owner. -/

namespace Transition

variable {ω : Type*}

/-- A move of `o` leaves the lock and its own side of it alone, enters the critical section while
    the lock is free, or leaves the critical section. -/
inductive LockMove (o : ω) : Option ω → Bool → Option ω → Bool → Prop
  | keeps (lock : Option ω) (inside : Bool) : LockMove o lock inside lock inside
  | acquires : LockMove o none false (some o) true
  | releases (lock : Option ω) : LockMove o lock true none false

/-- Whoever holds the lock after a move of `o` held it before, or is `o`. -/
theorem LockMove.owner {o p : ω} {lock : Option ω} {inside inside' : Bool}
    (h : LockMove o lock inside (some p) inside') : lock = some p ∨ p = o := by
  cases h with
  | keeps => exact .inl rfl
  | acquires => exact .inr rfl

/-- Inside the critical section is exactly the owner of the lock. -/
def LockOwned (lock : Option ω) (inside : ω → Bool) : Prop :=
  ∀ o, inside o = true ↔ lock = some o

namespace LockOwned

variable {lock lock' : Option ω} {inside : ω → Bool} {o p : ω}

theorem init : LockOwned (none : Option ω) fun _ => false := by
  intro o
  simp

theorem outside (h : LockOwned lock inside) (hfree : lock = none) (o : ω) : inside o = false := by
  by_contra ho
  have hlock := (h o).1 (by simpa using ho)
  rw [hfree] at hlock
  cases hlock

/-- Mutual exclusion. -/
theorem exclusive (h : LockOwned lock inside) (ho : inside o = true) (hp : inside p = true) :
    o = p :=
  Option.some.inj (((h o).1 ho).symm.trans ((h p).1 hp))

theorem outside_of_ne (h : LockOwned lock inside) (ho : inside o = true) (hp : p ≠ o) :
    inside p = false :=
  Bool.eq_false_iff.2 fun hin => hp (h.exclusive hin ho)

theorem move [DecidableEq ω] (h : LockOwned lock inside) {b : Bool}
    (hmove : LockMove o lock (inside o) lock' b) :
    LockOwned lock' (Function.update inside o b) := by
  intro p
  generalize hin : inside o = b₀ at hmove
  rcases eq_or_ne p o with rfl | hp
  · rw [Function.update_self]
    cases hmove with
    | keeps => rw [← hin]; exact h p
    | acquires => exact ⟨fun _ => rfl, fun _ => rfl⟩
    | releases => exact ⟨fun hb => (Bool.false_ne_true hb).elim, fun hb => by cases hb⟩
  · rw [Function.update_of_ne hp]
    cases hmove with
    | keeps => exact h p
    | acquires =>
        rw [h.outside rfl p]
        exact ⟨fun hb => (Bool.false_ne_true hb).elim, fun hb => (hp (Option.some.inj hb).symm).elim⟩
    | releases =>
        rw [h.outside_of_ne hin hp]
        exact ⟨fun hb => (Bool.false_ne_true hb).elim, fun hb => by cases hb⟩

end LockOwned

end Transition
