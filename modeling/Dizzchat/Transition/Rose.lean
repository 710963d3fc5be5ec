import Mathlib.Data.List.Basic

set_option autoImplicit false

/-! # Trees of any width

A label at every node and a list of children below it. `preorder` visits a node before its children and
`postorder` after them; `any` asks every node until one says yes. All three find the same labels, those
that occur in the tree. -/

namespace Transition

inductive Rose (α : Type*) where
  | node (label : α) (children : List (Rose α))

namespace Rose

variable {α : Type*}

def children : Rose α → List (Rose α)
  | node _ ts => ts

/-- What holds of a node whenever it holds of its children holds of every tree. -/
@[elab_as_elim]
theorem induction {motive : Rose α → Prop}
    (node : ∀ a ts, (∀ t ∈ ts, motive t) → motive (Rose.node a ts)) : ∀ t, motive t
  | Rose.node a ts => node a ts fun t _ => induction node t

/-- The label is that of a node of the tree. -/
inductive Occurs (a : α) : Rose α → Prop
  | root (ts : List (Rose α)) : Occurs a (node a ts)
  | child {b : α} {ts : List (Rose α)} {t : Rose α} (ht : t ∈ ts) (h : Occurs a t) :
      Occurs a (node b ts)

theorem occurs_node {a b : α} {ts : List (Rose α)} :
    Occurs a (node b ts) ↔ a = b ∨ ∃ t ∈ ts, Occurs a t := by
  constructor
  · intro h
    cases h with
    | root => exact Or.inl rfl
    | child ht h => exact Or.inr ⟨_, ht, h⟩
  · rintro (rfl | ⟨t, ht, h⟩)
    · exact .root ts
    · exact .child ht h

/-! ## Visiting every node -/

mutual

def preorder : Rose α → List α
  | node a ts => a :: preorders ts

def preorders : List (Rose α) → List α
  | [] => []
  | t :: ts => preorder t ++ preorders ts

end

mutual

def postorder : Rose α → List α
  | node a ts => postorders ts ++ [a]

def postorders : List (Rose α) → List α
  | [] => []
  | t :: ts => postorder t ++ postorders ts

end

mutual

def any (p : α → Bool) : Rose α → Bool
  | node a ts => p a || anys p ts

def anys (p : α → Bool) : List (Rose α) → Bool
  | [] => false
  | t :: ts => any p t || anys p ts

end

theorem preorders_eq (ts : List (Rose α)) : preorders ts = ts.flatMap preorder := by
  induction ts with
  | nil => rfl
  | cons t ts ih => rw [preorders, ih, List.flatMap_cons]

theorem postorders_eq (ts : List (Rose α)) : postorders ts = ts.flatMap postorder := by
  induction ts with
  | nil => rfl
  | cons t ts ih => rw [postorders, ih, List.flatMap_cons]

theorem anys_eq (p : α → Bool) (ts : List (Rose α)) : anys p ts = ts.any (any p) := by
  induction ts with
  | nil => rfl
  | cons t ts ih => rw [anys, ih, List.any_cons]

theorem mem_preorder {a : α} {t : Rose α} : a ∈ t.preorder ↔ t.Occurs a := by
  induction t using induction with
  | node b ts ih =>
      rw [occurs_node, preorder, preorders_eq, List.mem_cons, List.mem_flatMap]
      refine or_congr_right (exists_congr fun t => ?_)
      exact and_congr_right fun ht => ih t ht

theorem mem_postorder {a : α} {t : Rose α} : a ∈ t.postorder ↔ t.Occurs a := by
  induction t using induction with
  | node b ts ih =>
      rw [occurs_node, postorder, postorders_eq, List.mem_append, List.mem_singleton,
        List.mem_flatMap, or_comm]
      refine or_congr_right (exists_congr fun t => ?_)
      exact and_congr_right fun ht => ih t ht

theorem any_eq_true {p : α → Bool} {t : Rose α} : any p t = true ↔ ∃ a, t.Occurs a ∧ p a = true := by
  induction t using induction with
  | node b ts ih =>
      rw [any, anys_eq, Bool.or_eq_true, List.any_eq_true]
      constructor
      · rintro (hb | ⟨t, ht, h⟩)
        · exact ⟨b, .root ts, hb⟩
        · obtain ⟨a, ha, hp⟩ := (ih t ht).1 h
          exact ⟨a, .child ht ha, hp⟩
      · rintro ⟨a, ha, hp⟩
        rcases occurs_node.1 ha with rfl | ⟨t, ht, hat⟩
        · exact Or.inl hp
        · exact Or.inr ⟨t, ht, (ih t ht).2 ⟨a, hat, hp⟩⟩

end Rose

end Transition
