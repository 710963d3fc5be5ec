import Mathlib.Data.List.TakeDrop
import Mathlib.Data.List.Induction
import Mathlib.Data.Option.Basic

set_option autoImplicit false

/-! # What a log says

A log grows at its end. `Since P Q` is the past operator: `P` has happened, and `Q` has not happened
after it. `NeverSince R P Q` forbids `R` while `Since P Q` holds, which is how "not after `P` and
before the next `Q`" reads on a log. Both are followed one entry at a time. -/

namespace Transition

variable {α : Type*} {P Q R : α → Prop}

/-- `P` has happened, and `Q` has not happened since. -/
def Since (P Q : α → Prop) : List α → Prop
  | [] => False
  | a :: log => P a ∧ (∀ b ∈ log, ¬ Q b) ∨ Since P Q log

instance decidableSince [DecidablePred P] [DecidablePred Q] :
    (log : List α) → Decidable (Since P Q log)
  | [] => inferInstanceAs (Decidable False)
  | a :: log =>
      have : Decidable (Since P Q log) := decidableSince log
      inferInstanceAs (Decidable (P a ∧ (∀ b ∈ log, ¬ Q b) ∨ Since P Q log))

@[simp]
theorem not_since_nil : ¬ Since P Q [] := id

theorem since_concat {log : List α} {a : α} :
    Since P Q (log ++ [a]) ↔ P a ∨ Since P Q log ∧ ¬ Q a := by
  induction log with
  | nil => simp [Since]
  | cons b log ih =>
      simp only [List.cons_append, Since, ih, List.forall_mem_append, List.forall_mem_singleton]
      constructor
      · rintro (⟨hb, hlog, ha⟩ | ha | ⟨hlog, ha⟩)
        · exact .inr ⟨.inl ⟨hb, hlog⟩, ha⟩
        · exact .inl ha
        · exact .inr ⟨.inr hlog, ha⟩
      · rintro (ha | ⟨⟨hb, hlog⟩ | hlog, ha⟩)
        · exact .inr (.inl ha)
        · exact .inl ⟨hb, hlog, ha⟩
        · exact .inr (.inr ⟨hlog, ha⟩)

/-- An entry that is neither leaves the matter as it was. -/
theorem since_concat_of_not {log : List α} {a : α} (hP : ¬ P a) (hQ : ¬ Q a) :
    Since P Q (log ++ [a]) ↔ Since P Q log := by
  simp [since_concat, hP, hQ]

theorem since_append_of_not {log new : List α} (h : ∀ a ∈ new, ¬ P a ∧ ¬ Q a) :
    Since P Q (log ++ new) ↔ Since P Q log := by
  induction new using List.reverseRecOn with
  | nil => rw [List.append_nil]
  | append_singleton new a ih =>
      have ha := h a (by simp)
      rw [← List.append_assoc, since_concat_of_not ha.1 ha.2]
      exact ih fun b hb => h b (List.mem_append_left _ hb)

/-- No entry is an `R` at which `P` had happened and `Q` not since. -/
def NeverSince (R P Q : α → Prop) (log : List α) : Prop :=
  ∀ n < log.length, ∀ a ∈ log[n]?, R a → ¬ Since P Q (log.take n)

instance decidableNeverSince [DecidablePred P] [DecidablePred Q] [DecidablePred R] (log : List α) :
    Decidable (NeverSince R P Q log) :=
  inferInstanceAs (Decidable (∀ n < log.length, ∀ a ∈ log[n]?, R a → ¬ Since P Q (log.take n)))

theorem neverSince_nil : NeverSince R P Q [] := fun n hn => absurd hn (Nat.not_lt_zero n)

theorem neverSince_concat {log : List α} {a : α} :
    NeverSince R P Q (log ++ [a]) ↔ NeverSince R P Q log ∧ (R a → ¬ Since P Q log) := by
  have hold : ∀ n < log.length, (log ++ [a])[n]? = log[n]? ∧ (log ++ [a]).take n = log.take n :=
    fun n hn => ⟨List.getElem?_append_left hn, List.take_append_of_le_length (Nat.le_of_lt hn)⟩
  constructor
  · intro h
    refine ⟨fun n hn b hb => ?_, fun ha => ?_⟩
    · obtain ⟨hget, htake⟩ := hold n hn
      have hn' : n < (log ++ [a]).length := by
        rw [List.length_append]
        exact Nat.lt_add_right _ hn
      rw [← htake]
      exact h n hn' b (hget ▸ hb)
    · have hlast := h log.length (by simp) a (by simp) ha
      rwa [List.take_left] at hlast
  · rintro ⟨h, ha⟩ n hn b hb
    rcases Nat.lt_or_ge n log.length with hlt | hge
    · obtain ⟨hget, htake⟩ := hold n hlt
      rw [htake]
      exact h n hlt b (hget ▸ hb)
    · -- the entry is the new one
      obtain rfl : n = log.length := by
        simp only [List.length_append, List.length_singleton] at hn
        omega
      obtain rfl : a = b := by simpa using hb
      rwa [List.take_left]

/-- Entries that are neither `P` nor `Q` are all judged by the log before them. -/
theorem neverSince_append_of_not {log new : List α} (h : ∀ a ∈ new, ¬ P a ∧ ¬ Q a) :
    NeverSince R P Q (log ++ new) ↔ NeverSince R P Q log ∧ ∀ a ∈ new, R a → ¬ Since P Q log := by
  induction new using List.reverseRecOn with
  | nil => simp
  | append_singleton new a ih =>
      have hnew : ∀ b ∈ new, ¬ P b ∧ ¬ Q b := fun b hb => h b (List.mem_append_left _ hb)
      rw [← List.append_assoc, neverSince_concat, ih hnew, since_append_of_not hnew, and_assoc]
      simp only [List.forall_mem_append, List.forall_mem_singleton]

end Transition
