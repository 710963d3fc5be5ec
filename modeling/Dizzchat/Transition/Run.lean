import Mathlib.Data.List.Basic
import Mathlib.Data.List.Induction
import Mathlib.Logic.Function.Basic

set_option autoImplicit false

/-! # Runs of guarded transition systems

A system is given by an executable step function `step : σ → ε → Option σ`: the event names who
moves and how the environment answers, and `none` means the move is not enabled. `exec` executes a
list of events, so a run is data: it can be evaluated on a concrete schedule, and a property of
every interleaving is a property of every list of events.

`exec_invariant` is the induction every safety result rests on; `exec_invariant_of_stepsMeet` is
the same rule for runs whose steps all meet a condition on the state they start from. `World` is
the common shape of the concurrent systems: a shared state and one local state per process, where
a step belongs to one process and leaves the locals of all others alone. -/

namespace Transition

variable {σ ε : Type*}

/-! ## Executing a list of events -/

/-- Execute the events in order; `none` as soon as one of them is not enabled. -/
def exec (step : σ → ε → Option σ) : σ → List ε → Option σ
  | s, [] => some s
  | s, e :: es => match step s e with
    | some s' => exec step s' es
    | none => none

variable {step : σ → ε → Option σ}

theorem exec_cons (s : σ) (e : ε) (es : List ε) :
    exec step s (e :: es) = (step s e).bind fun s' => exec step s' es := by
  rw [exec]
  cases step s e <;> rfl

theorem exec_cons_eq_some {s s' : σ} {e : ε} {es : List ε} :
    exec step s (e :: es) = some s' ↔ ∃ t, step s e = some t ∧ exec step t es = some s' := by
  rw [exec_cons]
  exact Option.bind_eq_some_iff

theorem exec_append_eq_some {s s' : σ} {es fs : List ε} :
    exec step s (es ++ fs) = some s' ↔ ∃ t, exec step s es = some t ∧ exec step t fs = some s' := by
  induction es generalizing s with
  | nil => simp [exec]
  | cons e es ih =>
      simp only [List.cons_append, exec_cons_eq_some, ih]
      constructor
      · rintro ⟨t, ht, u, hu, hrest⟩
        exact ⟨u, ⟨t, ht, hu⟩, hrest⟩
      · rintro ⟨u, ⟨t, ht, hu⟩, hrest⟩
        exact ⟨t, ht, u, hu, hrest⟩

/-- A run evaluated on a concrete schedule. -/
theorem exec_reaches (step : σ → ε → Option σ) (s : σ) (es : List ε) (P : σ → Prop)
    [DecidablePred P] (h : (exec step s es).any (fun s' => decide (P s')) = true) :
    ∃ s', exec step s es = some s' ∧ P s' := by
  cases hrun : exec step s es with
  | none => simp [hrun] at h
  | some s' => exact ⟨s', rfl, by simpa [hrun] using h⟩

/-! ## Invariants -/

/-- What every step preserves, every run preserves. -/
theorem exec_invariant {I : σ → Prop} (hstep : ∀ s e s', I s → step s e = some s' → I s')
    {s s' : σ} {es : List ε} (hs : I s) (h : exec step s es = some s') : I s' := by
  induction es generalizing s with
  | nil => exact Option.some.inj h ▸ hs
  | cons e es ih =>
      obtain ⟨t, ht, hrest⟩ := exec_cons_eq_some.1 h
      exact ih (hstep s e t hs ht) hrest

/-- A system that does with runs of another one what it does with its steps does so with its runs.
    `f` is what the other one sees of a state, and `C` what it uses of its events. -/
theorem exec_simulated {σ' ε' : Type*} {step' : σ' → ε' → Option σ'} {f : σ → σ'} {C : ε' → Prop}
    (hstep : ∀ s e s', step s e = some s' →
      ∃ es', (∀ e' ∈ es', C e') ∧ exec step' (f s) es' = some (f s'))
    {s s' : σ} {es : List ε} (h : exec step s es = some s') :
    ∃ es', (∀ e' ∈ es', C e') ∧ exec step' (f s) es' = some (f s') := by
  induction es generalizing s with
  | nil =>
      obtain rfl := Option.some.inj h
      exact ⟨[], by simp, rfl⟩
  | cons e es ih =>
      obtain ⟨t, ht, hrest⟩ := exec_cons_eq_some.1 h
      obtain ⟨es₁, hC₁, hrun₁⟩ := hstep s e t ht
      obtain ⟨es₂, hC₂, hrun₂⟩ := ih hrest
      refine ⟨es₁ ++ es₂, ?_, exec_append_eq_some.2 ⟨f t, hrun₁, hrun₂⟩⟩
      intro e' he'
      exact (List.mem_append.1 he').elim (hC₁ e') (hC₂ e')

/-- Every event of the run meets `C` in the state in which it happens. -/
def StepsMeet (step : σ → ε → Option σ) (C : σ → ε → Prop) : σ → List ε → Prop
  | _, [] => True
  | s, e :: es => C s e ∧ ∀ s' ∈ step s e, StepsMeet step C s' es

instance decidableStepsMeet (C : σ → ε → Prop) [∀ s e, Decidable (C s e)] :
    (s : σ) → (es : List ε) → Decidable (StepsMeet step C s es)
  | _, [] => inferInstanceAs (Decidable True)
  | s, e :: es =>
      have : ∀ s', Decidable (StepsMeet step C s' es) := fun s' => decidableStepsMeet C s' es
      inferInstanceAs (Decidable (C s e ∧ ∀ s' ∈ step s e, StepsMeet step C s' es))

/-- The invariant rule for runs whose steps all meet a condition: a step has to preserve the
    invariant only where the condition holds. -/
theorem exec_invariant_of_stepsMeet {I : σ → Prop} {C : σ → ε → Prop}
    (hstep : ∀ s e s', I s → C s e → step s e = some s' → I s')
    {s s' : σ} {es : List ε} (hs : I s) (hC : StepsMeet step C s es)
    (h : exec step s es = some s') : I s' := by
  induction es generalizing s with
  | nil => exact Option.some.inj h ▸ hs
  | cons e es ih =>
      obtain ⟨t, ht, hrest⟩ := exec_cons_eq_some.1 h
      exact ih (hstep s e t hs hC.1 ht) (hC.2 t ht) hrest

theorem StepsMeet.mono {C D : σ → ε → Prop} (hCD : ∀ s e, C s e → D s e) {s : σ} {es : List ε}
    (h : StepsMeet step C s es) : StepsMeet step D s es := by
  induction es generalizing s with
  | nil => trivial
  | cons e es ih => exact ⟨hCD s e h.1, fun s' hs' => ih (h.2 s' hs')⟩

theorem StepsMeet.and {C D : σ → ε → Prop} {s : σ} {es : List ε}
    (hC : StepsMeet step C s es) (hD : StepsMeet step D s es) :
    StepsMeet step (fun t e => C t e ∧ D t e) s es := by
  induction es generalizing s with
  | nil => trivial
  | cons e es ih => exact ⟨⟨hC.1, hD.1⟩, fun s' hs' => ih (hC.2 s' hs') (hD.2 s' hs')⟩

/-- A condition may be traded for another one that follows from it under an invariant. -/
theorem StepsMeet.of_invariant {I : σ → Prop} {C D : σ → ε → Prop}
    (hstep : ∀ s e s', I s → step s e = some s' → I s') (hD : ∀ s e, I s → C s e → D s e)
    {s : σ} {es : List ε} (hs : I s) (hC : StepsMeet step C s es) : StepsMeet step D s es := by
  induction es generalizing s with
  | nil => trivial
  | cons e es ih => exact ⟨hD s e hs hC.1, fun s' hs' => ih (hstep s e s' hs hs') (hC.2 s' hs')⟩

theorem StepsMeet.of_forall {C : ε → Prop} {s : σ} {es : List ε} (h : ∀ e ∈ es, C e) :
    StepsMeet step (fun _ => C) s es := by
  induction es generalizing s with
  | nil => trivial
  | cons e es ih =>
      exact ⟨h e List.mem_cons_self, fun s' _ => ih fun f hf => h f (List.mem_cons_of_mem _ hf)⟩

/-- If a step that breaks `C` leads to doom, and nothing leads out of it, then every step of a run
    that does not end in doom meets `C`. -/
theorem stepsMeet_of_not_doomed {I D : σ → Prop} {A C : σ → ε → Prop}
    (hI : ∀ s e s', I s → A s e → step s e = some s' → I s')
    (hD : ∀ s e s', I s → A s e → D s → step s e = some s' → D s')
    (hC : ∀ s e s', I s → A s e → ¬ C s e → step s e = some s' → D s')
    {s s' : σ} {es : List ε} (hs : I s) (hA : StepsMeet step A s es)
    (h : exec step s es = some s') (hs' : ¬ D s') : StepsMeet step C s es := by
  induction es generalizing s with
  | nil => trivial
  | cons e es ih =>
      obtain ⟨t, ht, hrest⟩ := exec_cons_eq_some.1 h
      have htI : I t := hI s e t hs hA.1 ht
      refine ⟨?_, fun t' ht' => ?_⟩
      · by_contra hbad
        have hdoom : I s' ∧ D s' := exec_invariant_of_stepsMeet (I := fun s => I s ∧ D s)
          (fun s e s' hs hA h => ⟨hI s e s' hs.1 hA h, hD s e s' hs.1 hA hs.2 h⟩)
          ⟨htI, hC s e t hs hA.1 hbad ht⟩ (hA.2 t ht) hrest
        exact hs' hdoom.2
      · obtain rfl : t = t' := Option.some.inj (ht.symm.trans ht')
        exact ih htI (hA.2 t ht) hrest

/-- Where, under an invariant, a step meets `C` exactly when it meets `D`, the steps of a run all meet
    `C` exactly when they all meet `D`. The invariant may rest on `D`. -/
theorem stepsMeet_congr {I : σ → Prop} {C D : σ → ε → Prop}
    (hI : ∀ s e s', I s → D s e → step s e = some s' → I s')
    (hC : ∀ s e s', I s → step s e = some s' → (C s e ↔ D s e))
    {s s' : σ} {es : List ε} (hs : I s) (h : exec step s es = some s') :
    StepsMeet step C s es ↔ StepsMeet step D s es := by
  induction es generalizing s with
  | nil => exact Iff.rfl
  | cons e es ih =>
      obtain ⟨t, ht, hrest⟩ := exec_cons_eq_some.1 h
      rw [StepsMeet, StepsMeet, hC s e t hs ht]
      refine and_congr_right fun hD => ?_
      simp only [ht, Option.mem_some_iff, forall_eq']
      exact ih (hI s e t hs hD ht) hrest

theorem stepsMeet_append {C : σ → ε → Prop} {s t : σ} {es fs : List ε}
    (h : exec step s es = some t) :
    StepsMeet step C s (es ++ fs) ↔ StepsMeet step C s es ∧ StepsMeet step C t fs := by
  induction es generalizing s with
  | nil =>
      obtain rfl := Option.some.inj h
      simp [StepsMeet]
  | cons e es ih =>
      obtain ⟨u, hu, hrest⟩ := exec_cons_eq_some.1 h
      rw [List.cons_append, StepsMeet, StepsMeet, hu]
      simp only [Option.mem_some_iff, forall_eq', ih hrest, and_assoc]

/-- A system that does with runs of another one what it does with its steps, each run meeting `C'`
    exactly when the step meets `C`, meets `C` along a run exactly when the other one meets `C'`. -/
theorem stepsMeet_simulated {σ' ε' : Type*} {step' : σ' → ε' → Option σ'} {f : σ → σ'}
    {I : σ → Prop} {A : ε → Prop} {C : σ → ε → Prop} {C' : σ' → ε' → Prop}
    (hI : ∀ s e s', I s → A e → step s e = some s' → I s')
    (hstep : ∀ s e s', I s → A e → step s e = some s' →
      ∃ es', exec step' (f s) es' = some (f s') ∧ (StepsMeet step' C' (f s) es' ↔ C s e))
    {s s' : σ} {es : List ε} (hs : I s) (hA : ∀ e ∈ es, A e) (h : exec step s es = some s') :
    ∃ es', exec step' (f s) es' = some (f s') ∧
      (StepsMeet step' C' (f s) es' ↔ StepsMeet step C s es) := by
  induction es generalizing s with
  | nil =>
      obtain rfl := Option.some.inj h
      exact ⟨[], rfl, Iff.rfl⟩
  | cons e es ih =>
      obtain ⟨t, ht, hrest⟩ := exec_cons_eq_some.1 h
      rw [List.forall_mem_cons] at hA
      obtain ⟨es₁, hrun₁, hmeet₁⟩ := hstep s e t hs hA.1 ht
      obtain ⟨es₂, hrun₂, hmeet₂⟩ := ih (hI s e t hs hA.1 ht) hA.2 hrest
      refine ⟨es₁ ++ es₂, exec_append_eq_some.2 ⟨f t, hrun₁, hrun₂⟩, ?_⟩
      rw [stepsMeet_append hrun₁, hmeet₁, hmeet₂, StepsMeet, ht]
      simp only [Option.mem_some_iff, forall_eq']

/-- A condition on the event alone is met along a run that comes through exactly when every event
    meets it. -/
theorem stepsMeet_event_iff {D : ε → Prop} {s s' : σ} {es : List ε}
    (h : exec step s es = some s') : StepsMeet step (fun _ => D) s es ↔ ∀ e ∈ es, D e := by
  induction es generalizing s with
  | nil => simp [StepsMeet]
  | cons e es ih =>
      obtain ⟨t, ht, hrest⟩ := exec_cons_eq_some.1 h
      rw [List.forall_mem_cons, ← ih hrest]
      simp [StepsMeet, ht]

/-- Where, under an invariant, a step meets `C` exactly when its event meets `D`, the steps of a run
    all meet `C` exactly when its events all meet `D`. The invariant may rest on `D`. -/
theorem stepsMeet_iff_forall {I : σ → Prop} {C : σ → ε → Prop} {D : ε → Prop}
    (hI : ∀ s e s', I s → D e → step s e = some s' → I s')
    (hC : ∀ s e s', I s → step s e = some s' → (C s e ↔ D e))
    {s s' : σ} {es : List ε} (hs : I s) (h : exec step s es = some s') :
    StepsMeet step C s es ↔ ∀ e ∈ es, D e :=
  (stepsMeet_congr hI hC hs h).trans (stepsMeet_event_iff h)

/-- What a step keeps exactly when it meets `C`, a run keeps exactly when all its steps meet `C`. -/
theorem exec_keeps_iff_stepsMeet {I P : σ → Prop} {A C : σ → ε → Prop}
    (hI : ∀ s e s', I s → A s e → step s e = some s' → I s')
    (hP : ∀ s e s', I s → A s e → step s e = some s' → (P s' ↔ P s ∧ C s e))
    {s s' : σ} {es : List ε} (hs : I s) (hA : StepsMeet step A s es)
    (h : exec step s es = some s') : P s' ↔ P s ∧ StepsMeet step C s es := by
  induction es generalizing s with
  | nil =>
      obtain rfl := Option.some.inj h
      simp [StepsMeet]
  | cons e es ih =>
      obtain ⟨t, ht, hrest⟩ := exec_cons_eq_some.1 h
      rw [ih (hI s e t hs hA.1 ht) (hA.2 t ht) hrest, hP s e t hs hA.1 ht, and_assoc]
      simp [StepsMeet, ht]

/-! ## What has happened in a run -/

/-- In the run of `es` from `s` an event happened that meets `P`, a condition on the events before it
    and on the state it happened in. -/
def Happened (step : σ → ε → Option σ) (s : σ) (P : List ε → σ → ε → Prop) (es : List ε) : Prop :=
  ∃ es₁ t e es₂, es = es₁ ++ e :: es₂ ∧ exec step s es₁ = some t ∧ P es₁ t e

section Happened

variable {s : σ} {P : List ε → σ → ε → Prop} {es : List ε}

theorem Happened.append (h : Happened step s P es) (fs : List ε) : Happened step s P (es ++ fs) := by
  obtain ⟨es₁, t, e, es₂, rfl, ht, he⟩ := h
  exact ⟨es₁, t, e, es₂ ++ fs, by simp, ht, he⟩

theorem happened_last {t : σ} {e : ε} (h : exec step s es = some t) (he : P es t e) :
    Happened step s P (es ++ [e]) :=
  ⟨es, t, e, [], rfl, h, he⟩

/-- The invariant rule for conditions that look back at the run. -/
theorem exec_history {I : List ε → σ → Prop} (hinit : I [] s)
    (hstep : ∀ es t e t', I es t → exec step s es = some t → step t e = some t' → I (es ++ [e]) t')
    {s' : σ} (h : exec step s es = some s') : I es s' := by
  induction es using List.reverseRecOn generalizing s' with
  | nil => exact Option.some.inj h ▸ hinit
  | append_singleton es e ih =>
      obtain ⟨t, ht, hlast⟩ := exec_append_eq_some.1 h
      obtain ⟨t', ht', hend⟩ := exec_cons_eq_some.1 hlast
      obtain rfl : t' = s' := Option.some.inj hend
      exact hstep es t e t' (ih ht) ht ht'

end Happened

/-! ## Processes over a shared state -/

variable {ι ℓ χ : Type*} [DecidableEq ι]

/-- A view of the locals that a move of `i` does not change. -/
theorem view_update_eq {α : Type*} {f : ℓ → α} {proc : ι → ℓ} {i : ι} {l : ℓ}
    (h : f l = f (proc i)) (j : ι) : f (Function.update proc i l j) = f (proc j) := by
  by_cases hj : j = i
  · rw [hj, Function.update_self, h]
  · rw [Function.update_of_ne hj]

/-- After a move of `i` a process is `i` with its new local, or has the local it had. -/
theorem of_update {P : ℓ → Prop} {proc : ι → ℓ} {i j : ι} {l : ℓ}
    (h : P (Function.update proc i l j)) : j = i ∧ P l ∨ j ≠ i ∧ P (proc j) := by
  by_cases hj : j = i
  · rw [hj, Function.update_self] at h
    exact .inl ⟨hj, h⟩
  · rw [Function.update_of_ne hj] at h
    exact .inr ⟨hj, h⟩

/-- A family of processes: the state they share and the local state of each of them. -/
structure World (ι σ ℓ : Type*) where
  shared : σ
  proc : ι → ℓ

namespace World

/-- The event `(i, c)` is a move of process `i` under the choice `c`: it reads and writes the
    shared state and the local state of `i`, and nothing else. -/
def move (program : ι → χ → σ → ℓ → Option (σ × ℓ)) (w : World ι σ ℓ) (e : ι × χ) :
    Option (World ι σ ℓ) :=
  (program e.1 e.2 w.shared (w.proc e.1)).map fun r => ⟨r.1, Function.update w.proc e.1 r.2⟩

variable {program : ι → χ → σ → ℓ → Option (σ × ℓ)}

theorem move_eq_some {w w' : World ι σ ℓ} {i : ι} {c : χ} :
    move program w (i, c) = some w' ↔
      ∃ s l, program i c w.shared (w.proc i) = some (s, l) ∧
        w' = ⟨s, Function.update w.proc i l⟩ := by
  simp only [move, Option.map_eq_some_iff, Prod.exists]
  constructor
  · rintro ⟨s, l, h, hw⟩
    exact ⟨s, l, h, hw.symm⟩
  · rintro ⟨s, l, h, hw⟩
    exact ⟨s, l, h, hw.symm⟩

/-- The invariant rule for processes: one obligation per move of one process. -/
theorem exec_invariant_of_program {I : World ι σ ℓ → Prop}
    (hstep : ∀ w i c s l, I w → program i c w.shared (w.proc i) = some (s, l) →
      I ⟨s, Function.update w.proc i l⟩)
    {w w' : World ι σ ℓ} {es : List (ι × χ)} (hw : I w)
    (h : exec (move program) w es = some w') : I w' := by
  refine exec_invariant (fun w e w' hI he => ?_) hw h
  obtain ⟨s, l, hp, rfl⟩ := move_eq_some.1 he
  exact hstep w e.1 e.2 s l hI hp

/-! ## One process at a time -/

section Alone

variable {I : σ → ℓ → Prop} {w w' : World ι σ ℓ} {i : ι}

/-- The invariant rule for a process that runs alone. -/
theorem alone_invariant
    (hstep : ∀ c s l s' l', I s l → program i c s l = some (s', l') → I s' l')
    {cs : List χ} (hw : I w.shared (w.proc i))
    (h : exec (move program) w (cs.map fun c => (i, c)) = some w') :
    I w'.shared (w'.proc i) := by
  induction cs generalizing w with
  | nil => exact Option.some.inj h ▸ hw
  | cons c cs ih =>
      rw [List.map_cons] at h
      obtain ⟨t, ht, hrest⟩ := exec_cons_eq_some.1 h
      obtain ⟨s, l, hprogram, rfl⟩ := move_eq_some.1 ht
      refine ih ?_ hrest
      simp only [Function.update_self]
      exact hstep c _ _ s l hw hprogram

/-- A run leaves the processes alone that make no move in it. -/
theorem proc_of_not_mem {es : List (ι × χ)} (h : exec (move program) w es = some w') {j : ι}
    (hj : ∀ e ∈ es, e.1 ≠ j) : w'.proc j = w.proc j := by
  induction es generalizing w with
  | nil => rw [Option.some.inj h]
  | cons e es ih =>
      obtain ⟨t, ht, hrest⟩ := exec_cons_eq_some.1 h
      obtain ⟨i, c⟩ := e
      obtain ⟨s, l, -, rfl⟩ := move_eq_some.1 ht
      rw [List.forall_mem_cons] at hj
      rw [ih hrest hj.2]
      exact Function.update_of_ne hj.1.symm _ _

/-- A process that comes closer to its end with every move can be run to its end alone. -/
theorem exists_alone {Ended : ℓ → Prop} {C : χ → Prop} (remaining : ℓ → ℕ)
    (hnext : ∀ s l, I s l → ¬ Ended l → ∃ c s' l', C c ∧ program i c s l = some (s', l') ∧
      I s' l' ∧ remaining l' < remaining l)
    (hw : I w.shared (w.proc i)) :
    ∃ (cs : List χ) (w' : World ι σ ℓ), (∀ c ∈ cs, C c) ∧
      exec (move program) w (cs.map fun c => (i, c)) = some w' ∧ I w'.shared (w'.proc i) ∧
      Ended (w'.proc i) := by
  induction hn : remaining (w.proc i) using Nat.strongRecOn generalizing w with
  | ind n ih =>
      subst hn
      by_cases hended : Ended (w.proc i)
      · exact ⟨[], w, by simp, rfl, hw, hended⟩
      · obtain ⟨c, s, l, hc, hprogram, hl, hlt⟩ := hnext _ _ hw hended
        obtain ⟨cs, w', hcs, hrun, hend⟩ := ih (remaining l) hlt
          (w := ⟨s, Function.update w.proc i l⟩) (by simpa using hl) (by simp)
        refine ⟨c :: cs, w', by simpa using ⟨hc, hcs⟩, ?_, hend⟩
        rw [List.map_cons]
        exact exec_cons_eq_some.2 ⟨_, move_eq_some.2 ⟨s, l, hprogram, rfl⟩, hrun⟩

end Alone

end World

end Transition
