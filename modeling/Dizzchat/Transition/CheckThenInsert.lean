import Dizzchat.Transition.Run

set_option autoImplicit false

/-! # Check, then insert

Any number of processes look whether a key is taken, and those that miss it insert it. The look and
the insert are two moves: a process that has missed the key may find it taken when it inserts it, and
is refused.

A process is refused exactly where a look happens while another process has missed the key and not
inserted it yet (`nobody_refused_iff`). At most one process inserts the key, and only if it was free
(`InsertInv`). -/

namespace Transition

/-- How far a process has come. -/
inductive Inserter
  | waiting
  | found
  | missed
  | inserted
  | refused
deriving DecidableEq

inductive InsertStep
  | look
  | insert
deriving DecidableEq

/-- The moves of a process; the shared state tells whether the key is taken. -/
def Inserter.step {ι : Type*} (_ : ι) : InsertStep → Bool → Inserter → Option (Bool × Inserter)
  | .look, taken, .waiting => some (taken, if taken then .found else .missed)
  | .insert, taken, .missed => some (true, if taken then .refused else .inserted)
  | _, _, _ => none

def Inserter.hasEnded : Inserter → Bool
  | .found | .inserted | .refused => true
  | .waiting | .missed => false

/-- The moves, one constructor for each. -/
inductive InserterMove : InsertStep → Bool → Inserter → Bool → Inserter → Prop
  | finds : InserterMove .look true .waiting true .found
  | misses : InserterMove .look false .waiting false .missed
  | inserts : InserterMove .insert false .missed true .inserted
  | isRefused : InserterMove .insert true .missed true .refused

abbrev InsertRace (ι : Type*) := World ι Bool Inserter

variable {ι : Type*}

theorem inserter_move {i : ι} {c : InsertStep} {taken taken' : Bool} {l l' : Inserter}
    (h : Inserter.step i c taken l = some (taken', l')) : InserterMove c taken l taken' l' := by
  unfold Inserter.step at h
  split at h
  · cases taken with
    | true => cases h; exact .finds
    | false => cases h; exact .misses
  · cases taken with
    | true => cases h; exact .isRefused
    | false => cases h; exact .inserts
  · cases h

namespace InserterMove

variable {c : InsertStep} {taken taken' : Bool} {l l' : Inserter}

theorem of_taken (h : InserterMove c taken l taken' l') (ht : taken = true) : taken' = true := by
  cases h with
  | misses => cases ht
  | finds | inserts | isRefused => rfl

theorem not_ended (h : InserterMove c taken l taken' l') : l.hasEnded = false := by
  cases h <;> rfl

/-- A process that has missed the key inserts it, or is refused. -/
theorem of_missed (h : InserterMove c taken l taken' l') (hl : l = .missed) :
    taken' = true ∧ (taken = true → l' = .refused) := by
  cases h with
  | finds | misses => cases hl
  | inserts => exact ⟨rfl, fun ht => by cases ht⟩
  | isRefused => exact ⟨rfl, fun _ => rfl⟩

theorem to_missed (h : InserterMove c taken l taken' l') (hl : l' = .missed) :
    c = .look ∧ taken' = false := by
  cases h with
  | misses => exact ⟨rfl, rfl⟩
  | finds | inserts | isRefused => cases hl

theorem to_refused (h : InserterMove c taken l taken' l') (hl : l' = .refused) :
    taken = true ∧ l = .missed := by
  cases h with
  | isRefused => exact ⟨rfl, rfl⟩
  | finds | misses | inserts => cases hl

theorem of_free (h : InserterMove c taken l taken' l') (ht : taken = false) (ht' : taken' = true) :
    l = .missed := by
  cases h with
  | inserts => rfl
  | misses => cases ht'
  | finds | isRefused => cases ht

theorem of_look (h : InserterMove c taken l taken' l') (hc : c = .look) :
    l = .waiting ∧ taken' = taken ∧ (taken = false → l' = .missed) := by
  cases h with
  | finds => exact ⟨rfl, rfl, fun ht => by cases ht⟩
  | misses => exact ⟨rfl, rfl, fun _ => rfl⟩
  | inserts | isRefused => cases hc

end InserterMove

namespace InsertRace

/-- Nobody has looked yet. -/
def init (taken : Bool) : InsertRace ι := ⟨taken, fun _ => .waiting⟩

/-- Nobody looks while another process has missed the key and not inserted it yet. -/
def LooksAlone (w : InsertRace ι) (e : ι × InsertStep) : Prop :=
  e.2 = .look → ∀ j, w.proc j ≠ .missed

/-! ## What every run keeps -/

structure InsertInv (taken : Bool) (w : InsertRace ι) : Prop where
  /-- Whoever has ended leaves the key taken. -/
  ended : ∀ i, (w.proc i).hasEnded = true → w.shared = true
  once : ∀ i j, w.proc i = .inserted → w.proc j = .inserted → i = j
  /-- A key that is taken from the start is inserted by nobody. -/
  free : ∀ i, w.proc i = .inserted → taken = false
  kept : taken = true → w.shared = true

theorem insertInv_init (taken : Bool) : InsertInv taken (init taken : InsertRace ι) where
  ended i h := by simp [init, Inserter.hasEnded] at h
  once i j h := by simp [init] at h
  free i h := by simp [init] at h
  kept h := h

variable [DecidableEq ι]

abbrev step : InsertRace ι → ι × InsertStep → Option (InsertRace ι) := World.move Inserter.step

variable {taken : Bool} {w w' : InsertRace ι} {es : List (ι × InsertStep)}

theorem insertInv_step {e : ι × InsertStep} (hw : InsertInv taken w) (h : step w e = some w') :
    InsertInv taken w' := by
  obtain ⟨i, c⟩ := e
  obtain ⟨s, l, hstep, rfl⟩ := World.move_eq_some.1 h
  have hmove := inserter_move hstep
  -- only an insert makes a process one that has inserted
  have hother : l ≠ .inserted → ∀ j, Function.update w.proc i l j = .inserted →
      w.proc j = .inserted := by
    intro hl j hj
    rcases of_update (P := (· = Inserter.inserted)) hj with ⟨-, hj⟩ | ⟨-, hj⟩
    · exact absurd hj hl
    · exact hj
  have hkept : l ≠ .inserted → InsertInv taken ⟨true, Function.update w.proc i l⟩ := by
    intro hl
    exact {
      ended := fun _ _ => rfl
      once := fun j k hj hk => hw.once j k (hother hl j hj) (hother hl k hk)
      free := fun j hj => hw.free j (hother hl j hj)
      kept := fun _ => rfl }
  generalize hshared : w.shared = shared at hmove
  generalize w.proc i = proc at hmove
  cases hmove with
  | finds => exact hkept (by simp)
  | isRefused => exact hkept (by simp)
  | misses =>
      refine ⟨fun j hj => ?_, fun j k hj hk => ?_, fun j hj => ?_, fun ht => ?_⟩
      · rcases of_update (P := fun l => Inserter.hasEnded l = true) hj with ⟨-, hj⟩ | ⟨-, hj⟩
        · cases hj
        · exact hshared ▸ hw.ended j hj
      · exact hw.once j k (hother (by simp) j hj) (hother (by simp) k hk)
      · exact hw.free j (hother (by simp) j hj)
      · exact hshared ▸ hw.kept ht
  | inserts =>
      -- the key was free, so nobody had inserted it
      have hnobody : ∀ j, w.proc j ≠ .inserted := by
        intro j hj
        have := hw.ended j (by rw [hj]; rfl)
        rw [hshared] at this
        cases this
      have hself : ∀ j, Function.update w.proc i .inserted j = .inserted → j = i := by
        intro j hj
        rcases of_update (P := (· = Inserter.inserted)) hj with ⟨hj, -⟩ | ⟨-, hj⟩
        · exact hj
        · exact absurd hj (hnobody j)
      refine ⟨fun _ _ => rfl, fun j k hj hk => (hself j hj).trans (hself k hk).symm, fun _ _ => ?_,
        fun _ => rfl⟩
      by_contra ht
      have := hw.kept (by simpa using ht)
      rw [hshared] at this
      cases this

theorem insertInv_run (h : exec step (init taken) es = some w) : InsertInv taken w :=
  exec_invariant (fun _ _ _ hw h => insertInv_step hw h) (insertInv_init taken) h

/-! ## Who is refused -/

/-- Somebody is refused, or will be. -/
def Doomed (w : InsertRace ι) : Prop :=
  (∃ i, w.proc i = .refused) ∨ (w.shared = true ∧ ∃ i, w.proc i = .missed) ∨
    ∃ i j, i ≠ j ∧ w.proc i = .missed ∧ w.proc j = .missed

theorem doomed_step {e : ι × InsertStep} (hw : Doomed w) (h : step w e = some w') : Doomed w' := by
  obtain ⟨i, c⟩ := e
  obtain ⟨s, l, hstep, rfl⟩ := World.move_eq_some.1 h
  have hmove := inserter_move hstep
  have hother : ∀ {j}, j ≠ i → Function.update w.proc i l j = w.proc j :=
    fun hj => Function.update_of_ne hj _ _
  rcases hw with ⟨j, hj⟩ | ⟨ht, j, hj⟩ | ⟨j, k, hjk, hj, hk⟩
  · have hne : j ≠ i := by
      rintro rfl
      have := hmove.not_ended
      rw [hj] at this
      cases this
    exact .inl ⟨j, (hother hne).trans hj⟩
  · by_cases hji : j = i
    · subst hji
      refine .inl ⟨j, ?_⟩
      show Function.update w.proc j l j = .refused
      rw [Function.update_self, (hmove.of_missed hj).2 ht]
    · exact .inr (.inl ⟨hmove.of_taken ht, j, (hother hji).trans hj⟩)
  -- of two that have missed the key one is left, and finds it taken when the other has moved
  · by_cases hji : j = i
    · subst hji
      exact .inr (.inl ⟨(hmove.of_missed hj).1, k, (hother hjk.symm).trans hk⟩)
    · by_cases hki : k = i
      · subst hki
        exact .inr (.inl ⟨(hmove.of_missed hk).1, j, (hother hjk).trans hj⟩)
      · exact .inr (.inr ⟨j, k, hjk, (hother hji).trans hj, (hother hki).trans hk⟩)

/-- A look that is not alone dooms somebody: the one who looks, or the one who has missed. -/
theorem doomed_of_look {e : ι × InsertStep} (hlook : ¬ LooksAlone w e) (h : step w e = some w') :
    Doomed w' := by
  obtain ⟨i, c⟩ := e
  obtain ⟨s, l, hstep, rfl⟩ := World.move_eq_some.1 h
  have hmove := inserter_move hstep
  simp only [LooksAlone, not_forall, not_not] at hlook
  obtain ⟨rfl, j, hj⟩ := hlook
  obtain ⟨hwaiting, rfl, hmiss⟩ := hmove.of_look rfl
  have hji : j ≠ i := by
    rintro rfl
    rw [hj] at hwaiting
    cases hwaiting
  have hj' : Function.update w.proc i l j = .missed := (Function.update_of_ne hji _ _).trans hj
  cases ht : w.shared with
  | true => exact .inr (.inl ⟨rfl, j, hj'⟩)
  | false =>
      refine .inr (.inr ⟨j, i, hji, hj', ?_⟩)
      show Function.update w.proc i l i = .missed
      rw [Function.update_self, hmiss ht]

theorem not_doomed_step {e : ι × InsertStep} (hw : ¬ Doomed w) (hlook : LooksAlone w e)
    (h : step w e = some w') : ¬ Doomed w' := by
  obtain ⟨i, c⟩ := e
  obtain ⟨s, l, hstep, rfl⟩ := World.move_eq_some.1 h
  have hmove := inserter_move hstep
  -- whoever has missed the key by this step has looked, and alone
  have hlooked : l = .missed → s = false ∧ ∀ j, w.proc j ≠ .missed := by
    intro hl
    obtain ⟨hc, hs⟩ := hmove.to_missed hl
    exact ⟨hs, hlook hc⟩
  rintro (⟨j, hj⟩ | ⟨ht, j, hj⟩ | ⟨j, k, hjk, hj, hk⟩)
  · rcases of_update (P := (· = Inserter.refused)) hj with ⟨-, hl⟩ | ⟨-, hj⟩
    · obtain ⟨ht, hi⟩ := hmove.to_refused hl
      exact hw (.inr (.inl ⟨ht, i, hi⟩))
    · exact hw (.inl ⟨j, hj⟩)
  · rcases of_update (P := (· = Inserter.missed)) hj with ⟨-, hl⟩ | ⟨hji, hj⟩
    · exact absurd (ht.symm.trans (hlooked hl).1) (by simp)
    · cases hshared : w.shared with
      | true => exact hw (.inr (.inl ⟨hshared, j, hj⟩))
      | false => exact hw (.inr (.inr ⟨j, i, hji, hj, hmove.of_free hshared ht⟩))
  · rcases of_update (P := (· = Inserter.missed)) hj with ⟨rfl, hl⟩ | ⟨-, hj⟩
    · rcases of_update (P := (· = Inserter.missed)) hk with ⟨rfl, -⟩ | ⟨-, hk⟩
      · exact hjk rfl
      · exact (hlooked hl).2 k hk
    · rcases of_update (P := (· = Inserter.missed)) hk with ⟨-, hl⟩ | ⟨-, hk⟩
      · exact (hlooked hl).2 j hj
      · exact hw (.inr (.inr ⟨j, k, hjk, hj, hk⟩))

theorem not_doomed_iff {taken : Bool} (h : exec step (init taken) es = some w) :
    ¬ Doomed w ↔ StepsMeet step LooksAlone (init taken) es := by
  have hinit : ¬ Doomed (init taken : InsertRace ι) := by
    rintro (⟨j, hj⟩ | ⟨-, j, hj⟩ | ⟨j, -, -, hj, -⟩) <;> cases hj
  have hkeeps := exec_keeps_iff_stepsMeet (I := fun _ => True) (A := fun _ _ => True)
    (P := fun w : InsertRace ι => ¬ Doomed w) (C := LooksAlone) (fun _ _ _ _ _ _ => trivial)
    (fun w e w' _ _ h => by
      constructor
      · intro hw'
        refine ⟨fun hw => hw' (doomed_step hw h), ?_⟩
        by_contra hlook
        exact hw' (doomed_of_look hlook h)
      · rintro ⟨hw, hlook⟩
        exact not_doomed_step hw hlook h)
    trivial (StepsMeet.of_forall fun _ _ => trivial) h
  rw [hkeeps, and_iff_right hinit]

/-- In a run to the end nobody is refused exactly when every look was alone. -/
theorem nobody_refused_iff {taken : Bool} (h : exec step (init taken) es = some w)
    (hended : ∀ i, (w.proc i).hasEnded = true) :
    (∀ i, w.proc i ≠ .refused) ↔ StepsMeet step LooksAlone (init taken) es := by
  rw [← not_doomed_iff h]
  have hmissed : ∀ i, w.proc i ≠ .missed := by
    intro i hi
    have := hended i
    rw [hi] at this
    cases this
  constructor
  · rintro hnobody (⟨j, hj⟩ | ⟨-, j, hj⟩ | ⟨j, -, -, hj, -⟩)
    · exact hnobody j hj
    · exact hmissed j hj
    · exact hmissed j hj
  · intro hdoomed i hi
    exact hdoomed (.inl ⟨i, hi⟩)

/-! ## Systems that race -/

section View

variable {σ ℓ χ : Type*} {program : ι → χ → σ → ℓ → Option (σ × ℓ)} {key : σ → Bool}
  {inserter : ℓ → Inserter}

/-- What a system does about the key. -/
def view (key : σ → Bool) (inserter : ℓ → Inserter) (w : World ι σ ℓ) : InsertRace ι :=
  ⟨key w.shared, fun i => inserter (w.proc i)⟩

/-- A step of a system is none in the race, or a move that is a look exactly when the step looks. -/
def IsMove (looks : Prop) (taken : Bool) (l : Inserter) (taken' : Bool) (l' : Inserter) : Prop :=
  (¬ looks ∧ taken' = taken ∧ l' = l) ∨ ∃ c, (c = .look ↔ looks) ∧ InserterMove c taken l taken' l'

theorem step_of_move {i : ι} {c : InsertStep} {taken' : Bool} {l' : Inserter}
    (h : InserterMove c w.shared (w.proc i) taken' l') :
    step w (i, c) = some ⟨taken', Function.update w.proc i l'⟩ := by
  refine World.move_eq_some.2 ⟨taken', l', ?_, rfl⟩
  generalize w.shared = taken at h
  generalize w.proc i = l at h
  cases h <;> rfl

theorem view_update {w : World ι σ ℓ} {i : ι} {s : σ} {l : ℓ} :
    view key inserter ⟨s, Function.update w.proc i l⟩ =
      ⟨key s, Function.update (view key inserter w).proc i (inserter l)⟩ := by
  refine congrArg (World.mk (key s)) ?_
  exact Function.comp_update inserter w.proc i l

/-- A system each of whose steps is none in the race or one of its moves runs as the race does, and
    its looks are alone exactly when those of the race are. -/
theorem simulated {I : World ι σ ℓ → Prop} {A : ι × χ → Prop} {C : World ι σ ℓ → ι × χ → Prop}
    (looks : χ → Prop)
    (hI : ∀ w e w', I w → A e → World.move program w e = some w' → I w')
    (hC : ∀ w e, I w → (C w e ↔ (looks e.2 → ∀ j, inserter (w.proc j) ≠ .missed)))
    (hstep : ∀ w i c s l, I w → A (i, c) → program i c w.shared (w.proc i) = some (s, l) →
      IsMove (looks c) (key w.shared) (inserter (w.proc i)) (key s) (inserter l))
    {w₀ w : World ι σ ℓ} {es : List (ι × χ)} (hw₀ : I w₀) (hA : ∀ e ∈ es, A e)
    (h : exec (World.move program) w₀ es = some w) :
    ∃ es', exec step (view key inserter w₀) es' = some (view key inserter w) ∧
      (StepsMeet step LooksAlone (view key inserter w₀) es' ↔
        StepsMeet (World.move program) C w₀ es) := by
  refine stepsMeet_simulated hI (fun w e w' hw he hmove => ?_) hw₀ hA h
  obtain ⟨i, c⟩ := e
  obtain ⟨s, l, hprogram, rfl⟩ := World.move_eq_some.1 hmove
  rw [view_update]
  rcases hstep w i c s l hw he hprogram with ⟨hlooks, hkey, hl⟩ | ⟨d, hlooks, hmoves⟩
  · refine ⟨[], ?_, ?_⟩
    · have hself : Function.update (view key inserter w).proc i (inserter (w.proc i)) =
          (view key inserter w).proc := Function.update_eq_self i _
      rw [hkey, hl, hself]
      rfl
    · rw [hC w (i, c) hw]
      exact iff_of_true trivial fun hlook => absurd hlook hlooks
  · refine ⟨[(i, d)], exec_cons_eq_some.2 ⟨_, step_of_move hmoves, rfl⟩, ?_⟩
    rw [hC w (i, c) hw]
    simp only [StepsMeet, LooksAlone, hlooks, view, implies_true, and_true]

end View

end InsertRace

end Transition
