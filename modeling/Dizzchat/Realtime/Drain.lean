import Dizzchat.Realtime.ConnectionSets
import Dizzchat.Transition.Run

set_option autoImplicit false

/-! # The drain

`close_all`, between whose closes sockets register and unregister. It goes over a snapshot of the set
objects, and over each of them as it finds it then; at the end it empties the map.

A connection that registers meanwhile is closed if its set object is still to come, and forgotten
otherwise (`drain_misses_none_iff`). -/

namespace Dizzchat

open Transition

variable {κ : Type*}

/-- Where `close_all` is. -/
inductive DrainPhase (κ : Type*)
  | notStarted
  /-- In the close of a connection: what is left of the snapshot of its set, and the objects to come. -/
  | closing (rest : Finset κ) (pending : List ℕ)
  | returned
  /-- Cancelled by the `wait_for` around it. -/
  | timedOut
deriving DecidableEq

structure Drain (κ : Type*) where
  manager : ConnectionSets κ
  phase : DrainPhase κ
  /-- The connections that `close` has been called on. -/
  closeCalled : Finset κ

inductive DrainEvent (κ : Type*)
  | register (k : κ)
  | unregister (k : κ)
  /-- `close_all` is called; `next` is the connection it closes first. -/
  | closeAll (next : Option κ)
  /-- The close under way returns, or raises what `close_all` logs; `next` is closed now. -/
  | closed (succeeds : Bool) (next : Option κ)
  | timeout
deriving DecidableEq

namespace Drain

def init : Drain κ := ⟨.init, .notStarted, ∅⟩

variable [DecidableEq κ]

/-- The loops up to a connection to close: what is left of the set it is in, and the objects to come. -/
def settle (sets : ℕ → Finset κ) (rest : Finset κ) : List ℕ → Finset κ × List ℕ
  | [] => (rest, [])
  | s :: pending => if rest = ∅ then settle sets (sets s) pending else (rest, s :: pending)

/-- The loops of `close_all` go on to their next close, or to the `clear` at the end. -/
def goOn (rest : Finset κ) (pending : List ℕ) (next : Option κ) (w : Drain κ) : Option (Drain κ) :=
  let (rest, pending) := settle w.manager.sets rest pending
  match next with
  | none =>
      if rest = ∅ then
        some { w with manager := { w.manager with connections := [] }, phase := .returned }
      else none
  | some k =>
      if k ∈ rest then
        some { w with phase := .closing (rest.erase k) pending, closeCalled := insert k w.closeCalled }
      else none

def step (conversation : κ → ConversationId) (w : Drain κ) : DrainEvent κ → Option (Drain κ)
  | .register k => some { w with manager := (w.manager.register (conversation k) k).1 }
  | .unregister k => some { w with manager := (w.manager.unregister (conversation k) k).1 }
  | .closeAll next => match w.phase with
      | .notStarted => w.goOn ∅ (w.manager.connections.map Prod.snd) next
      | _ => none
  | .closed _ next => match w.phase with
      | .closing rest pending => w.goOn rest pending next
      | _ => none
  | .timeout => match w.phase with
      | .closing .. => some { w with phase := .timedOut }
      | _ => none

/-! ## What is owed -/

/-- Nobody is in the map whom `close` has not been called on. -/
def AllClosed (w : Drain κ) : Prop := ∀ c, w.manager.registered c ⊆ w.closeCalled

/-- The drain will not come to `k`, which registers now: its set object is not to come any more. -/
def Misses (conversation : κ → ConversationId) (k : κ) (w : Drain κ) : Prop :=
  ∃ rest pending, w.phase = .closing rest pending ∧ k ∉ w.closeCalled ∧ k ∉ rest ∧
    ∀ s, w.manager.find (conversation k) = some s → s ∉ pending

/-- In the run, `k` has registered where the drain misses it, and not unregistered since. -/
def Late (conversation : κ → ConversationId) (k : κ) (es : List (DrainEvent κ)) : Prop :=
  ∃ es₁ w es₂, es = es₁ ++ .register k :: es₂ ∧ exec (step conversation) init es₁ = some w ∧
    w.Misses conversation k ∧ .unregister k ∉ es₂

/-! ## The loops -/

variable {conversation : κ → ConversationId}

/-- Somebody who is due is closed before, in the snapshot, or in an object to come. -/
def Awaited (k : κ) (rest : Finset κ) (pending : List ℕ) (w : Drain κ) : Prop :=
  k ∈ w.closeCalled ∨ k ∈ rest ∨ ∃ s ∈ pending, k ∈ w.manager.sets s

theorem settle_spec (sets : ℕ → Finset κ) (rest : Finset κ) (pending : List ℕ) :
    (∀ k, (k ∈ (settle sets rest pending).1 ∨ ∃ s ∈ (settle sets rest pending).2, k ∈ sets s) ↔
        (k ∈ rest ∨ ∃ s ∈ pending, k ∈ sets s)) ∧
      (settle sets rest pending).2 ⊆ pending ∧
      ((settle sets rest pending).1 = ∅ → (settle sets rest pending).2 = []) := by
  induction pending generalizing rest with
  | nil => simp [settle]
  | cons s pending ih =>
      rw [settle]
      split
      · next hrest =>
          obtain ⟨hmem, hsubset, hempty⟩ := ih (sets s)
          refine ⟨?_, ?_, hempty⟩
          · intro k
            rw [hmem k, hrest]
            simp
          · exact fun t ht => List.mem_cons_of_mem _ (hsubset ht)
      · next hrest => simp [hrest]

/-- The next close keeps everybody awaited that is, and nobody else. -/
theorem goOn_closing {rest : Finset κ} {pending : List ℕ} {k₀ : κ} {w w' : Drain κ}
    (h : w.goOn rest pending (some k₀) = some w') :
    ∃ rest' pending', w'.phase = .closing rest' pending' ∧ w'.manager = w.manager ∧
      pending' ⊆ pending ∧ ∀ k, w'.Awaited k rest' pending' ↔ w.Awaited k rest pending := by
  obtain ⟨hmem, hsubset, -⟩ := settle_spec w.manager.sets rest pending
  simp only [goOn] at h
  split at h
  · next hk₀ =>
      cases h
      refine ⟨_, _, rfl, rfl, hsubset, ?_⟩
      intro k
      simp only [Awaited]
      rw [← hmem k]
      by_cases hk : k = k₀
      · subst hk
        simp [hk₀]
      · simp [hk]
  · cases h

/-- At the end there is nobody left. -/
theorem goOn_returned {rest : Finset κ} {pending : List ℕ} {w w' : Drain κ}
    (h : w.goOn rest pending none = some w') (k : κ) :
    w.Awaited k rest pending ↔ k ∈ w.closeCalled := by
  obtain ⟨hmem, -, hlast⟩ := settle_spec w.manager.sets rest pending
  simp only [goOn] at h
  split at h
  · next hempty =>
      have hnobody := hmem k
      rw [hlast hempty, hempty] at hnobody
      simp only [Finset.notMem_empty, List.not_mem_nil, false_and, exists_false, or_self,
        false_iff] at hnobody
      exact or_iff_left hnobody
  · cases h

theorem returned_of_goOn {rest : Finset κ} {pending : List ℕ} {next : Option κ} {w w' : Drain κ}
    (h : w.goOn rest pending next = some w') (hend : w'.phase = .returned) : next = none := by
  cases next with
  | none => rfl
  | some k₀ =>
      obtain ⟨_, _, hphase, -⟩ := goOn_closing h
      rw [hphase] at hend
      cases hend

/-! ## Who registers late -/

theorem late_snoc {es : List (DrainEvent κ)} {w : Drain κ}
    (h : exec (step conversation) init es = some w) (e : DrainEvent κ) (k : κ) :
    Late conversation k (es ++ [e]) ↔
      Late conversation k es ∧ e ≠ .unregister k ∨ e = .register k ∧ w.Misses conversation k := by
  constructor
  · rintro ⟨es₁, w₁, es₂, heq, hrun, hmisses, hstays⟩
    rcases List.eq_nil_or_concat es₂ with rfl | ⟨es₃, e', rfl⟩
    · obtain ⟨rfl, he⟩ := List.append_inj' heq rfl
      obtain rfl := Option.some.inj (hrun.symm.trans h)
      exact .inr ⟨by simpa using he, hmisses⟩
    · rw [List.concat_eq_append, ← List.cons_append, ← List.append_assoc] at heq
      obtain ⟨rfl, he⟩ := List.append_inj' heq rfl
      obtain rfl : e = e' := by simpa using he
      rw [List.concat_eq_append, List.mem_append, not_or, List.mem_singleton] at hstays
      exact .inl ⟨⟨es₁, w₁, es₃, rfl, hrun, hmisses, hstays.1⟩, fun he => hstays.2 he.symm⟩
  · rintro (⟨⟨es₁, w₁, es₂, rfl, hrun, hmisses, hstays⟩, he⟩ | ⟨rfl, hmisses⟩)
    · refine ⟨es₁, w₁, es₂ ++ [e], by simp, hrun, hmisses, ?_⟩
      rw [List.mem_append, List.mem_singleton, not_or]
      exact ⟨hstays, he.symm⟩
    · exact ⟨es, w, [], rfl, h, hmisses, by simp⟩

/-- Until `close_all` returns, its map is well formed, and it will come to everybody registered but for
    those who have registered late. -/
structure Inv (conversation : κ → ConversationId) (es : List (DrainEvent κ)) (w : Drain κ) : Prop where
  wellFormed : w.manager.WellFormed
  owner : ∀ s k, k ∈ w.manager.sets s → w.manager.find (conversation k) = some s
  made : ∀ rest pending, w.phase = .closing rest pending → ∀ s ∈ pending, s < w.manager.created
  started : w.phase = .notStarted → ∀ k, ¬ Late conversation k es
  registered : ∀ k, Late conversation k es → k ∈ w.manager.registered (conversation k)
  late : ∀ rest pending, w.phase = .closing rest pending →
    ∀ k ∈ w.manager.registered (conversation k),
      Late conversation k es ↔ ¬ w.Awaited k rest pending

theorem inv_init : Inv conversation [] (init : Drain κ) := by
  have hlate : ∀ k, ¬ Late conversation k [] := by
    rintro k ⟨es₁, w, es₂, heq, -⟩
    simp at heq
  refine ⟨ConnectionSets.wellFormed_init, ?_, ?_, fun _ => hlate, fun k hk => absurd hk (hlate k), ?_⟩
  · intro s k hk
    simp [init, ConnectionSets.init] at hk
  · intro rest pending hphase
    cases hphase
  · intro rest pending hphase
    cases hphase

section Steps

variable {es : List (DrainEvent κ)} {w : Drain κ}

theorem late_register (hrun : exec (step conversation) init es = some w) (k₀ k : κ) :
    Late conversation k (es ++ [.register k₀]) ↔
      Late conversation k es ∨ k = k₀ ∧ w.Misses conversation k := by
  rw [late_snoc hrun]
  simp [eq_comm]

theorem late_unregister (hrun : exec (step conversation) init es = some w) (k₀ k : κ) :
    Late conversation k (es ++ [.unregister k₀]) ↔ Late conversation k es ∧ k ≠ k₀ := by
  rw [late_snoc hrun]
  simp [eq_comm]

section Registering

variable {m' : ConnectionSets κ} {k₀ : κ} {s : ℕ} {rest : Finset κ} {pending : List ℕ}

/-- Who registers is missed if closed neither before nor in the snapshot nor with the object it gets. -/
theorem misses_iff (hw : w.Inv conversation es)
    (hreg : ConnectionSets.Registered (conversation k₀) k₀ w.manager m' s)
    (hphase : w.phase = .closing rest pending) :
    w.Misses conversation k₀ ↔ k₀ ∉ w.closeCalled ∧ k₀ ∉ rest ∧ s ∉ pending := by
  have hobject : (∀ t, w.manager.find (conversation k₀) = some t → t ∉ pending) ↔ s ∉ pending := by
    rcases hreg.object with hold | ⟨hnone, hnew, -⟩
    · simp [hold]
    · -- a new object is in no snapshot
      refine iff_of_true (by simp [hnone]) fun hs => ?_
      exact absurd (hw.made rest pending hphase s hs) (by omega)
  rw [← hobject]
  constructor
  · rintro ⟨_, _, hclosing, hmisses⟩
    cases hphase.symm.trans hclosing
    exact hmisses
  · intro hmisses
    exact ⟨rest, pending, hphase, hmisses⟩

/-- Who was late and registers once more is missed once more. -/
theorem misses_of_late (hw : w.Inv conversation es)
    (hreg : ConnectionSets.Registered (conversation k₀) k₀ w.manager m' s)
    (hphase : w.phase = .closing rest pending) (hlate : Late conversation k₀ es) :
    w.Misses conversation k₀ := by
  have hin := hw.registered k₀ hlate
  have hdue := (hw.late rest pending hphase k₀ hin).1 hlate
  simp only [Awaited, not_or] at hdue
  refine (misses_iff hw hreg hphase).2 ⟨hdue.1, hdue.2.1, fun hs => hdue.2.2 ⟨s, hs, ?_⟩⟩
  rcases hreg.object with hfind | ⟨hnone, -⟩
  · rwa [← ConnectionSets.registered_of_find hfind]
  · rw [ConnectionSets.registered_of_unknown hnone] at hin
    simp at hin

theorem late_register_self (hw : w.Inv conversation es)
    (hreg : ConnectionSets.Registered (conversation k₀) k₀ w.manager m' s)
    (hphase : w.phase = .closing rest pending) :
    Late conversation k₀ es ∨ w.Misses conversation k₀ ↔
      ¬ ({ w with manager := m' } : Drain κ).Awaited k₀ rest pending := by
  have hawaited : (∃ t ∈ pending, k₀ ∈ m'.sets t) ↔ s ∈ pending := by
    simp [hreg.mem_sets_self hw.owner]
  simp only [Awaited, not_or]
  rw [hawaited, ← misses_iff hw hreg hphase]
  exact or_iff_right_of_imp (misses_of_late hw hreg hphase)

theorem late_register_other (hw : w.Inv conversation es)
    (hreg : ConnectionSets.Registered (conversation k₀) k₀ w.manager m' s)
    (hphase : w.phase = .closing rest pending) {k : κ} (hk : k ≠ k₀)
    (hin : k ∈ w.manager.registered (conversation k)) :
    Late conversation k es ↔ ¬ ({ w with manager := m' } : Drain κ).Awaited k rest pending := by
  have hold := hw.late rest pending hphase k hin
  simp only [Awaited] at hold ⊢
  simp only [hreg.mem_sets_of_ne hk]
  exact hold

end Registering

theorem inv_register (hw : w.Inv conversation es) (hrun : exec (step conversation) init es = some w)
    (k₀ : κ) :
    ({ w with manager := (w.manager.register (conversation k₀) k₀).1 } : Drain κ).Inv conversation
      (es ++ [.register k₀]) := by
  obtain ⟨s, hreg, -⟩ := ConnectionSets.register_spec hw.wellFormed (conversation k₀) k₀
  refine ⟨ConnectionSets.register_wellFormed hw.wellFormed _ _, hreg.owner hw.owner, ?_, ?_, ?_, ?_⟩
  · intro rest pending hphase t ht
    exact lt_of_lt_of_le (hw.made rest pending hphase t ht) hreg.created.1
  · intro hphase k hk
    rcases (late_register hrun k₀ k).1 hk with hold | ⟨-, _, _, hclosing, -⟩
    · exact hw.started hphase k hold
    · cases hphase.symm.trans hclosing
  · intro k hk
    refine (ConnectionSets.mem_register hw.wellFormed k₀ k).2 ?_
    rcases (late_register hrun k₀ k).1 hk with hold | ⟨hk₀, -⟩
    · exact .inr (hw.registered k hold)
    · exact .inl hk₀
  · intro rest pending hphase k hk
    rw [late_register hrun]
    by_cases hk₀ : k = k₀
    · subst hk₀
      simpa using late_register_self hw hreg hphase
    · have hin := ((ConnectionSets.mem_register hw.wellFormed k₀ k).1 hk).resolve_left hk₀
      simpa [hk₀] using late_register_other hw hreg hphase hk₀ hin

theorem inv_unregister (hw : w.Inv conversation es)
    (hrun : exec (step conversation) init es = some w) (k₀ : κ) :
    ({ w with manager := (w.manager.unregister (conversation k₀) k₀).1 } : Drain κ).Inv conversation
      (es ++ [.unregister k₀]) := by
  have hspec := ConnectionSets.unregister_spec w.manager (conversation k₀) k₀
  refine ⟨ConnectionSets.unregister_wellFormed hw.wellFormed _ _, hspec.owner hw.owner, ?_, ?_, ?_, ?_⟩
  · intro rest pending hphase t ht
    show t < (w.manager.unregister (conversation k₀) k₀).1.created
    rw [hspec.created]
    exact hw.made rest pending hphase t ht
  · intro hphase k hk
    exact hw.started hphase k ((late_unregister hrun k₀ k).1 hk).1
  · intro k hk
    obtain ⟨hold, hk₀⟩ := (late_unregister hrun k₀ k).1 hk
    exact (ConnectionSets.mem_unregister hw.wellFormed k₀ k).2 ⟨hk₀, hw.registered k hold⟩
  · intro rest pending hphase k hk
    obtain ⟨hk₀, hin⟩ := (ConnectionSets.mem_unregister hw.wellFormed k₀ k).1 hk
    have hold := hw.late rest pending hphase k hin
    rw [late_unregister hrun, and_iff_left hk₀]
    simp only [Awaited] at hold ⊢
    simp only [hspec.mem_sets hw.owner, ne_eq, hk₀, not_false_eq_true, and_true]
    exact hold

/-- A step that moves the drain alone keeps who is registered, and who has registered late. -/
theorem inv_goOn (hw : w.Inv conversation es) {e : DrainEvent κ} {w' : Drain κ}
    {rest : Finset κ} {pending : List ℕ} {k₀ : κ}
    (hlate : ∀ k, Late conversation k (es ++ [e]) ↔ Late conversation k es)
    (hmade : ∀ s ∈ pending, s < w.manager.created)
    (hdue : ∀ k ∈ w.manager.registered (conversation k),
      Late conversation k es ↔ ¬ w.Awaited k rest pending)
    (h : w.goOn rest pending (some k₀) = some w') : w'.Inv conversation (es ++ [e]) := by
  obtain ⟨rest', pending', hphase, hmanager, hsubset, hawaited⟩ := goOn_closing h
  refine ⟨?_, ?_, ?_, ?_, ?_, ?_⟩
  · rw [hmanager]
    exact hw.wellFormed
  · rw [hmanager]
    exact hw.owner
  · intro rest₁ pending₁ hphase₁ s hs
    cases hphase.symm.trans hphase₁
    rw [hmanager]
    exact hmade s (hsubset hs)
  · intro hnot
    cases hphase.symm.trans hnot
  · intro k hk
    rw [hmanager]
    exact hw.registered k ((hlate k).1 hk)
  · intro rest₁ pending₁ hphase₁ k hk
    cases hphase.symm.trans hphase₁
    rw [hmanager] at hk
    rw [hlate, hawaited]
    exact hdue k hk

omit [DecidableEq κ] in
/-- As the drain starts, everybody registered is in the snapshot. -/
theorem awaited_values {k : κ} (hk : k ∈ w.manager.registered (conversation k)) :
    w.Awaited k ∅ (w.manager.connections.map Prod.snd) := by
  cases hfind : w.manager.find (conversation k) with
  | none => simp [ConnectionSets.registered_of_unknown hfind] at hk
  | some s =>
      rw [ConnectionSets.registered_of_find hfind] at hk
      refine .inr (.inr ⟨s, ?_, hk⟩)
      exact List.mem_map.2 ⟨_, ConnectionSets.mem_connections_of_find hfind, rfl⟩

theorem inv_step {e : DrainEvent κ} {w' : Drain κ} (hw : w.Inv conversation es)
    (hrun : exec (step conversation) init es = some w) (h : step conversation w e = some w')
    (hend : w'.phase ≠ .returned) : w'.Inv conversation (es ++ [e]) := by
  have hquiet : (∀ k, e ≠ .register k ∧ e ≠ .unregister k) →
      ∀ k, Late conversation k (es ++ [e]) ↔ Late conversation k es := by
    intro he k
    rw [late_snoc hrun]
    simp [(he k).1, (he k).2]
  cases e with
  | register k =>
      cases h
      exact inv_register hw hrun k
  | unregister k =>
      cases h
      exact inv_unregister hw hrun k
  | closeAll next =>
      simp only [step] at h
      split at h
      · next hphase =>
          cases next with
          | none =>
              simp only [goOn] at h
              split at h <;> cases h
              exact absurd rfl hend
          | some k₀ =>
              refine inv_goOn hw (hquiet (by simp)) ?_ ?_ h
              · intro s hs
                obtain ⟨p, hp, rfl⟩ := List.mem_map.1 hs
                exact hw.wellFormed.made p hp
              · intro k hk
                exact iff_of_false (hw.started hphase k) (not_not.2 (awaited_values hk))
      · cases h
  | closed succeeds next =>
      simp only [step] at h
      split at h
      · next rest pending hphase =>
          cases next with
          | none =>
              simp only [goOn] at h
              split at h <;> cases h
              exact absurd rfl hend
          | some k₀ =>
              exact inv_goOn hw (hquiet (by simp)) (hw.made rest pending hphase)
                (hw.late rest pending hphase) h
      · cases h
  | timeout =>
      simp only [step] at h
      split at h <;> cases h
      refine ⟨hw.wellFormed, hw.owner, ?_, ?_, ?_, ?_⟩
      · intro rest pending hphase
        cases hphase
      · intro hphase
        cases hphase
      · intro k hk
        exact hw.registered k ((hquiet (by simp) k).1 hk)
      · intro rest pending hphase
        cases hphase

theorem allClosed_iff (hw : w.Inv conversation es) :
    w.AllClosed ↔ ∀ k ∈ w.manager.registered (conversation k), k ∈ w.closeCalled := by
  refine ⟨fun hall k hk => hall _ hk, fun hall c k hk => hall k ?_⟩
  cases hfind : w.manager.find c with
  | none => simp [ConnectionSets.registered_of_unknown hfind] at hk
  | some s =>
      have hin : k ∈ w.manager.sets s := by rwa [← ConnectionSets.registered_of_find hfind]
      rw [← hw.wellFormed.apart _ _ _ hfind (hw.owner s k hin)]
      exact hk

theorem inv_run (hrun : exec (step conversation) init es = some w) (hphase : w.phase ≠ .returned) :
    w.Inv conversation es := by
  -- nothing leads out of `returned`
  have hstays : ∀ {w w' : Drain κ} {e : DrainEvent κ}, step conversation w e = some w' →
      w.phase = .returned → w'.phase = .returned := by
    intro w w' e h hreturned
    cases e <;> simp only [step, hreturned] at h <;> cases h <;> rfl
  refine exec_history (I := fun es w => w.phase ≠ .returned → w.Inv conversation es)
    (fun _ => inv_init) ?_ hrun hphase
  intro es w e w' hw hrun h hend
  exact inv_step (hw fun hreturned => hend (hstays h hreturned)) hrun h hend

end Steps

/-- When `close_all` returns, it has called `close` on everybody registered, whom it forgets then, just
    when everybody who has registered with a set object that was not to come has unregistered. -/
theorem drain_misses_none_iff {es : List (DrainEvent κ)} {e : DrainEvent κ} {w w' : Drain κ}
    (hrun : exec (step conversation) init es = some w) (h : step conversation w e = some w')
    (hphase : w.phase ≠ .returned) (hend : w'.phase = .returned) :
    w.AllClosed ↔ ∀ k, ¬ Late conversation k es := by
  have hw := inv_run hrun hphase
  rw [allClosed_iff hw]
  cases e with
  | register | unregister =>
      cases h
      exact absurd hend hphase
  | timeout =>
      simp only [step] at h
      split at h <;> cases h
      cases hend
  | closeAll next =>
      simp only [step] at h
      split at h
      · next hnot =>
          obtain rfl := returned_of_goOn h hend
          refine iff_of_true ?_ (hw.started hnot)
          intro k hk
          exact (goOn_returned h k).1 (awaited_values hk)
      · cases h
  | closed succeeds next =>
      simp only [step] at h
      split at h
      · next rest pending hclosing =>
          obtain rfl := returned_of_goOn h hend
          constructor
          · intro hall k hlate
            have hin := hw.registered k hlate
            exact (hw.late _ _ hclosing k hin).1 hlate ((goOn_returned h k).2 (hall k hin))
          · intro hlate k hk
            rw [← goOn_returned h k]
            by_contra hdue
            exact hlate k ((hw.late _ _ hclosing k hk).2 hdue)
      · cases h

/-! ## A newcomer -/

/-- Socket 1 connects to the conversation of socket 0 while that one is being closed. -/
def newcomerRun : List (DrainEvent (Fin 2)) := [.register 0, .closeAll (some 0), .register 1]

theorem drain_forgets_newcomer :
    ¬ ∀ (es : List (DrainEvent (Fin 2))) (e : DrainEvent (Fin 2)) (w w' : Drain (Fin 2)),
      exec (step fun _ => ⟨1⟩) init es = some w → step (fun _ => ⟨1⟩) w e = some w' →
        w.phase ≠ .returned → w'.phase = .returned → w.AllClosed := by
  intro h
  obtain ⟨w, hrun, hclosing, hlast⟩ := exec_reaches (step fun _ => ⟨1⟩) init newcomerRun
    (fun w => w.phase = .closing ∅ [] ∧
      (∃ k ∈ w.manager.registered ⟨1⟩, k ∉ w.closeCalled) ∧
        ((step (fun _ => ⟨1⟩) w (.closed true none)).map Drain.phase) = some .returned) (by decide)
  obtain ⟨⟨k, hin, hnot⟩, hstep⟩ := hlast
  obtain ⟨w', hw', hend⟩ := Option.map_eq_some_iff.1 hstep
  exact hnot (h newcomerRun _ w w' hrun hw' (by simp [hclosing]) hend ⟨1⟩ hin)

/-- Socket 1 connects to a conversation that is still to come, and is closed with the others; the close
    of socket 0 raises. -/
def awaitedRun : List (DrainEvent (Fin 3)) :=
  [.register 0, .register 2, .closeAll (some 0), .register 1, .closed false (some 1),
    .closed true (some 2)]

def awaitedConversation (k : Fin 3) : ConversationId := if k = 0 then ⟨1⟩ else ⟨2⟩

theorem drain_misses_none_iff_awaited :
    ∃ w w' : Drain (Fin 3), exec (step awaitedConversation) init awaitedRun = some w ∧
      step awaitedConversation w (.closed true none) = some w' ∧
      w.manager.registered ⟨2⟩ = {1, 2} ∧ w.AllClosed ∧
      ∀ k, ¬ Late awaitedConversation k awaitedRun := by
  obtain ⟨w, hrun, hclosing, hregistered, hclosed, hstep⟩ :=
    exec_reaches (step awaitedConversation) init awaitedRun
      (fun w => w.phase = .closing ∅ [] ∧ w.manager.registered ⟨2⟩ = {1, 2} ∧
        (∀ k ∈ w.manager.registered (awaitedConversation k), k ∈ w.closeCalled) ∧
          (step awaitedConversation w (.closed true none)).map Drain.phase = some .returned)
      (by decide)
  obtain ⟨w', hw', hend⟩ := Option.map_eq_some_iff.1 hstep
  have hphase : w.phase ≠ .returned := by simp [hclosing]
  have hall : w.AllClosed := (allClosed_iff (inv_run hrun hphase)).2 hclosed
  exact ⟨w, w', hrun, hw', hregistered, hall, (drain_misses_none_iff hrun hw' hphase hend).1 hall⟩

end Drain

end Dizzchat
