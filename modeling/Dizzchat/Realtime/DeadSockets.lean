import Dizzchat.Realtime.ConnectionSets
import Dizzchat.Realtime.Protocol
import Dizzchat.Transition.Run

set_option autoImplicit false

/-! # Dead sockets

One `broadcast`, at whose awaits others register and unregister. It sends its frame to a snapshot of
the set object it finds, and unregisters the connections whose sends raised when the last send is
over, from the object that is in the dict by then: the one it found, another one, or none.

`Broadcast` is what it holds at its awaits (`view_call`, `view_broadcast`, `view_sent`,
`view_drop`). -/

namespace Dizzchat

open Text Transition

variable {κ : Type*}

/-- A call of `register` or `unregister`. -/
inductive MapCall (κ : Type*)
  | register (c : ConversationId) (k : κ)
  | unregister (c : ConversationId) (k : κ)
deriving DecidableEq

/-- Where `broadcast` is. -/
inductive DeliveryPhase (κ : Type*)
  | notStarted
  /-- In the send to the first of `rest`, which is what is left of the snapshot. -/
  | sending (rest dead : List κ)
  /-- In the loop over `dead`, which awaits nothing. -/
  | dropping (dead : List κ)
  | returned
deriving DecidableEq

structure Delivery (κ : Type*) where
  manager : ConnectionSets κ
  phase : DeliveryPhase κ
  /-- The frames that the broadcast has written to each socket. -/
  written : κ → List Json

inductive DeliveryEvent (κ : Type*)
  | call (call : MapCall κ)
  /-- `broadcast` is called; `snapshot` is `list(connections)`. -/
  | broadcast (snapshot : List κ)
  /-- The send under way returns or raises. -/
  | sent
  /-- The loop over `dead` takes its next connection, or ends. -/
  | drop
deriving DecidableEq

/-- What is left of the snapshot. -/
def DeliveryPhase.rest : DeliveryPhase κ → List κ
  | .sending rest _ => rest
  | .notStarted | .dropping _ | .returned => []

variable [DecidableEq κ]

def ConnectionManager.call (m : ConnectionManager κ) : MapCall κ → ConnectionManager κ × Bool
  | .register c k => m.register c k
  | .unregister c k => m.unregister c k

namespace ConnectionSets

def call (m : ConnectionSets κ) : MapCall κ → ConnectionSets κ × Bool
  | .register c k => m.register c k
  | .unregister c k => m.unregister c k

/-- What the calls alone make of the map. -/
def after (m : ConnectionSets κ) (calls : List (MapCall κ)) : ConnectionSets κ :=
  calls.foldl (fun m call => (m.call call).1) m

/-- `m'` is `m` without the connections `ks` of `c`. -/
structure Without (c : ConversationId) (ks : Finset κ) (m m' : ConnectionSets κ) : Prop where
  self : m'.registered c = m.registered c \ ks
  others : ∀ c', c' ≠ c → m'.registered c' = m.registered c'

end ConnectionSets

/-! ## The calls -/

namespace ConnectionSets

variable {m m' : ConnectionSets κ}

theorem call_wellFormed (hm : m.WellFormed) (call : MapCall κ) : (m.call call).1.WellFormed := by
  cases call with
  | register c k => exact register_wellFormed hm c k
  | unregister c k => exact unregister_wellFormed hm c k

theorem after_wellFormed (hm : m.WellFormed) (calls : List (MapCall κ)) :
    (m.after calls).WellFormed := by
  induction calls generalizing m with
  | nil => exact hm
  | cons call calls ih => exact ih (call_wellFormed hm call)

theorem after_append (calls calls' : List (MapCall κ)) :
    m.after (calls ++ calls') = (m.after calls).after calls' :=
  List.foldl_append

/-- A call does the same to two maps of the same connections. -/
theorem call_registered_congr (hm : m.WellFormed) (hm' : m'.WellFormed)
    (h : ∀ c, m'.registered c = m.registered c) (call : MapCall κ) (c : ConversationId) :
    (m'.call call).1.registered c = (m.call call).1.registered c := by
  cases call with
  | register c' k =>
      show (m'.register c' k).1.registered c = (m.register c' k).1.registered c
      by_cases hc : c = c'
      · rw [hc, register_registered hm', register_registered hm, h]
      · rw [register_registered_of_ne hm' _ _ hc, register_registered_of_ne hm _ _ hc, h]
  | unregister c' k =>
      show (m'.unregister c' k).1.registered c = (m.unregister c' k).1.registered c
      by_cases hc : c = c'
      · rw [hc, unregister_registered, unregister_registered, h]
      · rw [unregister_registered_of_ne hm' _ _ hc, unregister_registered_of_ne hm _ _ hc, h]

theorem call_manager (hm : m.WellFormed) (call : MapCall κ) :
    (m.call call).1.manager (call_wellFormed hm call) = ((m.manager hm).call call).1 := by
  cases call with
  | register c k => exact (register_manager hm c k).1.symm
  | unregister c k => exact (unregister_manager hm c k).1.symm

/-- What the two methods report of a map that maps to no empty object. -/
theorem reports (hm : m.WellFormed) (c : ConversationId) (k : κ) :
    ((m.register c k).2 = true ↔ m.registered c = ∅) ∧
      ((m.unregister c k).2 = true ↔ m.registered c = {k}) := by
  refine ⟨?_, unregister_last hm c k⟩
  rw [← (register_manager hm c k).2]
  exact ConnectionManager.register_first c k _

end ConnectionSets

namespace Delivery

omit [DecidableEq κ] in
def init : Delivery κ := ⟨.init, .notStarted, fun _ => []⟩

omit [DecidableEq κ] in
/-- The calls among the events. -/
def calls : List (DeliveryEvent κ) → List (MapCall κ)
  | [] => []
  | .call call :: es => call :: calls es
  | _ :: es => calls es

/-- `broadcast` up to its first send. A set iterates over its members once each, in any order. -/
def broadcast (c : ConversationId) (snapshot : List κ) (w : Delivery κ) : Option (Delivery κ) :=
  match w.manager.find c with
  | none => some { w with phase := .returned }
  | some connections =>
      if w.manager.sets connections = ∅ then some { w with phase := .returned }
      else if snapshot.Nodup ∧ snapshot.toFinset = w.manager.sets connections then
        some { w with phase := .sending snapshot [] }
      else none

/-- The send to `k` raises an `Exception` if it is one of `failing`, and has written the frame
    otherwise. -/
def sent (message : Message) (failing : Finset κ) (k : κ) (rest dead : List κ) (w : Delivery κ) :
    Delivery κ :=
  let dead := if k ∈ failing then dead ++ [k] else dead
  { w with
    phase := if rest = [] then .dropping dead else .sending rest dead
    written :=
      if k ∈ failing then w.written
      else Function.update w.written k (w.written k ++ [Protocol.messageNew message]) }

/-- The broadcast of `message` to `c`, where the sends to `failing` raise. Calls come at its awaits. -/
def step (c : ConversationId) (message : Message) (failing : Finset κ) (w : Delivery κ) :
    DeliveryEvent κ → Option (Delivery κ)
  | .call call => match w.phase with
      | .notStarted | .sending .. => some { w with manager := (w.manager.call call).1 }
      | .dropping _ | .returned => none
  | .broadcast snapshot => match w.phase with
      | .notStarted => w.broadcast c snapshot
      | _ => none
  | .sent => match w.phase with
      | .sending (k :: rest) dead => some (w.sent message failing k rest dead)
      | _ => none
  | .drop => match w.phase with
      | .dropping (k :: dead) =>
          some { w with manager := (w.manager.unregister c k).1, phase := .dropping dead }
      | .dropping [] => some { w with phase := .returned }
      | _ => none

/-! ## The moves -/

variable {c : ConversationId} {message : Message} {failing : Finset κ} {w w' : Delivery κ}

/-- What a step can do. -/
inductive Move (c : ConversationId) (message : Message) (failing : Finset κ) (w : Delivery κ) :
    DeliveryEvent κ → Delivery κ → Prop
  | called (call : MapCall κ)
      (hphase : w.phase = .notStarted ∨ ∃ rest dead, w.phase = .sending rest dead) :
      Move c message failing w (.call call) { w with manager := (w.manager.call call).1 }
  | nobody (snapshot : List κ) (hphase : w.phase = .notStarted) (h : w.manager.registered c = ∅) :
      Move c message failing w (.broadcast snapshot) { w with phase := .returned }
  | begins (snapshot : List κ) (hphase : w.phase = .notStarted) (hne : snapshot ≠ [])
      (hnodup : snapshot.Nodup) (hsnapshot : snapshot.toFinset = w.manager.registered c) :
      Move c message failing w (.broadcast snapshot) { w with phase := .sending snapshot [] }
  | sends (k : κ) (rest dead : List κ) (hphase : w.phase = .sending (k :: rest) dead) :
      Move c message failing w .sent (w.sent message failing k rest dead)
  | drops (k : κ) (dead : List κ) (hphase : w.phase = .dropping (k :: dead)) :
      Move c message failing w .drop
        { w with manager := (w.manager.unregister c k).1, phase := .dropping dead }
  | ends (hphase : w.phase = .dropping []) :
      Move c message failing w .drop { w with phase := .returned }

theorem step_move {e : DeliveryEvent κ} (h : step c message failing w e = some w') :
    Move c message failing w e w' := by
  cases e with
  | call call =>
      simp only [step] at h
      split at h <;> cases h
      · next hphase => exact .called call (.inl hphase)
      · next hphase => exact .called call (.inr ⟨_, _, hphase⟩)
  | broadcast snapshot =>
      simp only [step] at h
      split at h
      · next hphase =>
          unfold broadcast at h
          split at h
          · next hfind =>
              cases h
              exact .nobody snapshot hphase (ConnectionSets.registered_of_unknown hfind)
          · next connections hfind =>
              rw [← ConnectionSets.registered_of_find hfind] at h
              split at h
              · next hempty =>
                  cases h
                  exact .nobody snapshot hphase hempty
              · next hne =>
                  obtain ⟨⟨hnodup, hsnapshot⟩, heq⟩ := Option.ite_none_right_eq_some.1 h
                  cases heq
                  refine .begins snapshot hphase ?_ hnodup hsnapshot
                  rintro rfl
                  exact hne hsnapshot.symm
      · cases h
  | sent =>
      simp only [step] at h
      split at h <;> cases h
      next hphase => exact .sends _ _ _ hphase
  | drop =>
      simp only [step] at h
      split at h <;> cases h
      · next hphase => exact .drops _ _ hphase
      · next hphase => exact .ends hphase

/-! ## The map and the sockets during the broadcast -/

/-- Where the broadcast is. `began` are the connections of its snapshot, and `m` is what the calls
    alone have made of the map since. -/
inductive Standing (c : ConversationId) (began failing : Finset κ) (m m' : ConnectionSets κ) :
    DeliveryPhase κ → Prop
  | sending (rest dead : List κ) (hne : rest ≠ []) (hnodup : rest.Nodup)
      (hrest : rest.toFinset ⊆ began) (hdead : dead.toFinset = (began \ rest.toFinset) ∩ failing)
      (hmap : ∀ c', m'.registered c' = m.registered c') :
      Standing c began failing m m' (.sending rest dead)
  | dropping (dead : List κ)
      (hself : m'.registered c \ dead.toFinset = m.registered c \ (began ∩ failing))
      (hothers : ∀ c', c' ≠ c → m'.registered c' = m.registered c') :
      Standing c began failing m m' (.dropping dead)
  | returned (h : m.Without c (began ∩ failing) m') : Standing c began failing m m' .returned

structure Underway (c : ConversationId) (message : Message) (began failing : Finset κ)
    (m : ConnectionSets κ) (w : Delivery κ) : Prop where
  wellFormed : w.manager.WellFormed
  written : ∀ k, w.written k =
    if k ∈ began ∧ k ∉ w.phase.rest ∧ k ∉ failing then [Protocol.messageNew message] else []
  standing : Standing c began failing m w.manager w.phase

variable {began : Finset κ} {m : ConnectionSets κ}

theorem Underway.called (h : Underway c message began failing m w) (hm : m.WellFormed)
    {rest dead : List κ} (hphase : w.phase = .sending rest dead) (call : MapCall κ) :
    Underway c message began failing (m.call call).1
      { w with manager := (w.manager.call call).1 } := by
  refine ⟨ConnectionSets.call_wellFormed h.wellFormed call, h.written, ?_⟩
  have hstanding := h.standing
  simp only [hphase] at hstanding ⊢
  cases hstanding with
  | sending _ _ hne hnodup hrest hdead hmap =>
      exact .sending rest dead hne hnodup hrest hdead
        (ConnectionSets.call_registered_congr hm h.wellFormed hmap call)

omit [DecidableEq κ] in
theorem rest_ite {rest dead : List κ} [Decidable (rest = [])] :
    (if rest = [] then DeliveryPhase.dropping dead else .sending rest dead).rest = rest := by
  split
  · next hrest => exact hrest.symm
  · rfl

/-- The dead so far are those of the snapshot that have been sent to and fail. -/
theorem dead_toFinset {k : κ} {rest dead : List κ} (hk : k ∉ rest) (hbegan : k ∈ began)
    (hdead : dead.toFinset = (began \ (k :: rest).toFinset) ∩ failing) :
    (if k ∈ failing then dead ++ [k] else dead).toFinset = (began \ rest.toFinset) ∩ failing := by
  have hmem : ∀ k', k' ∈ dead ↔ (k' ∈ began ∧ k' ≠ k ∧ k' ∉ rest) ∧ k' ∈ failing := by
    intro k'
    rw [← List.mem_toFinset, hdead]
    simp
  ext k'
  by_cases hk' : k' = k
  · subst hk'
    split
    · next hfails => simp [hk, hbegan, hfails]
    · next hfails => simp [hmem, hfails]
  · split <;> simp [hmem, hk']

theorem Underway.sends (h : Underway c message began failing m w) {k : κ} {rest dead : List κ}
    (hphase : w.phase = .sending (k :: rest) dead) :
    Underway c message began failing m (w.sent message failing k rest dead) := by
  have hstanding := h.standing
  rw [hphase] at hstanding
  cases hstanding with
  | sending _ _ _ hnodup hrest hdead hmap =>
      obtain ⟨hk, hnodup'⟩ := List.nodup_cons.1 hnodup
      have hbegan : k ∈ began := hrest (by simp)
      have hdead' := dead_toFinset hk hbegan hdead
      refine ⟨h.wellFormed, ?_, ?_⟩
      · intro k'
        have hwritten := h.written k'
        simp only [hphase, DeliveryPhase.rest, List.mem_cons, not_or] at hwritten
        simp only [sent, rest_ite]
        by_cases hk' : k' = k
        · subst hk'
          split
          · next hfails => simpa [hfails] using hwritten
          · next hfails =>
              rw [Function.update_self, hwritten]
              simp [hbegan, hk, hfails]
        · simp only [hk', not_false_eq_true, true_and] at hwritten
          split
          · exact hwritten
          · rw [Function.update_of_ne hk', hwritten]
      · simp only [sent]
        split
        · next hlast =>
            subst hlast
            refine .dropping _ ?_ ?_
            · rw [hdead', hmap c, List.toFinset_nil, Finset.sdiff_empty]
            · intro c' _
              exact hmap c'
        · next hne =>
            refine .sending _ _ hne hnodup' ?_ hdead' hmap
            intro k' hk'
            exact hrest (by simp [List.mem_toFinset.1 hk'])

theorem Underway.drops (h : Underway c message began failing m w) {k : κ} {dead : List κ}
    (hphase : w.phase = .dropping (k :: dead)) :
    Underway c message began failing m
      { w with manager := (w.manager.unregister c k).1, phase := .dropping dead } := by
  have hwritten := h.written
  have hstanding := h.standing
  rw [hphase] at hwritten hstanding
  refine ⟨ConnectionSets.unregister_wellFormed h.wellFormed c k, hwritten, ?_⟩
  cases hstanding with
  | dropping _ hself hothers =>
      refine .dropping dead ?_ ?_
      · rw [ConnectionSets.unregister_registered, Finset.erase_sdiff_comm, ← Finset.sdiff_insert,
          ← List.toFinset_cons, hself]
      · intro c' hc'
        rw [ConnectionSets.unregister_registered_of_ne h.wellFormed c k hc', hothers c' hc']

theorem Underway.ends (h : Underway c message began failing m w) (hphase : w.phase = .dropping []) :
    Underway c message began failing m { w with phase := .returned } := by
  have hwritten := h.written
  have hstanding := h.standing
  rw [hphase] at hwritten hstanding
  refine ⟨h.wellFormed, hwritten, ?_⟩
  cases hstanding with
  | dropping _ hself hothers => exact .returned ⟨by simpa using hself, hothers⟩

theorem Underway.not_notStarted (h : Underway c message began failing m w) :
    w.phase ≠ .notStarted := by
  intro hphase
  have hstanding := h.standing
  rw [hphase] at hstanding
  cases hstanding

/-- One step: the calls alone make of `m` what the event's call does. -/
theorem Underway.step (h : Underway c message began failing m w) (hm : m.WellFormed)
    {e : DeliveryEvent κ} (he : step c message failing w e = some w') :
    Underway c message began failing (m.after (calls [e])) w' := by
  cases step_move he with
  | called call hphase =>
      obtain hphase | ⟨rest, dead, hphase⟩ := hphase
      · exact absurd hphase h.not_notStarted
      · exact h.called hm hphase call
  | nobody _ hphase => exact absurd hphase h.not_notStarted
  | begins _ hphase => exact absurd hphase h.not_notStarted
  | sends _ _ _ hphase => exact h.sends hphase
  | drops _ _ hphase => exact h.drops hphase
  | ends hphase => exact h.ends hphase

/-! ## Runs -/

omit [DecidableEq κ] in
theorem calls_cons (e : DeliveryEvent κ) (es : List (DeliveryEvent κ)) :
    calls (e :: es) = calls [e] ++ calls es := by
  cases e <;> rfl

theorem Underway.run (h : Underway c message began failing m w) (hm : m.WellFormed)
    {es : List (DeliveryEvent κ)} (hrun : exec (Delivery.step c message failing) w es = some w') :
    Underway c message began failing (m.after (calls es)) w' := by
  induction es generalizing m w with
  | nil => exact Option.some.inj hrun ▸ h
  | cons e es ih =>
      obtain ⟨w₁, he, hrest⟩ := exec_cons_eq_some.1 hrun
      rw [calls_cons, ConnectionSets.after_append]
      exact ih (h.step hm he) (ConnectionSets.after_wellFormed hm _) hrest

/-- The map is well formed in every state, also between two calls of the loop over `dead`. -/
structure Sound (w : Delivery κ) : Prop where
  wellFormed : w.manager.WellFormed
  unwritten : w.phase = .notStarted → ∀ k, w.written k = []
  nodup : w.phase.rest.Nodup

omit [DecidableEq κ] in
theorem sound_init : (init : Delivery κ).Sound :=
  ⟨ConnectionSets.wellFormed_init, fun _ _ => rfl, List.nodup_nil⟩

theorem sound_step {e : DeliveryEvent κ} (hw : w.Sound) (h : step c message failing w e = some w') :
    w'.Sound := by
  cases step_move h with
  | called call =>
      exact ⟨ConnectionSets.call_wellFormed hw.wellFormed call, hw.unwritten, hw.nodup⟩
  | nobody => exact ⟨hw.wellFormed, by simp, List.nodup_nil⟩
  | begins _ _ _ hnodup => exact ⟨hw.wellFormed, by simp, hnodup⟩
  | sends k rest dead hphase =>
      refine ⟨hw.wellFormed, ?_, ?_⟩
      · simp only [sent]
        split <;> simp
      · have hnodup := hw.nodup
        rw [hphase] at hnodup
        simp only [sent, rest_ite]
        exact hnodup.of_cons
  | drops k =>
      exact ⟨ConnectionSets.unregister_wellFormed hw.wellFormed c k, by simp, List.nodup_nil⟩
  | ends => exact ⟨hw.wellFormed, by simp, List.nodup_nil⟩

theorem sound_run {es : List (DeliveryEvent κ)}
    (h : exec (step c message failing) init es = some w) : w.Sound :=
  exec_invariant (fun _ _ _ hw he => sound_step hw he) sound_init h

theorem Sound.underway (hw : w.Sound) {snapshot : List κ}
    (h : step c message failing w (.broadcast snapshot) = some w') :
    Underway c message (w.manager.registered c) failing w.manager w' := by
  cases step_move h with
  | nobody _ hphase hempty =>
      refine ⟨hw.wellFormed, ?_, .returned ⟨by simp [hempty], fun _ _ => rfl⟩⟩
      intro k
      rw [hempty, if_neg (by simp)]
      exact hw.unwritten hphase k
  | begins _ hphase hne hnodup hsnapshot =>
      refine ⟨hw.wellFormed, ?_, .sending snapshot [] hne hnodup hsnapshot.subset ?_ fun _ => rfl⟩
      · intro k
        rw [if_neg ?_]
        · exact hw.unwritten hphase k
        · rintro ⟨hbegan, hrest, -⟩
          rw [← hsnapshot] at hbegan
          exact hrest (List.mem_toFinset.1 hbegan)
      · ext k
        simp [hsnapshot]

/-! ## The broadcast ends -/

/-- The broadcast returns when each send under way returns or raises. -/
def Returns (c : ConversationId) (message : Message) (failing : Finset κ) (w : Delivery κ) : Prop :=
  ∃ es w', (∀ e ∈ es, e = .sent ∨ e = .drop) ∧ exec (step c message failing) w es = some w' ∧
    w'.phase = .returned

theorem returns_of_step {e : DeliveryEvent κ} (he : e = .sent ∨ e = .drop)
    (h : step c message failing w e = some w') (hreturns : w'.Returns c message failing) :
    w.Returns c message failing := by
  obtain ⟨es, w₁, hes, hrun, hend⟩ := hreturns
  refine ⟨e :: es, w₁, ?_, exec_cons_eq_some.2 ⟨w', h, hrun⟩, hend⟩
  intro e' he'
  rcases List.mem_cons.1 he' with rfl | hmem
  · exact he
  · exact hes e' hmem

theorem returns_of_dropping {dead : List κ} (hphase : w.phase = .dropping dead) :
    w.Returns c message failing := by
  induction dead generalizing w with
  | nil =>
      refine ⟨[.drop], { w with phase := .returned }, by simp, ?_, rfl⟩
      simp [exec, step, hphase]
  | cons k dead ih =>
      have hstep : step c message failing w .drop =
          some { w with manager := (w.manager.unregister c k).1, phase := .dropping dead } := by
        simp only [step, hphase]
      exact returns_of_step (.inr rfl) hstep (ih rfl)

theorem returns_of_sending {rest dead : List κ} (hne : rest ≠ [])
    (hphase : w.phase = .sending rest dead) : w.Returns c message failing := by
  induction rest generalizing w dead with
  | nil => exact absurd rfl hne
  | cons k rest ih =>
      have hstep : step c message failing w .sent = some (w.sent message failing k rest dead) := by
        simp only [step, hphase]
      refine returns_of_step (.inl rfl) hstep ?_
      by_cases hrest : rest = []
      · exact returns_of_dropping (if_pos hrest)
      · exact ih hrest (if_neg hrest)

theorem Underway.returns (h : Underway c message began failing m w) :
    w.Returns c message failing := by
  have hstanding := h.standing
  generalize hphase : w.phase = phase at hstanding
  cases hstanding with
  | sending rest dead hne => exact returns_of_sending hne hphase
  | dropping dead => exact returns_of_dropping hphase
  | returned => exact ⟨[], w, by simp, rfl, hphase⟩

/-! ## The broadcast of `ConnectionManager` -/

/-- What the broadcast holds, and the map as the next call finds it. -/
def view (c : ConversationId) (message : Message) (w : Delivery κ) (hw : w.Sound) :
    ConnectionManager κ × Option (Broadcast κ) :=
  match w.phase with
  | .sending rest dead =>
      (w.manager.manager hw.wellFormed, some ⟨c, message, rest.toFinset, dead⟩)
  | .dropping dead => ((w.manager.manager hw.wellFormed).drop c dead, none)
  | .notStarted | .returned => (w.manager.manager hw.wellFormed, none)

theorem view_call (hw : w.Sound) {call : MapCall κ}
    (h : step c message failing w (.call call) = some w') :
    w'.view c message (sound_step hw h) =
      (((w.view c message hw).1.call call).1, (w.view c message hw).2) := by
  cases step_move h with
  | called _ hphase =>
      have hcall := ConnectionSets.call_manager hw.wellFormed call
      obtain hphase | ⟨rest, dead, hphase⟩ := hphase
      · simp only [view, hphase]
        rw [hcall]
      · simp only [view, hphase]
        rw [hcall]

theorem view_broadcast (hw : w.Sound) {snapshot : List κ}
    (h : step c message failing w (.broadcast snapshot) = some w') :
    w'.view c message (sound_step hw h) =
      ((w.view c message hw).1, (w.view c message hw).1.broadcast c message) := by
  cases step_move h with
  | nobody _ hphase hempty =>
      have hnone : (w.manager.manager hw.wellFormed).broadcast c message = none := if_pos hempty
      simp only [view, hphase, hnone]
  | begins _ hphase hne _ hsnapshot =>
      have hregistered : w.manager.registered c ≠ ∅ := by
        rw [← hsnapshot]
        simpa using hne
      have hsome : (w.manager.manager hw.wellFormed).broadcast c message =
          some ⟨c, message, w.manager.registered c, []⟩ := if_neg hregistered
      simp only [view, hphase, hsome, hsnapshot]

theorem view_sent (hw : w.Sound) (h : step c message failing w .sent = some w') :
    ∃ k b, (w.view c message hw).2 = some b ∧
      b.sent k (decide (k ∉ failing)) (w.view c message hw).1 =
        some (w'.view c message (sound_step hw h)) := by
  cases step_move h with
  | sends k rest dead hphase =>
      have hnodup := hw.nodup
      rw [hphase] at hnodup
      have hk : k ∉ rest := (List.nodup_cons.1 hnodup).1
      have herase : (k :: rest).toFinset.erase k = rest.toFinset := by
        rw [List.toFinset_cons, Finset.erase_insert (by simpa using hk)]
      refine ⟨k, ⟨c, message, (k :: rest).toFinset, dead⟩, by simp only [view, hphase], ?_⟩
      have hdead : (if k ∈ failing then dead ++ [k] else dead) =
          Broadcast.deadAfter k (decide (k ∉ failing)) ⟨c, message, (k :: rest).toFinset, dead⟩ := by
        by_cases hfails : k ∈ failing <;> simp [Broadcast.deadAfter, hfails]
      unfold Broadcast.sent
      rw [if_pos (by simp), herase, ← hdead]
      by_cases hrest : rest = []
      · subst hrest
        simp [view, sent, hphase]
      · rw [if_neg (by simpa using hrest)]
        simp [view, sent, hphase, hrest]

theorem view_drop (hw : w.Sound) (h : step c message failing w .drop = some w') :
    w'.view c message (sound_step hw h) = w.view c message hw := by
  cases step_move h with
  | drops k dead hphase =>
      simp only [view, hphase]
      rw [← (ConnectionSets.unregister_manager hw.wellFormed c k).1]
      rfl
  | ends hphase =>
      simp only [view, hphase]
      rfl

/-! ## A failing socket -/

/-- In every state the map holds no empty set, so that the two methods report the first join and the
    last leave. Since the broadcast began nobody outside its snapshot is written; when it has returned,
    everybody in it whose send succeeds is written the frame once, and the failing ones are all that is
    missing from what the calls made of the map. -/
theorem failing_socket_harms_only_itself {es : List (DeliveryEvent κ)}
    (h : exec (step c message failing) init es = some w) :
    (∀ c' s, w.manager.find c' = some s → w.manager.sets s ≠ ∅) ∧
      (∀ c' k, ((w.manager.register c' k).2 = true ↔ w.manager.registered c' = ∅) ∧
        ((w.manager.unregister c' k).2 = true ↔ w.manager.registered c' = {k})) ∧
      ∀ es₀ snapshot fs w₀, es = es₀ ++ .broadcast snapshot :: fs →
        exec (step c message failing) init es₀ = some w₀ →
          (∀ k, k ∉ w₀.manager.registered c → w.written k = []) ∧
          (w.phase = .returned →
            (∀ k ∈ w₀.manager.registered c, k ∉ failing →
              w.written k = [Protocol.messageNew message]) ∧
            (w₀.manager.after (calls fs)).Without c (w₀.manager.registered c ∩ failing) w.manager) ∧
          w.Returns c message failing := by
  have hsound := sound_run h
  refine ⟨?_, ConnectionSets.reports hsound.wellFormed, ?_⟩
  · intro c' s hfind
    exact (hsound.wellFormed.nonempty c' s hfind).ne_empty
  · rintro es₀ snapshot fs w₀ rfl h₀
    obtain ⟨t, ht, hrest⟩ := exec_append_eq_some.1 h
    obtain rfl : w₀ = t := Option.some.inj (h₀.symm.trans ht)
    obtain ⟨w₁, hbegin, hrun⟩ := exec_cons_eq_some.1 hrest
    have hsound₀ := sound_run h₀
    have hunder := (hsound₀.underway hbegin).run hsound₀.wellFormed hrun
    refine ⟨?_, ?_, hunder.returns⟩
    · intro k hk
      rw [hunder.written k, if_neg (fun hall => hk hall.1)]
    · intro hphase
      have hstanding := hunder.standing
      rw [hphase] at hstanding
      refine ⟨?_, ?_⟩
      · intro k hk hfails
        rw [hunder.written k, hphase, if_pos ⟨hk, List.not_mem_nil, hfails⟩]
      · cases hstanding with
        | returned hmap => exact hmap

/-- Socket 1 fails. During its send both sockets leave, so that the set is deleted from the map, and
    socket 3 makes a new one; socket 1 joins that before the second send. -/
def staleSetRun : List (DeliveryEvent ℕ) :=
  [.call (.register ⟨1⟩ 0), .call (.register ⟨1⟩ 1), .call (.register ⟨2⟩ 2)] ++
    .broadcast [1, 0] :: [.call (.unregister ⟨1⟩ 1), .call (.unregister ⟨1⟩ 0),
      .call (.register ⟨1⟩ 3), .call (.register ⟨1⟩ 1), .sent, .sent, .drop, .drop]

theorem failing_socket_harms_only_itself_staleSet :
    ∃ w : Delivery ℕ, exec (step ⟨1⟩ MessageCodec.quotedReply {1}) init staleSetRun = some w ∧
      w.phase = .returned ∧ w.manager.registered ⟨1⟩ = {3} ∧
      w.written 0 = [Protocol.messageNew MessageCodec.quotedReply] ∧
      w.written 2 = [] ∧ w.written 3 = [] := by
  obtain ⟨w₀, h₀, hbegan, hother⟩ := exec_reaches (step ⟨1⟩ MessageCodec.quotedReply {1}) init
    [.call (.register ⟨1⟩ 0), .call (.register ⟨1⟩ 1), .call (.register ⟨2⟩ 2)]
    (fun w => 0 ∈ w.manager.registered ⟨1⟩ ∧ ∀ k ∈ [2, 3], k ∉ w.manager.registered ⟨1⟩) (by decide)
  obtain ⟨w, h, hphase, hmap⟩ := exec_reaches (step ⟨1⟩ MessageCodec.quotedReply {1}) init staleSetRun
    (fun w => w.phase = .returned ∧ w.manager.registered ⟨1⟩ = {3}) (by decide)
  obtain ⟨hunwritten, hend, -⟩ :=
    (failing_socket_harms_only_itself h).2.2 _ [1, 0] _ w₀ rfl h₀
  exact ⟨w, h, hphase, hmap, (hend hphase).1 0 hbegan (by decide), hunwritten 2 (hother 2 (by decide)),
    hunwritten 3 (hother 3 (by decide))⟩

end Delivery

end Dizzchat
