import Dizzchat.Realtime.Backend

set_option autoImplicit false

/-! # The seam between replay and live delivery

A socket registers and subscribes, then reads what it missed page by page, while messages go on
being committed and published. `replay_meetsLive`: when no Redis call and no send fails, every
published message beyond the cursor of a served socket has been written to it once its replica has
nothing left to deliver.

The argument is about where a published message is while it is on its way to a joined socket
(`OnItsWay`): written, in the inbox of the replica's pub/sub, in the broadcast under way, or still
to come from the replay. Registering and subscribing come before the first page is read, and
committing comes before publishing, so the message is always in one of these places. -/

namespace Dizzchat

open Transition

variable {ι ρ κ : Type*}

/-- A Redis call or a send fails. -/
def BackendEvent.fails : BackendEvent ι ρ κ → Bool
  | .exchange _ (.publish false) | .reader _ (.read .raises) | .reader _ (.closed false)
  | .reader _ (.resubscribed _ false) | .delivered _ _ false
  | .registry _ (.subscriber (.redis false)) | .replaySent _ false => true
  | _ => false

theorem delivered_succeeds {r : ρ} {k : κ} {succeeds : Bool}
    (he : (BackendEvent.delivered r k succeeds : BackendEvent ι ρ κ).fails = false) :
    succeeds = true := by
  cases succeeds with
  | false => cases he
  | true => rfl

/-! ## A replica without faults -/

/-- The reader has never had to reconnect. -/
def Reader.calm {δ : Type*} : Reader δ → Bool
  | .top | .polling | .waitingRead | .reading | .delivering _ => true
  | .backingOff | .waitingReconnect | .closing | .resubscribing _ | .ended => false

/-- A replica on which nothing has failed: the registry is sound, every recorded channel is
    subscribed, and the broadcast under way has no dead connection. -/
structure Sound (r : Replica κ κ) (calls : κ → RegistryCall κ) : Prop where
  registry : RegistryInv r.registry calls
  subscribed : r.registry.subscriber.channels ⊆ r.registry.subscriber.pubsub.subscribed
  calm : r.reader.calm = true
  delivering : ∀ b, r.reader = .delivering b →
    b.dead = [] ∧ b.conversationId = b.message.conversationId

theorem sound_init : Sound (Replica.init : Replica κ κ) fun _ => .returned where
  registry := registryInv_init
  subscribed := Finset.Subset.refl _
  calm := rfl
  delivering _ h := by cases h

theorem Sound.publish {r : Replica κ κ} {calls : κ → RegistryCall κ} (hr : Sound r calls)
    (message : Message) : Sound (r.publish message) calls where
  registry := registryInv_shrink hr.registry rfl rfl (fun _ => Finset.Subset.refl _) (fun _ => id)
  subscribed := by
    simpa [Replica.publish] using hr.subscribed
  calm := hr.calm
  delivering := hr.delivering

variable [DecidableEq κ]

/-- The reader's own steps, as long as no read raises. -/
theorem Sound.reader {r : Replica κ κ} {calls : κ → RegistryCall κ} (hr : Sound r calls)
    {step : ReaderStep} (hstep : step ≠ .read .raises) {subscriber : Subscriber κ}
    {reader : Reader (Broadcast κ)}
    (h : ReaderMove
      (fun message => r.registry.manager.broadcast message.conversationId message)
      r.registry.subscriber step r.reader subscriber reader) :
    Sound { registry := { r.registry with subscriber }, reader } calls := by
  obtain ⟨registry, reader₀⟩ := r
  have hcalm := hr.calm
  have hsub := hr.subscribed
  refine ⟨registryInv_shrink hr.registry rfl h.channels_eq (fun _ => Finset.Subset.refl _)
    (fun _ => id), ?_, ?_, ?_⟩
  · cases h with
    | polls | waits | wakes | reads | drops | delivers | skips | fails | backsOff | reconnects =>
        exact hsub
    | closesEmpty | closes | resubscribesLast | resubscribes | dies => cases hcalm
  · cases h with
    | polls | waits | wakes | reads | drops | delivers | skips => rfl
    | fails => exact absurd rfl hstep
    | backsOff | reconnects | closesEmpty | closes | resubscribesLast | resubscribes
    | dies => cases hcalm
  · intro b hb
    obtain rfl : reader = .delivering b := hb
    obtain ⟨-, message, inbox, -, hdeliver⟩ := h.of_delivering
    obtain ⟨-, rfl⟩ := ConnectionManager.broadcast_eq_some hdeliver
    exact ⟨rfl, rfl⟩

/-- A send of the broadcast under way succeeds. -/
theorem Sound.delivered {r : Replica κ κ} {calls : κ → RegistryCall κ} (hr : Sound r calls)
    {k : κ} {b : Broadcast κ} (hreader : r.reader = .delivering b) {m : ConnectionManager κ}
    {b' : Option (Broadcast κ)} (h : BroadcastMove k true b r.registry.manager m b') :
    m = r.registry.manager ∧
      Sound { registry := { r.registry with manager := m }, reader := Replica.afterSend b' } calls := by
  obtain ⟨hdead, hconv⟩ := hr.delivering b hreader
  have hafter : b.deadAfter k true = [] := hdead
  cases h with
  | goesOn hmem hmore =>
      refine ⟨rfl, hr.registry, hr.subscribed, rfl, fun b' hb' => ?_⟩
      cases hb'
      exact ⟨hafter, hconv⟩
  | finishes =>
      rw [hafter]
      exact ⟨rfl, hr.registry, hr.subscribed, rfl, fun b' hb' => by cases hb'⟩

omit [DecidableEq κ] in
/-- A recorded channel is subscribed before it is recorded, and forgotten before it is
    unsubscribed. -/
theorem SubscriberMove.subset {t : κ} {step : SubscriberStep} {s s' : Subscriber κ}
    {call call' : SubscriberCall} (h : SubscriberMove t s step call s' call')
    (hout : ∀ c, call = .unsubscribing c → conversationChannel c ∉ s.channels)
    (hs : s.channels ⊆ s.pubsub.subscribed) : s'.channels ⊆ s'.pubsub.subscribed := by
  cases h with
  | acquiresSubscribe | raisedSubscribe | raisedUnsubscribe => exact hs
  | subscribed => exact Finset.insert_subset_insert _ hs
  | acquiresUnsubscribe => exact (Finset.erase_subset _ _).trans hs
  | unsubscribed => exact Finset.subset_erase.2 ⟨hs, hout _ rfl⟩

theorem Sound.call {r : Replica κ κ} {calls : κ → RegistryCall κ} (hr : Sound r calls) {t : κ}
    {step : RegistryStep} {registry : ConversationRegistry κ κ} {l : RegistryCall κ}
    (h : RegistryMove t r.registry step (calls t) registry l) :
    Sound { r with registry } (Function.update calls t l) where
  registry := registryInv_call hr.registry h
  subscribed := by
    have hcons := hr.registry.consistent_call h.lock_free
    have hsub := hr.subscribed
    generalize calls t = l₀ at h hcons
    cases h with
    | joinsFirst | joins | leavesLast | leaves => exact hsub
    | subscribes h | joined h | rollsBack h =>
        refine h.subset (fun c hc => ?_) hsub
        rcases hcons.2.2.1 with heq | heq <;> cases heq.symm.trans hc
    | unsubscribes h | left h =>
        refine h.subset (fun c hc => ?_) hsub
        rcases hcons.2.1 with heq | ⟨heq, hout⟩
        · cases heq.symm.trans hc
        · cases heq.symm.trans hc
          exact hout
  calm := hr.calm
  delivering := hr.delivering

omit [DecidableEq κ] in
theorem Sound.start [DecidableEq κ] {r : Replica κ κ} {calls : κ → RegistryCall κ}
    (hr : Sound r calls) {t : κ} (ht : (calls t).locked = false) {l : RegistryCall κ}
    (hl : l.locked = false) : Sound r (Function.update calls t l) :=
  { hr with registry := registryInv_start hr.registry ht hl }

/-! ## The calls on a replica -/

/-- The registry calls that the handlers of the sockets of replica `r` are in. -/
def callsOn [DecidableEq ρ] (replica : κ → ρ) (handlers : κ → Handler κ) (r : ρ) (k : κ) :
    RegistryCall κ :=
  if replica k = r then (handlers k).call else .returned

section CallsOn

variable [DecidableEq ρ] {replica : κ → ρ} {handlers : κ → Handler κ} {replicas : ρ → Replica κ κ}
  {k : κ} {handler : Handler κ}

theorem callsOn_update (r : ρ) :
    callsOn replica (Function.update handlers k handler) r =
      if replica k = r then Function.update (callsOn replica handlers r) k handler.call
      else callsOn replica handlers r := by
  funext k'
  by_cases hr : replica k = r
  · rw [if_pos hr]
    rcases eq_or_ne k' k with rfl | hk
    · simp [callsOn, hr]
    · simp [callsOn, hk]
  · rw [if_neg hr]
    rcases eq_or_ne k' k with rfl | hk
    · simp [callsOn, hr]
    · simp [callsOn, hk]

/-- A handler that goes from one place outside the registry to another. -/
theorem sound_handler (hw : ∀ r, Sound (replicas r) (callsOn replica handlers r))
    (h : (handlers k).call.locked = false) (h' : handler.call.locked = false) (r : ρ) :
    Sound (replicas r) (callsOn replica (Function.update handlers k handler) r) := by
  rw [callsOn_update]
  split
  · next hr => exact (hw r).start (by rwa [callsOn, if_pos hr]) h'
  · exact hw r

/-- A step of the registry call of a handler. -/
theorem sound_registryStep (hw : ∀ r, Sound (replicas r) (callsOn replica handlers r))
    {step : RegistryStep} {registry : ConversationRegistry κ κ} {l : RegistryCall κ}
    (h : RegistryMove k (replicas (replica k)).registry step (handlers k).call registry l)
    (hafter : handler.call = l ∨ l.locked = false ∧ handler.call.locked = false) (r : ρ) :
    Sound (Function.update replicas (replica k) { replicas (replica k) with registry } r)
      (callsOn replica (Function.update handlers k handler) r) := by
  rw [callsOn_update]
  rcases eq_or_ne r (replica k) with rfl | hr
  · have hcall : (handlers k).call = callsOn replica handlers (replica k) k := by simp [callsOn]
    have hsound := (hw (replica k)).call (hcall ▸ h)
    rw [Function.update_self, if_pos rfl]
    rcases hafter with heq | ⟨hl, hend⟩
    · rwa [heq]
    · have hstart := hsound.start (t := k) (by rwa [Function.update_self]) hend
      rwa [Function.update_idem] at hstart
  · rw [Function.update_of_ne hr, if_neg (Ne.symm hr)]
    exact hw r

end CallsOn

variable {T : Traffic ι ρ κ}

/-- The registry calls of the sockets of a replica. -/
def Backend.calls [DecidableEq ρ] (T : Traffic ι ρ κ) (w : Backend ι ρ κ) (r : ρ) (k : κ) :
    RegistryCall κ :=
  if T.replica k = r then (w.sockets k).handler.call else .returned

section Calls

variable [DecidableEq ρ] {w : Backend ι ρ κ} {k : κ} {socket : Socket κ}

theorem calls_setSocket (r : ρ) :
    (w.setSocket k socket).calls T r =
      callsOn T.replica (Function.update (fun k => (w.sockets k).handler) k socket.handler) r := by
  funext k'
  rcases eq_or_ne k' k with rfl | hk
  · simp [Backend.calls, callsOn]
  · simp [Backend.calls, callsOn, hk, Backend.setSocket_of_ne hk]

theorem calls_setSocket_of_handler_eq (h : socket.handler = (w.sockets k).handler) (r : ρ) :
    (w.setSocket k socket).calls T r = w.calls T r := by
  rw [calls_setSocket, Function.update_eq_self_iff.2 h]
  rfl

/-- A handler that goes from one place outside the registry to another. -/
theorem sound_setSocket (hw : ∀ r, Sound (w.replicas r) (w.calls T r))
    (h : (w.sockets k).handler.call.locked = false) (h' : socket.handler.call.locked = false)
    (r : ρ) : Sound ((w.setSocket k socket).replicas r) ((w.setSocket k socket).calls T r) := by
  have hcalls : ∀ r, Sound (w.replicas r) (callsOn T.replica (fun k => (w.sockets k).handler) r) := hw
  rw [calls_setSocket]
  exact sound_handler hcalls h h' r

/-- A step of the registry call of a handler. -/
theorem sound_registry (hw : ∀ r, Sound (w.replicas r) (w.calls T r)) {step : RegistryStep}
    {registry : ConversationRegistry κ κ} {l : RegistryCall κ}
    (h : RegistryMove k (w.replicas (T.replica k)).registry step (w.sockets k).handler.call
      registry l)
    (hafter : socket.handler.call = l ∨ l.locked = false ∧ socket.handler.call.locked = false)
    (r : ρ) :
    Sound (((w.setReplica (T.replica k) { w.replicas (T.replica k) with registry }).setSocket k
        socket).replicas r)
      (((w.setReplica (T.replica k) { w.replicas (T.replica k) with registry }).setSocket k
        socket).calls T r) := by
  have hcalls : ∀ r, Sound (w.replicas r) (callsOn T.replica (fun k => (w.sockets k).handler) r) := hw
  rw [calls_setSocket]
  exact sound_registryStep hcalls h hafter r

end Calls

omit [DecidableEq κ] in
theorem afterJoin_call (lastSeenSeq : Option MessageId) (l : RegistryCall κ) :
    (Handler.afterJoin lastSeenSeq l).call = l ∨
      l.locked = false ∧ (Handler.afterJoin lastSeenSeq l).call.locked = false := by
  cases l with
  | returned => cases lastSeenSeq <;> exact .inl rfl
  | raised => exact .inr ⟨rfl, rfl⟩
  | waitingJoin | subscribing | waitingLeave | unsubscribing => exact .inl rfl

omit [DecidableEq κ] in
theorem afterLeave_call (l : RegistryCall κ) :
    (Handler.afterLeave l).call = l ∨
      l.locked = false ∧ (Handler.afterLeave l).call.locked = false := by
  cases l with
  | returned | waitingJoin | subscribing | waitingLeave | unsubscribing => exact .inl rfl
  | raised => exact .inr ⟨rfl, rfl⟩

omit [DecidableEq κ] in
theorem afterSend_call (missed : List Message) :
    (Handler.afterSend missed : Handler κ).call = .returned := by
  cases missed <;> rfl

omit [DecidableEq κ] in
theorem afterRead_call (replay : Replay) :
    (Handler.afterRead replay : Handler κ).call = .returned := by
  cases replay with
  | reading => rfl
  | finished => exact afterSend_call _

variable [DecidableEq ι] [DecidableEq ρ]

/-- Without faults every replica stays sound. -/
theorem sound_step {w w' : Backend ι ρ κ} {e : BackendEvent ι ρ κ} (he : e.fails = false)
    (hw : ∀ r, Sound (w.replicas r) (w.calls T r)) (h : BackendMove T w e w') :
    ∀ r, Sound (w'.replicas r) (w'.calls T r) := by
  intro r
  cases h with
  | @exchange i step chat call h =>
      cases hpub : (w.chat.proc i).published step with
      | none => exact hw r
      | some message => exact (hw r).publish message
  | @reader r' step subscriber reader h =>
      have hcalls : ∀ replica, (w.setReplica r' replica).calls T = w.calls T := fun _ => rfl
      rw [hcalls]
      refine Backend.setReplica_keeps (P := fun replica => Sound replica (w.calls T r)) (hw r) ?_
      rintro rfl
      exact (hw r).reader (by rintro rfl; cases he) h
  | @delivered r' k succeeds b m b' hreader h =>
      -- the send writes to the socket and leaves its handler where it is
      obtain rfl := delivered_succeeds he
      rw [calls_setSocket_of_handler_eq (by rfl), Backend.setSocket_replicas]
      have hcalls : ∀ replica, (w.setReplica r' replica).calls T = w.calls T := fun _ => rfl
      rw [hcalls]
      refine Backend.setReplica_keeps (P := fun replica => Sound replica (w.calls T r)) (hw r) ?_
      rintro rfl
      exact ((hw r).delivered hreader h).2
  | connect hhandler => exact sound_setSocket hw (by rw [hhandler]; rfl) rfl r
  | @join k step call call' registry hhandler h =>
      exact sound_registry hw (by rwa [hhandler]) (afterJoin_call _ _) r
  | @leaveStep k step call call' registry hhandler h =>
      exact sound_registry hw (by rwa [hhandler]) (afterLeave_call _) r
  | readPage hhandler =>
      exact sound_setSocket hw (by rw [hhandler]; rfl) (by simp only [afterRead_call]; rfl) r
  | @replaySent k succeeds message missed hhandler =>
      refine sound_setSocket hw (by rw [hhandler]; rfl) ?_ r
      cases succeeds with
      | false => rfl
      | true => simp only [if_true, afterSend_call]; rfl
  | cut =>
      rw [calls_setSocket_of_handler_eq (by rfl)]
      exact hw r
  | @leave k hjoined =>
      refine sound_setSocket hw ?_ rfl r
      cases hhandler : (w.sockets k).handler <;> rw [hhandler] at hjoined <;>
        first | rfl | cases hjoined

/-! ## Joined sockets are registered -/

omit [DecidableEq ι] [DecidableEq ρ] [DecidableEq κ] in
/-- The registry call of a handler is about its own socket and conversation. -/
def Handler.Addressed (c : ConversationId) (k : κ) : Handler κ → Prop
  | .joining (.waitingJoin c' k') | .joining (.subscribing c' k' _)
  | .leaving (.waitingLeave c' k') | .leaving (.unsubscribing c' k' _) => c' = c ∧ k' = k
  | .joining _ | .leaving _ => False
  | .authenticating | .replaying .. | .sending _ | .serving | .closed => True

omit [DecidableEq ι] [DecidableEq ρ] [DecidableEq κ] in
/-- A call of `join` is not one of `leave`. -/
theorem Handler.Addressed.not_leaving {c : ConversationId} {k : κ} {l : RegistryCall κ}
    (h : (Handler.joining l).Addressed c k) : ¬ (Handler.leaving l).Addressed c k := by
  cases l with
  | waitingJoin | subscribing => exact id
  | waitingLeave | unsubscribing | returned | raised => exact h.elim

omit [DecidableEq ι] [DecidableEq κ] in
/-- A replica receives the publications of the conversations of its registered sockets, of all that
    are not just joining. -/
theorem subscribed_of_registered {r : Replica κ κ} {replica : κ → ρ} {conversation : κ → ConversationId}
    {handlers : κ → Handler κ} {r₀ : ρ} (hr : Sound r (callsOn replica handlers r₀))
    (haddressed : ∀ k, (handlers k).Addressed (conversation k) k) {k : κ}
    (hk : k ∈ r.registry.manager.registered (conversation k))
    (hjoined : ∀ call, handlers k ≠ .joining call) :
    conversationChannel (conversation k) ∈ r.registry.subscriber.pubsub.subscribed := by
  refine hr.subscribed (hr.registry.channel_mem hk fun t call hcall => ?_)
  -- only `k` itself could be subscribing its own registration
  have ht := haddressed t
  unfold callsOn at hcall
  split at hcall
  · cases hhandler : handlers t with
    | joining =>
        rw [hhandler] at hcall ht
        cases hcall
        obtain ⟨-, rfl⟩ := ht
        exact hjoined _ hhandler
    | leaving =>
        rw [hhandler] at hcall ht
        cases hcall
        exact ht.elim
    | authenticating | replaying | sending | serving | closed =>
        rw [hhandler] at hcall
        cases hcall
  · cases hcall

section Addressed

variable {c : ConversationId} {k t : κ} {step : RegistryStep} {s s' : ConversationRegistry κ κ}
  {l l' : RegistryCall κ}

omit [DecidableEq ι] [DecidableEq ρ] in
theorem RegistryMove.addressed_join (h : RegistryMove t s step l s' l')
    (hl : (Handler.joining l).Addressed c k) (lastSeenSeq : Option MessageId) :
    (Handler.afterJoin lastSeenSeq l').Addressed c k := by
  cases h with
  | joinsFirst => exact hl
  | joins | joined => cases lastSeenSeq <;> trivial
  | @subscribes _ _ _ call call' => cases call' <;> exact hl
  | rollsBack => trivial
  | leavesLast | leaves | unsubscribes | left => exact hl.elim

omit [DecidableEq ι] [DecidableEq ρ] in
theorem RegistryMove.addressed_leave (h : RegistryMove t s step l s' l')
    (hl : (Handler.leaving l).Addressed c k) : (Handler.afterLeave l').Addressed c k := by
  cases h with
  | leavesLast => exact hl
  | leaves => trivial
  | unsubscribes => exact hl
  | left _ hend => rcases hend with ⟨-, rfl⟩ | ⟨-, rfl⟩ <;> trivial
  | joinsFirst | joins | subscribes | joined | rollsBack => exact hl.elim

omit [DecidableEq ι] [DecidableEq ρ] in
/-- A call takes no connection out of the map but its own. -/
theorem RegistryMove.mem_registered (h : RegistryMove t s step l s' l')
    (hl : (Handler.joining l).Addressed c k ∨ (Handler.leaving l).Addressed c k) {c' : ConversationId}
    {k' : κ} (hne : k' ≠ k) (hk : k' ∈ s.manager.registered c') :
    k' ∈ s'.manager.registered c' := by
  have hregister : ∀ c₀ k₀, k' ∈ (s.manager.register c₀ k₀).1.registered c' := by
    intro c₀ k₀
    rcases eq_or_ne c' c₀ with rfl | hc
    · rw [ConnectionManager.register_registered]
      exact Finset.mem_insert_of_mem hk
    · rwa [ConnectionManager.register_registered_of_ne hc]
  have hunregister : ∀ c₀, k' ∈ (s.manager.unregister c₀ k).1.registered c' := by
    intro c₀
    rcases eq_or_ne c' c₀ with rfl | hc
    · rw [ConnectionManager.unregister_registered]
      exact Finset.mem_erase.2 ⟨hne, hk⟩
    · rwa [ConnectionManager.unregister_registered_of_ne hc]
  cases h with
  | joinsFirst | joins => exact hregister _ _
  | subscribes | joined | unsubscribes | left => exact hk
  | rollsBack | leavesLast | leaves =>
      -- the connection these take out is the one of the call, and a joining call does not leave
      rcases hl with hl | hl
      all_goals first
        | exact hl.elim
        | (obtain ⟨-, rfl⟩ := hl; exact hunregister _)

omit [DecidableEq ι] [DecidableEq ρ] in
/-- A socket whose `join` returns is registered. -/
theorem RegistryMove.mem_of_joined (h : RegistryMove t s step l s' .returned)
    (hl : (Handler.joining l).Addressed c k) (hs : s.Consistent l) :
    k ∈ s'.manager.registered c := by
  generalize hend : (RegistryCall.returned : RegistryCall κ) = l' at h
  cases h with
  | joins =>
      obtain ⟨rfl, rfl⟩ := hl
      simp only
      rw [ConnectionManager.register_registered]
      exact Finset.mem_insert_self _ _
  | joined =>
      obtain ⟨rfl, rfl⟩ := hl
      simp only
      rw [hs.1]
      exact Finset.mem_singleton_self _
  | leaves | left => exact hl.elim
  | joinsFirst | subscribes | rollsBack | leavesLast | unsubscribes => cases hend

end Addressed

/-! ## Where a published message is -/

/-- The message was stored before the run, or an exchange has handed it over. -/
def Backend.Published (stored : List Message) (message : Message) (w : Backend ι ρ κ) : Prop :=
  message ∈ stored ∨ ∃ i, (i, message) ∈ w.chat.shared.broadcasts

/-- The message is in the inbox of the replica, or in its broadcast and still to be sent to `k`. -/
def Replica.Carries (k : κ) (message : Message) (r : Replica κ κ) : Prop :=
  message ∈ r.registry.subscriber.pubsub.inbox ∨
    ∃ b, r.reader = .delivering b ∧ b.message = message ∧ k ∈ b.todo

/-- The message has been written to socket `k`, or is on its way to it. -/
def Backend.OnItsWay (T : Traffic ι ρ κ) (k : κ) (message : Message) (w : Backend ι ρ κ) : Prop :=
  message ∈ (w.sockets k).written ∨ (w.replicas (T.replica k)).Carries k message ∨
    (w.sockets k).handler.StillSends message

/-- The invariant of the runs in which nothing fails. -/
structure SeamInv (T : Traffic ι ρ κ) (stored : List Message) (w : Backend ι ρ κ) : Prop where
  store : ExchangeInv T.request w.chat
  kept : stored ⊆ w.rows
  sound : ∀ r, Sound (w.replicas r) (w.calls T r)
  addressed : ∀ k, (w.sockets k).handler.Addressed (T.conversation k) k
  registered : ∀ k, (w.sockets k).handler.joined = true →
    k ∈ (w.replicas (T.replica k)).registry.manager.registered (T.conversation k)
  onItsWay : ∀ k cursor, (w.sockets k).handler.joined = true →
    (w.sockets k).lastSeenSeq = some cursor → ∀ m, w.Published stored m →
      m.conversationId = T.conversation k → cursor.value < m.id.value → w.OnItsWay T k m

omit [DecidableEq κ] in
theorem seamInv_init {stored : List Message} {lastSeq : Int}
    (hstored : stored.Pairwise fun a b => Message.clash a b = false) :
    SeamInv T stored (Backend.init stored lastSeq : Backend ι ρ κ) where
  store := exchangeInv_init hstored
  kept := List.Subset.refl _
  sound r := by
    have hcalls : (Backend.init stored lastSeq : Backend ι ρ κ).calls T r = fun _ => .returned := by
      funext k
      simp [Backend.calls, Backend.init, Handler.call]
    rw [hcalls]
    exact sound_init
  addressed _ := trivial
  registered _ h := by cases h
  onItsWay _ _ h := by cases h

section Step

variable {stored : List Message} {w w' : Backend ι ρ κ} {e : BackendEvent ι ρ κ}

omit [DecidableEq κ] in
/-- What is published is committed. -/
theorem SeamInv.committed (hw : SeamInv T stored w) {m : Message} (hm : w.Published stored m) :
    m ∈ w.rows := by
  rcases hm with hm | ⟨i, hm⟩
  · exact hw.kept hm
  · exact hw.store.handed_committed hm

omit [DecidableEq κ] in
/-- A replica receives the publications of the conversations of its joined sockets. -/
theorem SeamInv.subscribed (hw : SeamInv T stored w) {k : κ}
    (hk : (w.sockets k).handler.joined = true) :
    conversationChannel (T.conversation k) ∈
      (w.replicas (T.replica k)).registry.subscriber.pubsub.subscribed := by
  have hsound : Sound (w.replicas (T.replica k))
      (callsOn T.replica (fun k => (w.sockets k).handler) (T.replica k)) := hw.sound (T.replica k)
  refine subscribed_of_registered hsound hw.addressed (hw.registered k hk) fun call hcall => ?_
  rw [hcall] at hk
  cases hk

omit [DecidableEq ι] [DecidableEq ρ] [DecidableEq κ] in
theorem addressed_afterSend (c : ConversationId) (k : κ) (missed : List Message) :
    (Handler.afterSend missed : Handler κ).Addressed c k := by
  cases missed <;> trivial

omit [DecidableEq ι] [DecidableEq ρ] [DecidableEq κ] in
theorem addressed_afterRead (c : ConversationId) (k : κ) (replay : Replay) :
    (Handler.afterRead replay : Handler κ).Addressed c k := by
  cases replay with
  | reading => trivial
  | finished => exact addressed_afterSend c k _

theorem addressed_step (hw : SeamInv T stored w) (h : BackendMove T w e w') (k : κ) :
    (w'.sockets k).handler.Addressed (T.conversation k) k := by
  have hset : ∀ (v : Backend ι ρ κ) (k' : κ) (socket : Socket κ), v.sockets = w.sockets →
      socket.handler.Addressed (T.conversation k') k' →
      ((v.setSocket k' socket).sockets k).handler.Addressed (T.conversation k) k := by
    intro v k' socket hv hsocket
    refine Backend.setSocket_keeps (P := fun s => s.handler.Addressed (T.conversation k) k) ?_ ?_
    · rw [hv]
      exact hw.addressed k
    · rintro rfl
      exact hsocket
  cases h with
  | exchange =>
      rw [Backend.publish_sockets]
      exact hw.addressed k
  | reader => exact hw.addressed k
  | @delivered r k' succeeds => exact hset _ _ _ rfl (by cases succeeds <;> exact hw.addressed k')
  | connect => exact hset _ _ _ rfl ⟨rfl, rfl⟩
  | @join k' step call call' registry hhandler h =>
      exact hset _ _ _ rfl (h.addressed_join (hhandler ▸ hw.addressed k') _)
  | @leaveStep k' step call call' registry hhandler h =>
      exact hset _ _ _ rfl (h.addressed_leave (hhandler ▸ hw.addressed k'))
  | readPage => exact hset _ _ _ rfl (addressed_afterRead ..)
  | @replaySent k' succeeds =>
      refine hset _ _ _ rfl ?_
      cases succeeds with
      | false => exact ⟨rfl, rfl⟩
      | true => exact addressed_afterSend ..
  | @cut k' => exact hset _ _ _ rfl (hw.addressed k')
  | leave => exact hset _ _ _ rfl ⟨rfl, rfl⟩

/-- A socket that has joined stays registered: nobody else takes it out of the map. -/
theorem registered_stays (he : e.fails = false) (hw : SeamInv T stored w)
    (h : BackendMove T w e w') {k : κ} (hk : (w.sockets k).handler.joined = true) :
    k ∈ (w'.replicas (T.replica k)).registry.manager.registered (T.conversation k) := by
  have hreg := hw.registered k hk
  have hset : ∀ (r : ρ) (replica : Replica κ κ),
      (∀ c, k ∈ (w.replicas r).registry.manager.registered c →
        k ∈ replica.registry.manager.registered c) →
      k ∈ ((w.setReplica r replica).replicas (T.replica k)).registry.manager.registered
        (T.conversation k) := by
    intro r replica hreplica
    refine Backend.setReplica_keeps
      (P := fun replica => k ∈ replica.registry.manager.registered (T.conversation k)) hreg ?_
    rintro rfl
    exact hreplica _ hreg
  cases h with
  | @exchange i step =>
      cases hpub : (w.chat.proc i).published step <;> exact hreg
  | reader => exact hset _ _ fun _ => id
  | @delivered r k' succeeds b m b' hreader h =>
      obtain rfl := delivered_succeeds he
      obtain ⟨rfl, -⟩ := (hw.sound r).delivered hreader h
      exact hset _ _ fun _ => id
  | @join k' step call call' registry hhandler h =>
      have hne : k ≠ k' := by
        rintro rfl
        rw [hhandler] at hk
        cases hk
      exact hset _ _ fun _ => h.mem_registered (.inl (hhandler ▸ hw.addressed k')) hne
  | @leaveStep k' step call call' registry hhandler h =>
      have hne : k ≠ k' := by
        rintro rfl
        rw [hhandler] at hk
        cases hk
      exact hset _ _ fun _ => h.mem_registered (.inr (hhandler ▸ hw.addressed k')) hne
  | connect | readPage | replaySent | cut | leave => exact hreg

omit [DecidableEq ι] [DecidableEq ρ] [DecidableEq κ] in
/-- A socket joins when the `join` of its handler returns. -/
theorem SocketMove.arrives {rows : List Message} {k : κ} {s s' : Socket κ}
    (h : SocketMove T rows k e s s') (hs' : s'.handler.joined = true) :
    s'.lastSeenSeq = s.lastSeenSeq ∧ (s.handler.joined = true ∨
      (∃ step call, e = .registry k step ∧ s.handler = .joining call) ∧
        s'.handler = Handler.afterJoin s.lastSeenSeq .returned) := by
  cases h with
  | stays | cut => exact ⟨rfl, .inl hs'⟩
  | delivered r m succeeds => cases succeeds <;> exact ⟨rfl, .inl hs'⟩
  | connect | leave => cases hs'
  | join call' h =>
      cases call' with
      | returned => exact ⟨rfl, .inr ⟨⟨_, _, rfl, h⟩, rfl⟩⟩
      | waitingJoin | subscribing | waitingLeave | unsubscribing | raised => cases hs'
  | leaveStep call' h => cases call' <;> cases hs'
  | readPage h => exact ⟨rfl, .inl (by rw [h]; rfl)⟩
  | @replaySent _ succeeds _ _ h => exact ⟨by cases succeeds <;> rfl, .inl (by rw [h]; rfl)⟩

theorem registered_step (he : e.fails = false) (hw : SeamInv T stored w) (h : BackendMove T w e w')
    (k : κ) (hk : (w'.sockets k).handler.joined = true) :
    k ∈ (w'.replicas (T.replica k)).registry.manager.registered (T.conversation k) := by
  rcases ((h.socket k).arrives hk).2 with hjoined | ⟨⟨step, call, rfl, hjoining⟩, -⟩
  · exact registered_stays he hw h hjoined
  · cases h with
    | @join _ _ call₀ call' registry hhandler h =>
        rw [Backend.setSocket_self] at hk
        rw [Backend.setSocket_replicas, Backend.setReplica_self]
        cases call' with
        | returned =>
            -- the registry is as the `join` left it, with its connection in the map
            have hcall : w.calls T (T.replica k) k = call₀ := by
              simp [Backend.calls, hhandler, Handler.call]
            have hcons := (hw.sound (T.replica k)).registry.consistent_call (t := k)
              (by rw [hcall]; exact h.lock_free)
            exact h.mem_of_joined (hhandler ▸ hw.addressed k) (hcall ▸ hcons)
        | waitingJoin | subscribing | waitingLeave | unsubscribing | raised => cases hk
    | leaveStep hhandler => cases hjoining.symm.trans hhandler

/-! ## The way of a message -/

omit [DecidableEq κ] in
theorem SubscriberMove.inbox_eq {t : κ} {step : SubscriberStep} {s s' : Subscriber κ}
    {call call' : SubscriberCall} (h : SubscriberMove t s step call s' call') :
    s'.pubsub.inbox = s.pubsub.inbox := by
  cases h <;> rfl

/-- Joining and leaving take no message out of the inbox. -/
theorem RegistryMove.inbox_eq {t : κ} {step : RegistryStep} {s s' : ConversationRegistry κ κ}
    {l l' : RegistryCall κ} (h : RegistryMove t s step l s' l') :
    s'.subscriber.pubsub.inbox = s.subscriber.pubsub.inbox := by
  cases h with
  | joinsFirst | joins | leavesLast | leaves => rfl
  | subscribes h | joined h | rollsBack h | unsubscribes h | left h => exact h.inbox_eq

omit [DecidableEq ρ] in
/-- The reader loses no message of a registered socket. -/
theorem ReaderMove.carries {r : Replica κ κ} (hcalm : r.reader.calm = true) {k : κ} {m : Message}
    (hk : k ∈ r.registry.manager.registered m.conversationId) {step : ReaderStep}
    {subscriber : Subscriber κ} {reader : Reader (Broadcast κ)}
    (h : ReaderMove
      (fun message => r.registry.manager.broadcast message.conversationId message)
      r.registry.subscriber step r.reader subscriber reader) (hr : r.Carries k m) :
    Replica.Carries k m { registry := { r.registry with subscriber }, reader } := by
  obtain ⟨registry, reader₀⟩ := r
  rcases hr with hin | ⟨b, hb, hm, hk'⟩
  · cases h with
    | polls | waits | wakes | reads | skips | fails | backsOff => exact .inl hin
    | @drops message inbox hinbox hdeliver =>
        rw [hinbox] at hin
        rcases List.mem_cons.1 hin with rfl | hin
        · rw [ConnectionManager.broadcast_eq_none hdeliver] at hk
          exact absurd hk (Finset.notMem_empty k)
        · exact .inl hin
    | @delivers message inbox delivery hinbox hdeliver =>
        rw [hinbox] at hin
        rcases List.mem_cons.1 hin with rfl | hin
        · obtain ⟨-, rfl⟩ := ConnectionManager.broadcast_eq_some hdeliver
          exact .inr ⟨_, rfl, rfl, hk⟩
        · exact .inl hin
    | reconnects | closesEmpty | closes | resubscribesLast | resubscribes | dies => cases hcalm
  · obtain rfl : reader₀ = .delivering b := hb
    cases h

omit [DecidableEq ι] [DecidableEq ρ] [DecidableEq κ] in
theorem Replica.Carries.publish {k : κ} {m : Message} {r : Replica κ κ} (hr : r.Carries k m)
    (message : Message) : (r.publish message).Carries k m := by
  rcases hr with hin | hdelivering
  · refine .inl ?_
    unfold Replica.publish PubSub.publish
    split
    · exact List.mem_append_left _ hin
    · exact hin
  · exact .inr hdelivering

omit [DecidableEq ι] [DecidableEq ρ] in
/-- A send of the broadcast brings its message to `k`, or leaves it to be sent. -/
theorem BroadcastMove.carries {r : Replica κ κ} {k k' : κ} {m : Message} {b : Broadcast κ}
    (hreader : r.reader = .delivering b) {succeeds : Bool} {manager : ConnectionManager κ}
    {b' : Option (Broadcast κ)} (h : BroadcastMove k' succeeds b r.registry.manager manager b')
    (hr : r.Carries k m) :
    k = k' ∧ b.message = m ∨
      Replica.Carries k m
        { registry := { r.registry with manager }, reader := Replica.afterSend b' } := by
  rcases hr with hin | ⟨b₀, hb₀, hm, hk⟩
  · exact .inr (.inl hin)
  · obtain rfl : b = b₀ := Reader.delivering.inj (hreader.symm.trans hb₀)
    rcases eq_or_ne k k' with rfl | hne
    · exact .inl ⟨rfl, hm⟩
    · cases h with
      | goesOn => exact .inr (.inr ⟨_, rfl, hm, Finset.mem_erase.2 ⟨hne, hk⟩⟩)
      | finishes hlast =>
          rw [hlast, Finset.mem_singleton] at hk
          exact absurd hk hne

/-- What the replica of a joined socket carries for it, it writes to it or goes on carrying. -/
theorem carries_step (he : e.fails = false) (hw : SeamInv T stored w) (h : BackendMove T w e w')
    {k : κ} (hk : (w.sockets k).handler.joined = true) {m : Message}
    (hconv : m.conversationId = T.conversation k)
    (hm : (w.replicas (T.replica k)).Carries k m) :
    m ∈ (w'.sockets k).written ∨ (w'.replicas (T.replica k)).Carries k m := by
  have hset : ∀ (r : ρ) (replica : Replica κ κ),
      ((w.replicas r).Carries k m → replica.Carries k m) →
      ((w.setReplica r replica).replicas (T.replica k)).Carries k m := by
    intro r replica hreplica
    refine Backend.setReplica_keeps (P := Replica.Carries k m) hm ?_
    rintro rfl
    exact hreplica hm
  cases h with
  | @exchange i step =>
      refine .inr ?_
      cases hpub : (w.chat.proc i).published step with
      | none => exact hm
      | some message => exact hm.publish message
  | @reader r step subscriber reader h =>
      rcases eq_or_ne (T.replica k) r with rfl | hr
      · rw [Backend.setReplica_self]
        refine .inr (h.carries (hw.sound _).calm ?_ hm)
        rw [hconv]
        exact hw.registered k hk
      · rw [Backend.setReplica_of_ne hr]
        exact .inr hm
  | @delivered r k' succeeds b manager b' hreader h =>
      obtain rfl := delivered_succeeds he
      rcases eq_or_ne (T.replica k) r with rfl | hr
      · -- it is the send to `k`, or one to somebody else
        rcases h.carries hreader hm with ⟨rfl, hmessage⟩ | hcarries
        · rw [Backend.setSocket_self, ← hmessage]
          exact .inl (List.mem_append_right _ List.mem_cons_self)
        · rw [Backend.setSocket_replicas, Backend.setReplica_self]
          exact .inr hcarries
      · rw [Backend.setSocket_replicas, Backend.setReplica_of_ne hr]
        exact .inr hm
  | join _ h | leaveStep _ h =>
      refine .inr (hset _ _ fun hcarries => ?_)
      unfold Replica.Carries
      rw [h.inbox_eq]
      exact hcarries
  | connect | readPage | replaySent | cut | leave => exact .inr hm

omit [DecidableEq ι] [DecidableEq ρ] [DecidableEq κ] in
theorem carries_publish {k : κ} {m : Message} {r : Replica κ κ}
    (h : conversationChannel m.conversationId ∈ r.registry.subscriber.pubsub.subscribed) :
    (r.publish m).Carries k m := by
  refine .inl ?_
  unfold Replica.publish PubSub.publish
  rw [if_pos h]
  exact List.mem_append_right _ List.mem_cons_self

/-- A message is published in this step, or has been before. -/
theorem published_step (he : e.fails = false) (h : BackendMove T w e w') {m : Message}
    (hm : w'.Published stored m) :
    w.Published stored m ∨ ∀ r, w'.replicas r = (w.replicas r).publish m := by
  rcases hm with hm | ⟨j, hm⟩
  · exact .inl (.inl hm)
  · cases h with
    | @exchange i step chat call h =>
        rw [Backend.publish_chat] at hm
        simp only [exchange_published (by rintro rfl; cases he) h, List.mem_append] at hm
        rcases hm with hm | hm
        · exact .inl (.inr ⟨j, hm⟩)
        · obtain ⟨m', hm', heq⟩ := List.mem_map.1 hm
          cases heq
          rw [Option.mem_toList] at hm'
          rw [Option.mem_def.1 hm']
          exact .inr fun _ => rfl
    | reader | delivered | connect | join | leaveStep | readPage | replaySent | cut | leave =>
        exact .inl (.inr ⟨j, hm⟩)

theorem onItsWay_step (he : e.fails = false) (hw : SeamInv T stored w) (h : BackendMove T w e w')
    {k : κ} {cursor : MessageId} (hk : (w'.sockets k).handler.joined = true)
    (hcursor : (w'.sockets k).lastSeenSeq = some cursor) {m : Message}
    (hm : w'.Published stored m) (hconv : m.conversationId = T.conversation k)
    (hseq : cursor.value < m.id.value) : w'.OnItsWay T k m := by
  obtain ⟨hlast, harrives⟩ := (h.socket k).arrives hk
  rw [hlast] at hcursor
  rcases harrives with hjoined | ⟨-, harrives⟩
  · rcases published_step he h hm with hpublished | hpublishes
    · rcases hw.onItsWay k cursor hjoined hcursor m hpublished hconv hseq with
        hwritten | hcarries | hsends
      · exact .inl ((h.socket k).written_subset hwritten)
      · exact (carries_step he hw h hjoined hconv hcarries).imp_right .inl
      · rcases (h.socket k).stillSends (Backend.rows_inj hw.store) (hw.committed hpublished) hconv
          hsends with hwritten | hsends | ⟨call, hleaves⟩
        · exact .inl hwritten
        · exact .inr (.inr hsends)
        · rw [hleaves] at hk
          cases hk
    · -- the publication finds the replica subscribed
      rw [Backend.OnItsWay, hpublishes]
      exact .inr (.inl (carries_publish (hconv ▸ hw.subscribed hjoined)))
  · -- the replay has not read a page yet
    refine .inr (.inr ?_)
    rw [harrives, hcursor]
    exact .inr (Message.isAfter_some.2 hseq)

theorem seamInv_step (he : e.fails = false) (hw : SeamInv T stored w) (h : BackendMove T w e w') :
    SeamInv T stored w' where
  store := h.exchangeInv hw.store
  kept _ hm := h.rows_subset hw.store (hw.kept hm)
  sound := sound_step he hw.sound h
  addressed := addressed_step hw h
  registered := registered_step he hw h
  onItsWay _ _ hk hcursor _ hm hconv hseq := onItsWay_step he hw h hk hcursor hm hconv hseq

end Step

/-! ## The result -/

/-- No gap at the seam: in a run in which nothing fails, every published message beyond the cursor
    of a served socket has been written to it once its replica has nothing left to deliver. -/
theorem replay_meetsLive (T : Traffic ι ρ κ) {stored : List Message} {lastSeq : Int}
    (hstored : stored.Pairwise fun a b => Message.clash a b = false)
    {es : List (BackendEvent ι ρ κ)} {w : Backend ι ρ κ}
    (h : exec (Backend.step T) (Backend.init stored lastSeq) es = some w)
    (hfails : ∀ e ∈ es, e.fails = false) {k : κ} {cursor : MessageId}
    (hserving : (w.sockets k).handler = .serving)
    (hcursor : (w.sockets k).lastSeenSeq = some cursor)
    (hinbox : (w.replicas (T.replica k)).registry.subscriber.pubsub.inbox = [])
    (hidle : ∀ b, (w.replicas (T.replica k)).reader ≠ .delivering b) :
    ∀ m, w.Published stored m → m.conversationId = T.conversation k →
      cursor.value < m.id.value → m ∈ (w.sockets k).written := by
  intro m hm hconv hseq
  have hw : SeamInv T stored w :=
    exec_invariant_of_stepsMeet (I := SeamInv T stored) (C := fun _ e => e.fails = false)
      (fun w e w' hw he hstep => seamInv_step he hw (backend_move hstep)) (seamInv_init hstored)
      (StepsMeet.of_forall hfails) h
  rcases hw.onItsWay k cursor (by rw [hserving]; rfl) hcursor m hm hconv hseq with
    hwritten | (hin | ⟨b, hb, -⟩) | hsends
  · exact hwritten
  · rw [hinbox] at hin
    exact absurd hin List.not_mem_nil
  · exact absurd hb (hidle b)
  · rw [hserving] at hsends
    exact hsends.elim

/-- One message is published before the socket joins, and one after that and before the replay is
    read. -/
def publishedAround : List (BackendEvent Bool Unit Bool) :=
  flushes false ++ commitsAndPublishes false ++ joinsFirst true 0 ++ flushes true ++
    commitsAndPublishes true ++
    [.readPage true, .reader () .turn, .reader () .acquire, .reader () (.read .message),
      .delivered () true true, .replaySent true true, .replaySent true true]

theorem replay_meetsLive_publishedAround :
    ∃ w, exec (Backend.step twoSockets) (Backend.init [] 0) publishedAround = some w ∧
      w.chat.shared.broadcasts.length = 2 ∧
      ∀ m, w.Published [] m → m.conversationId = twoSockets.conversation true → 0 < m.id.value →
        m ∈ (w.sockets true).written := by
  obtain ⟨w, hrun, hlength, hserving, hcursor, hinbox, hidle⟩ := exec_reaches
    (Backend.step twoSockets) (Backend.init [] 0) publishedAround
    (fun w => w.chat.shared.broadcasts.length = 2 ∧ (w.sockets true).handler = .serving ∧
      (w.sockets true).lastSeenSeq = some ⟨0⟩ ∧
      (w.replicas ()).registry.subscriber.pubsub.inbox = [] ∧ (w.replicas ()).reader = .top)
    (by decide)
  exact ⟨w, hrun, hlength, replay_meetsLive twoSockets List.Pairwise.nil hrun (by decide) hserving
    hcursor hinbox (fun b hb => by cases hidle.symm.trans hb)⟩

end Dizzchat
