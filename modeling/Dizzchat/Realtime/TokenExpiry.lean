import Dizzchat.Realtime.Isolation

set_option autoImplicit false

/-! # After the token has expired

The token of a socket is examined when it authenticates and again before an exchange. From its expiry
on no exchange is started for the socket, but whatever is under way goes on: a join, the replay behind
it, an exchange up to its acknowledgement, and every broadcast, for a registered socket is not looked at.
`expired_silent` says that nothing else writes to the socket: if its handler is at rest at the expiry
(`Stage.atRest`), and no broadcast has it among its connections, it stays silent. -/

namespace Dizzchat

open Transition

/-- A `message.new` or `message.ack`. -/
def OutboundFrame.isMessage : OutboundFrame → Bool
  | .messageNew _ | .messageAck _ => true
  | .authOk | .error _ => false

/-- The message frames written to a socket. -/
def WebSocket.messages {κ : Type*} (s : WebSocket κ) : List OutboundFrame :=
  s.frames.filter OutboundFrame.isMessage

/-- The socket has authenticated with this token, or has come to its end. -/
def Session.Bound {κ : Type*} (token : String) : Session κ → Prop
  | .authorizing authenticated | .admitted authenticated _ => authenticated.token = token
  | .closed => True
  | .connecting | .authenticating => False

section Expiry

variable {ρ κ : Type*}

/-- The handler has neither to join nor a replay, an exchange or an acknowledgement under way. -/
def Stage.atRest : Stage κ → Bool
  | .receiving | .limiting _ | .leaving _ => true
  | .answering frame => !frame.isMessage
  | .greeting | .joining _ | .replaying .. | .sending _ | .exchanging .. => false

def Session.atRest : Session κ → Bool
  | .admitted _ stage => stage.atRest
  | .closed => true
  | .connecting | .authenticating | .authorizing _ => false

/-- A broadcast under way has still to come to the socket. -/
def Gateway.IsAwaited (k : κ) (w : Gateway ρ κ) : Prop :=
  ∃ r b, (w.replicas r).reader = .delivering b ∧ k ∈ b.todo

/-- A broadcast begins that has the socket among its connections. -/
def Gateway.BeginsOn (k : κ) (w : Gateway ρ κ) (e : GatewayEvent ρ κ) : Prop :=
  ∃ r message inbox, e = .reader r (.read .message) ∧
    (w.replicas r).registry.subscriber.pubsub.inbox = message :: inbox ∧
    k ∈ (w.replicas r).registry.manager.registered message.conversationId

/-- No connection manager has the socket among the connections of its conversation. -/
def Gateway.Unregistered (E : Endpoint ρ κ) (k : κ) (w : Gateway ρ κ) : Prop :=
  ∀ r, k ∉ (w.replicas r).registry.manager.registered (E.conversation k)

variable {E : Endpoint ρ κ} {token : String} {T : Int}

theorem bound_afterJoin {authenticated : Authenticated} (h : authenticated.token = token)
    (call : RegistryCall κ) : (Session.afterJoin authenticated call).Bound token := by
  unfold Session.afterJoin
  split
  · exact h
  · trivial
  · exact h

theorem bound_afterLeave {authenticated : Authenticated} (h : authenticated.token = token)
    (call : RegistryCall κ) : (Session.afterLeave authenticated call).Bound token := by
  unfold Session.afterLeave
  split
  · trivial
  · trivial
  · exact h

/-- With an expired token no frame starts an exchange. -/
theorem startedExchange_afterLimit {k : κ} {now : Datetime} {authenticated : Authenticated}
    (hexpired : E.decodeAccess authenticated.token now = none) (frame : InboundFrame) :
    (Stage.afterLimit E k now authenticated frame).startedExchange = [] := by
  cases frame with
  | auth | invalid | notJson | raises => rfl
  | messageSend content key =>
      simp only [Stage.afterLimit, hexpired]
      cases MessageContent.ofString content <;> rfl

theorem atRest_afterLimit {k : κ} {now : Datetime} {authenticated : Authenticated}
    (hexpired : E.decodeAccess authenticated.token now = none) (frame : InboundFrame) :
    (Stage.afterLimit E k now authenticated frame).atRest = true := by
  cases frame with
  | auth | invalid | notJson | raises => rfl
  | messageSend content key =>
      simp only [Stage.afterLimit, hexpired]
      cases MessageContent.ofString content <;> rfl

theorem startedExchange_afterMissed (missed : List Message) :
    (Stage.afterMissed missed : Stage κ).startedExchange = [] := by
  cases missed <;> rfl

/-- A step of an admitted handler whose token has expired starts no exchange. -/
theorem ServeMove.late {k : κ} {view : View} {authenticated : Authenticated} {step : HandlerStep}
    {stage : Stage κ} {stage' : Option (Stage κ)} {frame : Option OutboundFrame}
    (h : ServeMove E k view authenticated step stage stage' frame)
    (hexpired : E.decodeAccess authenticated.token view.now = none) :
    stage'.elim [] Stage.startedExchange = [] := by
  cases h with
  | passes => exact startedExchange_afterLimit hexpired _
  | readsLast | replays => exact startedExchange_afterMissed _
  | greets | greetFails | readsOn | receives | limits | answers | leaves => rfl

/-- A handler at rest whose token has expired stays at rest, and writes no message frame. -/
theorem ServeMove.atRest {k : κ} {view : View} {authenticated : Authenticated} {step : HandlerStep}
    {stage : Stage κ} {stage' : Option (Stage κ)} {frame : Option OutboundFrame}
    (h : ServeMove E k view authenticated step stage stage' frame)
    (hexpired : E.decodeAccess authenticated.token view.now = none) (hrest : stage.atRest = true) :
    (∀ next ∈ stage', next.atRest = true) ∧ frame.toList.filter OutboundFrame.isMessage = [] := by
  cases h with
  | greets | greetFails | readsOn | readsLast | replays => cases hrest
  | leaves | receives | limits =>
      refine ⟨?_, rfl⟩
      rintro _ ⟨⟩
      rfl
  | passes =>
      refine ⟨?_, rfl⟩
      rintro _ ⟨⟩
      exact atRest_afterLimit hexpired _
  | @answers frame =>
      have hplain : frame.isMessage = false := by simpa [Stage.atRest] using hrest
      refine ⟨?_, by simp [hplain]⟩
      rintro _ ⟨⟩
      rfl

section Step

variable [DecidableEq ρ] [DecidableEq κ] {w w' : Gateway ρ κ} {e : GatewayEvent ρ κ} {k : κ}

omit [DecidableEq ρ] [DecidableEq κ] in
theorem HandlerMove.bound {view : View} {step : HandlerStep} {s s' : WebSocket κ}
    (h : HandlerMove E k view s step s') (hbound : s.session.Bound token) :
    s'.session.Bound token := by
  cases h with
  | accepts hsession | authenticates hsession | gives hsession =>
      rw [hsession] at hbound
      exact hbound.elim
  | letsIn hsession =>
      rw [hsession] at hbound
      exact hbound
  | refuses => trivial
  | @serves _ authenticated stage stage' frame hsession h =>
      rw [hsession] at hbound
      cases stage' with
      | none => trivial
      | some => exact hbound

/-- A socket keeps its token. -/
theorem bound_step (hbound : (w.sockets k).session.Bound token) (h : GatewayMove E w e w') :
    (w'.sockets k).session.Bound token := by
  have hset : ∀ {v : Gateway ρ κ} {k₀ : κ} {socket : WebSocket κ}, v.sockets = w.sockets →
      ((w.sockets k₀).session.Bound token → socket.session.Bound token) →
      ((v.setSocket k₀ socket).sockets k).session.Bound token := by
    intro v k₀ socket hv hsocket
    refine Gateway.forall_setSocket
      (P := fun k socket => (w.sockets k).session.Bound token → socket.session.Bound token) ?_
      hsocket k hbound
    rw [hv]
    exact fun _ => id
  cases h with
  | tick | conversations | reader => exact hbound
  | handler h => exact hset rfl h.bound
  | joinStep hsession =>
      refine hset rfl fun hbound => ?_
      rw [hsession] at hbound
      exact bound_afterJoin hbound _
  | leaveStep hsession =>
      refine hset rfl fun hbound => ?_
      rw [hsession] at hbound
      exact bound_afterLeave hbound _
  | exchange hsession =>
      refine hset (Gateway.publish_sockets ..) fun hbound => ?_
      rw [hsession] at hbound
      exact hbound
  | delivered => exact hset rfl id

theorem now_step (h : GatewayMove E w e w') : w.now.instant ≤ w'.now.instant := by
  cases h with
  | @tick elapsed =>
      show w.now.instant ≤ w.now.instant + (elapsed : Int)
      omega
  | @exchange k₀ step authenticated request call call' chat hsession h =>
      refine le_of_eq ?_
      show w.now.instant = (({ w with chat }).publish _ (call.published step)).now.instant
      cases call.published step <;> rfl
  | conversations | handler | joinStep | leaveStep | reader | delivered => exact le_refl _

omit [DecidableEq ρ] [DecidableEq κ] in
theorem HandlerMove.late {view : View} {step : HandlerStep} {s s' : WebSocket κ}
    (h : HandlerMove E k view s step s') (hbound : s.session.Bound token)
    (hexpired : E.decodeAccess token view.now = none) : s'.started = s.started := by
  cases h with
  | accepts | authenticates | gives | letsIn | refuses => rfl
  | @serves _ authenticated stage stage' frame hsession h =>
      rw [hsession] at hbound
      have htoken : authenticated.token = token := hbound
      rw [h.late (htoken ▸ hexpired), List.append_nil]

omit [DecidableEq ρ] [DecidableEq κ] in
theorem HandlerMove.atRest {view : View} {step : HandlerStep} {s s' : WebSocket κ}
    (h : HandlerMove E k view s step s') (hbound : s.session.Bound token)
    (hexpired : E.decodeAccess token view.now = none) (hrest : s.session.atRest = true) :
    s'.session.atRest = true ∧ s'.messages = s.messages := by
  cases h with
  | accepts hsession | authenticates hsession | gives hsession | letsIn hsession | refuses hsession =>
      rw [hsession] at hrest
      cases hrest
  | @serves _ authenticated stage stage' frame hsession h =>
      rw [hsession] at hbound hrest
      have htoken : authenticated.token = token := hbound
      obtain ⟨hnext, hsilent⟩ := h.atRest (htoken ▸ hexpired) hrest
      refine ⟨?_, ?_⟩
      · cases stage' with
        | none => rfl
        | some next => exact hnext next rfl
      · simp only [WebSocket.messages, List.filter_append, hsilent, List.append_nil]

omit [DecidableEq κ] in
theorem atRest_afterLeave (authenticated : Authenticated) (call : RegistryCall κ) :
    (Session.afterLeave authenticated call).atRest = true := by
  unfold Session.afterLeave
  split <;> rfl

/-- A step of the endpoint after the expiry starts no exchange. -/
theorem started_step (hexpired : E.decodeAccess token w.now = none)
    (hbound : (w.sockets k).session.Bound token) (h : GatewayMove E w e w') :
    (w'.sockets k).started = (w.sockets k).started := by
  have hset : ∀ {v : Gateway ρ κ} {k₀ : κ} {socket : WebSocket κ}, v.sockets = w.sockets →
      (k₀ = k → socket.started = (w.sockets k).started) →
      ((v.setSocket k₀ socket).sockets k).started = (w.sockets k).started := by
    intro v k₀ socket hv hsocket
    refine Gateway.forall_setSocket
      (P := fun k' socket => k' = k → socket.started = (w.sockets k).started) ?_ hsocket k rfl
    rw [hv]
    rintro _ rfl
    rfl
  cases h with
  | tick | conversations | reader => rfl
  | handler h =>
      refine hset rfl ?_
      rintro rfl
      exact h.late hbound hexpired
  | joinStep | leaveStep | delivered =>
      refine hset rfl ?_
      rintro rfl
      rfl
  | exchange =>
      refine hset (Gateway.publish_sockets ..) ?_
      rintro rfl
      simp

/-! ## A socket at rest -/

/-- The socket is at rest, no broadcast comes to it, and it has been written these message frames. -/
structure Gateway.Settled (k : κ) (messages : List OutboundFrame) (w : Gateway ρ κ) : Prop where
  atRest : (w.sockets k).session.atRest = true
  notAwaited : ¬ w.IsAwaited k
  written : (w.sockets k).messages = messages

omit [DecidableEq κ] in
/-- Setting a replica that does not come to the socket makes none come to it. -/
theorem notAwaited_setReplica {r : ρ} {replica : Replica κ κ} (hw : ¬ w.IsAwaited k)
    (hreplica : ∀ b, replica.reader = .delivering b → k ∉ b.todo) :
    ¬ (w.setReplica r replica).IsAwaited k := by
  rintro ⟨r', b, hreader, hk⟩
  have hreader : (Function.update w.replicas r replica r').reader = .delivering b := hreader
  rcases eq_or_ne r' r with rfl | hr
  · rw [Function.update_self] at hreader
    exact hreplica b hreader hk
  · rw [Function.update_of_ne hr] at hreader
    exact hw ⟨r', b, hreader, hk⟩

/-- A broadcast that goes on comes to nobody it did not have to come to. -/
theorem todo_sent {b b' : Broadcast κ} {k₀ : κ} {succeeds : Bool} {m m' : ConnectionManager κ}
    {next : Option (Broadcast κ)} (h : BroadcastMove k₀ succeeds b m m' next)
    (hnext : Replica.afterSend next = .delivering b') (hk : k ∈ b'.todo) : k ∈ b.todo := by
  cases h with
  | goesOn =>
      cases hnext
      exact Finset.mem_of_mem_erase hk
  | finishes => cases hnext

theorem BroadcastMove.mem_todo {b : Broadcast κ} {succeeds : Bool} {m m' : ConnectionManager κ}
    {next : Option (Broadcast κ)} (h : BroadcastMove k succeeds b m m' next) : k ∈ b.todo := by
  cases h with
  | goesOn hmem => exact hmem
  | finishes hlast =>
      rw [hlast]
      exact Finset.mem_singleton_self k

/-- A socket that is settled stays so, unless a broadcast begins that has it. -/
theorem settled_step {messages : List OutboundFrame} (hexpired : E.decodeAccess token w.now = none)
    (hbound : (w.sockets k).session.Bound token) (hw : w.Settled k messages)
    (hbegins : ¬ w.BeginsOn k e) (h : GatewayMove E w e w') : w'.Settled k messages := by
  have hawaited := hw.notAwaited
  have hset : ∀ {v : Gateway ρ κ} {k₀ : κ} {socket : WebSocket κ}, v.sockets = w.sockets →
      ¬ v.IsAwaited k →
      (k₀ = k → socket.session.atRest = true ∧ socket.messages = messages) →
      (v.setSocket k₀ socket).Settled k messages := by
    intro v k₀ socket hv hquiet hsocket
    have hboth : ((v.setSocket k₀ socket).sockets k).session.atRest = true ∧
        ((v.setSocket k₀ socket).sockets k).messages = messages := by
      refine Gateway.forall_setSocket (P := fun k' socket => k' = k →
        socket.session.atRest = true ∧ socket.messages = messages) ?_ hsocket k rfl
      rw [hv]
      rintro _ rfl
      exact ⟨hw.atRest, hw.written⟩
    exact ⟨hboth.1, hquiet, hboth.2⟩
  cases h with
  | tick | conversations => exact ⟨hw.atRest, hawaited, hw.written⟩
  | handler h =>
      refine hset rfl hawaited ?_
      rintro rfl
      obtain ⟨hrest, hsame⟩ := h.atRest hbound hexpired hw.atRest
      exact ⟨hrest, hsame.trans hw.written⟩
  | @joinStep k₀ _ _ _ _ _ hsession =>
      refine hset rfl (notAwaited_setReplica hawaited fun b hb hk =>
        hawaited ⟨_, b, hb, hk⟩) ?_
      rintro rfl
      have hrest := hw.atRest
      rw [hsession] at hrest
      cases hrest
  | leaveStep hsession =>
      refine hset rfl (notAwaited_setReplica hawaited fun b hb hk =>
        hawaited ⟨_, b, hb, hk⟩) ?_
      rintro rfl
      exact ⟨atRest_afterLeave _ _, hw.written⟩
  | @exchange k₀ step authenticated request call call' chat hsession h =>
      refine hset (Gateway.publish_sockets ..) ?_ ?_
      · rintro ⟨r, b, hreader, hk⟩
        refine hawaited ⟨r, b, ?_, hk⟩
        rw [← hreader]
        cases call.published step <;> rfl
      · rintro rfl
        have hrest := hw.atRest
        rw [hsession] at hrest
        cases hrest
  | @reader r step subscriber reader h =>
      refine ⟨hw.atRest, notAwaited_setReplica hawaited fun b hb hk => ?_, hw.written⟩
      obtain rfl : reader = .delivering b := hb
      obtain ⟨rfl, message, inbox, hinbox, hdeliver⟩ := h.of_delivering
      obtain ⟨-, rfl⟩ := ConnectionManager.broadcast_eq_some hdeliver
      exact hbegins ⟨r, message, inbox, rfl, hinbox, hk⟩
  | @delivered r k₀ succeeds b m b' hreader h =>
      refine hset rfl (notAwaited_setReplica hawaited fun b'' hb hk => ?_) ?_
      · exact hawaited ⟨r, b, hreader, todo_sent h hb hk⟩
      · rintro rfl
        exact absurd ⟨r, b, hreader, h.mem_todo⟩ hawaited

/-- A socket at rest is not registered again. -/
theorem unregistered_step (hisolated : IsolationInv E w) (hrest : (w.sockets k).session.atRest = true)
    (hw : w.Unregistered E k) (h : GatewayMove E w e w') : w'.Unregistered E k := by
  intro r
  have hset : ∀ {r₀ : ρ} {replica : Replica κ κ},
      k ∉ replica.registry.manager.registered (E.conversation k) →
      k ∉ (Function.update w.replicas r₀ replica r).registry.manager.registered
        (E.conversation k) := fun hreplica =>
    forall_setReplica
      (P := fun _ replica => k ∉ replica.registry.manager.registered (E.conversation k)) hw hreplica r
  cases h with
  | tick | conversations | handler => exact hw r
  | @joinStep k₀ step authenticated call call' registry hsession h =>
      refine hset fun hk => ?_
      rcases h.mem_or_joins (.inl ((hisolated.sockets k₀).confined _ _ hsession)) hk with
        hold | ⟨-, rfl, -⟩
      · exact hw _ hold
      · rw [hsession] at hrest
        cases hrest
  | @leaveStep k₀ step authenticated call call' registry hsession h =>
      have hleaving := (hisolated.sockets k₀).confined _ _ hsession
      refine hset fun hk => ?_
      rcases h.mem_or_joins (.inr hleaving) hk with hold | ⟨hjoining, -, -⟩
      · exact hw _ hold
      · exact hjoining.not_leaving hleaving
  | @exchange k₀ step authenticated request call call' chat =>
      exact Gateway.forall_publish
        (P := fun replica => k ∉ replica.registry.manager.registered (E.conversation k))
        (w := { w with chat }) hw (fun r message hr => hr) _ r
  | reader h => exact hset (hw _)
  | delivered hreader h => exact hset fun hk => hw _ (h.registered_subset _ hk)

omit [DecidableEq ρ] [DecidableEq κ] in
/-- Every broadcast is to the conversation of the sockets it has. -/
theorem not_beginsOn (hisolated : IsolationInv E w) (hw : w.Unregistered E k)
    (e : GatewayEvent ρ κ) : ¬ w.BeginsOn k e := by
  rintro ⟨r, message, inbox, -, -, hk⟩
  obtain ⟨hconversation, -⟩ := (hisolated.replicas r).registered _ k hk
  rw [hconversation] at hk
  exact hw r hk

/-! ## The result -/

/-- What every run keeps from the expiry on. -/
structure Gateway.Expired (E : Endpoint ρ κ) (token : String) (T : Int) (k : κ)
    (started : List SendRequest) (w : Gateway ρ κ) : Prop where
  isolated : IsolationInv E w
  late : T ≤ w.now.instant
  bound : (w.sockets k).session.Bound token
  started : (w.sockets k).started = started

theorem expired_step {started : List SendRequest}
    (hexpires : ∀ now : Datetime, T ≤ now.instant → E.decodeAccess token now = none)
    (hw : w.Expired E token T k started) (h : GatewayMove E w e w') :
    w'.Expired E token T k started where
  isolated := isolationInv_step hw.isolated h
  late := hw.late.trans (now_step h)
  bound := bound_step hw.bound h
  started := (started_step (hexpires w.now hw.late) hw.bound h).trans hw.started

/-- From the expiry of its token on no exchange is started for a socket, in any run. If at some moment
    of or after the expiry the handler is at rest and no broadcast has still to come to the socket, no
    message frame is written to it from then on unless a broadcast begins that has it among its
    connections; and none begins if it is not registered at that moment. -/
theorem expired_silent (E : Endpoint ρ κ) {token : String} {T : Int}
    (hexpires : ∀ now : Datetime, T ≤ now.instant → E.decodeAccess token now = none)
    {row : ConversationId → Option ConversationModel}
    {participants : ConversationId → Finset ParticipantId} {stored : List Message} {lastSeq : Int}
    {now : Datetime} {es₁ es₂ : List (GatewayEvent ρ κ)} {w₁ w₂ : Gateway ρ κ}
    (hrun₁ : exec (Gateway.step E) (Gateway.init row participants stored lastSeq now) es₁ = some w₁)
    (hlate : T ≤ w₁.now.instant) {k : κ} (hbound : (w₁.sockets k).session.Bound token)
    (hrun₂ : exec (Gateway.step E) w₁ es₂ = some w₂) :
    (w₂.sockets k).started = (w₁.sockets k).started ∧
      ((w₁.sockets k).session.atRest = true → ¬ w₁.IsAwaited k →
        StepsMeet (Gateway.step E) (fun w e => ¬ w.BeginsOn k e) w₁ es₂ ∨ w₁.Unregistered E k →
        (w₂.sockets k).messages = (w₁.sockets k).messages) := by
  have hisolated : IsolationInv E w₁ :=
    exec_invariant (fun _ _ _ hw h => isolationInv_step hw (gateway_move h)) isolationInv_init hrun₁
  have hexpired : w₁.Expired E token T k (w₁.sockets k).started := ⟨hisolated, hlate, hbound, rfl⟩
  have hstep : ∀ (w : Gateway ρ κ) e w', w.Expired E token T k (w₁.sockets k).started → w.step E e = some w' →
      w'.Expired E token T k (w₁.sockets k).started :=
    fun _ _ _ hw h => expired_step hexpires hw (gateway_move h)
  refine ⟨(exec_invariant hstep hexpired hrun₂).started, fun hrest hawaited hcondition => ?_⟩
  have hsettled : w₁.Settled k (w₁.sockets k).messages := ⟨hrest, hawaited, rfl⟩
  rcases hcondition with hbegins | hunregistered
  · have hrun := exec_invariant_of_stepsMeet
      (I := fun w => w.Expired E token T k (w₁.sockets k).started ∧
        w.Settled k (w₁.sockets k).messages)
      (fun w e w' hw hbegins h => ⟨hstep w e w' hw.1 h, settled_step (hexpires w.now hw.1.late)
        hw.1.bound hw.2 hbegins (gateway_move h)⟩) ⟨hexpired, hsettled⟩ hbegins hrun₂
    exact hrun.2.written
  · have hrun := exec_invariant
      (I := fun w => w.Expired E token T k (w₁.sockets k).started ∧
        w.Settled k (w₁.sockets k).messages ∧ w.Unregistered E k)
      (fun w e w' hw h => ⟨hstep w e w' hw.1 h, settled_step (hexpires w.now hw.1.late)
        hw.1.bound hw.2.1 (not_beginsOn hw.1.isolated hw.2.2 e) (gateway_move h),
        unregistered_step hw.1.isolated hw.2.1.atRest hw.2.2 (gateway_move h)⟩)
      ⟨hexpired, hsettled, hunregistered⟩ hrun₂
    exact hrun.2.1.written

end Step

end Expiry

/-! ## A socket that only listens -/

/-- Two sockets on one conversation; the token `ten` expires at 100. -/
def sharedConversation : Endpoint Unit Bool :=
  { twoConversations with conversation := fun _ => helloRequest.conversationId }

def sharedParticipants (_ : ConversationId) : Finset ParticipantId := {⟨10⟩, ⟨20⟩}

/-- The second socket of the conversation joins, and `ten` expires. -/
def tokenExpires : List (GatewayEvent Unit Bool) :=
  connects false "ten" ++
    [.handler true .accept, .handler true (.receive (.auth "twenty" none)), .handler true .ensure,
      .handler true (.sent true), .registry true .acquire, .tick 100]

/-- The second socket sends a message, which is broadcast to the first. -/
def sendsLate : List (GatewayEvent Unit Bool) :=
  [.handler true (.receive (.messageSend "hello" none)), .handler true (.limited true),
    .exchange true (.user (.readConversation
      (some { helloConversation with participantIds := {⟨10⟩, ⟨20⟩} }))),
    .exchange true (.user .findExisting), .exchange true (.user (.draw ⟨1, 0⟩)),
    .exchange true (.user .flush), .exchange true (.user .commit), .exchange true (.publish true),
    .reader () .turn, .reader () .acquire, .reader () (.read .message), .delivered () false true]

theorem sharedConversation_expires (now : Datetime) (h : 100 ≤ now.instant) :
    sharedConversation.decodeAccess "ten" now = none := by
  have hlate : ¬ now.instant < 100 := by omega
  simp [sharedConversation, twoConversations, hlate]

/-- A socket that sends nothing is sent a message at the expiry of its token. -/
theorem expired_notSilent :
    ∃ w₁ w₂, exec (Gateway.step sharedConversation)
        (Gateway.init ownConversation sharedParticipants [] 0 ⟨0, 0⟩) tokenExpires = some w₁ ∧
      (w₁.sockets false).session = .admitted ⟨10, "ten", none⟩ .receiving ∧
      100 ≤ w₁.now.instant ∧ exec (Gateway.step sharedConversation) w₁ sendsLate = some w₂ ∧
      (w₂.sockets false).messages ≠ (w₁.sockets false).messages := by
  obtain ⟨w₁, hrun₁, hsession, hnow, hnone, hlater⟩ := exec_reaches (Gateway.step sharedConversation)
    (Gateway.init ownConversation sharedParticipants [] 0 ⟨0, 0⟩) tokenExpires
    (fun w => (w.sockets false).session = .admitted ⟨10, "ten", none⟩ .receiving ∧
      100 ≤ w.now.instant ∧ (w.sockets false).messages = [] ∧
      (exec (Gateway.step sharedConversation) w sendsLate).any
        (fun w => decide ((w.sockets false).messages.length = 1)) = true) (by decide)
  obtain ⟨w₂, hrun₂, hone⟩ := (Option.any_eq_true _ _).1 hlater
  refine ⟨w₁, w₂, hrun₁, hsession, hnow, hrun₂, fun hsame => ?_⟩
  rw [hsame, hnone] at hone
  cases hone

/-- The first socket joins and goes, the second joins, and `ten` expires. -/
def leavesBefore : List (GatewayEvent Unit Bool) :=
  tokenExpires.dropLast ++
    [.handler false .disconnect, .registry false .acquire, .tick 100]

/-- What the second socket sends is broadcast without the first. -/
theorem expired_silent_left :
    ∃ w₁ w₂, exec (Gateway.step sharedConversation)
        (Gateway.init ownConversation sharedParticipants [] 0 ⟨0, 0⟩) leavesBefore = some w₁ ∧
      exec (Gateway.step sharedConversation) w₁
        (sendsLate.dropLast ++ [.delivered () true true]) = some w₂ ∧
      (w₂.sockets false).started = (w₁.sockets false).started ∧
      (w₂.sockets false).messages = (w₁.sockets false).messages := by
  obtain ⟨w₁, hrun₁, hsession, hnow, hreader, hunregistered, hlater⟩ :=
    exec_reaches (Gateway.step sharedConversation)
      (Gateway.init ownConversation sharedParticipants [] 0 ⟨0, 0⟩) leavesBefore
      (fun w => (w.sockets false).session = .closed ∧ 100 ≤ w.now.instant ∧
        (w.replicas ()).reader = .top ∧
        false ∉ (w.replicas ()).registry.manager.registered helloRequest.conversationId ∧
        (exec (Gateway.step sharedConversation) w
          (sendsLate.dropLast ++ [.delivered () true true])).isSome = true) (by decide)
  obtain ⟨w₂, hrun₂⟩ := Option.isSome_iff_exists.1 hlater
  have hbound : (w₁.sockets false).session.Bound "ten" := by
    rw [hsession]
    trivial
  have hrest : (w₁.sockets false).session.atRest = true := by
    rw [hsession]
    rfl
  have hawaited : ¬ w₁.IsAwaited false := by
    rintro ⟨r, b, hdelivering, -⟩
    have hdelivering : (w₁.replicas ()).reader = .delivering b := hdelivering
    rw [hreader] at hdelivering
    cases hdelivering
  obtain ⟨hstarted, hsilent⟩ :=
    expired_silent sharedConversation sharedConversation_expires hrun₁ hnow hbound hrun₂
  exact ⟨w₁, w₂, hrun₁, hrun₂, hstarted, hsilent hrest hawaited (.inr fun _ => hunregistered)⟩

end Dizzchat
