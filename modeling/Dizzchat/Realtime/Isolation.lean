import Dizzchat.Realtime.Gateway

set_option autoImplicit false

/-! # Delivery isolation

What a socket may be sent, for every schedule and every sequence of frames on every socket:
`gateway_isolated`. Three writers reach a socket, its own handler, the replay inside it, and the
readers of the replicas, which route a message by the conversation it names and not by the channel
it came on.

`IsolationInv` confines them: what a handler holds is of its conversation, a connection is registered
for no conversation but its own, and not before it has been greeted. `EvidenceInv` looks back at the
run: whoever has got past a check of `conversation_ws` has passed it at some step. -/

namespace Dizzchat

open Transition

/-! ## The messages an exchange holds -/

def FromUserCall.held : FromUserCall → List Message
  | .found message | .drawn message | .flushed message | .returned message _ => [message]
  | .started | .admitted | .missed | .raised _ => []

def FromAssistantCall.held : FromAssistantCall → List Message
  | .drawn message | .flushed message | .returned message => [message]
  | .started _ | .raised _ => []

def ExchangeCall.held : ExchangeCall → List Message
  | .writing call => call.held
  | .publishing message | .responding message => [message]
  | .replying message call => message :: call.held
  | .publishingReply message reply => [message, reply]
  | .returned message reply => message :: reply.toList
  | .raised _ stored reply => stored.toList ++ reply.toList

section Held

variable {ι : Type*} [DecidableEq ι] {request : ι → SendRequest} {i : ι}

omit [DecidableEq ι] in
theorem held_afterUser (call : FromUserCall) : (ExchangeCall.afterUser call).held = call.held := by
  cases call with
  | returned message created => cases created <;> rfl
  | started | admitted | missed | found | drawn | flushed | raised => rfl

omit [DecidableEq ι] in
theorem held_afterAssistant (message : Message) (call : FromAssistantCall) :
    (ExchangeCall.afterAssistant message call).held = message :: call.held := by
  cases call <;> rfl

/-- A `from_user` call holds messages of its conversation only: it finds by conversation and key. -/
theorem FromUserMove.held {c : FromUserStep} {s s' : MessageStore ι} {call call' : FromUserCall}
    (h : FromUserMove request i s c call s' call')
    (hcall : ∀ m ∈ call.held, m.conversationId = (request i).conversationId) :
    ∀ m ∈ call'.held, m.conversationId = (request i).conversationId := by
  cases h with
  | rejected | admitted | keyless | missed | duplicate | failed =>
      intro m hm
      exact absurd hm List.not_mem_nil
  | found hkey hfind =>
      intro m hm
      obtain rfl := List.mem_singleton.1 hm
      exact (Message.carries_iff.1 (List.find?_some hfind)).1
  | drawn now =>
      intro m hm
      obtain rfl := List.mem_singleton.1 hm
      rfl
  | flushed | returnedExisting | returnedCreated => exact hcall

theorem FromAssistantMove.held {c : FromAssistantStep} {s s' : MessageStore ι}
    {call call' : FromAssistantCall}
    (h : FromAssistantMove (fun i => (request i).conversationId) i s c call s' call')
    (hcall : ∀ m ∈ call.held, m.conversationId = (request i).conversationId) :
    ∀ m ∈ call'.held, m.conversationId = (request i).conversationId := by
  cases h with
  | duplicate | failed =>
      intro m hm
      exact absurd hm List.not_mem_nil
  | drawn content now =>
      intro m hm
      obtain rfl := List.mem_singleton.1 hm
      rfl
  | flushed | returned => exact hcall

/-- An exchange holds messages of its conversation only. -/
theorem ExchangeCase.held {step : ExchangeStep} {s s' : Chat ι} {call call' : ExchangeCall}
    (h : ExchangeCase request i s step call s' call')
    (hcall : ∀ m ∈ call.held, m.conversationId = (request i).conversationId) :
    ∀ m ∈ call'.held, m.conversationId = (request i).conversationId := by
  cases h with
  | user hstep =>
      rw [held_afterUser]
      exact hstep.held hcall
  | assistant hstep =>
      rw [held_afterAssistant]
      obtain ⟨hmessage, hrest⟩ := List.forall_mem_cons.1 hcall
      exact List.forall_mem_cons.2 ⟨hmessage, hstep.held hrest⟩
  | @publish succeeds | @respond succeeds | @publishReply succeeds =>
      cases succeeds <;> exact hcall
  | cancelPublish | cancelRespond | cancelReply => exact hcall

end Held

/-! ## What a socket may hold -/

/-- A message frame is of the conversation. -/
def OutboundFrame.About (c : ConversationId) : OutboundFrame → Prop
  | .messageNew message | .messageAck message => message.conversationId = c
  | .authOk | .error _ => True

section Confined

variable {ρ κ : Type*}

/-- What the handler of socket `k` holds is of conversation `c`, and what it sends is by `user`. -/
def Stage.Confined (c : ConversationId) (k : κ) (user : UUID) : Stage κ → Prop
  | .joining call => (Handler.joining call).Addressed c k
  | .leaving call => (Handler.leaving call).Addressed c k
  | .replaying _ messages | .sending messages => ∀ m ∈ messages, m.conversationId = c
  | .exchanging request call => request.conversationId = c ∧ request.senderId = ⟨user⟩ ∧
      ∀ m ∈ call.held, m.conversationId = c
  | .answering frame => frame.About c
  | .greeting | .receiving | .limiting _ => True

/-- What has been written to a socket and what its handler holds. -/
structure WebSocket.Isolated (c : ConversationId) (k : κ) (s : WebSocket κ) : Prop where
  authOkFirst : ∀ frame ∈ s.frames.head?, frame = .authOk
  about : ∀ frame ∈ s.frames, frame.About c
  confined : ∀ authenticated stage, s.session = .admitted authenticated stage →
    stage.Confined c k authenticated.userId
  /-- Past the greeting the socket has been sent `auth.ok`. -/
  greeted : ∀ authenticated stage, s.session = .admitted authenticated stage → stage ≠ .greeting →
    s.frames ≠ []

theorem confined_afterMissed {c : ConversationId} {k : κ} {user : UUID} {missed : List Message}
    (h : ∀ m ∈ missed, m.conversationId = c) :
    (Stage.afterMissed missed : Stage κ).Confined c k user := by
  cases missed with
  | nil => trivial
  | cons => exact h

/-- A frame that passes the rate limit starts an exchange of this user in this conversation, or
    none. -/
theorem confined_afterLimit (E : Endpoint ρ κ) (k : κ) (now : Datetime)
    (authenticated : Authenticated) (frame : InboundFrame) :
    (Stage.afterLimit E k now authenticated frame).Confined (E.conversation k) k
      authenticated.userId := by
  cases frame with
  | messageSend content clientMessageId =>
      simp only [Stage.afterLimit]
      split
      · trivial
      · split
        · exact ⟨rfl, rfl⟩
        · exact ⟨rfl, rfl, fun m hm => absurd hm List.not_mem_nil⟩
  | auth | invalid | notJson | raises => trivial

theorem confined_afterExchange {E : Endpoint ρ κ} {k : κ} {user : UUID} {request : SendRequest}
    {call : ExchangeCall} (hconv : request.conversationId = E.conversation k)
    (hsender : request.senderId = ⟨user⟩)
    (hcall : ∀ m ∈ call.held, m.conversationId = E.conversation k) :
    (Stage.afterExchange E k request call).Confined (E.conversation k) k user := by
  cases call with
  | returned message reply => exact hcall message List.mem_cons_self
  | raised e => cases e <;> first | exact ⟨rfl, rfl⟩ | trivial
  | writing | publishing | responding | replying | publishingReply =>
      exact ⟨hconv, hsender, hcall⟩

theorem ServeMove.confined {E : Endpoint ρ κ} {k : κ} {view : View} {authenticated : Authenticated}
    {step : HandlerStep} {stage : Stage κ} {stage' : Option (Stage κ)} {frame : Option OutboundFrame}
    (h : ServeMove E k view authenticated step stage stage' frame)
    (hstage : stage.Confined (E.conversation k) k authenticated.userId) :
    (∀ stage₁ ∈ stage', stage₁.Confined (E.conversation k) k authenticated.userId) ∧
      ∀ frame₁ ∈ frame, frame₁.About (E.conversation k) := by
  cases h with
  | greets =>
      refine ⟨?_, ?_⟩
      · rintro _ ⟨⟩
        exact ⟨rfl, rfl⟩
      · rintro _ ⟨⟩
        trivial
  | greetFails => simp
  | @readsOn cursor cursor' collected collected' hturn =>
      refine ⟨?_, by simp⟩
      rintro _ ⟨⟩ m hm
      refine (mem_turn (m := m) (by rw [hturn]; exact hm)).elim (hstage m) fun hrow => hrow.2
  | @readsLast cursor collected missed hturn =>
      refine ⟨?_, by simp⟩
      rintro _ ⟨⟩
      refine confined_afterMissed fun m hm => ?_
      exact (mem_turn (m := m) (by rw [hturn]; exact hm)).elim (hstage m) fun hrow => hrow.2
  | replays =>
      obtain ⟨hmessage, hrest⟩ := List.forall_mem_cons.1 hstage
      refine ⟨?_, ?_⟩
      · rintro _ ⟨⟩
        exact confined_afterMissed hrest
      · rintro _ ⟨⟩
        exact hmessage
  | leaves =>
      refine ⟨?_, by simp⟩
      rintro _ ⟨⟩
      exact ⟨rfl, rfl⟩
  | receives | limits =>
      refine ⟨?_, by simp⟩
      rintro _ ⟨⟩
      trivial
  | passes =>
      refine ⟨?_, by simp⟩
      rintro _ ⟨⟩
      exact confined_afterLimit E k view.now authenticated _
  | answers =>
      refine ⟨?_, ?_⟩
      · rintro _ ⟨⟩
        trivial
      · rintro _ ⟨⟩
        exact hstage

/-- A session that is not past the access check holds nothing. -/
theorem WebSocket.Isolated.session {c : ConversationId} {k : κ} {s : WebSocket κ}
    (hs : s.Isolated c k) {s' : WebSocket κ} (hframes : s'.frames = s.frames)
    (hsession : ∀ authenticated stage, s'.session = .admitted authenticated stage →
      stage.Confined c k authenticated.userId ∧ (stage ≠ .greeting → s.frames ≠ [])) :
    s'.Isolated c k where
  authOkFirst := hframes ▸ hs.authOkFirst
  about := hframes ▸ hs.about
  confined authenticated stage h := (hsession authenticated stage h).1
  greeted authenticated stage h := hframes ▸ (hsession authenticated stage h).2

/-- A greeted socket is sent one frame more. -/
theorem WebSocket.Isolated.written {c : ConversationId} {k : κ} {s : WebSocket κ}
    (hs : s.Isolated c k) (hgreeted : s.frames ≠ []) {frames : List OutboundFrame}
    (hframes : ∀ frame ∈ frames, frame.About c) :
    WebSocket.Isolated c k { s with frames := s.frames ++ frames } where
  authOkFirst := by
    rw [List.head?_append_of_ne_nil _ hgreeted]
    exact hs.authOkFirst
  about frame hmem := (List.mem_append.1 hmem).elim (hs.about frame) (hframes frame)
  confined := hs.confined
  greeted _ _ _ _ := List.append_ne_nil_of_left_ne_nil hgreeted _

theorem HandlerMove.isolated {E : Endpoint ρ κ} {k : κ} {view : View} {step : HandlerStep}
    {s s' : WebSocket κ} (h : HandlerMove E k view s step s')
    (hs : s.Isolated (E.conversation k) k) : s'.Isolated (E.conversation k) k := by
  cases h with
  | accepts | gives | refuses =>
      refine hs.session rfl fun authenticated stage hadmitted => ?_
      cases hadmitted
  | @authenticates frame =>
      refine hs.session rfl fun authenticated stage hadmitted => ?_
      rcases authenticate_cases E view.now frame with hauth | ⟨_, _, _, -, -, hauth⟩ <;>
        cases hauth.symm.trans hadmitted
  | letsIn =>
      refine hs.session rfl fun authenticated stage hadmitted => ?_
      cases hadmitted
      exact ⟨trivial, fun hne => absurd rfl hne⟩
  | @serves _ authenticated stage stage' frame hsession h =>
      obtain ⟨hstage, hframe⟩ := h.confined (hs.confined authenticated stage hsession)
      -- only `auth.ok` is written to a socket that has not been greeted
      have hfirst : s.frames = [] → frame = some .authOk ∨ frame = none ∧ stage' = none := by
        intro hempty
        obtain rfl : stage = .greeting := by
          by_contra hne
          exact hs.greeted authenticated stage hsession hne hempty
        cases h with
        | greets => exact .inl rfl
        | greetFails => exact .inr ⟨rfl, rfl⟩
        | leaves hserving => cases hserving
      have hadmitted : ∀ {a st}, (stage'.elim .closed (.admitted authenticated) : Session κ) =
          .admitted a st → a = authenticated ∧ st ∈ stage' := by
        intro a st heq
        cases stage' with
        | none => cases heq
        | some => cases heq; exact ⟨rfl, rfl⟩
      refine ⟨?_, fun f hf => ?_, fun a st hadm => ?_, fun a st hadm _ => ?_⟩
      · cases hempty : s.frames with
        | nil =>
            rcases hfirst hempty with rfl | ⟨rfl, -⟩ <;> simp
        | cons first rest =>
            intro f hf
            refine hs.authOkFirst f ?_
            rw [hempty]
            exact hf
      · exact (List.mem_append.1 hf).elim (hs.about f) fun hin => hframe f (by simpa using hin)
      · obtain ⟨rfl, hmem⟩ := hadmitted hadm
        exact hstage st hmem
      · obtain ⟨-, hmem⟩ := hadmitted hadm
        intro hnone
        obtain ⟨hempty, hframes⟩ := List.append_eq_nil_iff.1 hnone
        rcases hfirst hempty with rfl | ⟨-, rfl⟩
        · cases hframes
        · cases hmem

end Confined

/-! ## Where a replica sends -/

/-- A replica has registered a socket for a conversation, or is about to send it a message of one,
    only where `P` allows it. -/
structure Replica.RoutesTo {κ : Type*} (P : ConversationId → κ → Prop) (r : Replica κ κ) : Prop where
  registered : ∀ c, ∀ k ∈ r.registry.manager.registered c, P c k
  delivering : ∀ b, r.reader = .delivering b → ∀ k ∈ b.todo, P b.message.conversationId k

section RoutesTo

variable {κ : Type*} {P Q : ConversationId → κ → Prop} {r : Replica κ κ}

theorem routesTo_init : (Replica.init : Replica κ κ).RoutesTo P where
  registered c k hk := absurd hk (Finset.notMem_empty k)
  delivering b hb := by cases hb

theorem Replica.RoutesTo.imp (hr : r.RoutesTo P) (h : ∀ c k, P c k → Q c k) : r.RoutesTo Q where
  registered c k hk := h c k (hr.registered c k hk)
  delivering b hb k hk := h _ k (hr.delivering b hb k hk)

/-- What arrives on a channel routes nothing by itself. -/
theorem Replica.RoutesTo.receive (hr : r.RoutesTo P) (c : ConversationId) (message : Message) :
    (r.receive c message).RoutesTo P :=
  ⟨hr.registered, hr.delivering⟩

variable [DecidableEq κ]

/-- A message is routed by the conversation it names, whatever channel it came on. -/
theorem Replica.RoutesTo.reader (hr : r.RoutesTo P) {step : ReaderStep} {subscriber : Subscriber κ}
    {reader : Reader (Broadcast κ)}
    (h : ReaderMove
      (fun message => r.registry.manager.broadcast message.conversationId message)
      r.registry.subscriber step r.reader subscriber reader) :
    Replica.RoutesTo P { registry := { r.registry with subscriber }, reader } where
  registered := hr.registered
  delivering b hb k hk := by
    obtain rfl : reader = .delivering b := hb
    obtain ⟨-, message, inbox, -, hdeliver⟩ := h.of_delivering
    obtain ⟨-, rfl⟩ := ConnectionManager.broadcast_eq_some hdeliver
    exact hr.registered _ k hk

theorem Replica.RoutesTo.sent (hr : r.RoutesTo P) {k : κ} {succeeds : Bool} {b : Broadcast κ}
    (hreader : r.reader = .delivering b) {m : ConnectionManager κ} {b' : Option (Broadcast κ)}
    (h : BroadcastMove k succeeds b r.registry.manager m b') :
    Replica.RoutesTo P { registry := { r.registry with manager := m }
                         reader := Replica.afterSend b' } where
  registered c k hk := hr.registered c k (h.registered_subset c hk)
  delivering b₀ hb₀ k hk := by
    cases h with
    | goesOn =>
        cases hb₀
        exact hr.delivering b hreader k (Finset.mem_of_mem_erase hk)
    | finishes => cases hb₀

theorem Replica.RoutesTo.registry (hr : r.RoutesTo P) {c : ConversationId} {k : κ}
    {step : RegistryStep} {registry : ConversationRegistry κ κ} {l l' : RegistryCall κ}
    (h : RegistryMove k r.registry step l registry l')
    (hl : (Handler.joining l).Addressed c k ∨ (Handler.leaving l).Addressed c k)
    (hjoins : (Handler.joining l).Addressed c k → P c k) :
    Replica.RoutesTo P { r with registry } where
  registered c' k' hk' := by
    rcases h.mem_or_joins hl hk' with hold | ⟨hjoining, rfl, rfl⟩
    · exact hr.registered c' k' hold
    · exact hjoins hjoining
  delivering := hr.delivering

end RoutesTo

/-! ## The endpoint -/

section Gateway

variable {ρ κ : Type*} [DecidableEq ρ] [DecidableEq κ] {E : Endpoint ρ κ} {w w' : Gateway ρ κ}
  {e : GatewayEvent ρ κ}

/-- A socket may be sent the messages of its own conversation, once it has been greeted. -/
def Gateway.MayReach (E : Endpoint ρ κ) (w : Gateway ρ κ) (c : ConversationId) (k : κ) : Prop :=
  c = E.conversation k ∧ (w.sockets k).frames ≠ []

structure IsolationInv (E : Endpoint ρ κ) (w : Gateway ρ κ) : Prop where
  sockets : ∀ k, (w.sockets k).Isolated (E.conversation k) k
  replicas : ∀ r, (w.replicas r).RoutesTo (w.MayReach E)

omit [DecidableEq ρ] [DecidableEq κ] in
theorem isolationInv_init {row : ConversationId → Option ConversationModel}
    {participants : ConversationId → Finset ParticipantId} {stored : List Message} {lastSeq : Int}
    {now : Datetime} :
    IsolationInv E (Gateway.init row participants stored lastSeq now : Gateway ρ κ) where
  sockets k :=
    { authOkFirst := fun frame hframe => by cases hframe
      about := fun frame hframe => absurd hframe List.not_mem_nil
      confined := fun authenticated stage hsession => by cases hsession
      greeted := fun authenticated stage hsession => by cases hsession }
  replicas r := routesTo_init

omit [DecidableEq ρ] [DecidableEq κ] in
theorem HandlerMove.frames_ne {k : κ} {view : View} {step : HandlerStep} {s s' : WebSocket κ}
    (h : HandlerMove E k view s step s') (hs : s.frames ≠ []) : s'.frames ≠ [] := by
  cases h with
  | accepts | authenticates | gives | letsIn | refuses => exact hs
  | serves => exact List.append_ne_nil_of_left_ne_nil hs _

/-- Nothing that has been written is taken back. -/
theorem GatewayMove.frames_ne (h : GatewayMove E w e w') {k : κ} (hk : (w.sockets k).frames ≠ []) :
    (w'.sockets k).frames ≠ [] := by
  have hset : ∀ {v : Gateway ρ κ} {k₀ : κ} {socket : WebSocket κ}, v.sockets = w.sockets →
      ((w.sockets k₀).frames ≠ [] → socket.frames ≠ []) →
      ((v.setSocket k₀ socket).sockets k).frames ≠ [] := by
    intro v k₀ socket hv hsocket
    refine Gateway.forall_setSocket
      (P := fun k socket => (w.sockets k).frames ≠ [] → socket.frames ≠ []) ?_ hsocket k hk
    rw [hv]
    exact fun _ => id
  cases h with
  | tick | conversations | reader => exact hk
  | handler h => exact hset rfl h.frames_ne
  | joinStep | leaveStep => exact hset rfl id
  | exchange =>
      refine hset (Gateway.publish_sockets ..) fun hframes => ?_
      simpa using hframes
  | delivered => exact hset rfl fun hframes => List.append_ne_nil_of_left_ne_nil hframes _

omit [DecidableEq ρ] [DecidableEq κ] in
theorem afterJoin_eq_admitted {authenticated a : Authenticated} {call : RegistryCall κ}
    {stage : Stage κ} (h : Session.afterJoin authenticated call = .admitted a stage) :
    a = authenticated ∧ (Handler.afterJoin none call = .joining call ∧ stage = .joining call ∨
      stage = .receiving ∨ ∃ cursor, stage = .replaying cursor []) := by
  cases call with
  | returned =>
      cases h
      cases authenticated.lastSeenSeq with
      | none => exact ⟨rfl, .inr (.inl rfl)⟩
      | some lastSeenSeq => exact ⟨rfl, .inr (.inr ⟨_, rfl⟩)⟩
  | raised => cases h
  | waitingJoin | subscribing | waitingLeave | unsubscribing =>
      cases h
      exact ⟨rfl, .inl ⟨rfl, rfl⟩⟩

omit [DecidableEq ρ] [DecidableEq κ] in
theorem afterLeave_eq_admitted {authenticated a : Authenticated} {call : RegistryCall κ}
    {stage : Stage κ} (h : Session.afterLeave authenticated call = .admitted a stage) :
    a = authenticated ∧ Handler.afterLeave call = .leaving call ∧ stage = .leaving call := by
  cases call with
  | returned | raised => cases h
  | waitingJoin | subscribing | waitingLeave | unsubscribing => cases h; exact ⟨rfl, rfl, rfl⟩

theorem sockets_isolated_step (hw : IsolationInv E w) (h : GatewayMove E w e w') (k : κ) :
    (w'.sockets k).Isolated (E.conversation k) k := by
  have hset : ∀ {v : Gateway ρ κ} {k₀ : κ} {socket : WebSocket κ}, v.sockets = w.sockets →
      socket.Isolated (E.conversation k₀) k₀ →
      ((v.setSocket k₀ socket).sockets k).Isolated (E.conversation k) k := by
    intro v k₀ socket hv hsocket
    refine Gateway.forall_setSocket (P := fun k => WebSocket.Isolated (E.conversation k) k) ?_
      hsocket k
    rw [hv]
    exact hw.sockets
  cases h with
  | tick | conversations | reader => exact hw.sockets k
  | handler h => exact hset rfl (h.isolated (hw.sockets _))
  | @joinStep k₀ step authenticated call call' registry hsession h =>
      have hgreeted := (hw.sockets k₀).greeted _ _ hsession (by simp)
      have haddressed := h.addressed_join ((hw.sockets k₀).confined _ _ hsession) none
      refine hset rfl ((hw.sockets k₀).session rfl fun a stage hadmitted => ⟨?_, fun _ => hgreeted⟩)
      obtain ⟨rfl, ⟨hcall, rfl⟩ | rfl | ⟨cursor, rfl⟩⟩ := afterJoin_eq_admitted hadmitted
      · rwa [hcall] at haddressed
      · trivial
      · exact fun m hm => absurd hm List.not_mem_nil
  | @leaveStep k₀ step authenticated call call' registry hsession h =>
      have hgreeted := (hw.sockets k₀).greeted _ _ hsession (by simp)
      have haddressed := h.addressed_leave ((hw.sockets k₀).confined _ _ hsession)
      refine hset rfl ((hw.sockets k₀).session rfl fun a stage hadmitted => ⟨?_, fun _ => hgreeted⟩)
      obtain ⟨rfl, hcall, rfl⟩ := afterLeave_eq_admitted hadmitted
      rwa [hcall] at haddressed
  | @exchange k₀ step authenticated request call call' chat hsession h =>
      have hgreeted := (hw.sockets k₀).greeted _ _ hsession (by simp)
      obtain ⟨hconv, hsender, hheld⟩ := (hw.sockets k₀).confined _ _ hsession
      have hheld' := h.held (by rwa [hconv])
      rw [hconv] at hheld'
      refine hset (Gateway.publish_sockets ..) ((hw.sockets k₀).session (by simp)
        fun a stage hadmitted => ⟨?_, fun _ => hgreeted⟩)
      cases hadmitted
      exact confined_afterExchange hconv hsender hheld'
  | @delivered r k₀ succeeds b m b' hreader h =>
      have hmem : k₀ ∈ b.todo := by
        cases h with
        | goesOn hmem => exact hmem
        | finishes htodo => rw [htodo]; exact Finset.mem_singleton_self _
      obtain ⟨hconv, hgreeted⟩ := (hw.replicas r).delivering b hreader k₀ hmem
      refine hset rfl ((hw.sockets k₀).written hgreeted ?_)
      intro frame hframe
      cases succeeds with
      | false => exact absurd hframe List.not_mem_nil
      | true =>
          obtain rfl := List.mem_singleton.1 hframe
          exact hconv

theorem replicas_route_step (hw : IsolationInv E w) (h : GatewayMove E w e w') (r : ρ) :
    (w'.replicas r).RoutesTo (w'.MayReach E) := by
  refine Replica.RoutesTo.imp (P := w.MayReach E) ?_ fun c k hk => ⟨hk.1, h.frames_ne hk.2⟩
  have hset : ∀ {r₀ : ρ} {replica : Replica κ κ}, replica.RoutesTo (w.MayReach E) →
      (Function.update w.replicas r₀ replica r).RoutesTo (w.MayReach E) := fun hreplica =>
    forall_setReplica (P := fun _ replica => Replica.RoutesTo (w.MayReach E) replica) hw.replicas
      hreplica r
  cases h with
  | tick | conversations | handler => exact hw.replicas r
  | @joinStep k step authenticated call call' registry hsession h =>
      -- a socket that joins has been greeted
      have hjoining := (hw.sockets k).confined _ _ hsession
      exact hset ((hw.replicas _).registry h (.inl hjoining) fun _ =>
        ⟨rfl, (hw.sockets k).greeted _ _ hsession (by simp)⟩)
  | @leaveStep k step authenticated call call' registry hsession h =>
      have hleaving := (hw.sockets k).confined _ _ hsession
      exact hset ((hw.replicas _).registry h (.inr hleaving) fun hjoining =>
        absurd hleaving hjoining.not_leaving)
  | @exchange k step authenticated request call call' chat =>
      exact Gateway.forall_publish (P := Replica.RoutesTo (w.MayReach E)) (w := { w with chat })
        hw.replicas (fun r message hr => hr.receive request.conversationId message) _ r
  | reader h => exact hset ((hw.replicas _).reader h)
  | delivered hreader h => exact hset ((hw.replicas _).sent hreader h)

theorem isolationInv_step (hw : IsolationInv E w) (h : GatewayMove E w e w') : IsolationInv E w' :=
  ⟨sockets_isolated_step hw h, replicas_route_step hw h⟩

/-! ## Looking back -/

/-- The first frame of socket `k` is an `auth` frame that arrives within the timeout, with a token
    that names `user` at this moment. -/
def Gateway.Authenticates (E : Endpoint ρ κ) (k : κ) (user : UUID) (w : Gateway ρ κ)
    (e : GatewayEvent ρ κ) : Prop :=
  ∃ token lastSeenSeq, e = .handler k (.receive (.auth token lastSeenSeq)) ∧
    (w.sockets k).session = .authenticating ∧
    w.now.instant ≤ (w.sockets k).acceptedAt.instant + E.wsAuthTimeout.micros ∧
    E.decodeAccess token w.now = some user

/-- `access.ensure` succeeds for `user`: the conversation is active and they take part in it. -/
def Gateway.LetsIn (E : Endpoint ρ κ) (k : κ) (user : UUID) (w : Gateway ρ κ)
    (e : GatewayEvent ρ κ) : Prop :=
  e = .handler k .ensure ∧
    (∃ model, w.row (E.conversation k) = some model ∧ model.deletedAt = none) ∧
    ⟨user⟩ ∈ w.participants (E.conversation k)

/-- In the run of `es` socket `k` has authenticated as `user`. -/
def Gateway.HasAuthenticated (E : Endpoint ρ κ) (w₀ : Gateway ρ κ) (k : κ) (user : UUID) :
    List (GatewayEvent ρ κ) → Prop :=
  Happened (Gateway.step E) w₀ fun _ => Gateway.Authenticates E k user

/-- In the run of `es` socket `k` has authenticated as `user`, and was let in after that. -/
def Gateway.Admitted (E : Endpoint ρ κ) (w₀ : Gateway ρ κ) (k : κ) (user : UUID) :
    List (GatewayEvent ρ κ) → Prop :=
  Happened (Gateway.step E) w₀ fun es w e =>
    Gateway.LetsIn E k user w e ∧ Gateway.HasAuthenticated E w₀ k user es

/-- The session of an admitted user, or its end. -/
def Session.Continues (authenticated : Authenticated) (session : Session κ) : Prop :=
  session = .closed ∨ ∃ stage, session = .admitted authenticated stage

omit [DecidableEq ρ] [DecidableEq κ] in
theorem continues_afterJoin (authenticated : Authenticated) (call : RegistryCall κ) :
    (Session.afterJoin authenticated call).Continues authenticated := by
  cases call with
  | raised => exact .inl rfl
  | returned | waitingJoin | subscribing | waitingLeave | unsubscribing => exact .inr ⟨_, rfl⟩

omit [DecidableEq ρ] [DecidableEq κ] in
theorem continues_afterLeave (authenticated : Authenticated) (call : RegistryCall κ) :
    (Session.afterLeave authenticated call).Continues authenticated := by
  cases call with
  | returned | raised => exact .inl rfl
  | waitingJoin | subscribing | waitingLeave | unsubscribing => exact .inr ⟨_, rfl⟩

/-- What a socket does, and what is done to it, it has shown the right to in the run of `es`. -/
structure WebSocket.Evidenced (E : Endpoint ρ κ) (w₀ : Gateway ρ κ) (k : κ)
    (es : List (GatewayEvent ρ κ)) (s : WebSocket κ) : Prop where
  authorizing : ∀ authenticated, s.session = .authorizing authenticated →
    Gateway.HasAuthenticated E w₀ k authenticated.userId es
  admitted : ∀ authenticated stage, s.session = .admitted authenticated stage →
    Gateway.Admitted E w₀ k authenticated.userId es
  written : s.frames ≠ [] → ∃ user, Gateway.Admitted E w₀ k user es
  started : ∀ request ∈ s.started, request.conversationId = E.conversation k ∧
    Gateway.Admitted E w₀ k request.senderId.value es

section Evidence

variable {w₀ : Gateway ρ κ} {k : κ} {es : List (GatewayEvent ρ κ)} {s s' : WebSocket κ}

theorem WebSocket.Evidenced.append (hs : s.Evidenced E w₀ k es) (e : GatewayEvent ρ κ) :
    s.Evidenced E w₀ k (es ++ [e]) where
  authorizing a h := (hs.authorizing a h).append [e]
  admitted a stage h := (hs.admitted a stage h).append [e]
  written h := (hs.written h).imp fun _ huser => huser.append [e]
  started request h := (hs.started request h).imp_right fun huser => huser.append [e]

/-- A socket that has been admitted stays the one of its user. -/
theorem WebSocket.Evidenced.serve (hs : s.Evidenced E w₀ k es) {authenticated : Authenticated}
    {stage : Stage κ} (hsession : s.session = .admitted authenticated stage)
    (hnext : s'.session.Continues authenticated)
    (hstarted : ∀ request ∈ s'.started, request ∈ s.started ∨
      request.conversationId = E.conversation k ∧ request.senderId = ⟨authenticated.userId⟩) :
    s'.Evidenced E w₀ k es where
  authorizing a h := by
    rcases hnext with hclosed | ⟨st, hst⟩
    · cases hclosed.symm.trans h
    · cases hst.symm.trans h
  admitted a st h := by
    rcases hnext with hclosed | ⟨st', hst⟩
    · cases hclosed.symm.trans h
    · cases hst.symm.trans h
      exact hs.admitted _ _ hsession
  written _ := ⟨_, hs.admitted _ _ hsession⟩
  started request h := by
    rcases hstarted request h with hold | ⟨hconv, hsender⟩
    · exact hs.started request hold
    · rw [hsender]
      exact ⟨hconv, hs.admitted _ _ hsession⟩

/-- A step of a handler shows what it needs. -/
theorem HandlerMove.evidenced {step : HandlerStep}
    (hrun : exec (Gateway.step E) w₀ es = some w)
    (hisolated : (w.sockets k).Isolated (E.conversation k) k)
    (hs : (w.sockets k).Evidenced E w₀ k es)
    (h : HandlerMove E k (w.view E k) (w.sockets k) step s') :
    s'.Evidenced E w₀ k (es ++ [.handler k step]) := by
  have hkept := hs.append (.handler k step)
  cases h with
  | accepts | gives | refuses =>
      refine ⟨fun a ha => ?_, fun a st ha => ?_, hkept.written, hkept.started⟩ <;> cases ha
  | @authenticates frame hsession hintime =>
      refine ⟨fun a ha => ?_, fun a st ha => ?_, hkept.written, hkept.started⟩
      all_goals
        rcases authenticate_cases E (w.view E k).now frame with
          hauth | ⟨token, lastSeenSeq, userId, rfl, hdecode, hauth⟩ <;> cases hauth.symm.trans ha
      exact happened_last hrun ⟨token, lastSeenSeq, rfl, hsession, hintime, hdecode⟩
  | @letsIn authenticated hsession hensure =>
      obtain ⟨hrow, hmember⟩ := ensureConversationAccess_eq_ok.1 hensure
      refine ⟨fun a ha => ?_, fun a st ha => ?_, hkept.written, hkept.started⟩ <;> cases ha
      exact happened_last hrun ⟨⟨rfl, hrow, hmember⟩, hs.authorizing _ hsession⟩
  | @serves _ authenticated stage stage' frame hsession h =>
      obtain ⟨hstage, -⟩ := h.confined (hisolated.confined _ _ hsession)
      refine hkept.serve hsession ?_ fun request hrequest => ?_
      · cases stage' with
        | none => exact .inl rfl
        | some stage₁ => exact .inr ⟨stage₁, rfl⟩
      · refine (List.mem_append.1 hrequest).imp_right fun hnew => ?_
        cases stage' with
        | none => exact absurd hnew List.not_mem_nil
        | some stage₁ =>
            -- the exchange that starts is confined to this user and conversation
            cases stage₁ with
            | exchanging request₁ call =>
                obtain rfl := List.mem_singleton.1 hnew
                obtain ⟨hconv, hsender, -⟩ := hstage _ rfl
                exact ⟨hconv, hsender⟩
            | greeting | joining | replaying | sending | receiving | limiting | answering
            | leaving => exact absurd hnew List.not_mem_nil

theorem evidenced_step (hrun : exec (Gateway.step E) w₀ es = some w) (hisolated : IsolationInv E w)
    (hw : ∀ k, (w.sockets k).Evidenced E w₀ k es) (h : GatewayMove E w e w') (k : κ) :
    (w'.sockets k).Evidenced E w₀ k (es ++ [e]) := by
  have hkept : ∀ k, (w.sockets k).Evidenced E w₀ k (es ++ [e]) := fun k => (hw k).append e
  have hset : ∀ {v : Gateway ρ κ} {k₀ : κ} {socket : WebSocket κ}, v.sockets = w.sockets →
      socket.Evidenced E w₀ k₀ (es ++ [e]) →
      ((v.setSocket k₀ socket).sockets k).Evidenced E w₀ k (es ++ [e]) := by
    intro v k₀ socket hv hsocket
    refine Gateway.forall_setSocket (P := fun k s => WebSocket.Evidenced E w₀ k (es ++ [e]) s) ?_
      hsocket k
    rw [hv]
    exact hkept
  cases h with
  | tick | conversations | reader => exact hkept k
  | handler h => exact hset rfl (h.evidenced hrun (hisolated.sockets _) (hw _))
  | joinStep hsession h =>
      exact hset rfl ((hkept _).serve hsession (continues_afterJoin _ _) fun _ => .inl)
  | leaveStep hsession h =>
      exact hset rfl ((hkept _).serve hsession (continues_afterLeave _ _) fun _ => .inl)
  | exchange hsession h =>
      refine hset (Gateway.publish_sockets ..) ((hkept _).serve hsession (.inr ⟨_, rfl⟩) ?_)
      intro request hrequest
      rw [Gateway.publish_sockets] at hrequest
      exact .inl hrequest
  | @delivered r k₀ succeeds b m b' hreader h =>
      -- only a socket that has been greeted is sent a broadcast
      have hold := hkept k₀
      have hmem : k₀ ∈ b.todo := by
        cases h with
        | goesOn hmem => exact hmem
        | finishes htodo => rw [htodo]; exact Finset.mem_singleton_self _
      obtain ⟨-, hgreeted⟩ := (hisolated.replicas r).delivering b hreader k₀ hmem
      exact hset rfl ⟨hold.authorizing, hold.admitted, fun _ => hold.written hgreeted, hold.started⟩

end Evidence

end Gateway

/-! ## The result -/

section Result

variable {ρ κ : Type*} [DecidableEq ρ] [DecidableEq κ]

/-- Delivery isolation, for every schedule and every sequence of frames: a socket is sent nothing, or
    `auth.ok` first; a message frame on it is of its conversation; and for anything at all to be
    written to it, for it to be served or registered or to start an exchange, its first frame must
    have named a user by a valid token within the timeout, and this user must then have been let in
    as a participant of the active conversation. -/
theorem gateway_isolated (E : Endpoint ρ κ) {row : ConversationId → Option ConversationModel}
    {participants : ConversationId → Finset ParticipantId} {stored : List Message} {lastSeq : Int}
    {now : Datetime} {es : List (GatewayEvent ρ κ)} {w : Gateway ρ κ}
    (h : exec (Gateway.step E) (Gateway.init row participants stored lastSeq now) es = some w)
    (k : κ) :
    ((w.sockets k).frames = [] ∨ (w.sockets k).frames.head? = some .authOk) ∧
      (∀ m, .messageNew m ∈ (w.sockets k).frames ∨ .messageAck m ∈ (w.sockets k).frames →
        m.conversationId = E.conversation k) ∧
      ((w.sockets k).frames ≠ [] ∨
          (∃ authenticated stage, (w.sockets k).session = .admitted authenticated stage) ∨
          (∃ r c, k ∈ (w.replicas r).registry.manager.registered c) →
        ∃ user, Gateway.Admitted E (Gateway.init row participants stored lastSeq now) k user es) ∧
      ∀ request ∈ (w.sockets k).started, request.conversationId = E.conversation k ∧
        Gateway.Admitted E (Gateway.init row participants stored lastSeq now) k
          request.senderId.value es := by
  obtain ⟨hisolated, hevidenced⟩ : IsolationInv E w ∧ ∀ k, (w.sockets k).Evidenced E
      (Gateway.init row participants stored lastSeq now) k es := by
    refine exec_history (I := fun es w => IsolationInv E w ∧ ∀ k, (w.sockets k).Evidenced E
      (Gateway.init row participants stored lastSeq now) k es) ⟨isolationInv_init, fun k => ?_⟩
      (fun es w e w' hw hrun hstep => ?_) h
    · refine ⟨fun a ha => ?_, fun a stage ha => ?_, fun hne => absurd rfl hne,
        fun _ hin => absurd hin List.not_mem_nil⟩ <;> cases ha
    · exact ⟨isolationInv_step hw.1 (gateway_move hstep),
        evidenced_step hrun hw.1 hw.2 (gateway_move hstep)⟩
  refine ⟨?_, fun m hm => ?_, ?_, (hevidenced k).started⟩
  · cases hframes : (w.sockets k).frames with
    | nil => exact .inl rfl
    | cons first rest =>
        refine .inr (congrArg some ((hisolated.sockets k).authOkFirst first ?_))
        rw [hframes]
        rfl
  · exact hm.elim ((hisolated.sockets k).about _) ((hisolated.sockets k).about _)
  · rintro (hwritten | ⟨authenticated, stage, hsession⟩ | ⟨r, c, hregistered⟩)
    · exact (hevidenced k).written hwritten
    · exact ⟨_, (hevidenced k).admitted _ _ hsession⟩
    · exact (hevidenced k).written ((hisolated.replicas r).registered c k hregistered).2

/-- Two sockets on one replica, each on a conversation of its own. -/
def twoConversations : Endpoint Unit Bool where
  replica _ := ()
  conversation k := if k then ⟨2⟩ else helloRequest.conversationId
  wsAuthTimeout := ⟨10⟩
  decodeAccess token now :=
    if token = "ten" ∧ now.instant < 100 then some 10 else if token = "twenty" then some 20 else none

def ownConversation (c : ConversationId) : Option ConversationModel :=
  some ⟨c, helloConversation.ownerId, helloConversation.title, ⟨0, 0⟩, ⟨0, 0⟩, none⟩

def ownParticipants (c : ConversationId) : Finset ParticipantId :=
  if c = helloRequest.conversationId then {⟨10⟩} else {⟨20⟩}

/-- A socket connects, is let in and joins as the first of its conversation. -/
def connects (k : Bool) (token : String) : List (GatewayEvent Unit Bool) :=
  [.handler k .accept, .handler k (.receive (.auth token none)), .handler k .ensure,
    .handler k (.sent true), .registry k .acquire, .registry k (.subscriber .acquire),
    .registry k (.subscriber (.redis true))]

/-- A socket sends a message, which is delivered before it is acknowledged. -/
def sendsMessage (k : Bool) : List (GatewayEvent Unit Bool) :=
  [.handler k (.receive (.messageSend "hello" none)), .handler k (.limited true),
    .exchange k (.user (.readConversation (some helloConversation))),
    .exchange k (.user .findExisting), .exchange k (.user (.draw ⟨1, 0⟩)),
    .exchange k (.user .flush), .exchange k (.user .commit), .exchange k (.publish true),
    .reader () .turn, .reader () .acquire, .reader () (.read .message), .delivered () k true,
    .exchange k (.respond false), .handler k (.sent true)]

theorem gateway_isolated_sendsMessage :
    ∃ w, exec (Gateway.step twoConversations) (Gateway.init ownConversation ownParticipants [] 0
        ⟨0, 0⟩) (connects false "ten" ++ connects true "twenty" ++ sendsMessage false) = some w ∧
      ((w.sockets false).frames.length = 3 ∧ (w.sockets true).frames = [.authOk]) ∧
      ∃ user, Gateway.Admitted twoConversations (Gateway.init ownConversation ownParticipants [] 0
        ⟨0, 0⟩) false user (connects false "ten" ++ connects true "twenty" ++ sendsMessage false) := by
  obtain ⟨w, hrun, hframes⟩ := exec_reaches (Gateway.step twoConversations)
    (Gateway.init ownConversation ownParticipants [] 0 ⟨0, 0⟩)
    (connects false "ten" ++ connects true "twenty" ++ sendsMessage false)
    (fun w => (w.sockets false).frames.length = 3 ∧ (w.sockets true).frames = [.authOk]) (by decide)
  have hwritten : (w.sockets false).frames ≠ [] :=
    List.ne_nil_of_length_pos (by rw [hframes.1]; decide)
  exact ⟨w, hrun, hframes, (gateway_isolated twoConversations hrun false).2.2.1 (.inl hwritten)⟩

end Result

end Dizzchat
