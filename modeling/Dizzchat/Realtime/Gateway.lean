import Dizzchat.Messaging.Participants
import Dizzchat.Realtime.FanOut

set_option autoImplicit false

/-! # The WebSocket endpoint

`conversation_ws` from the accepted socket to its last frame: the `auth` frame, the access check, the
registry, the replay, and the loop that answers one frame after another, on any number of replicas.
Every await may let others run, and whatever a handler waits for may fail. A handler runs its
exchanges one at a time, so an exchange is known by its socket.

Frames are what the models of `protocol` make of them. `decode_access` and the table of conversations
belong to others: the first is a parameter, the second changes in any way between two steps. -/

namespace Dizzchat

open Transition

/-! ## Frames -/

/-- What comes back from a `receive_json`. -/
inductive InboundFrame
  /-- Accepted by `AuthFrame`. -/
  | auth (token : String) (lastSeenSeq : Option Int)
  /-- Accepted by `SendMessageFrame`. -/
  | messageSend (content : String) (clientMessageId : Option UUID)
  /-- JSON that neither of them accepts. -/
  | invalid
  /-- A `ValueError`: the payload is not JSON. -/
  | notJson
  /-- Another exception. -/
  | raises
deriving DecidableEq

/-- The frames the handlers and the broadcasts write; a message frame is built from its message. -/
inductive OutboundFrame
  | authOk
  | messageNew (message : Message)
  | messageAck (message : Message)
  | error (detail : String)
deriving DecidableEq

/-! ## Handlers -/

/-- What `_authenticate` returns. -/
structure Authenticated where
  userId : UUID
  token : String
  lastSeenSeq : Option Int
deriving DecidableEq

/-- Where a handler is after its access check. -/
inductive Stage (κ : Type*)
  /-- Sending `auth.ok`. -/
  | greeting
  | joining (call : RegistryCall κ)
  | replaying (cursor : Option MessageId) (collected : List Message)
  | sending (missed : List Message)
  /-- In the `receive_json` of `_receive_loop`. -/
  | receiving
  | limiting (frame : InboundFrame)
  | exchanging (request : SendRequest) (call : ExchangeCall)
  /-- Sending the answer to a frame. -/
  | answering (frame : OutboundFrame)
  | leaving (call : RegistryCall κ)
deriving DecidableEq

/-- Where `conversation_ws` is. -/
inductive Session (κ : Type*)
  | connecting
  | authenticating
  | authorizing (authenticated : Authenticated)
  | admitted (authenticated : Authenticated) (stage : Stage κ)
  | closed
deriving DecidableEq

structure WebSocket (κ : Type*) where
  session : Session κ
  /-- The clock as the socket was accepted. -/
  acceptedAt : Datetime
  /-- The frames written to the socket, oldest first. -/
  frames : List OutboundFrame
  /-- The exchanges its frames have started. -/
  started : List SendRequest

/-- Where the sockets are connected, and what the handlers take from the settings and the token
    service. -/
structure Endpoint (ρ κ : Type*) where
  replica : κ → ρ
  conversation : κ → ConversationId
  wsAuthTimeout : Timedelta
  /-- `decode_access` at a reading of the clock: the user, unless it raises `InvalidAccessToken`. -/
  decodeAccess : String → Datetime → Option UUID

inductive HandlerStep
  | accept
  | receive (frame : InboundFrame)
  /-- `receive_json` raises `WebSocketDisconnect`. -/
  | disconnect
  | authTimeout
  | ensure
  | readPage
  | limited (allowed : Bool)
  /-- The send the handler waits for comes back. -/
  | sent (succeeds : Bool)
  /-- What the handler waits for in the store or at the limiter raises. -/
  | fail
deriving DecidableEq

/-- What a handler can read while it runs: the clock, its conversation and the stored messages. -/
structure View where
  now : Datetime
  participants : Finset ParticipantId
  row : Option ConversationModel
  messages : List Message

section Handler

variable {ρ κ : Type*} (E : Endpoint ρ κ) (k : κ)

/-- The loop of `_replay_missed` over what it has still to send. -/
def Stage.afterMissed : List Message → Stage κ
  | [] => .receiving
  | missed => .sending missed

/-- What `_receive_loop` does with a frame that has passed the rate limit. -/
def Stage.afterLimit (now : Datetime) (authenticated : Authenticated) : InboundFrame → Stage κ
  | .messageSend content clientMessageId =>
      match MessageContent.ofString content with
      | .error _ => .answering (.error "invalid message frame")
      | .ok content =>
          match E.decodeAccess authenticated.token now with
          -- closed with 4401
          | none => .leaving (.waitingLeave (E.conversation k) k)
          | some _ => .exchanging
              { conversationId := E.conversation k
                senderId := ⟨authenticated.userId⟩
                content
                clientMessageId := clientMessageId.map ClientMessageId.mk } (.writing .started)
  | .notJson => .answering (.error "invalid JSON")
  | .auth .. | .invalid | .raises => .answering (.error "invalid message frame")

/-- The exchange a stage has just started, if it has. -/
def Stage.startedExchange : Stage κ → List SendRequest
  | .exchanging request _ => [request]
  | _ => []

/-- The steps of an admitted handler, but for those inside the registry and the exchange: the next
    stage, or `none` for the end, and the frame written. -/
def ConversationWs.serve (view : View) (authenticated : Authenticated) :
    HandlerStep → Stage κ → Option (Option (Stage κ) × Option OutboundFrame)
  | .sent true, .greeting => some (some (.joining (.waitingJoin (E.conversation k) k)), some .authOk)
  -- the handler has not joined yet, so there is nothing to leave
  | .sent false, .greeting => some (none, none)
  | .readPage, .replaying cursor collected =>
      match ReplayMessages.turn replayPageSize (E.conversation k) view.messages cursor collected with
      | .reading cursor collected => some (some (.replaying cursor collected), none)
      | .finished missed => some (some (.afterMissed missed), none)
  | .sent true, .sending (message :: missed) =>
      some (some (.afterMissed missed), some (.messageNew message))
  | .receive .raises, .receiving | .disconnect, .receiving | .fail, .replaying .. | .fail, .limiting _
  | .sent false, .sending _ | .sent false, .answering _ =>
      some (some (.leaving (.waitingLeave (E.conversation k) k)), none)
  | .receive frame, .receiving => some (some (.limiting frame), none)
  | .limited false, .limiting _ => some (some (.answering (.error "rate limit exceeded")), none)
  | .limited true, .limiting frame =>
      some (some (.afterLimit E k view.now authenticated frame), none)
  | .sent true, .answering frame => some (some .receiving, some frame)
  | _, _ => none

/-- `_authenticate` with the first frame in hand. -/
def ConversationWs.authenticate (now : Datetime) : InboundFrame → Session κ
  | .auth token lastSeenSeq => match E.decodeAccess token now with
      | none => .closed
      | some userId => .authorizing ⟨userId, token, lastSeenSeq⟩
  | .messageSend .. | .invalid | .notJson | .raises => .closed

/-- The steps of `conversation_ws`, but for those inside the registry and the exchange. -/
def ConversationWs.step (view : View) (step : HandlerStep) (s : WebSocket κ) :
    Option (WebSocket κ) :=
  match step, s.session with
  | .accept, .connecting => some { s with session := .authenticating, acceptedAt := view.now }
  | .receive frame, .authenticating =>
      -- `wait_for` returns a frame up to the deadline
      if view.now.instant ≤ s.acceptedAt.instant + E.wsAuthTimeout.micros then
        some { s with session := ConversationWs.authenticate E view.now frame }
      else none
  | .authTimeout, .authenticating =>
      if s.acceptedAt.instant + E.wsAuthTimeout.micros ≤ view.now.instant then
        some { s with session := .closed }
      else none
  | .disconnect, .authenticating => some { s with session := .closed }
  | .ensure, .authorizing authenticated =>
      match EnsureConversationAccess.execute view.participants (E.conversation k)
          ⟨authenticated.userId⟩ view.row with
      | .error _ => some { s with session := .closed }
      | .ok () => some { s with session := .admitted authenticated .greeting }
  | .fail, .authorizing _ => some { s with session := .closed }
  | step, .admitted authenticated stage =>
      (ConversationWs.serve E k view authenticated step stage).map fun (stage', frame) =>
        { s with
          session := match stage' with
            | none => .closed
            | some stage' => .admitted authenticated stage'
          frames := s.frames ++ frame.toList
          started := s.started ++ (stage'.elim [] Stage.startedExchange) }
  | _, _ => none

/-- Where an admitted handler goes on after a step of `join`. -/
def Session.afterJoin (authenticated : Authenticated) : RegistryCall κ → Session κ
  | .returned => .admitted authenticated (match authenticated.lastSeenSeq with
      | none => .receiving
      | some lastSeenSeq => .replaying (some ⟨lastSeenSeq⟩) [])
  | .raised => .closed
  | call => .admitted authenticated (.joining call)

def Session.afterLeave (authenticated : Authenticated) : RegistryCall κ → Session κ
  | .returned | .raised => .closed
  | call => .admitted authenticated (.leaving call)

/-- Where `_receive_loop` goes on after a step of `exchange`. -/
def Stage.afterExchange (request : SendRequest) : ExchangeCall → Stage κ
  | .returned message _ => .answering (.messageAck message)
  -- not an `Exception`, so the loop does not catch it
  | .raised .cancelled _ _ => .leaving (.waitingLeave (E.conversation k) k)
  | .raised .. => .answering (.error "failed to handle message")
  | call => .exchanging request call

end Handler

/-! ## The endpoint -/

structure Gateway (ρ κ : Type*) where
  now : Datetime
  row : ConversationId → Option ConversationModel
  participants : ConversationId → Finset ParticipantId
  chat : Chat κ
  replicas : ρ → Replica κ κ
  sockets : κ → WebSocket κ

inductive GatewayEvent (ρ κ : Type*)
  | tick (elapsed : ℕ)
  /-- Transactions of others leave the conversations so. -/
  | conversations (row : ConversationId → Option ConversationModel)
      (participants : ConversationId → Finset ParticipantId)
  | handler (k : κ) (step : HandlerStep)
  | registry (k : κ) (step : RegistryStep)
  | exchange (k : κ) (step : ExchangeStep)
  | reader (r : ρ) (step : ReaderStep)
  /-- A send of the broadcast under way on a replica comes back. -/
  | delivered (r : ρ) (k : κ) (succeeds : Bool)

namespace Gateway

variable {ρ κ : Type*}

/-- Nobody has connected yet; `stored` are the messages stored before. -/
def init (row : ConversationId → Option ConversationModel)
    (participants : ConversationId → Finset ParticipantId) (stored : List Message) (lastSeq : Int)
    (now : Datetime) : Gateway ρ κ where
  now
  row
  participants
  chat := ⟨⟨{ rows := stored, writes := [] }, lastSeq⟩, [], []⟩
  replicas _ := Replica.init
  sockets _ := { session := .connecting, acceptedAt := now, frames := [], started := [] }

def view (E : Endpoint ρ κ) (k : κ) (w : Gateway ρ κ) : View where
  now := w.now
  participants := w.participants (E.conversation k)
  row := w.row (E.conversation k)
  messages := w.chat.store.messages.rows

variable [DecidableEq ρ] [DecidableEq κ]

def setReplica (r : ρ) (replica : Replica κ κ) (w : Gateway ρ κ) : Gateway ρ κ :=
  { w with replicas := Function.update w.replicas r replica }

def setSocket (k : κ) (socket : WebSocket κ) (w : Gateway ρ κ) : Gateway ρ κ :=
  { w with sockets := Function.update w.sockets k socket }

def setSession (k : κ) (session : Session κ) (w : Gateway ρ κ) : Gateway ρ κ :=
  w.setSocket k { w.sockets k with session }

/-- A step of the registry call of socket `k`, with where its handler goes on. -/
def registryStep (E : Endpoint ρ κ) (k : κ) (step : RegistryStep) (call : RegistryCall κ)
    (after : RegistryCall κ → Session κ) (w : Gateway ρ κ) : Option (Gateway ρ κ) :=
  let replica := w.replicas (E.replica k)
  (ConversationRegistry.call k step replica.registry call).map fun (registry, call) =>
    (w.setReplica (E.replica k) { replica with registry }).setSession k (after call)

/-- `RedisMessageBroadcaster.broadcast` -/
def publish (c : ConversationId) (message : Option Message) (w : Gateway ρ κ) : Gateway ρ κ :=
  match message with
  | none => w
  | some message => { w with replicas := fun r => (w.replicas r).receive c message }

def step (E : Endpoint ρ κ) (w : Gateway ρ κ) : GatewayEvent ρ κ → Option (Gateway ρ κ)
  | .tick elapsed => some { w with now := w.now + (⟨elapsed⟩ : Timedelta) }
  | .conversations row participants => some { w with row, participants }
  | .handler k step => (ConversationWs.step E k (w.view E k) step (w.sockets k)).map fun socket =>
      w.setSocket k socket
  | .registry k step => match (w.sockets k).session with
      | .admitted authenticated (.joining call) =>
          w.registryStep E k step call (Session.afterJoin authenticated)
      | .admitted authenticated (.leaving call) =>
          w.registryStep E k step call (Session.afterLeave authenticated)
      | _ => none
  | .exchange k step => match (w.sockets k).session with
      | .admitted authenticated (.exchanging request call) =>
          (MessageExchange.exchange (fun _ => request) k step w.chat call).map fun (chat, call') =>
            (({ w with chat }).publish request.conversationId (call.published step)).setSession k
              (.admitted authenticated (Stage.afterExchange E k request call'))
      | _ => none
  | .reader r step => ((w.replicas r).read step).map fun replica => w.setReplica r replica
  | .delivered r k succeeds => match (w.replicas r).reader with
      | .delivering b => ((w.replicas r).delivered k succeeds).map fun replica =>
          let frames := if succeeds then [OutboundFrame.messageNew b.message] else []
          (w.setReplica r replica).setSocket k
            { w.sockets k with frames := (w.sockets k).frames ++ frames }
      | _ => none

end Gateway

/-! ## What a step can do -/

/-- Past the join, and neither in an exchange nor leaving. -/
def Stage.serving {κ : Type*} : Stage κ → Bool
  | .replaying .. | .sending _ | .receiving | .limiting _ | .answering _ => true
  | .greeting | .joining _ | .exchanging .. | .leaving _ => false

section Handler

variable {ρ κ : Type*}

/-- The steps of an admitted handler, one constructor for each. -/
inductive ServeMove (E : Endpoint ρ κ) (k : κ) (view : View) (authenticated : Authenticated) :
    HandlerStep → Stage κ → Option (Stage κ) → Option OutboundFrame → Prop
  | greets : ServeMove E k view authenticated (.sent true) .greeting
      (some (.joining (.waitingJoin (E.conversation k) k))) (some .authOk)
  | greetFails : ServeMove E k view authenticated (.sent false) .greeting none none
  | readsOn {cursor cursor' : Option MessageId} {collected collected' : List Message}
      (h : ReplayMessages.turn replayPageSize (E.conversation k) view.messages cursor collected =
        .reading cursor' collected') :
      ServeMove E k view authenticated .readPage (.replaying cursor collected)
        (some (.replaying cursor' collected')) none
  | readsLast {cursor : Option MessageId} {collected missed : List Message}
      (h : ReplayMessages.turn replayPageSize (E.conversation k) view.messages cursor collected =
        .finished missed) :
      ServeMove E k view authenticated .readPage (.replaying cursor collected)
        (some (.afterMissed missed)) none
  | replays {message : Message} {missed : List Message} :
      ServeMove E k view authenticated (.sent true) (.sending (message :: missed))
        (some (.afterMissed missed)) (some (.messageNew message))
  | leaves {step : HandlerStep} {stage : Stage κ} (h : stage.serving = true) :
      ServeMove E k view authenticated step stage
        (some (.leaving (.waitingLeave (E.conversation k) k))) none
  | receives {frame : InboundFrame} :
      ServeMove E k view authenticated (.receive frame) .receiving (some (.limiting frame)) none
  | limits {frame : InboundFrame} :
      ServeMove E k view authenticated (.limited false) (.limiting frame)
        (some (.answering (.error "rate limit exceeded"))) none
  | passes {frame : InboundFrame} :
      ServeMove E k view authenticated (.limited true) (.limiting frame)
        (some (.afterLimit E k view.now authenticated frame)) none
  | answers {frame : OutboundFrame} :
      ServeMove E k view authenticated (.sent true) (.answering frame) (some .receiving) (some frame)

theorem serve_move {E : Endpoint ρ κ} {k : κ} {view : View} {authenticated : Authenticated}
    {step : HandlerStep} {stage : Stage κ} {stage' : Option (Stage κ)} {frame : Option OutboundFrame}
    (h : ConversationWs.serve E k view authenticated step stage = some (stage', frame)) :
    ServeMove E k view authenticated step stage stage' frame := by
  unfold ConversationWs.serve at h
  split at h
  · cases h; exact .greets
  · cases h; exact .greetFails
  · split at h
    · next hturn => cases h; exact .readsOn hturn
    · next hturn => cases h; exact .readsLast hturn
  · cases h; exact .replays
  all_goals try (cases h; exact .leaves rfl)
  · cases h; exact .receives
  · cases h; exact .limits
  · cases h; exact .passes
  · cases h; exact .answers
  · cases h

/-- Only an `auth` frame with a valid token gets past `_authenticate`. -/
theorem authenticate_cases (E : Endpoint ρ κ) (now : Datetime) (frame : InboundFrame) :
    (ConversationWs.authenticate E now frame : Session κ) = .closed ∨
      ∃ token lastSeenSeq userId, frame = .auth token lastSeenSeq ∧
        E.decodeAccess token now = some userId ∧
        ConversationWs.authenticate E now frame = .authorizing ⟨userId, token, lastSeenSeq⟩ := by
  cases frame with
  | auth token lastSeenSeq =>
      simp only [ConversationWs.authenticate]
      cases hdecode : E.decodeAccess token now with
      | none => exact .inl rfl
      | some userId => exact .inr ⟨token, lastSeenSeq, userId, rfl, hdecode, rfl⟩
  | messageSend | invalid | notJson | raises => exact .inl rfl

/-- The steps of a handler, but for those inside the registry and the exchange. -/
inductive HandlerMove (E : Endpoint ρ κ) (k : κ) (view : View) (s : WebSocket κ) :
    HandlerStep → WebSocket κ → Prop
  | accepts (hsession : s.session = .connecting) :
      HandlerMove E k view s .accept
        { s with session := .authenticating, acceptedAt := view.now }
  | authenticates {frame : InboundFrame} (hsession : s.session = .authenticating)
      (hintime : view.now.instant ≤ s.acceptedAt.instant + E.wsAuthTimeout.micros) :
      HandlerMove E k view s (.receive frame)
        { s with session := ConversationWs.authenticate E view.now frame }
  | gives {step : HandlerStep} (hsession : s.session = .authenticating) :
      HandlerMove E k view s step { s with session := .closed }
  | letsIn {authenticated : Authenticated} (hsession : s.session = .authorizing authenticated)
      (h : EnsureConversationAccess.execute view.participants (E.conversation k)
        ⟨authenticated.userId⟩ view.row = .ok ()) :
      HandlerMove E k view s .ensure { s with session := .admitted authenticated .greeting }
  | refuses {step : HandlerStep} {authenticated : Authenticated}
      (hsession : s.session = .authorizing authenticated) :
      HandlerMove E k view s step { s with session := .closed }
  | serves {step : HandlerStep} {authenticated : Authenticated} {stage : Stage κ}
      {stage' : Option (Stage κ)} {frame : Option OutboundFrame}
      (hsession : s.session = .admitted authenticated stage)
      (h : ServeMove E k view authenticated step stage stage' frame) :
      HandlerMove E k view s step
        { s with
          session := stage'.elim .closed (.admitted authenticated)
          frames := s.frames ++ frame.toList
          started := s.started ++ stage'.elim [] Stage.startedExchange }

theorem handler_move {E : Endpoint ρ κ} {k : κ} {view : View} {step : HandlerStep}
    {s s' : WebSocket κ} (h : ConversationWs.step E k view step s = some s') :
    HandlerMove E k view s step s' := by
  unfold ConversationWs.step at h
  split at h
  · next hsession => cases h; exact .accepts hsession
  · next hsession =>
      obtain ⟨hintime, heq⟩ := Option.ite_none_right_eq_some.1 h
      cases heq
      exact .authenticates hsession hintime
  · next hsession =>
      obtain ⟨-, heq⟩ := Option.ite_none_right_eq_some.1 h
      cases heq
      exact .gives hsession
  · next hsession => cases h; exact .gives hsession
  · next hsession =>
      split at h
      · cases h; exact .refuses hsession
      · next hensure => cases h; exact .letsIn hsession hensure
  · next hsession => cases h; exact .refuses hsession
  · next hsession =>
      obtain ⟨⟨stage', frame⟩, hserve, heq⟩ := Option.map_eq_some_iff.1 h
      cases heq
      cases stage' with
      | none => exact .serves hsession (serve_move hserve)
      | some => exact .serves hsession (serve_move hserve)
  · cases h

end Handler

section Gateway

variable {ρ κ : Type*} [DecidableEq ρ] [DecidableEq κ]

omit [DecidableEq ρ] [DecidableEq κ] in
@[simp]
theorem Gateway.publish_sockets (c : ConversationId) (message : Option Message)
    (w : Gateway ρ κ) : (w.publish c message).sockets = w.sockets := by
  cases message <;> rfl

omit [DecidableEq ρ] [DecidableEq κ] in
/-- What every replica has, and keeps whatever it receives, every replica has after a publication. -/
theorem Gateway.forall_publish {P : Replica κ κ → Prop} {w : Gateway ρ κ}
    (hw : ∀ r, P (w.replicas r)) {c : ConversationId}
    (hreceive : ∀ r message, P r → P (r.receive c message)) (message : Option Message) (r : ρ) :
    P ((w.publish c message).replicas r) := by
  cases message with
  | none => exact hw r
  | some message => exact hreceive _ message (hw r)

omit [DecidableEq ρ] in
/-- What every socket has, and what the socket at `k` takes over. -/
theorem Gateway.forall_setSocket {P : κ → WebSocket κ → Prop} {w : Gateway ρ κ}
    (hw : ∀ k, P k (w.sockets k)) {k : κ} {socket : WebSocket κ} (h : P k socket) (k' : κ) :
    P k' ((w.setSocket k socket).sockets k') :=
  (Function.forall_update_iff w.sockets P).2 ⟨h, fun k' _ => hw k'⟩ k'

/-- The steps of the endpoint, one constructor for each. -/
inductive GatewayMove (E : Endpoint ρ κ) (w : Gateway ρ κ) : GatewayEvent ρ κ → Gateway ρ κ → Prop
  | tick {elapsed : ℕ} :
      GatewayMove E w (.tick elapsed) { w with now := w.now + (⟨elapsed⟩ : Timedelta) }
  | conversations {row : ConversationId → Option ConversationModel}
      {participants : ConversationId → Finset ParticipantId} :
      GatewayMove E w (.conversations row participants) { w with row, participants }
  | handler {k : κ} {step : HandlerStep} {socket : WebSocket κ}
      (h : HandlerMove E k (w.view E k) (w.sockets k) step socket) :
      GatewayMove E w (.handler k step) (w.setSocket k socket)
  | joinStep {k : κ} {step : RegistryStep} {authenticated : Authenticated}
      {call call' : RegistryCall κ} {registry : ConversationRegistry κ κ}
      (hsession : (w.sockets k).session = .admitted authenticated (.joining call))
      (h : RegistryMove k (w.replicas (E.replica k)).registry step call registry call') :
      GatewayMove E w (.registry k step)
        ((w.setReplica (E.replica k) { w.replicas (E.replica k) with registry }).setSession k
          (Session.afterJoin authenticated call'))
  | leaveStep {k : κ} {step : RegistryStep} {authenticated : Authenticated}
      {call call' : RegistryCall κ} {registry : ConversationRegistry κ κ}
      (hsession : (w.sockets k).session = .admitted authenticated (.leaving call))
      (h : RegistryMove k (w.replicas (E.replica k)).registry step call registry call') :
      GatewayMove E w (.registry k step)
        ((w.setReplica (E.replica k) { w.replicas (E.replica k) with registry }).setSession k
          (Session.afterLeave authenticated call'))
  | exchange {k : κ} {step : ExchangeStep} {authenticated : Authenticated} {request : SendRequest}
      {call call' : ExchangeCall} {chat : Chat κ}
      (hsession : (w.sockets k).session = .admitted authenticated (.exchanging request call))
      (h : ExchangeCase (fun _ => request) k w.chat step call chat call') :
      GatewayMove E w (.exchange k step)
        ((({ w with chat }).publish request.conversationId (call.published step)).setSession k
          (.admitted authenticated (Stage.afterExchange E k request call')))
  | reader {r : ρ} {step : ReaderStep} {subscriber : Subscriber κ} {reader : Reader (Broadcast κ)}
      (h : ReaderMove
        (fun message =>
          (w.replicas r).registry.manager.broadcast message.conversationId message)
        (w.replicas r).registry.subscriber step (w.replicas r).reader subscriber reader) :
      GatewayMove E w (.reader r step)
        (w.setReplica r { registry := { (w.replicas r).registry with subscriber }, reader })
  | delivered {r : ρ} {k : κ} {succeeds : Bool} {b : Broadcast κ} {m : ConnectionManager κ}
      {b' : Option (Broadcast κ)} (hreader : (w.replicas r).reader = .delivering b)
      (h : BroadcastMove k succeeds b (w.replicas r).registry.manager m b') :
      GatewayMove E w (.delivered r k succeeds)
        ((w.setReplica r { registry := { (w.replicas r).registry with manager := m }
                           reader := Replica.afterSend b' }).setSocket k
          { w.sockets k with
            frames := (w.sockets k).frames ++
              if succeeds then [OutboundFrame.messageNew b.message] else [] })

theorem gateway_move {E : Endpoint ρ κ} {w w' : Gateway ρ κ} {e : GatewayEvent ρ κ}
    (h : w.step E e = some w') : GatewayMove E w e w' := by
  cases e with
  | tick elapsed => cases h; exact .tick
  | conversations row participants => cases h; exact .conversations
  | handler k step =>
      obtain ⟨socket, hstep, rfl⟩ := Option.map_eq_some_iff.1 h
      exact .handler (handler_move hstep)
  | registry k step =>
      simp only [Gateway.step] at h
      split at h
      · next hsession =>
          obtain ⟨⟨registry, call'⟩, hcall, rfl⟩ := Option.map_eq_some_iff.1 h
          exact .joinStep hsession (registryCall_move hcall)
      · next hsession =>
          obtain ⟨⟨registry, call'⟩, hcall, rfl⟩ := Option.map_eq_some_iff.1 h
          exact .leaveStep hsession (registryCall_move hcall)
      · cases h
  | exchange k step =>
      simp only [Gateway.step] at h
      split at h
      · next hsession =>
          obtain ⟨⟨chat, call'⟩, hcall, rfl⟩ := Option.map_eq_some_iff.1 h
          exact .exchange hsession (exchange_case hcall)
      · cases h
  | reader r step =>
      obtain ⟨replica, hread, rfl⟩ := Option.map_eq_some_iff.1 h
      obtain ⟨⟨subscriber, reader⟩, hrun, rfl⟩ := Option.map_eq_some_iff.1 hread
      exact .reader (run_move hrun)
  | delivered r k succeeds =>
      simp only [Gateway.step] at h
      split at h
      · next b hreader =>
          obtain ⟨replica, hdelivered, rfl⟩ := Option.map_eq_some_iff.1 h
          obtain ⟨b₀, m, b', hreader', hsent, rfl⟩ := delivered_eq_some hdelivered
          obtain rfl : b = b₀ := Reader.delivering.inj (hreader.symm.trans hreader')
          exact .delivered hreader (sent_move hsent)
      · cases h

end Gateway

end Dizzchat
