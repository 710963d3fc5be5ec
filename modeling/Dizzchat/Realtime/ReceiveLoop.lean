import Dizzchat.Realtime.Gateway
import Dizzchat.Realtime.Protocol

set_option autoImplicit false

/-! # The receive loop

`_authenticate` and `_receive_loop` of one socket as programs: what they call and send, given what their
awaits come back with. Sends succeed. `json.loads` and the frame models of pydantic are parameters.

`Answers` is what the loop owes to a frame: one call of the limiter before anything else, one reply
chosen by priority, and an exchange only for a frame that has passed every check. -/

namespace Dizzchat

open Text

/-! ## Receiving -/

/-- What a `receive` of the socket returns. -/
inductive WsEvent
  | text (text : String)
  | binary (data : ByteArray)
  | disconnect

inductive LoadsError
  | valueError
  | recursionError
deriving DecidableEq

inductive ReceiveError
  | webSocketDisconnect
  | keyError
  | valueError
  | recursionError
deriving DecidableEq

/-- `json.loads`, where `none` is `None` and `V` are the other values, and `model_validate` of the
    inbound frames, which refuses `None`; `none` is a `ValidationError`. -/
structure InboundCodec (V : Type*) where
  loads : String → Except LoadsError (Option V)
  authFrame : V → Option (String × Option Int)
  sendMessageFrame : V → Option (String × Option UUID)

section Receive

variable {V : Type*} (codec : InboundCodec V)

/-- `receive_json`: the text field of the event, which a binary frame does not have. -/
def receiveJson : WsEvent → Except ReceiveError (Option V)
  | .disconnect => .error .webSocketDisconnect
  | .binary _ => .error .keyError
  | .text text =>
      match codec.loads text with
      | .ok raw => .ok raw
      | .error .valueError => .error .valueError
      | .error .recursionError => .error .recursionError

def WsEvent.isFrame : WsEvent → Bool
  | .text _ | .binary _ => true
  | .disconnect => false

/-- `receive_json` raises nothing that its callers do not expect. -/
def WsEvent.Readable : WsEvent → Prop
  | .text body => codec.loads body ≠ .error .recursionError
  | .binary _ => False
  | .disconnect => True

/-- A frame that can be read is a text, and `json.loads` returns or raises a `ValueError`. -/
theorem WsEvent.readable_frame {event : WsEvent} (hframe : event.isFrame = true)
    (hreadable : event.Readable codec) :
    ∃ text, event = .text text ∧
      (codec.loads text = .error .valueError ∨ ∃ raw, codec.loads text = .ok raw) := by
  cases event with
  | disconnect => cases hframe
  | binary data => exact absurd hreadable id
  | text text =>
      refine ⟨text, rfl, ?_⟩
      cases hloads : codec.loads text with
      | ok raw => exact .inr ⟨raw, rfl⟩
      | error e =>
          cases e with
          | valueError => exact .inl rfl
          | recursionError => exact absurd hloads hreadable

/-! ## The first frame -/

def authFailedClose : ℕ := 4401

def internalErrorClose : ℕ := 1011

/-- How `_authenticate` ends. -/
inductive AuthOutcome
  | returned (authenticated : Authenticated)
  | closed (code : ℕ)
  /-- The client is gone. -/
  | left
  | raised (error : ReceiveError)
deriving DecidableEq

/-- `_authenticate`; without an event it has run into the timeout. -/
def authenticate (decodeAccess : String → Option UUID) : Option WsEvent → AuthOutcome
  | none => .closed authFailedClose
  | some event =>
      match receiveJson codec event with
      | .error .webSocketDisconnect => .left
      | .error .valueError => .closed authFailedClose
      | .error error => .raised error
      | .ok raw =>
          match raw.bind codec.authFrame with
          | none => .closed authFailedClose
          | some (token, lastSeenSeq) =>
              match decodeAccess token with
              | none => .closed authFailedClose
              | some userId => .returned ⟨userId, token, lastSeenSeq⟩

/-- The event is an `auth` frame with a valid token. -/
def WsEvent.IsAuth (decodeAccess : String → Option UUID) (event : WsEvent) : Prop :=
  ∃ text raw token lastSeenSeq userId, event = .text text ∧ codec.loads text = .ok (some raw) ∧
    codec.authFrame raw = some (token, lastSeenSeq) ∧ decodeAccess token = some userId

end Receive

/-! ## The loop -/

/-- What the awaits of one turn of the loop come back with. -/
structure Turn where
  event : WsEvent
  allowed : Bool
  tokenValid : Bool
  /-- The message `exchange` returns, unless it raises. -/
  exchanged : Option Message

inductive LoopAction
  | allow (userId : UUID) (granted : Bool)
  | decodeAccess (token : String) (valid : Bool)
  | exchange (request : SendRequest) (returned : Option Message)
  | send (frame : OutboundFrame)
  | close (code : ℕ)
deriving DecidableEq

inductive LoopExit
  /-- The token has expired. -/
  | returned
  | raised (error : ReceiveError)
deriving DecidableEq

/-- How `conversation_ws` closes the socket after the loop. -/
def LoopExit.close : LoopExit → Option ℕ
  | .returned | .raised .webSocketDisconnect => none
  | .raised _ => some internalErrorClose

/-- The arguments of `_receive_loop`. -/
structure ReceiveLoop (V : Type*) where
  codec : InboundCodec V
  conversation : ConversationId
  senderId : SenderId
  token : String

namespace ReceiveLoop

variable {V : Type*} (L : ReceiveLoop V)

/-- The content and the key of a `message.send` frame. -/
def message (raw : V) : Option (MessageContent × Option ClientMessageId) := do
  let (content, key) ← L.codec.sendMessageFrame raw
  let content ← (MessageContent.ofString content).toOption
  return (content, key.map ClientMessageId.mk)

def request (content : MessageContent) (clientMessageId : Option ClientMessageId) : SendRequest where
  conversationId := L.conversation
  senderId := L.senderId
  content
  clientMessageId

/-- The body of the loop once `raw` is there. -/
def handle (t : Turn) (raw : Option V) : List LoopAction × Option LoopExit :=
  let user := L.senderId.value
  if t.allowed = false then ([.allow user false, .send (.error "rate limit exceeded")], none)
  else match raw with
    | none => ([.allow user true, .send (.error "invalid JSON")], none)
    | some raw =>
        match L.message raw with
        | none => ([.allow user true, .send (.error "invalid message frame")], none)
        | some (content, key) =>
            if t.tokenValid = false then
              ([.allow user true, .decodeAccess L.token false, .close authFailedClose],
                some .returned)
            else match t.exchanged with
              | none => ([.allow user true, .decodeAccess L.token true,
                  .exchange (L.request content key) none,
                  .send (.error "failed to handle message")], none)
              | some m => ([.allow user true, .decodeAccess L.token true,
                  .exchange (L.request content key) (some m), .send (.messageAck m)], none)

/-- One turn of the loop: what it does, and how it leaves the loop if it does. -/
def turn (t : Turn) : List LoopAction × Option LoopExit :=
  match receiveJson L.codec t.event with
  | .ok raw => L.handle t raw
  -- held as `None`
  | .error .valueError => L.handle t none
  | .error error => ([], some (.raised error))

/-- `_receive_loop`: what each turn has done, and the exit unless it waits for the next frame. -/
def run : List Turn → List (List LoopAction) × Option LoopExit
  | [] => ([], none)
  | t :: ts =>
      match L.turn t with
      | (actions, some exit) => ([actions], some exit)
      | (actions, none) => (actions :: (run ts).1, (run ts).2)

end ReceiveLoop

/-! ## What a frame is owed -/

/-- What reaches the client. -/
inductive Reply
  | frame (json : Json)
  | closed (code : ℕ)

/-- A frame as it is sent. -/
def OutboundFrame.json : OutboundFrame → Json
  | .authOk => Protocol.authOk
  | .messageNew message => Protocol.messageNew message
  | .messageAck message => Protocol.messageAck message
  | .error detail => Protocol.error detail

namespace LoopAction

def limiterCall : LoopAction → Option UUID
  | .allow userId _ => some userId
  | _ => none

def exchangeCall : LoopAction → Option SendRequest
  | .exchange request _ => some request
  | _ => none

def reply : LoopAction → Option Reply
  | .send frame => some (.frame frame.json)
  | .close code => some (.closed code)
  | _ => none

end LoopAction

namespace ReceiveLoop

variable {V : Type*} (L : ReceiveLoop V)

/-- The value of a text frame; `none` for `null` and for a text that is not JSON. -/
def value (t : Turn) : Option V :=
  match t.event with
  | .text text => (L.codec.loads text).toOption.join
  | _ => none

/-- The send that a frame asks for, if it is a valid one. -/
def asked (t : Turn) : Option SendRequest :=
  ((L.value t).bind L.message).map fun p => L.request p.1 p.2

/-- The reply to a frame: the first of these that applies. -/
def replies (t : Turn) : List (Option Reply) :=
  [if t.allowed then none else some (.frame (Protocol.error "rate limit exceeded")),
    if (L.value t).isSome then none else some (.frame (Protocol.error "invalid JSON")),
    if (L.asked t).isSome then none else some (.frame (Protocol.error "invalid message frame")),
    if t.tokenValid then none else some (.closed authFailedClose),
    if t.exchanged.isSome then none else some (.frame (Protocol.error "failed to handle message")),
    t.exchanged.map fun m => .frame (Protocol.messageAck m)]

/-- The exchange a frame comes to: it has passed the first four checks. -/
def passed (t : Turn) : Option SendRequest :=
  if t.allowed ∧ t.tokenValid then L.asked t else none

/-- The actions of a turn are what its frame is owed. -/
structure Answers (t : Turn) (actions : List LoopAction) : Prop where
  /-- The limiter is called before the frame is looked at. -/
  limiterFirst : actions.head? = some (.allow L.senderId.value t.allowed)
  limiter : actions.filterMap LoopAction.limiterCall = [L.senderId.value]
  reply : ∃ reply, (L.replies t).findSome? id = some reply ∧
    actions.filterMap LoopAction.reply = [reply]
  exchange : actions.filterMap LoopAction.exchangeCall = (L.passed t).toList

/-- The frame is a send that comes after the token has expired. -/
def expires (t : Turn) : Bool :=
  t.allowed && !t.tokenValid && (L.asked t).isSome

/-- The turns the loop gets to: up to the first expired one. -/
def served : List Turn → List Turn
  | [] => []
  | t :: ts => if L.expires t then [t] else t :: served ts

theorem turn_of_readable {t : Turn} (hframe : t.event.isFrame = true)
    (hreadable : t.event.Readable L.codec) : L.turn t = L.handle t (L.value t) := by
  obtain ⟨text, hevent, hloads⟩ := WsEvent.readable_frame L.codec hframe hreadable
  unfold turn value
  rw [hevent]
  simp only [receiveJson]
  rcases hloads with hloads | ⟨raw, hloads⟩ <;> simp [hloads, Except.toOption]

/-- The actions after the call of the limiter settle what the frame is owed. -/
theorem answers_of_handle {t : Turn} {raw : Option V} {rest : List LoopAction} {exit : Option LoopExit}
    {reply : Reply} {passed : Option SendRequest}
    (hturn : L.handle t raw = (.allow L.senderId.value t.allowed :: rest, exit))
    (hlimiter : rest.filterMap LoopAction.limiterCall = [])
    (hreply : (L.replies t).findSome? id = some reply)
    (hsent : rest.filterMap LoopAction.reply = [reply]) (hpassed : L.passed t = passed)
    (hexchange : rest.filterMap LoopAction.exchangeCall = passed.toList)
    (hexit : exit = if L.expires t then some .returned else none) :
    L.Answers t (L.handle t raw).1 ∧
      (L.handle t raw).2 = if L.expires t then some .returned else none := by
  rw [hturn]
  refine ⟨⟨rfl, ?_, ⟨reply, hreply, ?_⟩, ?_⟩, hexit⟩
  · show L.senderId.value :: rest.filterMap LoopAction.limiterCall = _
    rw [hlimiter]
  · exact hsent
  · rw [hpassed]
    exact hexchange

/-- One turn, over the five checks in their order. -/
theorem handle_answers (t : Turn) :
    L.Answers t (L.handle t (L.value t)).1 ∧
      (L.handle t (L.value t)).2 = if L.expires t then some .returned else none := by
  have hasked : ∀ {raw p}, L.value t = some raw → L.message raw = p →
      L.asked t = p.map fun p => L.request p.1 p.2 := by
    intro raw p hvalue hmessage
    rw [asked, hvalue, Option.bind_some, hmessage]
  cases hallowed : t.allowed with
  | false =>
      have hturn : L.handle t (L.value t) = ([.allow L.senderId.value t.allowed,
          .send (.error "rate limit exceeded")], none) := by
        simp [handle, hallowed]
      have hreply : (L.replies t).findSome? id =
          some (.frame (Protocol.error "rate limit exceeded")) := by
        simp [replies, hallowed]
      have hpassed : L.passed t = none := by simp [passed, hallowed]
      have hexpires : L.expires t = false := by simp [expires, hallowed]
      exact L.answers_of_handle hturn rfl hreply rfl hpassed rfl (by rw [hexpires]; rfl)
  | true =>
      cases hvalue : L.value t with
      | none =>
          have hnone : L.asked t = none := by rw [asked, hvalue, Option.bind_none, Option.map_none]
          have hturn : L.handle t none = ([.allow L.senderId.value t.allowed,
              .send (.error "invalid JSON")], none) := by
            simp [handle, hallowed]
          have hreply : (L.replies t).findSome? id =
              some (.frame (Protocol.error "invalid JSON")) := by
            simp [replies, hallowed, hvalue, hnone]
          have hpassed : L.passed t = none := by simp [passed, hallowed, hnone]
          have hexpires : L.expires t = false := by simp [expires, hallowed, hnone]
          exact L.answers_of_handle hturn rfl hreply rfl hpassed rfl (by rw [hexpires]; rfl)
      | some raw =>
          cases hmessage : L.message raw with
          | none =>
              have hnone := hasked hvalue hmessage
              have hturn : L.handle t (some raw) = ([.allow L.senderId.value t.allowed,
                  .send (.error "invalid message frame")], none) := by
                simp [handle, hallowed, hmessage]
              have hreply : (L.replies t).findSome? id =
                  some (.frame (Protocol.error "invalid message frame")) := by
                simp [replies, hallowed, hvalue, hnone]
              have hpassed : L.passed t = none := by simp [passed, hallowed, hnone]
              have hexpires : L.expires t = false := by simp [expires, hallowed, hnone]
              exact L.answers_of_handle hturn rfl hreply rfl hpassed rfl (by rw [hexpires]; rfl)
          | some p =>
              obtain ⟨content, key⟩ := p
              have hsome := hasked hvalue hmessage
              cases hvalid : t.tokenValid with
              | false =>
                  have hturn : L.handle t (some raw) = ([.allow L.senderId.value t.allowed,
                      .decodeAccess L.token false, .close authFailedClose], some .returned) := by
                    simp [handle, hallowed, hmessage, hvalid]
                  have hreply : (L.replies t).findSome? id = some (.closed authFailedClose) := by
                    simp [replies, hallowed, hvalue, hsome, hvalid]
                  have hpassed : L.passed t = none := by simp [passed, hvalid]
                  have hexpires : L.expires t = true := by simp [expires, hallowed, hsome, hvalid]
                  exact L.answers_of_handle hturn rfl hreply rfl hpassed rfl (by rw [hexpires]; rfl)
              | true =>
                  have hpassed : L.passed t = some (L.request content key) := by
                    simp [passed, hallowed, hsome, hvalid]
                  have hexpires : L.expires t = false := by simp [expires, hvalid]
                  cases hexchanged : t.exchanged with
                  | none =>
                      have hturn : L.handle t (some raw) = ([.allow L.senderId.value t.allowed,
                          .decodeAccess L.token true, .exchange (L.request content key) none,
                          .send (.error "failed to handle message")], none) := by
                        simp [handle, hallowed, hmessage, hvalid, hexchanged]
                      have hreply : (L.replies t).findSome? id =
                          some (.frame (Protocol.error "failed to handle message")) := by
                        simp [replies, hallowed, hvalue, hsome, hvalid, hexchanged]
                      exact L.answers_of_handle hturn rfl hreply rfl hpassed rfl
                        (by rw [hexpires]; rfl)
                  | some m =>
                      have hturn : L.handle t (some raw) = ([.allow L.senderId.value t.allowed,
                          .decodeAccess L.token true, .exchange (L.request content key) (some m),
                          .send (.messageAck m)], none) := by
                        simp [handle, hallowed, hmessage, hvalid, hexchanged]
                      have hreply : (L.replies t).findSome? id =
                          some (.frame (Protocol.messageAck m)) := by
                        simp [replies, hallowed, hvalue, hsome, hvalid, hexchanged]
                      exact L.answers_of_handle hturn rfl hreply rfl hpassed rfl
                        (by rw [hexpires]; rfl)

theorem run_cons_of_none {t : Turn} (ts : List Turn) (h : (L.turn t).2 = none) :
    L.run (t :: ts) = ((L.turn t).1 :: (L.run ts).1, (L.run ts).2) := by
  rw [run]
  split
  · next hturn =>
      rw [hturn] at h
      cases h
  · next hturn => rw [hturn]

theorem run_cons_of_some {t : Turn} (ts : List Turn) {exit : LoopExit} (h : (L.turn t).2 = some exit) :
    L.run (t :: ts) = ([(L.turn t).1], some exit) := by
  rw [run]
  split
  · next hturn =>
      rw [hturn] at h ⊢
      rw [Option.some.inj h]
  · next hturn =>
      rw [hturn] at h
      cases h

/-- Frame after frame: each one the loop gets to is answered, and the loop returns at the first that
    finds the token expired. -/
theorem run_answers {turns : List Turn}
    (hturns : ∀ t ∈ turns, t.event.isFrame = true ∧ t.event.Readable L.codec) :
    List.Forall₂ L.Answers (L.served turns) (L.run turns).1 ∧
      (L.run turns).2 = if turns.any L.expires then some .returned else none := by
  induction turns with
  | nil => exact ⟨.nil, rfl⟩
  | cons t ts ih =>
      obtain ⟨⟨hframe, hreadable⟩, hrest⟩ := List.forall_mem_cons.1 hturns
      obtain ⟨hanswers, hexit⟩ := L.handle_answers t
      rw [← L.turn_of_readable hframe hreadable] at hanswers hexit
      cases hexpires : L.expires t with
      | true =>
          rw [hexpires] at hexit
          rw [L.run_cons_of_some ts hexit, served, hexpires]
          exact ⟨.cons hanswers .nil, by simp [hexpires]⟩
      | false =>
          rw [hexpires] at hexit
          obtain ⟨hothers, hend⟩ := ih hrest
          rw [L.run_cons_of_none ts hexit, served, hexpires]
          refine ⟨.cons hanswers hothers, ?_⟩
          simpa [hexpires] using hend

/-! ## Which frames break the loop -/

/-- The frame is counted once, and answered by one error or one acknowledgement. -/
def Counts (actions : List LoopAction) : Prop :=
  actions.filterMap LoopAction.limiterCall = [L.senderId.value] ∧
    ∃ frame : OutboundFrame, ((∃ detail, frame = .error detail) ∨ ∃ m, frame = .messageAck m) ∧
      actions.filterMap LoopAction.reply = [.frame frame.json]

/-- Every frame counts, and the loop still waits for the next one; it ends when the client
    disconnects. -/
structure Unbroken (turns : List Turn) : Prop where
  counts : List.Forall₂ (fun _ => L.Counts) turns (L.run turns).1
  listens : (L.run turns).2 = none
  ends : ∀ last : Turn, last.event = .disconnect →
    (L.run (turns ++ [last])).2 = some (.raised .webSocketDisconnect)

theorem handle_counts {t : Turn} (hvalid : t.tokenValid = true) (raw : Option V) :
    L.Counts (L.handle t raw).1 ∧ (L.handle t raw).2 = none := by
  unfold handle
  simp only
  split
  · exact ⟨⟨rfl, _, .inl ⟨_, rfl⟩, rfl⟩, rfl⟩
  · split
    · exact ⟨⟨rfl, _, .inl ⟨_, rfl⟩, rfl⟩, rfl⟩
    · split
      · exact ⟨⟨rfl, _, .inl ⟨_, rfl⟩, rfl⟩, rfl⟩
      · rw [if_neg (by simp [hvalid])]
        split
        · exact ⟨⟨rfl, _, .inl ⟨_, rfl⟩, rfl⟩, rfl⟩
        · exact ⟨⟨rfl, _, .inr ⟨_, rfl⟩, rfl⟩, rfl⟩

/-- An exception that the loop does not expect ends it, and the frame gets no answer. -/
theorem turn_of_not_readable {t : Turn} (hreadable : ¬ t.event.Readable L.codec) :
    ∃ error, error ≠ .webSocketDisconnect ∧ L.turn t = ([], some (.raised error)) := by
  unfold turn
  cases hevent : t.event with
  | disconnect =>
      rw [hevent] at hreadable
      exact absurd trivial hreadable
  | binary data => exact ⟨.keyError, by decide, rfl⟩
  | text body =>
      rw [hevent] at hreadable
      have hloads : L.codec.loads body = .error .recursionError := not_not.1 hreadable
      refine ⟨.recursionError, by decide, ?_⟩
      simp only [receiveJson, hloads]

theorem unbroken_nil : L.Unbroken [] where
  counts := .nil
  listens := rfl
  ends last hlast := by
    have hturn : L.turn last = ([], some (.raised .webSocketDisconnect)) := by
      rw [turn, hlast]
      rfl
    have hexit : (L.turn last).2 = some (.raised .webSocketDisconnect) := by rw [hturn]
    rw [List.nil_append, L.run_cons_of_some [] hexit]

theorem unbroken_cons {t : Turn} {ts : List Turn} (hcounts : L.Counts (L.turn t).1)
    (hexit : (L.turn t).2 = none) : L.Unbroken (t :: ts) ↔ L.Unbroken ts := by
  have hrun := fun ts => L.run_cons_of_none ts hexit
  constructor
  · intro h
    have hforall := h.counts
    have hlistens := h.listens
    rw [hrun] at hforall hlistens
    refine ⟨(List.forall₂_cons.1 hforall).2, hlistens, fun last hlast => ?_⟩
    have hends := h.ends last hlast
    rwa [List.cons_append, hrun] at hends
  · intro h
    refine ⟨?_, ?_, fun last hlast => ?_⟩
    · rw [hrun]
      exact .cons hcounts h.counts
    · rw [hrun]
      exact h.listens
    · rw [List.cons_append, hrun]
      exact h.ends last hlast

theorem unbroken_iff {turns : List Turn} (hframes : ∀ t ∈ turns, t.event.isFrame = true)
    (hvalid : ∀ t ∈ turns, t.tokenValid = true) :
    L.Unbroken turns ↔ ∀ t ∈ turns, t.event.Readable L.codec := by
  induction turns with
  | nil => exact ⟨fun _ t ht => absurd ht List.not_mem_nil, fun _ => L.unbroken_nil⟩
  | cons t ts ih =>
      obtain ⟨hframe, hframes⟩ := List.forall_mem_cons.1 hframes
      obtain ⟨htoken, hvalid⟩ := List.forall_mem_cons.1 hvalid
      rw [List.forall_mem_cons]
      by_cases hreadable : t.event.Readable L.codec
      · obtain ⟨hcounts, hexit⟩ := L.handle_counts htoken (L.value t)
        rw [← L.turn_of_readable hframe hreadable] at hcounts hexit
        rw [L.unbroken_cons hcounts hexit, ih hframes hvalid]
        exact ⟨fun h => ⟨hreadable, h⟩, fun h => h.2⟩
      · obtain ⟨error, -, hturn⟩ := L.turn_of_not_readable hreadable
        refine ⟨fun h => ?_, fun h => absurd h.1 hreadable⟩
        have hexit : (L.turn t).2 = some (.raised error) := by rw [hturn]
        have hlistens := h.listens
        rw [L.run_cons_of_some ts hexit] at hlistens
        cases hlistens

end ReceiveLoop

/-- A first frame that is not a valid `auth` frame is closed with 4401, unless `receive_json` raises
    what `_authenticate` does not expect. -/
theorem authenticate_closes_iff {V : Type*} (codec : InboundCodec V)
    (decodeAccess : String → Option UUID) {first : WsEvent} (hframe : first.isFrame = true)
    (hauth : ¬ first.IsAuth codec decodeAccess) :
    authenticate codec decodeAccess (some first) = .closed authFailedClose ↔
      first.Readable codec := by
  unfold authenticate
  cases first with
  | disconnect => cases hframe
  | binary data => exact ⟨by simp [receiveJson], fun h => h.elim⟩
  | text body =>
      simp only [receiveJson, WsEvent.Readable]
      cases hloads : codec.loads body with
      | error e =>
          cases e with
          | valueError => exact ⟨fun _ => by simp, fun _ => rfl⟩
          | recursionError => exact ⟨by simp, fun h => absurd rfl h⟩
      | ok raw =>
          refine ⟨fun _ => by simp, fun _ => ?_⟩
          cases haccepted : raw.bind codec.authFrame with
          | none => simp only [haccepted]
          | some p =>
              obtain ⟨token, lastSeenSeq⟩ := p
              cases hdecode : decodeAccess token with
              | none => simp only [haccepted, hdecode]
              | some userId =>
                  obtain ⟨value, rfl, hvalue⟩ := Option.bind_eq_some_iff.1 haccepted
                  exact absurd ⟨body, value, token, lastSeenSeq, userId, rfl, hloads, hvalue, hdecode⟩
                    hauth

/-- Every sequence of frames is counted and answered, and every first frame that is not a valid `auth`
    frame is closed with 4401, just where no frame is binary or too deeply nested for `json.loads`. -/
theorem frames_answered_iff {V : Type*} (L : ReceiveLoop V) {turns : List Turn}
    (hframes : ∀ t ∈ turns, t.event.isFrame = true) (hvalid : ∀ t ∈ turns, t.tokenValid = true)
    (decodeAccess : String → Option UUID) {first : WsEvent} (hfirst : first.isFrame = true)
    (hauth : ¬ first.IsAuth L.codec decodeAccess) :
    (L.Unbroken turns ↔ ∀ t ∈ turns, t.event.Readable L.codec) ∧
      (authenticate L.codec decodeAccess (some first) = .closed authFailedClose ↔
        first.Readable L.codec) :=
  ⟨L.unbroken_iff hframes hvalid, authenticate_closes_iff L.codec decodeAccess hfirst hauth⟩

/-! ## Frames on the wire -/

/-- `AuthFrame.model_validate`, without the conversions pydantic makes between types. -/
def AuthFrame.modelValidate (raw : Json) : Option (String × Option Int) := do
  let payload ← match raw.get? "type", raw.get? "payload" with
    | some (.str "auth"), some payload => some payload
    | _, _ => none
  match payload.get? "token", payload.get? "last_seen_seq" with
  | some (.str token), some (.int lastSeenSeq) => some (token, some lastSeenSeq)
  | some (.str token), none | some (.str token), some .null => some (token, none)
  | _, _ => none

/-- `SendMessageFrame.model_validate`, likewise. A key is read by the grammar of Python's `UUID`; that of
    pydantic is narrower, and refuses hyphens, braces and prefixes out of their places. -/
def SendMessageFrame.modelValidate (raw : Json) : Option (String × Option UUID) := do
  let payload ← match raw.get? "type", raw.get? "payload" with
    | some (.str "message.send"), some payload => some payload
    | _, _ => none
  match payload.get? "content", payload.get? "client_message_id" with
  | some (.str content), some (.str key) => (UUID.ofHex key).map fun key => (content, some key)
  | some (.str content), none | some (.str content), some .null => some (content, none)
  | _, _ => none

/-- A codec for texts without floats, without deep nesting and without integers beyond the 4300 digits that
    `int` reads, where `json.loads` raises a `ValueError` and `Json.loads` does not; its keys are in a form
    that both grammars of `SendMessageFrame.modelValidate` have. -/
def plainCodec : InboundCodec Json where
  loads body :=
    match Json.loads body.toList with
    | none => .error .valueError
    | some .null => .ok none
    | some raw => .ok (some raw)
  authFrame := AuthFrame.modelValidate
  sendMessageFrame := SendMessageFrame.modelValidate

theorem plainCodec_loads (body : String) : plainCodec.loads body ≠ .error .recursionError := by
  simp only [plainCodec]
  split <;> simp

/-- The socket of the sender of `helloRequest`. -/
def plainLoop : ReceiveLoop Json where
  codec := plainCodec
  conversation := helloRequest.conversationId
  senderId := helloRequest.senderId
  token := "ten"

/-- A binary frame ends the loop uncounted and unanswered, and as a first frame it is not closed with
    4401. -/
theorem frames_notAnswered :
    ∃ t : Turn, t.event.isFrame = true ∧ t.tokenValid = true ∧ ¬ plainLoop.Unbroken [t] ∧
      plainLoop.run [t] = ([[]], some (.raised .keyError)) ∧
      LoopExit.close (.raised .keyError) = some internalErrorClose ∧
      authenticate plainCodec (fun _ => none) (some t.event) ≠ .closed authFailedClose := by
  refine ⟨⟨.binary ByteArray.empty, true, true, none⟩, rfl, rfl, fun h => ?_, rfl, rfl, ?_⟩
  · have hlistens := h.listens
    cases hlistens
  · simp [authenticate, receiveJson]

/-- A `message.send` frame with the content of `helloRequest`. -/
def sendHello : String :=
  String.ofList (Json.dumps (.obj [("type", .str "message.send"),
    ("payload", .obj [("content", .str "hello")])]))

/-- A text that is not JSON, `null`, and a send. -/
def plainTurns : List Turn :=
  [⟨.text "not json at all", false, true, none⟩, ⟨.text "null", true, true, none⟩,
    ⟨.text sendHello, true, true, some (PostMessage.userMessage helloRequest 1 ⟨5, 0⟩)⟩]

theorem frames_answered_plain :
    plainLoop.Unbroken plainTurns ∧
      authenticate plainCodec (fun _ => none) (some (.text "null")) = .closed authFailedClose := by
  have hframes : ∀ t ∈ plainTurns, t.event.isFrame = true := by simp [plainTurns, WsEvent.isFrame]
  have hvalid : ∀ t ∈ plainTurns, t.tokenValid = true := by simp [plainTurns]
  have hreadable : ∀ t ∈ plainTurns, t.event.Readable plainCodec := by
    simp [plainTurns, WsEvent.Readable, plainCodec_loads]
  have hauth : ¬ (WsEvent.text "null").IsAuth plainLoop.codec fun _ => none := by
    rintro ⟨_, _, _, _, _, -, -, -, hdecode⟩
    cases hdecode
  obtain ⟨hunbroken, hclosed⟩ :=
    frames_answered_iff plainLoop hframes hvalid (fun _ => none) rfl hauth
  exact ⟨hunbroken.2 hreadable, hclosed.2 (plainCodec_loads _)⟩

end Dizzchat
