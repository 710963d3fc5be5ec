import Dizzchat.Messaging.Exchange
import Dizzchat.Messaging.ReplayMessages
import Dizzchat.Realtime.Replica

set_option autoImplicit false

/-! # The whole backend

Exchanges on any sockets, writing to one `messages` table and publishing through Redis; any number
of replicas, each with its subscriber, reader and connections; any number of sockets, each served by
its `conversation_ws` handler. A publication goes to the pub/subs that are subscribed at that
moment. A socket may be cut at any time; a send to it raises from then on.

A handler enters this world once the first frame has been accepted and answered with `auth.ok`. Of
what is written to a socket the world keeps the messages of the `message.new` frames. -/

namespace Dizzchat

open Transition

/-- What the exchanges send, and where the sockets are connected. -/
structure Traffic (ι ρ κ : Type*) where
  request : ι → SendRequest
  replica : κ → ρ
  conversation : κ → ConversationId

/-! ## Sockets -/

/-- Where `conversation_ws` is with a socket. -/
inductive Handler (κ : Type*)
  | authenticating
  | joining (call : RegistryCall κ)
  /-- In `_replay_missed`, between two pages of the replay. -/
  | replaying (cursor : Option MessageId) (collected : List Message)
  /-- In `_replay_missed`, with these messages still to be sent. -/
  | sending (missed : List Message)
  /-- In `_receive_loop`. -/
  | serving
  | leaving (call : RegistryCall κ)
  | closed
deriving DecidableEq

namespace Handler

variable {κ : Type*}

/-- Where `conversation_ws` goes on after a step of `join`. -/
def afterJoin (lastSeenSeq : Option MessageId) : RegistryCall κ → Handler κ
  | .returned => match lastSeenSeq with
      | none => .serving
      | some cursor => .replaying (some cursor) []
  | .raised => .closed
  | call => .joining call

/-- The loop of `_replay_missed` over the messages it has still to send. -/
def afterSend : List Message → Handler κ
  | [] => .serving
  | missed => .sending missed

def afterRead : Replay → Handler κ
  | .reading cursor collected => .replaying cursor collected
  | .finished missed => afterSend missed

def afterLeave : RegistryCall κ → Handler κ
  | .returned | .raised => .closed
  | call => .leaving call

/-- The call of the registry that the handler waits for. -/
def call : Handler κ → RegistryCall κ
  | .joining call | .leaving call => call
  | .authenticating | .replaying .. | .sending _ | .serving | .closed => .returned

/-- The socket has joined and has not begun to leave. -/
def joined : Handler κ → Bool
  | .replaying .. | .sending _ | .serving => true
  | .authenticating | .joining _ | .leaving _ | .closed => false

end Handler

structure Socket (κ : Type*) where
  handler : Handler κ
  /-- The cursor of its `auth` frame. -/
  lastSeenSeq : Option MessageId
  alive : Bool
  /-- The messages of the `message.new` frames written to it, oldest first. -/
  written : List Message

/-- `connection.send(message_new(message))`. It may raise, and on a socket that has been cut it
    does. -/
def Socket.send {κ : Type*} (message : Message) (succeeds : Bool) (s : Socket κ) :
    Option (Socket κ) :=
  if succeeds then
    if s.alive then some { s with written := s.written ++ [message] } else none
  else some s

/-! ## The steps -/

structure Backend (ι ρ κ : Type*) where
  chat : ExchangeWorld ι
  replicas : ρ → Replica κ κ
  sockets : κ → Socket κ

inductive BackendEvent (ι ρ κ : Type*)
  | exchange (i : ι) (step : ExchangeStep)
  | reader (r : ρ) (step : ReaderStep)
  /-- A send of the broadcast under way on a replica comes back. -/
  | delivered (r : ρ) (k : κ) (succeeds : Bool)
  /-- The `auth` frame has been accepted. -/
  | connect (k : κ) (lastSeenSeq : Option MessageId)
  | registry (k : κ) (step : RegistryStep)
  | readPage (k : κ)
  | replaySent (k : κ) (succeeds : Bool)
  | cut (k : κ)
  /-- The handler comes to its `finally` clause. -/
  | leave (k : κ)

/-- The message a step of an exchange has published. -/
def ExchangeCall.published : ExchangeStep → ExchangeCall → Option Message
  | .publish true, .publishing message => some message
  | .publish true, .publishingReply _ reply => some reply
  | _, _ => none

variable {ι ρ κ : Type*} [DecidableEq ι] [DecidableEq ρ] [DecidableEq κ]

namespace Backend

/-- Nothing has happened yet; `rows` are the messages stored before. -/
def init (rows : List Message) (lastSeq : Int) : Backend ι ρ κ where
  chat := ExchangeWorld.init rows lastSeq
  replicas _ := Replica.init
  sockets _ := { handler := .authenticating, lastSeenSeq := none, alive := true, written := [] }

/-- The committed messages. -/
def rows (w : Backend ι ρ κ) : List Message := w.chat.shared.store.messages.rows

def setReplica (r : ρ) (replica : Replica κ κ) (w : Backend ι ρ κ) : Backend ι ρ κ :=
  { w with replicas := Function.update w.replicas r replica }

def setSocket (k : κ) (socket : Socket κ) (w : Backend ι ρ κ) : Backend ι ρ κ :=
  { w with sockets := Function.update w.sockets k socket }

def setHandler (k : κ) (handler : Handler κ) (w : Backend ι ρ κ) : Backend ι ρ κ :=
  w.setSocket k { w.sockets k with handler }

def publish (message : Option Message) (w : Backend ι ρ κ) : Backend ι ρ κ :=
  match message with
  | none => w
  | some message => { w with replicas := fun r => (w.replicas r).publish message }

/-- A step of the registry call of socket `k`, with where its handler goes on. -/
def registryStep (T : Traffic ι ρ κ) (k : κ) (step : RegistryStep) (call : RegistryCall κ)
    (after : RegistryCall κ → Handler κ) (w : Backend ι ρ κ) : Option (Backend ι ρ κ) :=
  let replica := w.replicas (T.replica k)
  (ConversationRegistry.call k step replica.registry call).map fun (registry, call) =>
    (w.setReplica (T.replica k) { replica with registry }).setHandler k (after call)

def step (T : Traffic ι ρ κ) (w : Backend ι ρ κ) :
    BackendEvent ι ρ κ → Option (Backend ι ρ κ)
  | .exchange i step =>
      (World.move (MessageExchange.exchange T.request) w.chat (i, step)).map fun chat =>
        ({ w with chat }).publish ((w.chat.proc i).published step)
  | .reader r step => ((w.replicas r).read step).map fun replica => w.setReplica r replica
  | .delivered r k succeeds => match (w.replicas r).reader with
      | .delivering b =>
          -- a cut socket cannot be written to, and what is not written is counted dead
          ((w.sockets k).send b.message succeeds).bind fun socket =>
            ((w.replicas r).delivered k succeeds).map fun replica =>
              (w.setReplica r replica).setSocket k socket
      | _ => none
  | .connect k lastSeenSeq => match (w.sockets k).handler with
      | .authenticating => some (w.setSocket k { w.sockets k with
          handler := .joining (.waitingJoin (T.conversation k) k), lastSeenSeq })
      | _ => none
  | .registry k step => match (w.sockets k).handler with
      | .joining call =>
          w.registryStep T k step call (Handler.afterJoin (w.sockets k).lastSeenSeq)
      | .leaving call => w.registryStep T k step call Handler.afterLeave
      | _ => none
  | .readPage k => match (w.sockets k).handler with
      | .replaying cursor collected => some (w.setHandler k (Handler.afterRead
          (ReplayMessages.turn replayPageSize (T.conversation k) w.rows cursor collected)))
      | _ => none
  | .replaySent k succeeds => match (w.sockets k).handler with
      | .sending (message :: missed) =>
          ((w.sockets k).send message succeeds).map fun socket => w.setSocket k { socket with
            -- a send that raises ends `_replay_missed`, and `finally` leaves
            handler := if succeeds then Handler.afterSend missed
              else .leaving (.waitingLeave (T.conversation k) k) }
      | _ => none
  | .cut k => some (w.setSocket k { w.sockets k with alive := false })
  | .leave k =>
      if (w.sockets k).handler.joined then
        some (w.setHandler k (.leaving (.waitingLeave (T.conversation k) k)))
      else none

end Backend

/-! ## What a step can do -/

namespace Backend

variable {w : Backend ι ρ κ}

omit [DecidableEq ι] [DecidableEq κ] in
@[simp]
theorem setReplica_self (r : ρ) (replica : Replica κ κ) :
    (w.setReplica r replica).replicas r = replica := Function.update_self ..

omit [DecidableEq ι] [DecidableEq κ] in
theorem setReplica_of_ne {r r' : ρ} (h : r' ≠ r) (replica : Replica κ κ) :
    (w.setReplica r replica).replicas r' = w.replicas r' := Function.update_of_ne h ..

omit [DecidableEq ι] [DecidableEq κ] in
/-- What holds of a replica goes on to hold when one that has it takes its place. -/
theorem setReplica_keeps {P : Replica κ κ → Prop} {r r' : ρ} {replica : Replica κ κ}
    (hw : P (w.replicas r')) (hset : r' = r → P replica) :
    P ((w.setReplica r replica).replicas r') := by
  rcases eq_or_ne r' r with rfl | hr
  · rw [setReplica_self]
    exact hset rfl
  · rwa [setReplica_of_ne hr]

omit [DecidableEq ι] [DecidableEq ρ] in
@[simp]
theorem setSocket_replicas (k : κ) (socket : Socket κ) :
    (w.setSocket k socket).replicas = w.replicas := rfl

omit [DecidableEq ι] [DecidableEq ρ] in
@[simp]
theorem setSocket_self (k : κ) (socket : Socket κ) :
    (w.setSocket k socket).sockets k = socket := Function.update_self ..

omit [DecidableEq ι] [DecidableEq ρ] in
theorem setSocket_of_ne {k k' : κ} (h : k' ≠ k) (socket : Socket κ) :
    (w.setSocket k socket).sockets k' = w.sockets k' := Function.update_of_ne h ..

omit [DecidableEq ι] [DecidableEq ρ] in
theorem setSocket_keeps {P : Socket κ → Prop} {k k' : κ} {socket : Socket κ}
    (hw : P (w.sockets k')) (hset : k' = k → P socket) :
    P ((w.setSocket k socket).sockets k') := by
  rcases eq_or_ne k' k with rfl | hk
  · rw [setSocket_self]
    exact hset rfl
  · rwa [setSocket_of_ne hk]

omit [DecidableEq ι] [DecidableEq ρ] [DecidableEq κ] in
@[simp]
theorem publish_chat (message : Option Message) : (w.publish message).chat = w.chat := by
  cases message <;> rfl

omit [DecidableEq ι] [DecidableEq ρ] [DecidableEq κ] in
@[simp]
theorem publish_sockets (message : Option Message) : (w.publish message).sockets = w.sockets := by
  cases message <;> rfl

end Backend

/-- The socket after a send. -/
def Socket.sent (message : Message) (succeeds : Bool) (s : Socket κ) : Socket κ :=
  if succeeds then { s with written := s.written ++ [message] } else s

omit [DecidableEq κ] in
theorem Socket.send_eq_some {message : Message} {succeeds : Bool} {s s' : Socket κ}
    (h : s.send message succeeds = some s') : s' = s.sent message succeeds := by
  unfold Socket.send at h
  unfold Socket.sent
  split at h
  · next hsucceeds =>
      rw [if_pos hsucceeds]
      exact (Option.some.inj (Option.ite_none_right_eq_some.1 h).2).symm
  · next hraises =>
      rw [if_neg hraises]
      exact (Option.some.inj h).symm

/-- The steps of the backend, one constructor for each. -/
inductive BackendMove (T : Traffic ι ρ κ) (w : Backend ι ρ κ) :
    BackendEvent ι ρ κ → Backend ι ρ κ → Prop
  | exchange {i : ι} {step : ExchangeStep} {chat : Chat ι} {call : ExchangeCall}
      (h : MessageExchange.exchange T.request i step w.chat.shared (w.chat.proc i) =
        some (chat, call)) :
      BackendMove T w (.exchange i step)
        (Backend.publish ((w.chat.proc i).published step)
          { w with chat := ⟨chat, Function.update w.chat.proc i call⟩ })
  | reader {r : ρ} {step : ReaderStep} {subscriber : Subscriber κ} {reader : Reader (Broadcast κ)}
      (h : ReaderMove
        (fun message =>
          (w.replicas r).registry.manager.broadcast message.conversationId message)
        (w.replicas r).registry.subscriber step (w.replicas r).reader subscriber reader) :
      BackendMove T w (.reader r step)
        (w.setReplica r { registry := { (w.replicas r).registry with subscriber }, reader })
  | delivered {r : ρ} {k : κ} {succeeds : Bool} {b : Broadcast κ} {m : ConnectionManager κ}
      {b' : Option (Broadcast κ)} (hreader : (w.replicas r).reader = .delivering b)
      (h : BroadcastMove k succeeds b (w.replicas r).registry.manager m b') :
      BackendMove T w (.delivered r k succeeds)
        ((w.setReplica r
          { registry := { (w.replicas r).registry with manager := m }
            reader := Replica.afterSend b' }).setSocket k
          ((w.sockets k).sent b.message succeeds))
  | connect {k : κ} {lastSeenSeq : Option MessageId}
      (hhandler : (w.sockets k).handler = .authenticating) :
      BackendMove T w (.connect k lastSeenSeq)
        (w.setSocket k { w.sockets k with
          handler := .joining (.waitingJoin (T.conversation k) k), lastSeenSeq })
  | join {k : κ} {step : RegistryStep} {call call' : RegistryCall κ}
      {registry : ConversationRegistry κ κ} (hhandler : (w.sockets k).handler = .joining call)
      (h : RegistryMove k (w.replicas (T.replica k)).registry step call registry call') :
      BackendMove T w (.registry k step)
        ((w.setReplica (T.replica k) { w.replicas (T.replica k) with registry }).setSocket k
          { w.sockets k with handler := Handler.afterJoin (w.sockets k).lastSeenSeq call' })
  | leaveStep {k : κ} {step : RegistryStep} {call call' : RegistryCall κ}
      {registry : ConversationRegistry κ κ} (hhandler : (w.sockets k).handler = .leaving call)
      (h : RegistryMove k (w.replicas (T.replica k)).registry step call registry call') :
      BackendMove T w (.registry k step)
        ((w.setReplica (T.replica k) { w.replicas (T.replica k) with registry }).setSocket k
          { w.sockets k with handler := Handler.afterLeave call' })
  | readPage {k : κ} {cursor : Option MessageId} {collected : List Message} {replay : Replay}
      (hhandler : (w.sockets k).handler = .replaying cursor collected)
      (hreplay : replay =
        ReplayMessages.turn replayPageSize (T.conversation k) w.rows cursor collected) :
      BackendMove T w (.readPage k)
        (w.setSocket k { w.sockets k with handler := Handler.afterRead replay })
  | replaySent {k : κ} {succeeds : Bool} {message : Message} {missed : List Message}
      (hhandler : (w.sockets k).handler = .sending (message :: missed)) :
      BackendMove T w (.replaySent k succeeds)
        (w.setSocket k { (w.sockets k).sent message succeeds with
          handler := if succeeds then Handler.afterSend missed
            else .leaving (.waitingLeave (T.conversation k) k) })
  | cut {k : κ} : BackendMove T w (.cut k) (w.setSocket k { w.sockets k with alive := false })
  | leave {k : κ} (hjoined : (w.sockets k).handler.joined = true) :
      BackendMove T w (.leave k) (w.setSocket k { w.sockets k with
        handler := .leaving (.waitingLeave (T.conversation k) k) })

theorem backend_move {T : Traffic ι ρ κ} {w w' : Backend ι ρ κ} {e : BackendEvent ι ρ κ}
    (h : w.step T e = some w') : BackendMove T w e w' := by
  cases e with
  | exchange i step =>
      obtain ⟨chat, hmove, rfl⟩ := Option.map_eq_some_iff.1 h
      obtain ⟨s, l, hcall, rfl⟩ := World.move_eq_some.1 hmove
      exact .exchange hcall
  | reader r step =>
      obtain ⟨replica, hread, rfl⟩ := Option.map_eq_some_iff.1 h
      obtain ⟨⟨subscriber, reader⟩, hrun, rfl⟩ := Option.map_eq_some_iff.1 hread
      exact .reader (run_move hrun)
  | delivered r k succeeds =>
      simp only [Backend.step] at h
      split at h
      · next b hreader =>
          obtain ⟨socket, hsend, hrest⟩ := Option.bind_eq_some_iff.1 h
          obtain ⟨replica, hdelivered, rfl⟩ := Option.map_eq_some_iff.1 hrest
          obtain ⟨b₀, m, b', hreader', hsent, rfl⟩ := delivered_eq_some hdelivered
          obtain rfl : b = b₀ := Reader.delivering.inj (hreader.symm.trans hreader')
          obtain rfl := Socket.send_eq_some hsend
          exact .delivered hreader (sent_move hsent)
      · cases h
  | connect k lastSeenSeq =>
      simp only [Backend.step] at h
      split at h
      · next hhandler => cases h; exact .connect hhandler
      · cases h
  | registry k step =>
      simp only [Backend.step] at h
      split at h
      · next call hhandler =>
          obtain ⟨⟨registry, call'⟩, hcall, rfl⟩ := Option.map_eq_some_iff.1 h
          exact .join hhandler (registryCall_move hcall)
      · next call hhandler =>
          obtain ⟨⟨registry, call'⟩, hcall, rfl⟩ := Option.map_eq_some_iff.1 h
          exact .leaveStep hhandler (registryCall_move hcall)
      · cases h
  | readPage k =>
      simp only [Backend.step] at h
      split at h
      · next hhandler => cases h; exact .readPage hhandler rfl
      · cases h
  | replaySent k succeeds =>
      simp only [Backend.step] at h
      split at h
      · next message missed hhandler =>
          obtain ⟨socket, hsend, rfl⟩ := Option.map_eq_some_iff.1 h
          obtain rfl := Socket.send_eq_some hsend
          exact .replaySent hhandler
      · cases h
  | cut k => cases h; exact .cut
  | leave k =>
      obtain ⟨hjoined, heq⟩ := Option.ite_none_right_eq_some.1 h
      cases heq
      exact .leave hjoined

/-! ## What a step does to one socket -/

/-- What an event can do to socket `k`, `rows` being the messages committed before it. -/
inductive SocketMove (T : Traffic ι ρ κ) (rows : List Message) (k : κ) :
    BackendEvent ι ρ κ → Socket κ → Socket κ → Prop
  | stays (e : BackendEvent ι ρ κ) (s : Socket κ) : SocketMove T rows k e s s
  | delivered {s : Socket κ} (r : ρ) (message : Message) (succeeds : Bool) :
      SocketMove T rows k (.delivered r k succeeds) s (s.sent message succeeds)
  | connect {s : Socket κ} {lastSeenSeq : Option MessageId} (h : s.handler = .authenticating) :
      SocketMove T rows k (.connect k lastSeenSeq) s
        { s with handler := .joining (.waitingJoin (T.conversation k) k), lastSeenSeq }
  | join {s : Socket κ} {step : RegistryStep} {call : RegistryCall κ} (call' : RegistryCall κ)
      (h : s.handler = .joining call) :
      SocketMove T rows k (.registry k step) s
        { s with handler := Handler.afterJoin s.lastSeenSeq call' }
  | leaveStep {s : Socket κ} {step : RegistryStep} {call : RegistryCall κ} (call' : RegistryCall κ)
      (h : s.handler = .leaving call) :
      SocketMove T rows k (.registry k step) s { s with handler := Handler.afterLeave call' }
  | readPage {s : Socket κ} {cursor : Option MessageId} {collected : List Message} {replay : Replay}
      (h : s.handler = .replaying cursor collected)
      (hreplay : replay =
        ReplayMessages.turn replayPageSize (T.conversation k) rows cursor collected) :
      SocketMove T rows k (.readPage k) s { s with handler := Handler.afterRead replay }
  | replaySent {s : Socket κ} {succeeds : Bool} {message : Message} {missed : List Message}
      (h : s.handler = .sending (message :: missed)) :
      SocketMove T rows k (.replaySent k succeeds) s { s.sent message succeeds with
        handler := if succeeds then Handler.afterSend missed
          else .leaving (.waitingLeave (T.conversation k) k) }
  | cut {s : Socket κ} : SocketMove T rows k (.cut k) s { s with alive := false }
  | leave {s : Socket κ} (h : s.handler.joined = true) :
      SocketMove T rows k (.leave k) s
        { s with handler := .leaving (.waitingLeave (T.conversation k) k) }

variable {T : Traffic ι ρ κ} {w w' : Backend ι ρ κ} {e : BackendEvent ι ρ κ}

theorem BackendMove.socket (h : BackendMove T w e w') (k : κ) :
    SocketMove T w.rows k e (w.sockets k) (w'.sockets k) := by
  have hset : ∀ (v : Backend ι ρ κ) (k' : κ) (s : Socket κ), v.sockets = w.sockets →
      SocketMove T w.rows k' e (w.sockets k') s →
      SocketMove T w.rows k e (w.sockets k) ((v.setSocket k' s).sockets k) := by
    intro v k' s hv hmove
    refine Backend.setSocket_keeps (P := SocketMove T w.rows k e (w.sockets k)) ?_ ?_
    · rw [hv]
      exact .stays _ _
    · rintro rfl
      exact hmove
  cases h with
  | exchange =>
      rw [Backend.publish_sockets]
      exact .stays _ _
  | reader => exact .stays _ _
  | delivered => exact hset _ _ _ rfl (.delivered _ _ _)
  | connect h => exact hset _ _ _ rfl (.connect h)
  | join h => exact hset _ _ _ rfl (.join _ h)
  | leaveStep h => exact hset _ _ _ rfl (.leaveStep _ h)
  | readPage h hreplay => exact hset _ _ _ rfl (.readPage h hreplay)
  | replaySent h => exact hset _ _ _ rfl (.replaySent h)
  | cut => exact hset _ _ _ rfl .cut
  | leave h => exact hset _ _ _ rfl (.leave h)

omit [DecidableEq κ] in
theorem Socket.written_subset_sent (message : Message) (succeeds : Bool) (s : Socket κ) :
    s.written ⊆ (s.sent message succeeds).written := by
  cases succeeds with
  | false => exact List.Subset.refl _
  | true => exact List.subset_append_left _ _

omit [DecidableEq ι] [DecidableEq ρ] [DecidableEq κ] in
/-- What has been written to a socket stays written. -/
theorem SocketMove.written_subset {rows : List Message} {k : κ} {s s' : Socket κ}
    (h : SocketMove T rows k e s s') : s.written ⊆ s'.written := by
  cases h with
  | delivered r message succeeds => exact s.written_subset_sent message succeeds
  | @replaySent _ succeeds message missed => exact s.written_subset_sent message succeeds
  | stays | connect | join | leaveStep | readPage | cut | leave => exact List.Subset.refl _

/-! ## What a handler has still to write -/

/-- The replay of the handler has the message still to write. -/
def Handler.StillSends (message : Message) : Handler κ → Prop
  | .replaying cursor collected => (Replay.reading cursor collected).Covers message
  | .sending missed => message ∈ missed
  | .authenticating | .joining _ | .serving | .leaving _ | .closed => False

omit [DecidableEq κ] in
theorem stillSends_afterSend {message : Message} {missed : List Message} (h : message ∈ missed) :
    (Handler.afterSend missed : Handler κ).StillSends message := by
  cases missed with
  | nil => exact absurd h List.not_mem_nil
  | cons => exact h

omit [DecidableEq κ] in
theorem stillSends_afterRead {message : Message} {replay : Replay} (h : replay.Covers message) :
    (Handler.afterRead replay : Handler κ).StillSends message := by
  cases replay with
  | reading => exact h
  | finished => exact stillSends_afterSend h

omit [DecidableEq ι] [DecidableEq ρ] [DecidableEq κ] in
/-- What a replay has still to write it writes or has still to write, unless the handler gives up
    and leaves. -/
theorem SocketMove.stillSends {rows : List Message}
    (hinj : ∀ a ∈ rows, ∀ b ∈ rows, a.id = b.id → a = b) {k : κ} {s s' : Socket κ}
    (h : SocketMove T rows k e s s') {message : Message} (hmem : message ∈ rows)
    (hconv : message.conversationId = T.conversation k) (hs : s.handler.StillSends message) :
    message ∈ s'.written ∨ s'.handler.StillSends message ∨ ∃ call, s'.handler = .leaving call := by
  cases h with
  | stays | cut => exact .inr (.inl hs)
  | delivered r m succeeds =>
      refine .inr (.inl ?_)
      cases succeeds <;> exact hs
  | connect h | join _ h | leaveStep _ h =>
      rw [h] at hs
      exact hs.elim
  | @readPage _ cursor collected replay h hreplay =>
      rw [h] at hs
      rw [hreplay]
      exact .inr (.inl (stillSends_afterRead (turn_covers (by decide) hinj hmem hconv hs)))
  | @replaySent _ succeeds m missed h =>
      rw [h] at hs
      cases succeeds with
      | false => exact .inr (.inr ⟨_, rfl⟩)
      | true =>
          rcases List.mem_cons.1 hs with rfl | hrest
          · exact .inl (List.mem_append_right _ List.mem_cons_self)
          · exact .inr (.inl (stillSends_afterSend hrest))
  | leave => exact .inr (.inr ⟨_, rfl⟩)

/-! ## The store -/

theorem BackendMove.exchangeInv (h : BackendMove T w e w') (hw : ExchangeInv T.request w.chat) :
    ExchangeInv T.request w'.chat := by
  cases h with
  | exchange h =>
      rw [Backend.publish_chat]
      exact exchangeInv_step hw h
  | reader | delivered | connect | join | leaveStep | readPage | replaySent | cut | leave =>
      exact hw

/-- What is committed stays committed. -/
theorem BackendMove.rows_subset (h : BackendMove T w e w') (hw : ExchangeInv T.request w.chat) :
    w.rows ⊆ w'.rows := by
  cases h with
  | exchange h =>
      obtain ⟨handed, replied, -, -, hmove⟩ := exchange_move hw h
      unfold Backend.rows
      rw [Backend.publish_chat]
      exact hmove.effect.rows_subset hw.distinct
  | reader | delivered | connect | join | leaveStep | readPage | replaySent | cut | leave =>
      exact List.Subset.refl _

omit [DecidableEq ρ] [DecidableEq κ] in
/-- The id is a key of the committed messages. -/
theorem Backend.rows_inj (hw : ExchangeInv T.request w.chat) :
    ∀ a ∈ w.rows, ∀ b ∈ w.rows, a.id = b.id → a = b :=
  fun a ha b hb hid =>
    hw.distinct.eq_of_clash Message.clash_comm ha hb (Message.clash_of_id_eq a b hid)

omit [DecidableEq ρ] [DecidableEq κ] in
/-- What a step of an exchange hands over is what it publishes. -/
theorem exchange_published {request : ι → SendRequest} {i : ι} {step : ExchangeStep}
    {s s' : Chat ι} {l l' : ExchangeCall} (hstep : step ≠ .publish false)
    (h : MessageExchange.exchange request i step s l = some (s', l')) :
    s'.broadcasts = s.broadcasts ++ (l.published step).toList.map fun m => (i, m) := by
  cases exchange_case h with
  | @publish succeeds | @publishReply succeeds =>
      cases succeeds with
      | false => exact absurd rfl hstep
      | true => rfl
  | user | respond | assistant | cancelPublish | cancelRespond | cancelReply =>
      simp [ExchangeCall.published]

/-! ## Parts of runs -/

/-- Two sends without a client key, and two sockets of one client one after the other. -/
def twoSockets : Traffic Bool Unit Bool where
  request _ := { helloRequest with clientMessageId := none }
  replica _ := ()
  conversation _ := helloRequest.conversationId

/-- A socket connects and joins as the first of its conversation. -/
def joinsFirst (k : Bool) (lastSeenSeq : Int) : List (BackendEvent Bool Unit Bool) :=
  [.connect k (some ⟨lastSeenSeq⟩), .registry k .acquire, .registry k (.subscriber .acquire),
    .registry k (.subscriber (.redis true))]

/-- A send has its sequence number, and its row is not committed. -/
def flushes (i : Bool) : List (BackendEvent Bool Unit Bool) :=
  [.exchange i (.user (.readConversation (some helloConversation))),
    .exchange i (.user .findExisting), .exchange i (.user (.draw ⟨0, 0⟩)),
    .exchange i (.user .flush)]

def commitsAndPublishes (i : Bool) : List (BackendEvent Bool Unit Bool) :=
  [.exchange i (.user .commit), .exchange i (.publish true)]

end Dizzchat
