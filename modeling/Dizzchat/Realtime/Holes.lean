import Dizzchat.Messaging.Walks
import Dizzchat.Realtime.NoPhantom

set_option autoImplicit false

/-! # Holes in what a client has

A client holds one connection after another, on any replicas, and sends as the cursor of each the
highest seq it has received (`Backend.FollowsCursor`). The cursor is a high-water mark, so a message
below it that the client does not have is asked for by no later connection. Three kinds of step open
such a hole: a commit below what the client has got, a live frame that overtakes a committed message,
and the end of a replay that a live frame has overtaken (`Backend.OpensNoHole`).

What a replay has read and has still to send lies after the cursor of its connection
(`Handler.Follows`), and only a page adds to it. -/

namespace Dizzchat

open Transition

variable {ι ρ κ : Type*} [DecidableEq ι] [DecidableEq ρ] [DecidableEq κ]

/-! ## The client -/

/-- A socket of the client has been written the message. -/
def Backend.Received (client : List κ) (message : Message) (w : Backend ι ρ κ) : Prop :=
  ∃ k ∈ client, message ∈ (w.sockets k).written

instance (client : List κ) (message : Message) (w : Backend ι ρ κ) :
    Decidable (w.Received client message) :=
  inferInstanceAs (Decidable (∃ k ∈ client, _))

/-- The highest seq among the frames the client has received, starting from `n`. -/
def Backend.highestSeq (n : Int) (client : List κ) (w : Backend ι ρ κ) : Int :=
  (client.flatMap fun k => (w.sockets k).written).foldl (fun seq m => max seq m.id.value) n

/-- The handler has begun, and has not come to its `finally` clause. -/
def Handler.underWay : Handler κ → Bool
  | .joining _ | .replaying .. | .sending _ | .serving => true
  | .authenticating | .leaving _ | .closed => false

def Socket.isOpen (s : Socket κ) : Bool := s.alive && s.handler.underWay

/-- The client connects when it has no connection, and with the highest seq it has received. -/
def Backend.FollowsCursor (n : Int) (client : List κ) (w : Backend ι ρ κ) :
    BackendEvent ι ρ κ → Prop
  | .connect k lastSeenSeq => k ∈ client → lastSeenSeq = some ⟨w.highestSeq n client⟩ ∧
      ∀ k' ∈ client, (w.sockets k').isOpen = false
  | _ => True

instance (n : Int) (client : List κ) (w : Backend ι ρ κ) :
    (e : BackendEvent ι ρ κ) → Decidable (w.FollowsCursor n client e)
  | .connect k _ => inferInstanceAs (Decidable (k ∈ client → _ ∧ _))
  | .exchange .. | .reader .. | .delivered .. | .registry .. | .readPage _ | .replaySent .. | .cut _
  | .leave _ => inferInstanceAs (Decidable True)

/-! ## Holes -/

instance (message : Message) : (handler : Handler κ) → Decidable (handler.StillSends message)
  | .replaying cursor collected =>
      inferInstanceAs (Decidable (message ∈ collected ∨ message.isAfter cursor = true))
  | .sending missed => inferInstanceAs (Decidable (message ∈ missed))
  | .authenticating | .joining _ | .serving | .leaving _ | .closed => inferInstanceAs (Decidable False)

/-- The replay of the socket has the message still to write, and the socket has not been cut. -/
def Socket.Sends (message : Message) (s : Socket κ) : Prop :=
  s.alive = true ∧ s.handler.StillSends message

instance (message : Message) (s : Socket κ) : Decidable (s.Sends message) :=
  inferInstanceAs (Decidable (_ ∧ _))

/-- The message is still to come from a replay of the client. -/
def Backend.Comes (client : List κ) (message : Message) (w : Backend ι ρ κ) : Prop :=
  ∃ k ∈ client, (w.sockets k).Sends message

instance (client : List κ) (message : Message) (w : Backend ι ρ κ) :
    Decidable (w.Comes client message) :=
  inferInstanceAs (Decidable (∃ k ∈ client, _))

/-- The message lies above all the client has received, and above all that an open connection of the
    client has read and not yet sent. -/
def Backend.Above (n : Int) (client : List κ) (message : Message) (w : Backend ι ρ κ) : Prop :=
  w.highestSeq n client < message.id.value ∧ ∀ k ∈ client, (w.sockets k).isOpen = true →
    ∀ m ∈ (w.sockets k).handler.unsent, m.id.value < message.id.value

instance (n : Int) (client : List κ) (message : Message) (w : Backend ι ρ κ) :
    Decidable (w.Above n client message) :=
  inferInstanceAs (Decidable (_ ∧ _))

/-- The client is to have the message: it is of its conversation, and above where it started. -/
def Message.Owed (n : Int) (c : ConversationId) (message : Message) : Prop :=
  message.conversationId = c ∧ n < message.id.value

instance (n : Int) (c : ConversationId) (message : Message) : Decidable (message.Owed n c) :=
  inferInstanceAs (Decidable (_ ∧ _))

def ExchangeStep.commits : ExchangeStep → Bool
  | .user .commit | .assistant .commit => true
  | _ => false

def Reader.delivery {δ : Type*} : Reader δ → Option δ
  | .delivering delivery => some delivery
  | _ => none

/-- What the replay of socket `k` has still to send the client has, or it lies above all it has. -/
def Backend.LosesNothing (n : Int) (c : ConversationId) (client : List κ) (k : κ)
    (w : Backend ι ρ κ) : Prop :=
  ∀ m ∈ w.rows, m.Owed n c → (w.sockets k).Sends m →
    w.Received client m ∨ w.highestSeq n client < m.id.value

instance (n : Int) (c : ConversationId) (client : List κ) (k : κ) (w : Backend ι ρ κ) :
    Decidable (w.LosesNothing n c client k) :=
  inferInstanceAs (Decidable (∀ m ∈ w.rows, _))

/-- The step opens no hole in what the client has: a message is committed above what the client has
    got, or is still to come from a replay; every committed message that a live frame overtakes the
    client has, or it is still to come from a replay; and a replay that breaks off loses nothing. -/
def Backend.OpensNoHole (n : Int) (c : ConversationId) (client : List κ) (w : Backend ι ρ κ) :
    BackendEvent ι ρ κ → Prop
  | .exchange i step => step.commits = true → ∀ m ∈ (w.chat.proc i).images, m.Owed n c →
      w.Above n client m ∨ w.Comes client m
  | .delivered r k succeeds => succeeds = true → k ∈ client →
      ∀ b ∈ (w.replicas r).reader.delivery, ∀ m ∈ w.rows, m.Owed n c →
        m.id.value < b.message.id.value → w.Received client m ∨ w.Comes client m
  | .replaySent k succeeds => succeeds = false → k ∈ client → w.LosesNothing n c client k
  | .cut k | .leave k => k ∈ client → w.LosesNothing n c client k
  | .reader .. | .connect .. | .registry .. | .readPage _ => True

instance (n : Int) (c : ConversationId) (client : List κ) (w : Backend ι ρ κ) :
    (e : BackendEvent ι ρ κ) → Decidable (w.OpensNoHole n c client e)
  | .exchange _ step => inferInstanceAs (Decidable (step.commits = true → _))
  | .delivered _ k succeeds => inferInstanceAs (Decidable (succeeds = true → k ∈ client → _))
  | .replaySent k succeeds => inferInstanceAs (Decidable (succeeds = false → k ∈ client → _))
  | .cut k | .leave k => inferInstanceAs (Decidable (k ∈ client → _))
  | .reader .. | .connect .. | .registry .. | .readPage _ => inferInstanceAs (Decidable True)

/-! ## The high-water mark -/

theorem foldl_max_lt {messages : List Message} {n bound : Int} :
    messages.foldl (fun seq m => max seq m.id.value) n < bound ↔
      n < bound ∧ ∀ m ∈ messages, m.id.value < bound := by
  induction messages generalizing n with
  | nil => simp
  | cons _ messages ih => rw [List.foldl_cons, ih, max_lt_iff, List.forall_mem_cons, and_assoc]

section Mark

variable {n bound : Int} {c : ConversationId} {client : List κ} {w w' : Backend ι ρ κ}

omit [DecidableEq ι] [DecidableEq ρ] [DecidableEq κ] in
theorem highestSeq_lt : w.highestSeq n client < bound ↔
    n < bound ∧ ∀ k ∈ client, ∀ m ∈ (w.sockets k).written, m.id.value < bound := by
  unfold Backend.highestSeq
  rw [foldl_max_lt]
  refine and_congr_right fun _ => ?_
  simp only [List.mem_flatMap]
  constructor
  · intro h k hk m hm
    exact h m ⟨k, hk, hm⟩
  · rintro h m ⟨k, hk, hm⟩
    exact h k hk m hm

omit [DecidableEq ι] [DecidableEq ρ] [DecidableEq κ] in
/-- The mark only rises. -/
theorem highestSeq_mono (h : ∀ k ∈ client, (w.sockets k).written ⊆ (w'.sockets k).written) :
    w.highestSeq n client ≤ w'.highestSeq n client := by
  have hmark : w'.highestSeq n client < w'.highestSeq n client + 1 := Int.lt_succ _
  obtain ⟨hn, hwritten⟩ := highestSeq_lt.1 hmark
  exact Int.lt_add_one_iff.1 (highestSeq_lt.2 ⟨hn, fun k hk m hm => hwritten k hk m (h k hk hm)⟩)

end Mark

/-! ## What a replay reads -/

/-- What a walk from `start` has collected lies after `start`, and its cursor stands where the walk
    has come to: at `start`, or at the last of what it has collected. -/
def Replay.Follows (start : Option MessageId) : Replay → Prop
  | .reading cursor collected => (∀ m ∈ collected, m.isAfter start = true) ∧
      (∀ m : Message, m.isAfter cursor = true → m.isAfter start = true) ∧
      ∀ m : Message, m.isAfter start = true → (∀ x ∈ collected, x.id.value < m.id.value) →
        m.isAfter cursor = true
  | .finished collected => ∀ m ∈ collected, m.isAfter start = true

theorem follows_start (start : Option MessageId) : (Replay.reading start []).Follows start :=
  ⟨fun _ hm => absurd hm List.not_mem_nil, fun _ => id, fun _ h _ => h⟩

theorem Message.isAfter_trans {start : Option MessageId} {a b : Message}
    (ha : a.isAfter start = true) (h : a.id.value < b.id.value) : b.isAfter start = true := by
  cases start with
  | none => rfl
  | some cursor =>
      rw [Message.isAfter_some] at ha ⊢
      exact lt_trans ha h

theorem turn_follows {start cursor : Option MessageId} {pageSize : ℕ}
    {conversationId : ConversationId} {rows collected : List Message}
    (h : (Replay.reading cursor collected).Follows start) :
    (ReplayMessages.turn pageSize conversationId rows cursor collected).Follows start := by
  obtain ⟨hcollected, hcursor, -⟩ := h
  have hpage : ∀ m ∈ collected ++ MessageRepository.listSince conversationId cursor pageSize rows,
      m.isAfter start = true := by
    intro m hm
    rcases List.mem_append.1 hm with hm | hm
    · exact hcollected m hm
    · exact hcursor m (Keyset.mem_of_mem_page hm).2
  rcases turn_cases pageSize conversationId rows cursor collected with
    hturn | ⟨last, hlast, hturn⟩
  · rw [hturn]
    exact hpage
  · -- the next page begins after the last row of this one
    have hmem : last ∈ collected ++ MessageRepository.listSince conversationId cursor pageSize rows :=
      List.mem_append_right _ (List.mem_of_getLast? hlast)
    rw [hturn]
    refine ⟨hpage, fun m hm => ?_, fun m _ hover => ?_⟩
    · exact Message.isAfter_trans (hpage last hmem) (Message.isAfter_some.1 hm)
    · exact Message.isAfter_some.2 (hover last hmem)

/-- What the handler reads and sends lies after the cursor of its connection. -/
def Handler.Follows (start : Option MessageId) : Handler κ → Prop
  | .replaying cursor collected => (Replay.reading cursor collected).Follows start
  | .sending missed => ∀ m ∈ missed, m.isAfter start = true
  | .authenticating | .joining _ | .serving | .leaving _ | .closed => True

/-- The replay of the handler has not read a page yet. -/
def Handler.unread : Handler κ → Bool
  | .joining _ | .replaying _ [] => true
  | .authenticating | .replaying _ (_ :: _) | .sending _ | .serving | .leaving _ | .closed => false

section Handler

variable {start : Option MessageId} {handler : Handler κ} {m : Message}

omit [DecidableEq κ] in
theorem Handler.Follows.afterSend {missed : List Message}
    (h : ∀ m ∈ missed, m.isAfter start = true) :
    (Handler.afterSend missed : Handler κ).Follows start := by
  cases missed with
  | nil => trivial
  | cons => exact h

omit [DecidableEq κ] in
/-- What a replay has still to send lies after its cursor. -/
theorem Handler.Follows.isAfter (h : handler.Follows start) (hm : handler.StillSends m) :
    m.isAfter start = true := by
  cases handler with
  | replaying cursor collected => exact hm.elim (h.1 m) (h.2.1 m)
  | sending missed => exact h m hm
  | authenticating | joining | serving | leaving | closed => exact hm.elim

end Handler

/-! ## What a step does to a socket -/

section Socket

variable {T : Traffic ι ρ κ} {rows : List Message} {e : BackendEvent ι ρ κ} {k : κ}
  {s s' : Socket κ}

omit [DecidableEq ι] [DecidableEq ρ] [DecidableEq κ] in
theorem SocketMove.follows (h : SocketMove T rows k e s s') (hs : s.handler.Follows s.lastSeenSeq) :
    s'.handler.Follows s'.lastSeenSeq := by
  cases h with
  | stays | cut => exact hs
  | delivered r m succeeds => cases succeeds <;> exact hs
  | connect | leave => trivial
  | join call' h =>
      cases call' with
      | returned =>
          show (Handler.afterJoin s.lastSeenSeq .returned).Follows s.lastSeenSeq
          cases s.lastSeenSeq with
          | none => trivial
          | some cursor => exact follows_start _
      | waitingJoin | subscribing | waitingLeave | unsubscribing | raised => trivial
  | leaveStep call' h => cases call' <;> trivial
  | @readPage _ cursor collected replay h hreplay =>
      rw [h] at hs
      have hturn : replay.Follows s.lastSeenSeq := hreplay ▸ turn_follows hs
      show (Handler.afterRead replay).Follows s.lastSeenSeq
      cases replay with
      | reading => exact hturn
      | finished missed => exact .afterSend hturn
  | @replaySent _ succeeds m missed h =>
      rw [h] at hs
      cases succeeds with
      | false => trivial
      | true => exact .afterSend fun m hm => hs m (List.mem_cons_of_mem _ hm)

omit [DecidableEq κ] in
theorem Socket.isOpen_iff : s.isOpen = true ↔ s.alive = true ∧ s.handler.underWay = true :=
  Bool.and_eq_true_iff

omit [DecidableEq κ] in
theorem Socket.sent_handler (message : Message) (succeeds : Bool) (s : Socket κ) :
    (s.sent message succeeds).handler = s.handler := by
  cases succeeds <;> rfl

omit [DecidableEq κ] in
theorem unread_afterSend (missed : List Message) :
    (Handler.afterSend missed : Handler κ).unread = false := by
  cases missed <;> rfl

omit [DecidableEq κ] in
theorem not_underWay_afterLeave (call : RegistryCall κ) :
    (Handler.afterLeave call).underWay = false ∧ (Handler.afterLeave call).unread = false := by
  cases call <;> exact ⟨rfl, rfl⟩

omit [DecidableEq κ] in
/-- A replay that has read a page has read something, or it is at its end. -/
theorem unread_afterRead {cursor : Option MessageId} {collected : List Message} {pageSize : ℕ}
    {conversationId : ConversationId}
    (h : (Handler.afterRead
      (ReplayMessages.turn pageSize conversationId rows cursor collected) : Handler κ).unread = true) :
    collected = [] := by
  rcases turn_cases pageSize conversationId rows cursor collected with
    hturn | ⟨last, hlast, hturn⟩
  · rw [hturn] at h
    exact absurd h (by simp [Handler.afterRead, unread_afterSend])
  · rw [hturn] at h
    cases collected with
    | nil => rfl
    | cons => cases h

omit [DecidableEq ι] [DecidableEq ρ] [DecidableEq κ] in
/-- A step connects the socket, or opens nothing and begins no replay. -/
theorem SocketMove.begun (h : SocketMove T rows k e s s') :
    (∃ lastSeenSeq, e = .connect k lastSeenSeq ∧ s'.lastSeenSeq = lastSeenSeq) ∨
      s'.lastSeenSeq = s.lastSeenSeq ∧ (s.handler = .authenticating → s'.handler = .authenticating) ∧
        (s'.isOpen = true → s.isOpen = true) ∧
        (s'.handler.unread = true → s.handler.unread = true) := by
  cases h with
  | stays => exact .inr ⟨rfl, id, id, id⟩
  | delivered r m succeeds => cases succeeds <;> exact .inr ⟨rfl, id, id, id⟩
  | connect => exact .inl ⟨_, rfl, rfl⟩
  | join call' h =>
      refine .inr ⟨rfl, fun hnot => ?_, fun hopen => ?_, fun _ => ?_⟩
      · cases hnot.symm.trans h
      · exact Socket.isOpen_iff.2 ⟨(Socket.isOpen_iff.1 hopen).1, by rw [h]; rfl⟩
      · rw [h]
        rfl
  | leaveStep call' h =>
      have hgone := not_underWay_afterLeave call'
      refine .inr ⟨rfl, fun hnot => ?_, fun hopen => ?_, fun hunread => ?_⟩
      · cases hnot.symm.trans h
      · cases hgone.1.symm.trans (Socket.isOpen_iff.1 hopen).2
      · cases hgone.2.symm.trans hunread
  | readPage h hreplay =>
      refine .inr ⟨rfl, fun hnot => ?_, fun hopen => ?_, fun hunread => ?_⟩
      · cases hnot.symm.trans h
      · exact Socket.isOpen_iff.2 ⟨(Socket.isOpen_iff.1 hopen).1, by rw [h]; rfl⟩
      · obtain rfl := unread_afterRead (hreplay ▸ hunread)
        rw [h]
        rfl
  | @replaySent _ succeeds m missed h =>
      have hnot : s.handler ≠ .authenticating := by
        intro hnot
        cases hnot.symm.trans h
      cases succeeds with
      | false =>
          refine .inr ⟨rfl, fun hbegins => absurd hbegins hnot, fun hopen => ?_, fun hunread => ?_⟩
          · cases (Socket.isOpen_iff.1 hopen).2
          · cases hunread
      | true =>
          refine .inr ⟨rfl, fun hbegins => absurd hbegins hnot, fun hopen => ?_, fun hunread => ?_⟩
          · exact Socket.isOpen_iff.2 ⟨(Socket.isOpen_iff.1 hopen).1, by rw [h]; rfl⟩
          · cases (unread_afterSend missed).symm.trans hunread
  | cut =>
      refine .inr ⟨rfl, id, fun hopen => ?_, id⟩
      cases (Socket.isOpen_iff.1 hopen).1
  | leave hjoined =>
      refine .inr ⟨rfl, fun hnot => ?_, fun hopen => ?_, fun hunread => ?_⟩
      · rw [hnot] at hjoined
        cases hjoined
      · cases (Socket.isOpen_iff.1 hopen).2
      · cases hunread

omit [DecidableEq ι] [DecidableEq ρ] [DecidableEq κ] in
/-- Only a page adds to what an open connection has read and not yet sent. -/
theorem SocketMove.unsent (h : SocketMove T rows k e s s') (hread : e ≠ .readPage k)
    (hopen : s'.isOpen = true) {m : Message} (hm : m ∈ s'.handler.unsent) :
    s.isOpen = true ∧ m ∈ s.handler.unsent := by
  rcases h.begun with ⟨lastSeenSeq, rfl, -⟩ | ⟨-, -, hopens, -⟩
  · cases h with
    | stays => exact ⟨hopen, hm⟩
    | connect => exact absurd hm List.not_mem_nil
  · refine ⟨hopens hopen, ?_⟩
    cases h with
    | stays | cut => exact hm
    | delivered r m succeeds => cases succeeds <;> exact hm
    | connect | leave => exact absurd hm List.not_mem_nil
    | join call' =>
        rw [afterJoin_unsent] at hm
        exact absurd hm List.not_mem_nil
    | leaveStep call' =>
        rw [afterLeave_unsent] at hm
        exact absurd hm List.not_mem_nil
    | readPage => exact absurd rfl hread
    | @replaySent _ succeeds message missed h =>
        rw [h]
        cases succeeds with
        | false => exact absurd hm List.not_mem_nil
        | true =>
            simp only [if_true, afterSend_unsent] at hm
            exact List.mem_cons_of_mem _ hm

omit [DecidableEq ι] [DecidableEq ρ] [DecidableEq κ] in
/-- What a replay has still to send it goes on to send, unless it breaks off. -/
theorem SocketMove.sends (hinj : ∀ a ∈ rows, ∀ b ∈ rows, a.id = b.id → a = b)
    (h : SocketMove T rows k e s s') {m : Message} (hmem : m ∈ rows)
    (hconv : m.conversationId = T.conversation k) (hs : s.Sends m) :
    m ∈ s'.written ∨ s'.Sends m ∨
      (e = .cut k ∨ e = .leave k ∨ e = .replaySent k false) ∧ s'.isOpen = false := by
  rcases h.stillSends hinj hmem hconv hs.2 with hwritten | hsends | ⟨call, hleaves⟩
  · exact .inl hwritten
  · cases h with
    | stays | connect | join | leaveStep | readPage | leave => exact .inr (.inl ⟨hs.1, hsends⟩)
    | delivered r m succeeds => cases succeeds <;> exact .inr (.inl ⟨hs.1, hsends⟩)
    | @replaySent _ succeeds => cases succeeds <;> exact .inr (.inl ⟨hs.1, hsends⟩)
    | cut => exact .inr (.inr ⟨.inl rfl, rfl⟩)
  · have hclosed : s'.isOpen = false := by
      rw [Socket.isOpen, hleaves]
      exact Bool.and_false _
    refine .inr (.inr ⟨?_, hclosed⟩)
    have hstill := hs.2
    cases h with
    | stays | cut =>
        rw [hleaves] at hstill
        exact hstill.elim
    | delivered =>
        rw [Socket.sent_handler] at hleaves
        rw [hleaves] at hstill
        exact hstill.elim
    | connect h | join _ h | leaveStep _ h =>
        rw [h] at hstill
        exact hstill.elim
    | @readPage _ _ _ replay => cases replay with
      | reading => cases hleaves
      | finished missed => cases missed <;> cases hleaves
    | @replaySent _ succeeds _ missed => cases succeeds with
      | false => exact .inr (.inr rfl)
      | true => cases missed <;> cases hleaves
    | leave => exact .inr (.inl rfl)

end Socket

/-! ## What a step does to the backend -/

section Backend

variable {T : Traffic ι ρ κ} {w w' : Backend ι ρ κ} {e : BackendEvent ι ρ κ} {k : κ} {m : Message}

omit [DecidableEq ρ] [DecidableEq κ] in
/-- A commit adds what the exchange has open, and nothing else does. -/
theorem exchange_new_row {request : ι → SendRequest} {i : ι} {step : ExchangeStep} {s s' : Chat ι}
    {l l' : ExchangeCall} (h : ExchangeCase request i s step l s' l')
    (hown : s.store.messages.own i = l.images) (hm : m ∈ s'.store.messages.rows) :
    m ∈ s.store.messages.rows ∨ step.commits = true ∧ m ∈ l.images := by
  have hcommit : m ∈ (s.store.messages.commit Message.id i).rows →
      m ∈ s.store.messages.rows ∨ m ∈ l.images := by
    intro hm
    rcases Table.mem_commit_rows hm with hmine | hold
    · exact .inr (hown ▸ Table.mem_own.2 hmine)
    · exact .inl hold
  cases h with
  | user h =>
      cases h with
      | returnedCreated => exact (hcommit hm).imp_right fun hm => ⟨rfl, hm⟩
      | flushed h =>
          obtain ⟨_, _, rfl⟩ := Table.insert_eq_done.1 h
          exact .inl hm
      | rejected | admitted | keyless | found | missed | drawn | duplicate | returnedExisting
      | failed => exact .inl hm
  | assistant h =>
      cases h with
      | returned => exact (hcommit hm).imp_right fun hm => ⟨rfl, hm⟩
      | flushed h =>
          obtain ⟨_, _, rfl⟩ := Table.insert_eq_done.1 h
          exact .inl hm
      | drawn | duplicate | failed => exact .inl hm
  | publish | respond | publishReply | cancelPublish | cancelRespond | cancelReply => exact .inl hm

/-- A message is committed in this step, which leaves the sockets alone, or has been before. -/
theorem BackendMove.new_row (h : BackendMove T w e w') (hw : ExchangeInv T.request w.chat)
    (hm : m ∈ w'.rows) : m ∈ w.rows ∨ w'.sockets = w.sockets ∧ ∃ i step,
      e = .exchange i step ∧ step.commits = true ∧ m ∈ (w.chat.proc i).images := by
  cases h with
  | @exchange i step chat call h =>
      unfold Backend.rows at hm
      rw [Backend.publish_chat] at hm
      rcases exchange_new_row (exchange_case h) (hw.own i) hm with hold | ⟨hcommits, hopen⟩
      · exact .inl hold
      · exact .inr ⟨Backend.publish_sockets .., i, step, rfl, hcommits, hopen⟩
  | reader | delivered | connect | join | leaveStep | readPage | replaySent | cut | leave =>
      exact .inl hm

/-- Nothing is written to a socket that has been cut. -/
theorem alive_of_replaySent (h : w.step T (.replaySent k true) = some w') :
    (w.sockets k).alive = true := by
  simp only [Backend.step] at h
  split at h
  · next message missed hhandler =>
      obtain ⟨socket, hsend, -⟩ := Option.map_eq_some_iff.1 h
      exact (Option.ite_none_right_eq_some.1 hsend).1
  · cases h

/-- A message that is new to a socket comes from a broadcast, or from its replay. -/
theorem BackendMove.written (h : BackendMove T w e w') (hm : m ∈ (w'.sockets k).written) :
    m ∈ (w.sockets k).written ∨
      (∃ r b, e = .delivered r k true ∧ (w.replicas r).reader = .delivering b ∧ m = b.message) ∨
      e = .replaySent k true ∧ m ∈ (w.sockets k).handler.unsent := by
  have hsent : ∀ {message : Message} {succeeds : Bool} {s : Socket κ},
      m ∈ (s.sent message succeeds).written → m ∈ s.written ∨ succeeds = true ∧ m = message := by
    intro message succeeds s hm
    cases succeeds with
    | false => exact .inl hm
    | true =>
        rcases List.mem_append.1 hm with hm | hm
        · exact .inl hm
        · exact .inr ⟨rfl, List.mem_singleton.1 hm⟩
  have hset : ∀ {P : Prop} (v : Backend ι ρ κ) (k' : κ) (socket : Socket κ),
      v.sockets = w.sockets → (k = k' → m ∈ socket.written → m ∈ (w.sockets k).written ∨ P) →
      m ∈ ((v.setSocket k' socket).sockets k).written → m ∈ (w.sockets k).written ∨ P := by
    intro P v k' socket hv hsocket
    refine Backend.setSocket_keeps
      (P := fun s => m ∈ s.written → m ∈ (w.sockets k).written ∨ P) ?_ hsocket
    rw [hv]
    exact .inl
  cases h with
  | exchange =>
      rw [Backend.publish_sockets] at hm
      exact .inl hm
  | reader => exact .inl hm
  | @delivered r k' succeeds b _ _ hreader =>
      refine hset _ k' _ rfl ?_ hm
      rintro rfl hm
      rcases hsent hm with hold | ⟨rfl, rfl⟩
      · exact .inl hold
      · exact .inr (.inl ⟨r, b, rfl, hreader, rfl⟩)
  | connect | join | leaveStep | readPage | cut | leave =>
      refine hset _ _ _ rfl ?_ hm
      rintro rfl hm
      exact .inl hm
  | @replaySent k' succeeds message missed hhandler =>
      refine hset _ k' _ rfl ?_ hm
      rintro rfl hm
      rcases hsent hm with hold | ⟨rfl, rfl⟩
      · exact .inl hold
      · refine .inr (.inr ⟨rfl, ?_⟩)
        rw [hhandler]
        exact List.mem_cons_self

end Backend

end Dizzchat
