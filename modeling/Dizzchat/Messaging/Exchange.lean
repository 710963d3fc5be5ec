import Dizzchat.Messaging.PostMessage

set_option autoImplicit false

/-! # The message exchange under concurrency

Any number of `MessageExchange.exchange` calls, on any sockets and replicas, against one `messages`
table. A call writes the user message, hands it to the broadcaster, asks the responder, writes the
assistant message and hands that over too; every step may fail and ends the call.

The world keeps two logs that the code does not: what each call handed to the broadcaster, and the
assistant message each call committed. `exchange_atMostOnce` reads the guarantee for a client key
off them: one stored message, handed over at most once, and at most one reply. -/

namespace Dizzchat

open Transition

variable {ι : Type*} [DecidableEq ι]

/-! ## The calls -/

/-- What the exchanges share, with the logs of what they have handed over and replied. -/
structure Chat (ι : Type*) where
  store : MessageStore ι
  broadcasts : List (ι × Message)
  replies : List (ι × Message)

/-- Where an exchange failed: in one of its two writes, at the broadcaster, at the responder, or
    because the call was ended from outside. -/
inductive ExchangeError
  | writer (error : WriteError)
  | broadcaster
  | responder
  | cancelled
deriving DecidableEq

/-- How far an exchange has come. -/
inductive ExchangeCall
  | writing (call : FromUserCall)
  | publishing (message : Message)
  | responding (message : Message)
  | replying (message : Message) (call : FromAssistantCall)
  | publishingReply (message reply : Message)
  | returned (message : Message) (reply : Option Message)
  /-- The error ended the call after it had committed `stored` and `reply`. -/
  | raised (error : ExchangeError) (stored reply : Option Message)
deriving DecidableEq

inductive ExchangeStep
  | user (step : FromUserStep)
  | assistant (step : FromAssistantStep)
  /-- The broadcaster takes the message, and succeeds or raises. -/
  | publish (succeeds : Bool)
  | respond (succeeds : Bool)
  /-- The call is ended from outside while it waits for the broadcaster or the responder. -/
  | cancel
deriving DecidableEq

/-- Where `exchange` goes on after `from_user`: a duplicate is returned at once. -/
def ExchangeCall.afterUser : FromUserCall → ExchangeCall
  | .returned message true => .publishing message
  | .returned message false => .returned message none
  | .raised e => .raised (.writer e) none none
  | call => .writing call

/-- Where `exchange` goes on after `from_assistant`. -/
def ExchangeCall.afterAssistant (message : Message) : FromAssistantCall → ExchangeCall
  | .returned reply => .publishingReply message reply
  | .raised e => .raised (.writer e) (some message) none
  | call => .replying message call

/-- The assistant message a step has committed. -/
def FromAssistantCall.committed : FromAssistantCall → List Message
  | .returned reply => [reply]
  | .started _ | .drawn _ | .flushed _ | .raised _ => []

/-- `MessageExchange.exchange` by call `i`. -/
def MessageExchange.exchange (request : ι → SendRequest) (i : ι) :
    ExchangeStep → Chat ι → ExchangeCall → Option (Chat ι × ExchangeCall)
  | .user step, s, .writing call =>
      (SessionScopedMessageWriter.fromUser request i step s.store call).map fun (store, call) =>
        ({ s with store }, .afterUser call)
  | .publish succeeds, s, .publishing message =>
      some ({ s with broadcasts := s.broadcasts ++ [(i, message)] },
        if succeeds then .responding message else .raised .broadcaster (some message) none)
  | .respond succeeds, s, .responding message =>
      some (s, if succeeds then
          .replying message (.started (MockAssistantResponder.replyTo (request i).content))
        else .raised .responder (some message) none)
  | .assistant step, s, .replying message call =>
      (SessionScopedMessageWriter.fromAssistant (fun i => (request i).conversationId) i step s.store
        call).map fun (store, call) =>
          ({ s with store, replies := s.replies ++ call.committed.map fun reply => (i, reply) },
            .afterAssistant message call)
  | .publish succeeds, s, .publishingReply message reply =>
      some ({ s with broadcasts := s.broadcasts ++ [(i, reply)] },
        if succeeds then .returned message (some reply)
        else .raised .broadcaster (some message) (some reply))
  -- the writes are cancelled by a `fail` of their own
  | .cancel, s, .publishing message | .cancel, s, .responding message =>
      some (s, .raised .cancelled (some message) none)
  | .cancel, s, .publishingReply message reply =>
      some (s, .raised .cancelled (some message) (some reply))
  | _, _, _ => none

abbrev ExchangeWorld (ι : Type*) := World ι (Chat ι) ExchangeCall

/-- Every call is about to start on a store nobody is writing to. -/
def ExchangeWorld.init (rows : List Message) (lastSeq : Int) : ExchangeWorld ι :=
  ⟨⟨⟨{ rows, writes := [] }, lastSeq⟩, [], []⟩, fun _ => .writing .started⟩

/-! ## What a call has done -/

namespace ExchangeCall

/-- The user message the call created and committed. -/
def created : ExchangeCall → Option Message
  | .publishing message | .responding message | .replying message _ | .publishingReply message _
  | .returned message (some _) => some message
  | .raised _ stored _ => stored
  | .writing _ | .returned _ none => none

/-- The assistant message the call committed. -/
def reply : ExchangeCall → Option Message
  | .publishingReply _ reply => some reply
  | .returned _ reply | .raised _ _ reply => reply
  | .writing _ | .publishing _ | .responding _ | .replying .. => none

/-- The call may still hand over a message with this role. -/
def toHand : ExchangeCall → MessageRole → Bool
  | .writing _, _ | .publishing _, _ => true
  | .responding _, role | .replying .., role | .publishingReply .., role => role = .assistant
  | .returned .., _ | .raised .., _ => false

/-- The message the call has open. -/
def images : ExchangeCall → List Message
  | .writing call => call.images
  | .replying _ call => call.images
  | .publishing _ | .responding _ | .publishingReply .. | .returned .. | .raised .. => []

end ExchangeCall

/-- The message is the user message of a request. -/
def SendRequest.Sends (request : SendRequest) (message : Message) : Prop :=
  message.role = .user ∧ message.conversationId = request.conversationId ∧
    message.clientMessageId = request.clientMessageId

/-- The message is an assistant message: it never carries a client key. -/
def Message.IsReply (message : Message) : Prop :=
  message.role = .assistant ∧ message.clientMessageId = none

/-- A message under way has the shape of what is being written. -/
def ExchangeCall.Shaped (request : SendRequest) : ExchangeCall → Prop
  | .writing (.drawn message) | .writing (.flushed message) => request.Sends message
  | .replying _ (.drawn reply) | .replying _ (.flushed reply) => reply.IsReply
  | _ => True

/-- The message with a role that the call has committed. -/
def ExchangeCall.sent (call : ExchangeCall) : MessageRole → Option Message
  | .user => call.created
  | .assistant => call.reply

/-! ## What a step can do -/

/-- The steps of an exchange, one constructor for each. -/
inductive ExchangeCase (request : ι → SendRequest) (i : ι) (s : Chat ι) :
    ExchangeStep → ExchangeCall → Chat ι → ExchangeCall → Prop
  | user {step : FromUserStep} {call call' : FromUserCall} {store : MessageStore ι}
      (h : FromUserMove request i s.store step call store call') :
      ExchangeCase request i s (.user step) (.writing call) { s with store } (.afterUser call')
  | publish {succeeds : Bool} {message : Message} :
      ExchangeCase request i s (.publish succeeds) (.publishing message)
        { s with broadcasts := s.broadcasts ++ [(i, message)] }
        (if succeeds then .responding message else .raised .broadcaster (some message) none)
  | respond {succeeds : Bool} {message : Message} :
      ExchangeCase request i s (.respond succeeds) (.responding message) s
        (if succeeds then
          .replying message (.started (MockAssistantResponder.replyTo (request i).content))
        else .raised .responder (some message) none)
  | assistant {step : FromAssistantStep} {message : Message} {call call' : FromAssistantCall}
      {store : MessageStore ι}
      (h : FromAssistantMove (fun i => (request i).conversationId) i s.store step call store call') :
      ExchangeCase request i s (.assistant step) (.replying message call)
        { s with store, replies := s.replies ++ call'.committed.map fun reply => (i, reply) }
        (.afterAssistant message call')
  | publishReply {succeeds : Bool} {message reply : Message} :
      ExchangeCase request i s (.publish succeeds) (.publishingReply message reply)
        { s with broadcasts := s.broadcasts ++ [(i, reply)] }
        (if succeeds then .returned message (some reply)
        else .raised .broadcaster (some message) (some reply))
  | cancelPublish {message : Message} :
      ExchangeCase request i s .cancel (.publishing message) s
        (.raised .cancelled (some message) none)
  | cancelRespond {message : Message} :
      ExchangeCase request i s .cancel (.responding message) s
        (.raised .cancelled (some message) none)
  | cancelReply {message reply : Message} :
      ExchangeCase request i s .cancel (.publishingReply message reply) s
        (.raised .cancelled (some message) (some reply))

theorem exchange_case {request : ι → SendRequest} {i : ι} {c : ExchangeStep} {s s' : Chat ι}
    {l l' : ExchangeCall} (h : MessageExchange.exchange request i c s l = some (s', l')) :
    ExchangeCase request i s c l s' l' := by
  unfold MessageExchange.exchange at h
  split at h
  · obtain ⟨⟨store, call'⟩, hstep, heq⟩ := Option.map_eq_some_iff.1 h
    cases heq
    exact .user (fromUser_move hstep)
  · cases h; exact .publish
  · cases h; exact .respond
  · obtain ⟨⟨store, call'⟩, hstep, heq⟩ := Option.map_eq_some_iff.1 h
    cases heq
    exact .assistant (fromAssistant_move hstep)
  · cases h; exact .publishReply
  · cases h; exact .cancelPublish
  · cases h; exact .cancelRespond
  · cases h; exact .cancelReply
  · cases h

/-- A step of call `i` from `l` to `l'`, which takes the table from `T` to `T'`, hands over `handed`
    and commits the replies `replied`. -/
structure ExchangeMove (request : ι → SendRequest) (i : ι) (T T' : Table ι Message)
    (l l' : ExchangeCall) (handed replied : List Message) : Prop where
  effect : WriteEffect i T T'
  own : T'.own i = l'.images
  shaped : l'.Shaped (request i)
  /-- What the call has committed stays committed. -/
  keeps : ∀ role m, l.sent role = some m → l'.sent role = some m
  /-- A user message that is new among the committed ones clashes with none of them. -/
  creates : ∀ m, l'.created = some m → l.created = some m ∨
    (m ∈ T'.rows ∧ (request i).Sends m ∧ ∀ x ∈ T.rows, Message.clash x m = false)
  replies : ∀ r, l'.reply = some r →
    (r.IsReply ∧ l'.created.isSome = true) ∧ (l.reply = some r ∨ r ∈ replied)
  hands : ∀ role, l.toHand role = false → l'.toHand role = false
  handed_spec : ∀ m ∈ handed, l.toHand m.role = true ∧ l'.toHand m.role = false ∧
    l'.sent m.role = some m
  handed_length : handed.length ≤ 1
  replied_spec : ∀ r ∈ replied, l.reply = none ∧ l'.reply = some r ∧ r ∈ T'.rows
  replied_length : replied.length ≤ 1

/-- The invariant of the exchanges. -/
structure ExchangeInv (request : ι → SendRequest) (w : ExchangeWorld ι) : Prop where
  distinct : w.shared.store.messages.Distinct Message.clash
  own : ∀ i, w.shared.store.messages.own i = (w.proc i).images
  shaped : ∀ i, (w.proc i).Shaped (request i)
  created : ∀ i m, (w.proc i).created = some m →
    m ∈ w.shared.store.messages.rows ∧ (request i).Sends m
  reply : ∀ i r, (w.proc i).reply = some r →
    (r.IsReply ∧ (w.proc i).created.isSome = true) ∧ (i, r) ∈ w.shared.replies
  /-- Two calls never create messages that clash. -/
  apart : ∀ i j m m', i ≠ j → (w.proc i).created = some m → (w.proc j).created = some m' →
    Message.clash m m' = false
  handed : ∀ b ∈ w.shared.broadcasts, (w.proc b.1).toHand b.2.role = false ∧
    (w.proc b.1).sent b.2.role = some b.2
  handedOnce : (w.shared.broadcasts.map fun b => (b.1, b.2.role)).Nodup
  replied : ∀ b ∈ w.shared.replies, (w.proc b.1).reply = some b.2 ∧
    b.2 ∈ w.shared.store.messages.rows
  repliedOnce : (w.shared.replies.map Prod.fst).Nodup

section Step

variable {request : ι → SendRequest} {i : ι} {T T' : Table ι Message}

/-- The steps of the user write. -/
theorem exchangeMove_user {c : FromUserStep} {s s' : MessageStore ι} {call call' : FromUserCall}
    (hdistinct : s.messages.Distinct Message.clash) (hown : s.messages.own i = call.images)
    (hshaped : (ExchangeCall.writing call).Shaped (request i))
    (h : FromUserMove request i s c call s' call') :
    ExchangeMove request i s.messages s'.messages (.writing call) (.afterUser call') [] [] := by
  have hown' := h.own hown
  refine ⟨h.effect, ?_, ?_, ?_, fun m hm => Or.inr ?_, ?_, ?_, by simp, by simp, by simp, by simp⟩
  · rw [hown']
    cases call' with
    | returned m b => cases b <;> rfl
    | started | admitted | missed | found | drawn | flushed | raised => rfl
  · cases h with
    | drawn => exact ⟨rfl, rfl, rfl⟩
    | flushed => exact hshaped
    | rejected | admitted | keyless | found | missed | duplicate | returnedExisting
    | returnedCreated | failed => trivial
  · intro role m hm
    cases role <;> cases hm
  · cases h with
    | returnedCreated =>
        cases hm
        have hmine : m ∈ s.messages.own i := by simp [hown, FromUserCall.images]
        exact ⟨mem_commit_of_own hdistinct hmine, hshaped,
          fun x hx => hdistinct.row_write hx (Table.mem_own.1 hmine)⟩
    | rejected | admitted | keyless | found | missed | drawn | duplicate | flushed
    | returnedExisting | failed => cases hm
  · intro r hr
    cases h <;> cases hr
  · intro role hrole
    cases role <;> cases hrole

/-- The steps of the assistant write. -/
theorem exchangeMove_assistant {c : FromAssistantStep} {s s' : MessageStore ι} {message : Message}
    {call call' : FromAssistantCall} (hdistinct : s.messages.Distinct Message.clash)
    (hown : s.messages.own i = call.images)
    (hshaped : (ExchangeCall.replying message call).Shaped (request i))
    (h : FromAssistantMove (fun i => (request i).conversationId) i s c call s' call') :
    ExchangeMove request i s.messages s'.messages (.replying message call)
      (.afterAssistant message call') [] call'.committed := by
  have hown' := h.own hown
  refine ⟨h.effect, ?_, ?_, ?_, fun m hm => Or.inl ?_, ?_, ?_, by simp, by simp, ?_, ?_⟩
  · rw [hown']
    cases call' <;> rfl
  · cases h with
    | drawn => exact ⟨rfl, rfl⟩
    | flushed => exact hshaped
    | duplicate | returned | failed => trivial
  · intro role m hm
    cases role with
    | user => cases h <;> exact hm
    | assistant => cases hm
  · cases h <;> exact hm
  · intro r hr
    cases h with
    | returned =>
        cases hr
        exact ⟨⟨hshaped, rfl⟩, Or.inr (by simp [FromAssistantCall.committed])⟩
    | drawn | duplicate | flushed | failed => cases hr
  · intro role hrole
    cases role with
    | user => cases h <;> rfl
    | assistant => cases hrole
  · intro r hr
    cases h with
    | returned =>
        rw [FromAssistantCall.committed, List.mem_singleton] at hr
        subst hr
        exact ⟨rfl, rfl, mem_commit_of_own hdistinct (by simp [hown, FromAssistantCall.images])⟩
    | drawn | duplicate | flushed | failed => cases hr
  · cases h <;> simp [FromAssistantCall.committed]

/-- A step that leaves the table and what the call has committed alone. -/
theorem exchangeMove_hand {l l' : ExchangeCall} {handed : List Message}
    (hown : T.own i = l'.images) (hshaped : l'.Shaped (request i)) (hsent : l'.sent = l.sent)
    (hreply : ∀ r, l.reply = some r → r.IsReply ∧ l.created.isSome = true)
    (hhands : ∀ role, l.toHand role = false → l'.toHand role = false)
    (hhanded : ∀ m ∈ handed, l.toHand m.role = true ∧ l'.toHand m.role = false ∧
      l.sent m.role = some m) (hlength : handed.length ≤ 1) :
    ExchangeMove request i T T l l' handed [] where
  effect := .none
  own := hown
  shaped := hshaped
  keeps role m hm := by rw [hsent]; exact hm
  creates m hm := Or.inl ((congrFun hsent .user).symm.trans hm)
  replies r hr :=
    have hr : l.reply = some r := (congrFun hsent .assistant).symm.trans hr
    have hcreated : l'.created = l.created := congrFun hsent .user
    ⟨hcreated ▸ hreply r hr, Or.inl hr⟩
  hands := hhands
  handed_spec m hm := by rw [hsent]; exact hhanded m hm
  handed_length := hlength
  replied_spec := by simp
  replied_length := by simp

/-- Every step of an exchange is such a move. -/
theorem exchange_move {w : ExchangeWorld ι} (hw : ExchangeInv request w) {c : ExchangeStep}
    {s' : Chat ι} {l' : ExchangeCall}
    (h : MessageExchange.exchange request i c w.shared (w.proc i) = some (s', l')) :
    ∃ handed replied, s'.broadcasts = w.shared.broadcasts ++ handed.map (fun m => (i, m)) ∧
      s'.replies = w.shared.replies ++ replied.map (fun r => (i, r)) ∧
      ExchangeMove request i w.shared.store.messages s'.store.messages (w.proc i) l'
        handed replied := by
  have hown := hw.own i
  have hshaped := hw.shaped i
  have hcreated := hw.created i
  have hreply : ∀ r, (w.proc i).reply = some r → r.IsReply ∧
      (w.proc i).created.isSome = true := fun r hr => (hw.reply i r hr).1
  have hcase := exchange_case h
  generalize w.proc i = l at hcase hown hshaped hcreated hreply
  cases hcase with
  | user hstep =>
      exact ⟨[], [], by simp, by simp, exchangeMove_user hw.distinct hown hshaped hstep⟩
  | @publish succeeds m =>
      have hrole : m.role = .user := (hcreated m rfl).2.1
      refine ⟨[m], [], rfl, by simp, ?_⟩
      cases succeeds <;> refine exchangeMove_hand hown trivial (funext fun role => ?_) hreply
        (fun role h => ?_) (fun x hx => ?_) (by simp) <;>
        first
        | rw [List.mem_singleton.1 hx, hrole]; exact ⟨rfl, rfl, rfl⟩
        | cases role <;> first | rfl | cases h
  | @respond succeeds m =>
      refine ⟨[], [], by simp, by simp, ?_⟩
      cases succeeds <;> refine exchangeMove_hand hown trivial (funext fun role => ?_) hreply
        (fun role h => ?_) (by simp) (by simp) <;> cases role <;> first | rfl | exact h
  | @assistant step m call call' store hstep =>
      exact ⟨[], call'.committed, by simp, rfl,
        exchangeMove_assistant hw.distinct hown hshaped hstep⟩
  | @publishReply succeeds m r =>
      have hrole : r.role = .assistant := (hreply r rfl).1.1
      refine ⟨[r], [], rfl, by simp, ?_⟩
      cases succeeds <;> refine exchangeMove_hand hown trivial (funext fun role => ?_) hreply
        (fun role h => ?_) (fun x hx => ?_) (by simp) <;>
        first
        | rw [List.mem_singleton.1 hx, hrole]; exact ⟨rfl, rfl, rfl⟩
        | cases role <;> rfl
  | cancelPublish | cancelRespond | cancelReply =>
      refine ⟨[], [], by simp, by simp, exchangeMove_hand hown trivial (funext fun role => ?_) hreply
        (fun role h => ?_) (by simp) (by simp)⟩ <;> cases role <;> rfl

end Step

/-! ## The invariant -/

/-- One more entry whose tag is new keeps the tags of a log apart. -/
theorem nodup_map_append {α β : Type*} {f : α → β} {log new : List α} (h : (log.map f).Nodup)
    (hlength : new.length ≤ 1) (hnew : ∀ x ∈ new, ∀ y ∈ log, f y ≠ f x) :
    ((log ++ new).map f).Nodup := by
  rw [List.map_append]
  cases new with
  | nil => simpa using h
  | cons x rest =>
      obtain rfl : rest = [] := by simpa using hlength
      refine List.nodup_append.2 ⟨h, by simp, fun a ha b hb => ?_⟩
      obtain ⟨y, hy, rfl⟩ := List.mem_map.1 ha
      rw [List.map_singleton, List.mem_singleton] at hb
      rw [hb]
      exact hnew x List.mem_cons_self y hy

section Invariant

variable {request : ι → SendRequest} {w : ExchangeWorld ι} {i : ι} {T' : Table ι Message}
  {l' : ExchangeCall} {handed replied : List Message}

/-- What a call has committed is still what it has committed. -/
theorem ExchangeMove.sent_update
    (h : ExchangeMove request i w.shared.store.messages T' (w.proc i) l' handed replied) {j : ι}
    (role : MessageRole) {m : Message} (hm : (w.proc j).sent role = some m) :
    (Function.update w.proc i l' j).sent role = some m := by
  rcases eq_or_ne j i with rfl | hj
  · rw [Function.update_self]
    exact h.keeps role m hm
  · rwa [Function.update_of_ne hj]

theorem ExchangeMove.toHand_update
    (h : ExchangeMove request i w.shared.store.messages T' (w.proc i) l' handed replied) {j : ι}
    {role : MessageRole} (hrole : (w.proc j).toHand role = false) :
    (Function.update w.proc i l' j).toHand role = false := by
  rcases eq_or_ne j i with rfl | hj
  · rw [Function.update_self]
    exact h.hands role hrole
  · rwa [Function.update_of_ne hj]

theorem ExchangeInv.created_update (hw : ExchangeInv request w)
    (h : ExchangeMove request i w.shared.store.messages T' (w.proc i) l' handed replied) :
    ∀ j m, (Function.update w.proc i l' j).created = some m →
      m ∈ T'.rows ∧ (request j).Sends m := by
  have hrows := h.effect.rows_subset hw.distinct
  refine (Function.forall_update_iff w.proc fun j l => ∀ m, l.created = some m →
    m ∈ T'.rows ∧ (request j).Sends m).2 ⟨fun m hm => ?_, fun j _ m hm => ?_⟩
  · rcases h.creates m hm with hm | ⟨hmem, hsends, -⟩
    · exact (hw.created i m hm).imp_left (hrows ·)
    · exact ⟨hmem, hsends⟩
  · exact (hw.created j m hm).imp_left (hrows ·)

theorem ExchangeInv.reply_update (hw : ExchangeInv request w)
    (h : ExchangeMove request i w.shared.store.messages T' (w.proc i) l' handed replied) :
    ∀ j r, (Function.update w.proc i l' j).reply = some r →
      (r.IsReply ∧ (Function.update w.proc i l' j).created.isSome = true) ∧
        (j, r) ∈ w.shared.replies ++ replied.map fun r => (i, r) := by
  refine (Function.forall_update_iff w.proc fun j l => ∀ r, l.reply = some r →
    (r.IsReply ∧ l.created.isSome = true) ∧
      (j, r) ∈ w.shared.replies ++ replied.map fun r => (i, r)).2
    ⟨fun r hr => ?_, fun j _ r hr => ?_⟩
  · obtain ⟨hspec, hold | hnew⟩ := h.replies r hr
    · exact ⟨hspec, List.mem_append_left _ (hw.reply i r hold).2⟩
    · exact ⟨hspec, List.mem_append_right _ (List.mem_map_of_mem hnew)⟩
  · exact (hw.reply j r hr).imp_right (List.mem_append_left _)

theorem ExchangeInv.apart_update (hw : ExchangeInv request w)
    (h : ExchangeMove request i w.shared.store.messages T' (w.proc i) l' handed replied) :
    ∀ j k m m', j ≠ k → (Function.update w.proc i l' j).created = some m →
      (Function.update w.proc i l' k).created = some m' → Message.clash m m' = false := by
  -- A newly created message clashes with none that another call has created.
  have hnew : ∀ j m m', j ≠ i → l'.created = some m → (w.proc j).created = some m' →
      Message.clash m' m = false := by
    intro j m m' hj hm hm'
    rcases h.creates m hm with hm | ⟨-, -, hclash⟩
    · exact hw.apart j i m' m hj hm' hm
    · exact hclash m' (hw.created j m' hm').1
  intro j k m m' hjk hm hm'
  rcases eq_or_ne j i with rfl | hj
  · rw [Function.update_self] at hm
    rw [Function.update_of_ne hjk.symm] at hm'
    rw [Message.clash_comm]
    exact hnew k m m' hjk.symm hm hm'
  · rw [Function.update_of_ne hj] at hm
    rcases eq_or_ne k i with rfl | hk
    · rw [Function.update_self] at hm'
      exact hnew j m' m hj hm' hm
    · rw [Function.update_of_ne hk] at hm'
      exact hw.apart j k m m' hjk hm hm'

/-- A call hands over one message of each role. -/
theorem ExchangeInv.handedOnce_append (hw : ExchangeInv request w)
    (h : ExchangeMove request i w.shared.store.messages T' (w.proc i) l' handed replied) :
    ((w.shared.broadcasts ++ handed.map fun m => (i, m)).map fun b => (b.1, b.2.role)).Nodup := by
  refine nodup_map_append hw.handedOnce (by simpa using h.handed_length) fun x hx b hb he => ?_
  obtain ⟨m, hm, rfl⟩ := List.mem_map.1 hx
  obtain ⟨hcall, hrole⟩ := Prod.mk.inj he
  have hdone := (hw.handed b hb).1
  rw [hcall, hrole, (h.handed_spec m hm).1] at hdone
  cases hdone

theorem ExchangeInv.repliedOnce_append (hw : ExchangeInv request w)
    (h : ExchangeMove request i w.shared.store.messages T' (w.proc i) l' handed replied) :
    ((w.shared.replies ++ replied.map fun r => (i, r)).map Prod.fst).Nodup := by
  refine nodup_map_append hw.repliedOnce (by simpa using h.replied_length) fun x hx b hb he => ?_
  obtain ⟨r, hr, rfl⟩ := List.mem_map.1 hx
  have hcall : b.1 = i := he
  have hdone := (hw.replied b hb).1
  rw [hcall, (h.replied_spec r hr).1] at hdone
  cases hdone

end Invariant

theorem exchangeInv_step {request : ι → SendRequest} {w : ExchangeWorld ι}
    (hw : ExchangeInv request w) {i : ι} {c : ExchangeStep} {s' : Chat ι} {l' : ExchangeCall}
    (h : MessageExchange.exchange request i c w.shared (w.proc i) = some (s', l')) :
    ExchangeInv request ⟨s', Function.update w.proc i l'⟩ := by
  obtain ⟨handed, replied, hbroadcasts, hreplies, hmove⟩ := exchange_move hw h
  refine ⟨hmove.effect.distinct hw.distinct, hmove.effect.own_update hmove.own hw.own, ?_,
    hw.created_update hmove, ?_, hw.apart_update hmove, fun b hb => ?_, ?_, fun b hb => ?_, ?_⟩
  · exact (Function.forall_update_iff w.proc fun j l => l.Shaped (request j)).2
      ⟨hmove.shaped, fun j _ => hw.shaped j⟩
  · rw [hreplies]
    exact hw.reply_update hmove
  · -- what was handed over before stays so, and this step's message was still to be handed over
    rw [hbroadcasts, List.mem_append] at hb
    rcases hb with hb | hb
    · exact (hw.handed b hb).imp hmove.toHand_update (hmove.sent_update _)
    · obtain ⟨m, hm, rfl⟩ := List.mem_map.1 hb
      simpa only [Function.update_self] using (hmove.handed_spec m hm).2
  · rw [hbroadcasts]
    exact hw.handedOnce_append hmove
  · rw [hreplies, List.mem_append] at hb
    rcases hb with hb | hb
    · exact (hw.replied b hb).imp (hmove.sent_update .assistant)
        (hmove.effect.rows_subset hw.distinct ·)
    · obtain ⟨r, hr, rfl⟩ := List.mem_map.1 hb
      simpa only [Function.update_self] using (hmove.replied_spec r hr).2
  · rw [hreplies]
    exact hw.repliedOnce_append hmove

theorem exchangeInv_init {request : ι → SendRequest} {rows : List Message} {lastSeq : Int}
    (hrows : rows.Pairwise fun a b => Message.clash a b = false) :
    ExchangeInv request (ExchangeWorld.init rows lastSeq) where
  distinct := by simpa [Table.Distinct, ExchangeWorld.init] using hrows
  own _ := rfl
  shaped _ := trivial
  created _ _ h := by cases h
  reply _ _ h := by cases h
  apart _ _ _ _ _ h := by cases h
  handed _ h := by cases h
  handedOnce := List.nodup_nil
  replied _ h := by cases h
  repliedOnce := List.nodup_nil

/-! ## The result -/

/-- The request carries the pair. -/
def SendRequest.carries (conversationId : ConversationId) (clientMessageId : ClientMessageId)
    (request : SendRequest) : Bool :=
  decide (request.conversationId = conversationId) &&
    decide (request.clientMessageId = some clientMessageId)

/-- What a client key has brought about: at most one stored message, handed over at most once, and
    at most one reply, persisted at most once and handed over at most once. -/
structure AtMostOnce (request : ι → SendRequest) (conversationId : ConversationId)
    (clientMessageId : ClientMessageId) (w : ExchangeWorld ι) : Prop where
  stored : (w.shared.store.messages.rows.filter
    (·.carries conversationId clientMessageId)).length ≤ 1
  handed : (w.shared.broadcasts.filter fun b =>
    b.2.carries conversationId clientMessageId).length ≤ 1
  persisted : (w.shared.replies.filter fun b =>
    (request b.1).carries conversationId clientMessageId).length ≤ 1
  replied : (w.shared.broadcasts.filter fun b => decide (b.2.role = .assistant) &&
    (request b.1).carries conversationId clientMessageId).length ≤ 1
  /-- What is handed over as the reply is what has been persisted as the reply. -/
  same : ∀ b ∈ w.shared.broadcasts, b.2.role = .assistant → b ∈ w.shared.replies

section Result

variable {request : ι → SendRequest} {conversationId : ConversationId}
  {clientMessageId : ClientMessageId}

/-- Everything handed over is committed. -/
theorem ExchangeInv.handed_committed {w : ExchangeWorld ι} (hw : ExchangeInv request w)
    {b : ι × Message} (hb : b ∈ w.shared.broadcasts) : b.2 ∈ w.shared.store.messages.rows := by
  have hsent := (hw.handed b hb).2
  cases hrole : b.2.role with
  | user =>
      rw [hrole] at hsent
      exact (hw.created b.1 b.2 hsent).1
  | assistant =>
      rw [hrole] at hsent
      exact (hw.replied _ (hw.reply b.1 b.2 hsent).2).2

/-- Two calls that have created messages with the pair are one call. -/
theorem ExchangeInv.creator_unique {w : ExchangeWorld ι} (hw : ExchangeInv request w) {i j : ι}
    {m m' : Message} (hi : (w.proc i).created = some m) (hj : (w.proc j).created = some m')
    (hm : m.carries conversationId clientMessageId = true)
    (hm' : m'.carries conversationId clientMessageId = true) : i = j := by
  by_contra hne
  have hclash := Message.clash_of_carries hm hm'
  rw [hw.apart i j m m' hne hi hj] at hclash
  cases hclash

/-- Two calls whose requests carry the pair and that have committed a reply are one call. -/
theorem ExchangeInv.replier_unique {w : ExchangeWorld ι} (hw : ExchangeInv request w) {i j : ι}
    {r r' : Message} (hi : (w.proc i).reply = some r) (hj : (w.proc j).reply = some r')
    (hri : (request i).carries conversationId clientMessageId = true)
    (hrj : (request j).carries conversationId clientMessageId = true) : i = j := by
  have hcarries : ∀ k r, (w.proc k).reply = some r →
      (request k).carries conversationId clientMessageId = true →
      ∃ m, (w.proc k).created = some m ∧ m.carries conversationId clientMessageId = true := by
    intro k r hk hrk
    obtain ⟨m, hm⟩ := Option.isSome_iff_exists.1 (hw.reply k r hk).1.2
    obtain ⟨_, _, hconv, hkey⟩ := hw.created k m hm
    exact ⟨m, hm, by simpa [Message.carries, SendRequest.carries, hconv, hkey] using hrk⟩
  obtain ⟨m, hm, hmc⟩ := hcarries i r hi hri
  obtain ⟨m', hm', hmc'⟩ := hcarries j r' hj hrj
  exact hw.creator_unique hm hm' hmc hmc'

/-- Entries that agree on a tag the log never repeats are at most one entry. -/
theorem length_filter_le_one {α β : Type*} {f : α → β} {log : List α} {p : α → Bool}
    (h : (log.map f).Nodup) (hp : ∀ x ∈ log, ∀ y ∈ log, p x = true → p y = true → f x = f y) :
    (log.filter p).length ≤ 1 := by
  have hnodup : ((log.filter p).map f).Nodup := h.sublist (List.filter_sublist.map f)
  have hmem : ∀ x ∈ log.filter p, x ∈ log ∧ p x = true := fun x hx => List.mem_filter.1 hx
  match hl : log.filter p with
  | [] => simp
  | [x] => simp
  | x :: y :: rest =>
      rw [hl] at hnodup hmem
      obtain ⟨hx, hpx⟩ := hmem x (by simp)
      obtain ⟨hy, hpy⟩ := hmem y (by simp)
      simp [hp x hx y hy hpx hpy] at hnodup

theorem ExchangeInv.atMostOnce {w : ExchangeWorld ι} (hw : ExchangeInv request w) :
    AtMostOnce request conversationId clientMessageId w where
  stored := by
    refine length_filter_le_one (f := id) ?_ fun x hx y hy hpx hpy =>
      hw.distinct.eq_of_clash Message.clash_comm hx hy (Message.clash_of_carries hpx hpy)
    rw [List.map_id]
    refine hw.distinct.rows.imp fun {a b} hclash he => ?_
    rw [he, Message.clash_of_id_eq b b rfl] at hclash
    cases hclash
  handed := by
    -- A message with a key is a user message: a reply is never given one.
    have huser : ∀ b ∈ w.shared.broadcasts, b.2.carries conversationId clientMessageId = true →
        b.2.role = .user := by
      intro b hb hcarries
      cases hrole : b.2.role with
      | user => rfl
      | assistant =>
          have hsent := (hw.handed b hb).2
          rw [hrole] at hsent
          simp [Message.carries, (hw.reply b.1 b.2 hsent).1.1.2] at hcarries
    refine length_filter_le_one hw.handedOnce fun x hx y hy hpx hpy => ?_
    have hx' := (hw.handed x hx).2
    have hy' := (hw.handed y hy).2
    rw [huser x hx hpx] at hx'
    rw [huser y hy hpy] at hy'
    rw [hw.creator_unique hx' hy' hpx hpy, huser x hx hpx, huser y hy hpy]
  persisted := by
    refine length_filter_le_one hw.repliedOnce fun x hx y hy hpx hpy => ?_
    exact hw.replier_unique (hw.replied x hx).1 (hw.replied y hy).1 hpx hpy
  replied := by
    refine length_filter_le_one hw.handedOnce fun x hx y hy hpx hpy => ?_
    simp only [Bool.and_eq_true, decide_eq_true_eq] at hpx hpy
    have hx' := (hw.handed x hx).2
    have hy' := (hw.handed y hy).2
    rw [hpx.1] at hx'
    rw [hpy.1] at hy'
    rw [hw.replier_unique hx' hy' hpx.2 hpy.2, hpx.1, hpy.1]
  same b hb hrole := by
    have hsent := (hw.handed b hb).2
    rw [hrole] at hsent
    exact (hw.reply b.1 b.2 hsent).2

end Result

/-- Whatever the interleaving and whatever fails, a client key has its effects at most once. -/
theorem exchange_atMostOnce (request : ι → SendRequest) (rows : List Message) (lastSeq : Int)
    (hrows : rows.Pairwise fun a b => Message.clash a b = false)
    (es : List (ι × ExchangeStep)) (w : ExchangeWorld ι)
    (hrun : exec (World.move (MessageExchange.exchange request)) (ExchangeWorld.init rows lastSeq)
      es = some w)
    (conversationId : ConversationId) (clientMessageId : ClientMessageId) :
    AtMostOnce request conversationId clientMessageId w := by
  have hinv : ExchangeInv request w :=
    World.exec_invariant_of_program (I := ExchangeInv request)
      (fun _ _ _ _ _ hw h => exchangeInv_step hw h) (exchangeInv_init hrows) hrun
  exact hinv.atMostOnce

/-- The first call loses its reply to a failing responder; the retry finds the stored message. -/
def failedThenRetried : List (Bool × ExchangeStep) :=
  [(false, .user (.readConversation (some helloConversation))), (false, .user .findExisting),
    (false, .user (.draw ⟨5, 0⟩)), (false, .user .flush), (false, .user .commit),
    (false, .publish true), (false, .respond false),
    (true, .user (.readConversation (some helloConversation))), (true, .user .findExisting),
    (true, .user .commit)]

theorem exchange_atMostOnce_retried :
    ∃ w, exec (World.move (MessageExchange.exchange fun _ : Bool => helloRequest))
        (ExchangeWorld.init [] 0) failedThenRetried = some w ∧
      w.shared.broadcasts.length = 1 ∧ AtMostOnce (fun _ => helloRequest) ⟨1⟩ ⟨77⟩ w := by
  obtain ⟨w, hrun, hlength⟩ := exec_reaches (World.move (MessageExchange.exchange fun _ : Bool =>
    helloRequest)) (ExchangeWorld.init [] 0) failedThenRetried
    (fun w => w.shared.broadcasts.length = 1) (by decide)
  exact ⟨w, hrun, hlength, exchange_atMostOnce (fun _ => helloRequest) [] 0 List.Pairwise.nil
    failedThenRetried w hrun ⟨1⟩ ⟨77⟩⟩

end Dizzchat
