import Dizzchat.Messaging.Message
import Dizzchat.Transition.Run
import Dizzchat.Transition.Table

set_option autoImplicit false

/-! # Writing a message

`SessionScopedMessageWriter.from_user` and `from_assistant`, each one transaction around the
matching method of `PostMessage`, cut at the statements they send to the database. An `INSERT`
draws its sequence number first and then may wait for another open transaction; a number once drawn
is not drawn again, whatever becomes of the transaction.

The conversation a call reads is an input of the step: what else happens to the conversation is
not part of this world. -/

namespace Dizzchat

open Transition

/-- The `messages` table and the sequence behind its ids. -/
structure MessageStore (τ : Type*) where
  messages : Table τ Message
  lastSeq : Int

/-- The arguments of one `from_user` call. -/
structure SendRequest where
  conversationId : ConversationId
  senderId : SenderId
  content : MessageContent
  clientMessageId : Option ClientMessageId
deriving DecidableEq

/-- What a write can raise: a domain error, the violation of a unique constraint, or whatever else
    ends a transaction. -/
inductive WriteError
  | messaging (error : MessagingError)
  | integrityError
  | failed
deriving DecidableEq

/-! ## `from_user` -/

/-- The check `PostMessage.from_user` makes on the conversation it reads. -/
def PostMessage.ensureMayPost (request : SendRequest) (conversation : Option Conversation) :
    Except MessagingError Unit :=
  match conversation with
  | none => .error (.conversationNotFound request.conversationId)
  | some conversation => conversation.ensureParticipant ⟨request.senderId.value⟩

/-- The row `PostMessage.from_user` creates. -/
def PostMessage.userMessage (request : SendRequest) (id : Int) (now : Datetime) : Message where
  id := ⟨id⟩
  conversationId := request.conversationId
  senderId := some request.senderId
  role := .user
  content := request.content
  createdAt := now
  clientMessageId := request.clientMessageId

/-- How far a `from_user` call has come. -/
inductive FromUserCall
  | started
  /-- The conversation was read and the sender may post. -/
  | admitted
  /-- The pre-flight lookup found no row under the key, or there is no key. -/
  | missed
  | found (message : Message)
  /-- The `INSERT` has its sequence number. -/
  | drawn (message : Message)
  | flushed (message : Message)
  | returned (message : Message) (created : Bool)
  | raised (error : WriteError)
deriving DecidableEq

inductive FromUserStep
  | readConversation (conversation : Option Conversation)
  | findExisting
  | draw (now : Datetime)
  | flush
  | commit
  /-- Anything the call is waiting for raises; its transaction is rolled back. -/
  | fail
deriving DecidableEq

variable {ι : Type*} [DecidableEq ι]

/-- `SessionScopedMessageWriter.from_user` by call `i`. -/
def SessionScopedMessageWriter.fromUser (request : ι → SendRequest) (i : ι) :
    FromUserStep → MessageStore ι → FromUserCall → Option (MessageStore ι × FromUserCall)
  | .readConversation conversation, s, .started =>
      match PostMessage.ensureMayPost (request i) conversation with
      | .error e => some (s, .raised (.messaging e))
      | .ok () => some (s, .admitted)
  | .findExisting, s, .admitted =>
      match (request i).clientMessageId with
      | none => some (s, .missed)
      | some key =>
          match MessageRepository.findByClientMessageId (request i).conversationId key
              s.messages.rows with
          | some existing => some (s, .found existing)
          | none => some (s, .missed)
  | .draw now, s, .missed =>
      some ({ s with lastSeq := s.lastSeq + 1 },
        .drawn (PostMessage.userMessage (request i) (s.lastSeq + 1) now))
  | .flush, s, .drawn message =>
      match s.messages.insert Message.clash i message with
      | .blocked => none
      | .duplicate => some (s, .raised .integrityError)
      | .done messages => some ({ s with messages }, .flushed message)
  | .commit, s, .found message => some (s, .returned message false)
  | .commit, s, .flushed message =>
      some ({ s with messages := s.messages.commit Message.id i }, .returned message true)
  | .fail, s, .started | .fail, s, .admitted | .fail, s, .missed | .fail, s, .found _
  | .fail, s, .drawn _ | .fail, s, .flushed _ =>
      some ({ s with messages := s.messages.rollback i }, .raised .failed)
  | _, _, _ => none

/-! ## `from_assistant` -/

/-- The row `PostMessage.from_assistant` creates. -/
def PostMessage.assistantMessage (conversationId : ConversationId) (content : MessageContent)
    (id : Int) (now : Datetime) : Message where
  id := ⟨id⟩
  conversationId := conversationId
  senderId := none
  role := .assistant
  content := content
  createdAt := now

inductive FromAssistantCall
  | started (content : MessageContent)
  | drawn (message : Message)
  | flushed (message : Message)
  | returned (message : Message)
  | raised (error : WriteError)
deriving DecidableEq

inductive FromAssistantStep
  | draw (now : Datetime)
  | flush
  | commit
  | fail
deriving DecidableEq

/-- `SessionScopedMessageWriter.from_assistant` by call `i`. -/
def SessionScopedMessageWriter.fromAssistant (conversationId : ι → ConversationId) (i : ι) :
    FromAssistantStep → MessageStore ι → FromAssistantCall →
      Option (MessageStore ι × FromAssistantCall)
  | .draw now, s, .started content =>
      some ({ s with lastSeq := s.lastSeq + 1 },
        .drawn (PostMessage.assistantMessage (conversationId i) content (s.lastSeq + 1) now))
  | .flush, s, .drawn message =>
      match s.messages.insert Message.clash i message with
      | .blocked => none
      | .duplicate => some (s, .raised .integrityError)
      | .done messages => some ({ s with messages }, .flushed message)
  | .commit, s, .flushed message =>
      some ({ s with messages := s.messages.commit Message.id i }, .returned message)
  | .fail, s, .started _ | .fail, s, .drawn _ | .fail, s, .flushed _ =>
      some ({ s with messages := s.messages.rollback i }, .raised .failed)
  | _, _, _ => none

/-! ## What a step can do -/

/-- The call is under way: something it waits for can still fail. -/
def FromUserCall.running : FromUserCall → Bool
  | .returned .. | .raised _ => false
  | .started | .admitted | .missed | .found _ | .drawn _ | .flushed _ => true

def FromAssistantCall.running : FromAssistantCall → Bool
  | .returned _ | .raised _ => false
  | .started _ | .drawn _ | .flushed _ => true

/-- The steps of a `from_user` call, one constructor for each. -/
inductive FromUserMove (request : ι → SendRequest) (i : ι) (s : MessageStore ι) :
    FromUserStep → FromUserCall → MessageStore ι → FromUserCall → Prop
  | rejected {conversation : Option Conversation} {e : MessagingError}
      (h : PostMessage.ensureMayPost (request i) conversation = .error e) :
      FromUserMove request i s (.readConversation conversation) .started s (.raised (.messaging e))
  | admitted {conversation : Option Conversation}
      (h : PostMessage.ensureMayPost (request i) conversation = .ok ()) :
      FromUserMove request i s (.readConversation conversation) .started s .admitted
  | keyless (h : (request i).clientMessageId = none) :
      FromUserMove request i s .findExisting .admitted s .missed
  | found {key : ClientMessageId} {existing : Message}
      (hkey : (request i).clientMessageId = some key)
      (h : MessageRepository.findByClientMessageId (request i).conversationId key s.messages.rows =
        some existing) :
      FromUserMove request i s .findExisting .admitted s (.found existing)
  | missed {key : ClientMessageId} (hkey : (request i).clientMessageId = some key)
      (h : MessageRepository.findByClientMessageId (request i).conversationId key s.messages.rows =
        none) :
      FromUserMove request i s .findExisting .admitted s .missed
  | drawn (now : Datetime) :
      FromUserMove request i s (.draw now) .missed { s with lastSeq := s.lastSeq + 1 }
        (.drawn (PostMessage.userMessage (request i) (s.lastSeq + 1) now))
  | duplicate {message : Message} (h : s.messages.insert Message.clash i message = .duplicate) :
      FromUserMove request i s .flush (.drawn message) s (.raised .integrityError)
  | flushed {message : Message} {messages : Table ι Message}
      (h : s.messages.insert Message.clash i message = .done messages) :
      FromUserMove request i s .flush (.drawn message) { s with messages } (.flushed message)
  | returnedExisting {message : Message} :
      FromUserMove request i s .commit (.found message) s (.returned message false)
  | returnedCreated {message : Message} :
      FromUserMove request i s .commit (.flushed message)
        { s with messages := s.messages.commit Message.id i } (.returned message true)
  | failed {l : FromUserCall} (h : l.running = true) :
      FromUserMove request i s .fail l { s with messages := s.messages.rollback i }
        (.raised .failed)

theorem fromUser_move {request : ι → SendRequest} {i : ι} {c : FromUserStep} {s s' : MessageStore ι}
    {l l' : FromUserCall}
    (h : SessionScopedMessageWriter.fromUser request i c s l = some (s', l')) :
    FromUserMove request i s c l s' l' := by
  unfold SessionScopedMessageWriter.fromUser at h
  split at h
  · split at h
    · next he => cases h; exact .rejected he
    · next he => cases h; exact .admitted he
  · split at h
    · next hkey => cases h; exact .keyless hkey
    · next key hkey =>
        split at h
        · next hfind => cases h; exact .found hkey hfind
        · next hfind => cases h; exact .missed hkey hfind
  · cases h; exact .drawn _
  · split at h
    · cases h
    · next hins => cases h; exact .duplicate hins
    · next hins => cases h; exact .flushed hins
  · cases h; exact .returnedExisting
  · cases h; exact .returnedCreated
  all_goals cases h; try exact .failed rfl

/-- The steps of a `from_assistant` call. -/
inductive FromAssistantMove (conversationId : ι → ConversationId) (i : ι) (s : MessageStore ι) :
    FromAssistantStep → FromAssistantCall → MessageStore ι → FromAssistantCall → Prop
  | drawn (content : MessageContent) (now : Datetime) :
      FromAssistantMove conversationId i s (.draw now) (.started content)
        { s with lastSeq := s.lastSeq + 1 }
        (.drawn (PostMessage.assistantMessage (conversationId i) content (s.lastSeq + 1) now))
  | duplicate {message : Message} (h : s.messages.insert Message.clash i message = .duplicate) :
      FromAssistantMove conversationId i s .flush (.drawn message) s (.raised .integrityError)
  | flushed {message : Message} {messages : Table ι Message}
      (h : s.messages.insert Message.clash i message = .done messages) :
      FromAssistantMove conversationId i s .flush (.drawn message) { s with messages }
        (.flushed message)
  | returned {message : Message} :
      FromAssistantMove conversationId i s .commit (.flushed message)
        { s with messages := s.messages.commit Message.id i } (.returned message)
  | failed {l : FromAssistantCall} (h : l.running = true) :
      FromAssistantMove conversationId i s .fail l
        { s with messages := s.messages.rollback i } (.raised .failed)

theorem fromAssistant_move {conversationId : ι → ConversationId} {i : ι} {c : FromAssistantStep}
    {s s' : MessageStore ι} {l l' : FromAssistantCall}
    (h : SessionScopedMessageWriter.fromAssistant conversationId i c s l = some (s', l')) :
    FromAssistantMove conversationId i s c l s' l' := by
  unfold SessionScopedMessageWriter.fromAssistant at h
  split at h
  · cases h; exact .drawn _ _
  · split at h
    · cases h
    · next hins => cases h; exact .duplicate hins
    · next hins => cases h; exact .flushed hins
  · cases h; exact .returned
  all_goals cases h; try exact .failed rfl

/-! ## What a step does to the table -/

/-- The message a call has open. -/
def FromUserCall.images : FromUserCall → List Message
  | .flushed message => [message]
  | .started | .admitted | .missed | .found _ | .drawn _ | .returned .. | .raised _ => []

def FromAssistantCall.images : FromAssistantCall → List Message
  | .flushed message => [message]
  | .started _ | .drawn _ | .returned _ | .raised _ => []

/-- The things a step of a write of call `i` can do to the table. -/
inductive WriteEffect (i : ι) (T : Table ι Message) : Table ι Message → Prop
  | none : WriteEffect i T T
  | insert {T' : Table ι Message} (message : Message)
      (h : T.insert Message.clash i message = .done T') : WriteEffect i T T'
  | commit : WriteEffect i T (T.commit Message.id i)
  | rollback : WriteEffect i T (T.rollback i)

namespace WriteEffect

variable {i : ι} {T T' : Table ι Message}

theorem distinct (h : WriteEffect i T T') (hT : T.Distinct Message.clash) :
    T'.Distinct Message.clash := by
  cases h with
  | none => exact hT
  | insert message h => exact hT.insert h
  | commit => exact hT.commit Message.clash_of_id_eq Message.clash_comm i
  | rollback => exact hT.rollback i

theorem own_of_ne (h : WriteEffect i T T') {j : ι} (hj : j ≠ i) : T'.own j = T.own j := by
  cases h with
  | none => rfl
  | insert message h =>
      obtain ⟨_, _, rfl⟩ := Table.insert_eq_done.1 h
      rw [Table.own_write, if_neg (Ne.symm hj)]
  | commit => exact Table.own_commit_of_ne hj T
  | rollback => exact Table.own_rollback_of_ne hj T

/-- When every call knows its own open images, so it does after a step of one of them. -/
theorem own_update {ℓ : Type*} {images : ℓ → List Message} {proc : ι → ℓ} {l : ℓ}
    (h : WriteEffect i T T') (hi : T'.own i = images l) (hown : ∀ j, T.own j = images (proc j)) :
    ∀ j, T'.own j = images (Function.update proc i l j) := by
  refine (Function.forall_update_iff proc fun j l => T'.own j = images l).2 ⟨hi, fun j hj => ?_⟩
  rw [h.own_of_ne hj]
  exact hown j

theorem rows_subset (h : WriteEffect i T T') (hT : T.Distinct Message.clash) :
    T.rows ⊆ T'.rows := by
  cases h with
  | none | rollback => exact List.Subset.refl _
  | insert message h =>
      obtain ⟨_, _, rfl⟩ := Table.insert_eq_done.1 h
      exact List.Subset.refl _
  | commit =>
      rw [Table.commit_rows_of_distinct Message.clash_of_id_eq hT]
      exact List.subset_append_left _ _

end WriteEffect

theorem FromUserMove.effect {request : ι → SendRequest} {i : ι} {c : FromUserStep}
    {s s' : MessageStore ι} {l l' : FromUserCall} (h : FromUserMove request i s c l s' l') :
    WriteEffect i s.messages s'.messages := by
  cases h with
  | rejected | admitted | keyless | found | missed | drawn | duplicate | returnedExisting =>
      exact .none
  | flushed h => exact .insert _ h
  | returnedCreated => exact .commit
  | failed => exact .rollback

theorem FromUserMove.lastSeq_le {request : ι → SendRequest} {i : ι} {c : FromUserStep}
    {s s' : MessageStore ι} {l l' : FromUserCall} (h : FromUserMove request i s c l s' l') :
    s.lastSeq ≤ s'.lastSeq := by
  cases h with
  | drawn => exact Int.le_of_lt (Int.lt_succ _)
  | rejected | admitted | keyless | found | missed | duplicate | flushed | returnedExisting
  | returnedCreated | failed => exact Int.le_refl _

/-- What a call has open is what its own images in the table are. -/
theorem FromUserMove.own {request : ι → SendRequest} {i : ι} {c : FromUserStep}
    {s s' : MessageStore ι} {l l' : FromUserCall} (h : FromUserMove request i s c l s' l')
    (hown : s.messages.own i = l.images) : s'.messages.own i = l'.images := by
  cases h with
  | rejected | admitted | keyless | found | missed | drawn | duplicate | returnedExisting =>
      exact hown
  | flushed h =>
      obtain ⟨_, _, rfl⟩ := Table.insert_eq_done.1 h
      rw [Table.own_write, if_pos rfl, hown]
      rfl
  | returnedCreated => exact Table.own_commit_self i _
  | failed => exact Table.own_rollback_self i _

theorem FromAssistantMove.effect {conversationId : ι → ConversationId} {i : ι}
    {c : FromAssistantStep} {s s' : MessageStore ι} {l l' : FromAssistantCall}
    (h : FromAssistantMove conversationId i s c l s' l') :
    WriteEffect i s.messages s'.messages := by
  cases h with
  | drawn | duplicate => exact .none
  | flushed h => exact .insert _ h
  | returned => exact .commit
  | failed => exact .rollback

theorem FromAssistantMove.own {conversationId : ι → ConversationId} {i : ι}
    {c : FromAssistantStep} {s s' : MessageStore ι} {l l' : FromAssistantCall}
    (h : FromAssistantMove conversationId i s c l s' l')
    (hown : s.messages.own i = l.images) : s'.messages.own i = l'.images := by
  cases h with
  | drawn | duplicate => exact hown
  | flushed h =>
      obtain ⟨_, _, rfl⟩ := Table.insert_eq_done.1 h
      rw [Table.own_write, if_pos rfl, hown]
      rfl
  | returned => exact Table.own_commit_self i _
  | failed => exact Table.own_rollback_self i _

/-- A committed message joins the rows. -/
theorem mem_commit_of_own {i : ι} {T : Table ι Message} (hT : T.Distinct Message.clash)
    {message : Message} (h : message ∈ T.own i) : message ∈ (T.commit Message.id i).rows := by
  rw [Table.commit_rows_of_distinct Message.clash_of_id_eq hT]
  exact List.mem_append_right _ h

/-! ## A request -/

/-- The request of the runs evaluated on concrete inputs. -/
def helloRequest : SendRequest where
  conversationId := ⟨1⟩
  senderId := ⟨10⟩
  content := ⟨"hello", by decide⟩
  clientMessageId := some ⟨77⟩

def helloConversation : Conversation where
  id := ⟨1⟩
  ownerId := ⟨10⟩
  title := ⟨"Team", by decide, by decide, by decide⟩
  createdAt := ⟨0, 0⟩
  updatedAt := ⟨0, 0⟩
  participantIds := {⟨10⟩}

end Dizzchat
