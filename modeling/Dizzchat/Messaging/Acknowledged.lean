import Dizzchat.Messaging.ExchangeOutcome

set_option autoImplicit false

/-! # Whose message is acknowledged

An `exchange` call returns the message it has stored, or the one it has found under its client key. A
key names one message of a conversation, whoever has sent it: the lookup does not ask for the sender.
`AuthorInv` follows every stored message to the call that has created it. -/

namespace Dizzchat

open Transition

variable {ι : Type*} [DecidableEq ι]

/-- The message is the one `create` makes of the request. -/
def SendRequest.Wrote (request : SendRequest) (message : Message) : Prop :=
  ∃ id now, message = PostMessage.userMessage request id now

/-- What a call holds as its own message is its own; it finds a message only under a key. -/
def ExchangeCall.Authored (request : SendRequest) : ExchangeCall → Prop
  | .writing (.drawn m) | .writing (.flushed m) | .publishing m | .responding m | .replying m _
  | .publishingReply m _ | .returned m (some _) | .raised _ (some m) _ => request.Wrote m
  | .writing (.found _) | .returned _ none => request.clientMessageId ≠ none
  | _ => True

/-- Every stored message is one that a call has created, or a reply. -/
structure AuthorInv (request : ι → SendRequest) (w : ExchangeWorld ι) : Prop where
  calls : ∀ i, (w.proc i).Authored (request i)
  rows : ∀ m ∈ w.shared.store.messages.rows,
    (∃ j, (w.proc j).created = some m) ∨ m.IsReply

section Step

variable {request : ι → SendRequest} {w : ExchangeWorld ι} {i : ι}

theorem authored_user {c : FromUserStep} {s s' : MessageStore ι} {call call' : FromUserCall}
    (h : FromUserMove request i s c call s' call')
    (hauthored : (ExchangeCall.writing call).Authored (request i)) :
    (ExchangeCall.afterUser call').Authored (request i) := by
  cases h with
  | drawn now => exact ⟨_, now, rfl⟩
  | found hkey =>
      show (request i).clientMessageId ≠ none
      rw [hkey]
      simp
  | flushed | returnedExisting | returnedCreated => exact hauthored
  | rejected | admitted | keyless | missed | duplicate | failed => trivial

theorem authored_step {c : ExchangeStep} {s s' : Chat ι} {l l' : ExchangeCall}
    (h : ExchangeCase request i s c l s' l') (hauthored : l.Authored (request i)) :
    l'.Authored (request i) := by
  cases h with
  | user hstep => exact authored_user hstep hauthored
  | @publish succeeds => cases succeeds <;> exact hauthored
  | @respond succeeds => cases succeeds <;> exact hauthored
  | @assistant _ _ _ call' => cases call' <;> exact hauthored
  | @publishReply succeeds => cases succeeds <;> exact hauthored
  | cancelPublish | cancelRespond | cancelReply => exact hauthored

/-- A row that a step adds is the user message the call has created, or a reply. -/
theorem rows_step {c : ExchangeStep} {s' : Chat ι} {l' : ExchangeCall} (hw : ExchangeInv request w)
    (h : ExchangeCase request i w.shared c (w.proc i) s' l') {m : Message}
    (hm : m ∈ s'.store.messages.rows) :
    m ∈ w.shared.store.messages.rows ∨ l'.created = some m ∨ m.IsReply := by
  have hown := hw.own i
  have hshaped := hw.shaped i
  generalize w.proc i = l at h hown hshaped
  have hcommit : ∀ {T : Table ι Message}, T.Distinct Message.clash →
      m ∈ (T.commit Message.id i).rows → m ∈ T.rows ∨ m ∈ T.own i := by
    intro T hT hm
    rw [Table.commit_rows_of_distinct Message.clash_of_id_eq hT] at hm
    exact List.mem_append.1 hm
  cases h with
  | user hstep =>
      cases hstep with
      | rejected | admitted | keyless | found | missed | drawn | duplicate | returnedExisting | failed =>
          exact .inl hm
      | flushed hinsert =>
          obtain ⟨_, _, rfl⟩ := Table.insert_eq_done.1 hinsert
          exact .inl hm
      | returnedCreated =>
          rcases hcommit hw.distinct hm with hm | hm
          · exact .inl hm
          · rw [hown] at hm
            rw [List.mem_singleton.1 hm]
            exact .inr (.inl rfl)
  | assistant hstep =>
      cases hstep with
      | drawn | duplicate | failed => exact .inl hm
      | flushed hinsert =>
          obtain ⟨_, _, rfl⟩ := Table.insert_eq_done.1 hinsert
          exact .inl hm
      | returned =>
          rcases hcommit hw.distinct hm with hm | hm
          · exact .inl hm
          · rw [hown] at hm
            rw [List.mem_singleton.1 hm]
            exact .inr (.inr hshaped)
  | publish | respond | publishReply | cancelPublish | cancelRespond | cancelReply => exact .inl hm

theorem authorInv_step (hw : ExchangeInv request w) (hauthor : AuthorInv request w)
    {c : ExchangeStep} {s' : Chat ι} {l' : ExchangeCall}
    (h : MessageExchange.exchange request i c w.shared (w.proc i) = some (s', l')) :
    AuthorInv request ⟨s', Function.update w.proc i l'⟩ := by
  obtain ⟨handed, replied, -, -, hmove⟩ := exchange_move hw h
  have hcase := exchange_case h
  constructor
  · exact (Function.forall_update_iff w.proc fun j l => l.Authored (request j)).2
      ⟨authored_step hcase (hauthor.calls i), fun j _ => hauthor.calls j⟩
  · intro m hm
    rcases rows_step hw hcase hm with hm | hcreated | hreply
    · rcases hauthor.rows m hm with ⟨j, hj⟩ | hreply
      · exact .inl ⟨j, hmove.sent_update .user hj⟩
      · exact .inr hreply
    · left
      refine ⟨i, ?_⟩
      simpa only [Function.update_self] using hcreated
    · exact .inr hreply

end Step

theorem author_invariants {request : ι → SendRequest} {lastSeq : Int} {es : List (ι × ExchangeStep)}
    {w : ExchangeWorld ι}
    (hrun : exec (World.move (MessageExchange.exchange request)) (ExchangeWorld.init [] lastSeq)
      es = some w) : ExchangeInv request w ∧ AuthorInv request w :=
  World.exec_invariant_of_program (I := fun w => ExchangeInv request w ∧ AuthorInv request w)
    (fun _ _ _ _ _ hw h => ⟨exchangeInv_step hw.1 h, authorInv_step hw.1 hw.2 h⟩)
    ⟨exchangeInv_init List.Pairwise.nil, ⟨fun _ => trivial, fun _ hm => absurd hm List.not_mem_nil⟩⟩
    hrun

theorem authored_created {request : SendRequest} {l : ExchangeCall} {m : Message}
    (hauthored : l.Authored request) (hcreated : l.created = some m) : request.Wrote m := by
  cases l with
  | writing call => cases hcreated
  | returned message reply =>
      cases reply with
      | none => cases hcreated
      | some r =>
          cases hcreated
          exact hauthored
  | raised error stored reply =>
      obtain rfl : stored = some m := hcreated
      exact hauthored
  | publishing | responding | replying | publishingReply =>
      cases hcreated
      exact hauthored

/-- What an acknowledgement stands for: a stored user message of the conversation under the client key
    of the call. It is the call's own, or the one message stored under that key before, by whichever
    participant has used the key first. -/
structure Acknowledged (request : ι → SendRequest) (w : ExchangeWorld ι) (i : ι) (m : Message) :
    Prop where
  stored : m ∈ w.shared.store.messages.rows
  role : m.role = .user
  conversation : m.conversationId = (request i).conversationId
  key : m.clientMessageId = (request i).clientMessageId
  author : (request i).Wrote m ∨ ∃ key, (request i).clientMessageId = some key ∧
    (∀ x ∈ w.shared.store.messages.rows, x.carries (request i).conversationId key = true → x = m) ∧
    ∃ j, j ≠ i ∧ (w.proc j).created = some m ∧ (request j).Wrote m
  sender : m.senderId = some (request i).senderId ∨
    ∃ j, (w.proc j).created = some m ∧ (request j).senderId ≠ (request i).senderId

/-- An acknowledged message is the caller's own unless another participant's message is stored under
    the same conversation and client key. -/
theorem exchange_acknowledged {request : ι → SendRequest} {lastSeq : Int}
    {es : List (ι × ExchangeStep)} {w : ExchangeWorld ι}
    (hrun : exec (World.move (MessageExchange.exchange request)) (ExchangeWorld.init [] lastSeq)
      es = some w) {i : ι} {m : Message} {reply : Option Message}
    (hreturned : w.proc i = .returned m reply) : Acknowledged request w i m := by
  obtain ⟨hw, hauthor⟩ := author_invariants hrun
  have hdone := (exchange_invariants List.Pairwise.nil hrun).2 i
  have hmine := hauthor.calls i
  rw [hreturned] at hdone hmine
  cases reply with
  | some r =>
      have hcreated : (w.proc i).created = some m := by rw [hreturned]; rfl
      obtain ⟨hstored, hrole, hconversation, hkey⟩ := hw.created i m hcreated
      have hwrote : (request i).Wrote m := hmine
      refine ⟨hstored, hrole, hconversation, hkey, .inl hwrote, .inl ?_⟩
      obtain ⟨id, now, rfl⟩ := hwrote
      rfl
  | none =>
      obtain ⟨hstored, hconversation, hkey⟩ := hdone
      obtain ⟨key, hkeyed⟩ := Option.ne_none_iff_exists'.1 hmine
      have hcarries : m.carries (request i).conversationId key = true :=
        Message.carries_iff.2 ⟨hconversation, hkey.trans hkeyed⟩
      -- a reply carries no key, so a call has created the message
      have hcreated : ∃ j, (w.proc j).created = some m := by
        rcases hauthor.rows m hstored with hcreated | hreply
        · exact hcreated
        · rw [hreply.2, hkeyed] at hkey
          cases hkey
      obtain ⟨j, hj⟩ := hcreated
      have hwrote := authored_created (hauthor.calls j) hj
      have hother : j ≠ i := by
        rintro rfl
        rw [hreturned] at hj
        cases hj
      refine ⟨hstored, (hw.created j m hj).2.1, hconversation, hkey,
        .inr ⟨key, hkeyed, fun x hx hcarried => ?_, j, hother, hj, hwrote⟩, ?_⟩
      · exact hw.distinct.eq_of_clash Message.clash_comm hx hstored
          (Message.clash_of_carries hcarried hcarries)
      · by_cases hsender : (request j).senderId = (request i).senderId
        · left
          obtain ⟨id, now, rfl⟩ := hwrote
          rw [← hsender]
          rfl
        · exact .inr ⟨j, hj, hsender⟩

/-! ## One key, two senders -/

/-- Two participants send different messages under one key. -/
def sameKeySends (i : Bool) : SendRequest :=
  if i then { helloRequest with senderId := ⟨20⟩, content := ⟨"mine", by decide⟩ } else helloRequest

def sameKeyRun : List (Bool × ExchangeStep) :=
  let conversation := { helloConversation with participantIds := {⟨10⟩, ⟨20⟩} }
  [(false, .user (.readConversation (some conversation))), (false, .user .findExisting),
    (false, .user (.draw ⟨5, 0⟩)), (false, .user .flush), (false, .user .commit),
    (true, .user (.readConversation (some conversation))), (true, .user .findExisting),
    (true, .user .commit)]

/-- The second sender's call returns the first one's message, and stores nothing. -/
theorem exchange_acknowledgesOther :
    ∃ w, exec (World.move (MessageExchange.exchange sameKeySends)) (ExchangeWorld.init [] 0)
        sameKeyRun = some w ∧
      ∃ m, w.proc true = .returned m none ∧ m.senderId ≠ some (sameKeySends true).senderId := by
  obtain ⟨w, hrun, hreturned⟩ := exec_reaches (World.move (MessageExchange.exchange sameKeySends))
    (ExchangeWorld.init [] 0) sameKeyRun
    (fun w => w.proc true = .returned (PostMessage.userMessage helloRequest 1 ⟨5, 0⟩) none) (by decide)
  exact ⟨w, hrun, _, hreturned, by decide⟩

theorem exchange_acknowledged_sameKey :
    ∃ w m, w.proc true = .returned m none ∧ Acknowledged sameKeySends w true m := by
  obtain ⟨w, hrun, hreturned⟩ := exec_reaches (World.move (MessageExchange.exchange sameKeySends))
    (ExchangeWorld.init [] 0) sameKeyRun
    (fun w => w.proc true = .returned (PostMessage.userMessage helloRequest 1 ⟨5, 0⟩) none) (by decide)
  exact ⟨w, _, hreturned, exchange_acknowledged hrun hreturned⟩

end Dizzchat
