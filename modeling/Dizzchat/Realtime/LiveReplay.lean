import Dizzchat.Messaging.ExchangeOutcome
import Dizzchat.Realtime.Protocol

set_option autoImplicit false

/-! # Live and replayed frames

A socket receives a message live as the writer has returned it, after the codec, and on replay as
`list_since` rebuilds it from its row. Both are turned into a `message.new` frame. -/

namespace Dizzchat

open Transition

variable {ι : Type*} [DecidableEq ι]

/-- The writer has returned the message to the call: a user message it has created or found, or the
    assistant message. -/
def ExchangeCall.Written (l : ExchangeCall) (m : Message) : Prop :=
  l.created = some m ∨ l.reply = some m ∨ l = .returned m none

/-- The rows of the `messages` table. -/
def storedModels (w : ExchangeWorld ι) : List MessageModel :=
  w.shared.store.messages.rows.map Message.model

theorem written_stored {request : ι → SendRequest} {w : ExchangeWorld ι}
    (hw : ExchangeInv request w) (hdone : AllDone request w) {i : ι} {m : Message}
    (hwritten : (w.proc i).Written m) : m ∈ w.shared.store.messages.rows := by
  rcases hwritten with hcreated | hreply | hreturned
  · exact (hw.created i m hcreated).1
  · exact (hw.replied _ (hw.reply i m hreply).2).2
  · have hfound := hdone i
    rw [hreturned] at hfound
    exact hfound.1

/-- A row stays, and its id stays its own. -/
theorem rows_stay {request : ι → SendRequest} {w w' : ExchangeWorld ι} {es : List (ι × ExchangeStep)}
    (hw : ExchangeInv request w) {m : Message} (hm : m ∈ w.shared.store.messages.rows)
    (hrun : exec (World.move (MessageExchange.exchange request)) w es = some w') :
    ExchangeInv request w' ∧ m ∈ w'.shared.store.messages.rows := by
  have hstep : ∀ (w : ExchangeWorld ι) (i : ι) (c : ExchangeStep) (s : Chat ι) (l : ExchangeCall),
      ExchangeInv request w ∧ m ∈ w.shared.store.messages.rows →
      MessageExchange.exchange request i c w.shared (w.proc i) = some (s, l) →
      ExchangeInv request ⟨s, Function.update w.proc i l⟩ ∧ m ∈ s.store.messages.rows := by
    intro w i c s l hw h
    obtain ⟨_, _, _, _, hmove⟩ := exchange_move hw.1 h
    exact ⟨exchangeInv_step hw.1 h, hmove.effect.rows_subset hw.1.distinct hw.2⟩
  exact World.exec_invariant_of_program
    (I := fun w => ExchangeInv request w ∧ m ∈ w.shared.store.messages.rows) hstep ⟨hw, hm⟩ hrun

/-- A page of `list_since` comes as far as the message, which is one of its conversation beyond its
    cursor: the page is not full, or it goes on to the id. -/
def Message.ReachedBy (m : Message) (conversationId : ConversationId) (after : Option MessageId)
    (limit : ℕ) (page : List Message) : Prop :=
  (m.conversationId = conversationId ∧ m.isAfter after = true) ∧
    (page.length < limit ∨ ∃ x ∈ page, m.id.value ≤ x.id.value)

/-- A page that comes as far as a committed message has it. -/
theorem mem_of_reachedBy {rows : List Message}
    (hinj : ∀ a ∈ rows, ∀ b ∈ rows, a.id = b.id → a = b) {m : Message} (hm : m ∈ rows)
    {conversationId : ConversationId} {after : Option MessageId} {limit : ℕ}
    (h : m.ReachedBy conversationId after limit
      (MessageRepository.listSince conversationId after limit rows)) :
    m ∈ MessageRepository.listSince conversationId after limit rows := by
  obtain ⟨⟨hconv, hafter⟩, hreached⟩ := h
  rcases mem_listSince_or_isAfter limit hinj hm hconv hafter with hin | ⟨hfull, hbeyond⟩
  · exact hin
  · exfalso
    rcases hreached with hshort | ⟨x, hx, hle⟩
    · omega
    · have hlt := Message.isAfter_some.1 (hbeyond x hx)
      omega

/-- A message that the writer has returned reaches a socket as one frame, whether it comes live or is
    read by `list_since` at any later moment; and it is read by every page that comes as far as its
    row. -/
theorem liveAndReplayed_agree {request : ι → SendRequest} {lastSeq : Int}
    {es es' : List (ι × ExchangeStep)} {w w' : ExchangeWorld ι}
    (hrun : exec (World.move (MessageExchange.exchange request)) (ExchangeWorld.init [] lastSeq)
      es = some w) {i : ι} {m : Message} (hwritten : (w.proc i).Written m)
    (hclock : m.createdAt.Valid)
    (hlater : exec (World.move (MessageExchange.exchange request)) w es' = some w')
    (conversationId : ConversationId) (after : Option MessageId) (limit : ℕ) :
    ∃ live page, MessageCodec.decode (MessageCodec.encode m) = some live ∧
      SqlAlchemyMessageRepository.listSince conversationId after limit (storedModels w') = some page ∧
      (∀ x ∈ page, x.id = m.id → Protocol.messageNew live = Protocol.messageNew x) ∧
      (m.ReachedBy conversationId after limit page → ∃ x ∈ page, x.id = m.id) := by
  obtain ⟨hw, hdone⟩ := exchange_invariants List.Pairwise.nil hrun
  obtain ⟨hw', hstored⟩ := rows_stay hw (written_stored hw hdone hwritten) hlater
  have hinj : ∀ a ∈ w'.shared.store.messages.rows, ∀ b ∈ w'.shared.store.messages.rows,
      a.id = b.id → a = b := fun a ha b hb hid =>
    hw'.distinct.eq_of_clash Message.clash_comm ha hb (Message.clash_of_id_eq a b hid)
  refine ⟨m, _, MessageCodec.decode_encode hclock, listSince_models conversationId after limit _, ?_,
    fun hreached => ⟨m, mem_of_reachedBy hinj hstored hreached, rfl⟩⟩
  intro x hx hid
  have hrow : x ∈ w'.shared.store.messages.rows := by
    have hread := (Keyset.mem_of_mem_page hx).1
    exact (List.mem_filter.1 hread).1
  rw [hinj x hrow m hstored hid]

/-! ## A message and its reply -/

def greetingRun : List (Unit × ExchangeStep) :=
  [((), .user (.readConversation (some helloConversation))), ((), .user .findExisting),
    ((), .user (.draw ⟨1704067200000000, 0⟩)), ((), .user .flush), ((), .user .commit)]

/-- The row of a first message is on the first page of a replay, and its frame is the live one. -/
theorem liveAndReplayed_agree_greeting :
    ∃ w : ExchangeWorld Unit,
      (storedModels w).map MessageModel.content = ["hello"] ∧
      ∃ live page,
        MessageCodec.decode (MessageCodec.encode
          (PostMessage.userMessage helloRequest 1 ⟨1704067200000000, 0⟩)) = some live ∧
        SqlAlchemyMessageRepository.listSince ⟨1⟩ none 500 (storedModels w) = some page ∧
        ∃ x ∈ page, x.id = ⟨1⟩ ∧ Protocol.messageNew live = Protocol.messageNew x := by
  obtain ⟨w, hrun, hcreated, hmodels⟩ := exec_reaches
    (World.move (MessageExchange.exchange fun _ : Unit => helloRequest))
    (ExchangeWorld.init [] 0) greetingRun
    (fun w => (w.proc ()).created =
        some (PostMessage.userMessage helloRequest 1 ⟨1704067200000000, 0⟩) ∧
      (storedModels w).map MessageModel.content = ["hello"]) (by decide)
  have hlater : exec (World.move (MessageExchange.exchange fun _ : Unit => helloRequest)) w [] =
      some w := rfl
  obtain ⟨live, page, hlive, hpage, hframes, hheld⟩ :=
    liveAndReplayed_agree hrun (.inl hcreated) (by decide) hlater ⟨1⟩ none 500
  -- one row is not a full page
  have hshort : page.length < 500 := by
    have hrows : w.shared.store.messages.rows.length = 1 := by
      have hone := congrArg List.length hmodels
      rwa [List.length_map, storedModels, List.length_map] at hone
    have hread : MessageRepository.listSince ⟨1⟩ none 500 w.shared.store.messages.rows = page :=
      Option.some.inj ((listSince_models _ _ _ _).symm.trans hpage)
    have hle : page.length ≤ w.shared.store.messages.rows.length := by
      rw [← hread]
      exact (Keyset.length_page_le _ _ _).trans (List.length_filter_le _ _)
    omega
  obtain ⟨x, hx, hid⟩ := hheld ⟨⟨rfl, rfl⟩, .inl hshort⟩
  exact ⟨w, hmodels, live, page, hlive, hpage, x, hx, hid, hframes x hx hid⟩

end Dizzchat
