import Dizzchat.Messaging.Exchange

set_option autoImplicit false

/-! # What an exchange that returns has done

An `exchange` call returns in two ways: as the call that stored the message, after both broadcasts
and the reply, or as a duplicate, as soon as it has found the stored message. `ExchangeCall.Done`
accounts for both. A retry of a call that failed after its commit is a duplicate: it is acknowledged
although what the failed call left undone stays undone. -/

namespace Dizzchat

open Transition

variable {ι : Type*} [DecidableEq ι]

/-! ## Accounting for a call -/

/-- What the store and the logs hold of call `i`. -/
def ExchangeCall.Done (request : SendRequest) (i : ι) (s : Chat ι) : ExchangeCall → Prop
  | .writing (.found m) | .returned m none => m ∈ s.store.messages.rows ∧
      m.conversationId = request.conversationId ∧ m.clientMessageId = request.clientMessageId
  | .responding m | .replying m _ => (i, m) ∈ s.broadcasts
  | .publishingReply m r => (i, m) ∈ s.broadcasts ∧ r ∈ s.store.messages.rows
  | .returned m (some r) =>
      (i, m) ∈ s.broadcasts ∧ (i, r) ∈ s.broadcasts ∧ r ∈ s.store.messages.rows
  | .writing _ | .publishing _ | .raised .. => True

omit [DecidableEq ι] in
theorem ExchangeCall.Done.mono {request : SendRequest} {i : ι} {s s' : Chat ι}
    (hrows : s.store.messages.rows ⊆ s'.store.messages.rows)
    (hlog : s.broadcasts ⊆ s'.broadcasts) {l : ExchangeCall} (h : l.Done request i s) :
    l.Done request i s' := by
  cases l with
  | writing call => cases call <;> first | exact trivial | exact ⟨hrows h.1, h.2⟩
  | returned m reply =>
      cases reply with
      | none => exact ⟨hrows h.1, h.2⟩
      | some r => exact ⟨hlog h.1, hlog h.2.1, hrows h.2.2⟩
  | responding | replying => exact hlog h
  | publishingReply => exact ⟨hlog h.1, hrows h.2⟩
  | publishing | raised => trivial

theorem done_user {request : ι → SendRequest} {i : ι} {c : FromUserStep} {s : Chat ι}
    {store : MessageStore ι} {call call' : FromUserCall}
    (hdone : (ExchangeCall.writing call).Done (request i) i s)
    (h : FromUserMove request i s.store c call store call') :
    (ExchangeCall.afterUser call').Done (request i) i { s with store } := by
  cases h with
  | found hkey hfind =>
      obtain ⟨hconv, hcarried⟩ := Message.carries_iff.1 (List.find?_some hfind)
      exact ⟨List.mem_of_find?_eq_some hfind, hconv, hcarried.trans hkey.symm⟩
  | returnedExisting => exact hdone
  | rejected | admitted | keyless | missed | drawn | duplicate | flushed | returnedCreated
  | failed => trivial

theorem done_assistant {request : ι → SendRequest} {i : ι} {c : FromAssistantStep} {s : Chat ι}
    {store : MessageStore ι} {m : Message} {call call' : FromAssistantCall}
    {replies : List (ι × Message)}
    (hdistinct : s.store.messages.Distinct Message.clash) (hown : s.store.messages.own i = call.images)
    (hdone : (ExchangeCall.replying m call).Done (request i) i s)
    (h : FromAssistantMove (fun i => (request i).conversationId) i s.store c call store call') :
    (ExchangeCall.afterAssistant m call').Done (request i) i { s with store, replies } := by
  cases h with
  | returned => exact ⟨hdone, mem_commit_of_own hdistinct (by simp [hown, FromAssistantCall.images])⟩
  | drawn | flushed => exact hdone
  | duplicate | failed => trivial

/-- Every call is accounted for. -/
def AllDone (request : ι → SendRequest) (w : ExchangeWorld ι) : Prop :=
  ∀ i, (w.proc i).Done (request i) i w.shared

theorem done_step {request : ι → SendRequest} {w : ExchangeWorld ι} (hw : ExchangeInv request w)
    {i : ι} (hdone : (w.proc i).Done (request i) i w.shared) {c : ExchangeStep} {s' : Chat ι}
    {l' : ExchangeCall}
    (h : MessageExchange.exchange request i c w.shared (w.proc i) = some (s', l')) :
    l'.Done (request i) i s' := by
  have hown := hw.own i
  have hcase := exchange_case h
  generalize w.proc i = l at hcase hown hdone
  cases hcase with
  | user hstep => exact done_user hdone hstep
  | @publish succeeds =>
      cases succeeds with
      | true => exact List.mem_append_right _ (List.mem_singleton_self _)
      | false => trivial
  | @respond succeeds =>
      cases succeeds with
      | true => exact hdone
      | false => trivial
  | assistant hstep => exact done_assistant hw.distinct hown hdone hstep
  | @publishReply succeeds =>
      cases succeeds with
      | true =>
          exact ⟨List.mem_append_left _ hdone.1,
            List.mem_append_right _ (List.mem_singleton_self _), hdone.2⟩
      | false => trivial
  | cancelPublish | cancelRespond | cancelReply => trivial

theorem allDone_step {request : ι → SendRequest} {w : ExchangeWorld ι}
    (hw : ExchangeInv request w) (hdone : AllDone request w) {i : ι} {c : ExchangeStep}
    {s' : Chat ι} {l' : ExchangeCall}
    (h : MessageExchange.exchange request i c w.shared (w.proc i) = some (s', l')) :
    AllDone request ⟨s', Function.update w.proc i l'⟩ := by
  obtain ⟨handed, _, hbroadcasts, _, hmove⟩ := exchange_move hw h
  intro j
  by_cases hj : j = i
  · subst hj
    simpa only [Function.update_self] using done_step hw (hdone j) h
  · simp only [Function.update_of_ne hj]
    exact (hdone j).mono (hmove.effect.rows_subset hw.distinct)
      (hbroadcasts ▸ List.subset_append_left _ _)

theorem exchange_invariants {request : ι → SendRequest} {rows : List Message} {lastSeq : Int}
    (hrows : rows.Pairwise fun a b => Message.clash a b = false)
    {es : List (ι × ExchangeStep)} {w : ExchangeWorld ι}
    (hrun : exec (World.move (MessageExchange.exchange request)) (ExchangeWorld.init rows lastSeq)
      es = some w) : ExchangeInv request w ∧ AllDone request w :=
  World.exec_invariant_of_program (I := fun w => ExchangeInv request w ∧ AllDone request w)
    (fun _ _ _ _ _ hw h => ⟨exchangeInv_step hw.1 h, allDone_step hw.1 hw.2 h⟩)
    ⟨exchangeInv_init hrows, fun _ => trivial⟩ hrun

/-! ## Retried sends -/

/-- The send under the pair is complete: its message has been handed over, and one reply to it has
    been persisted and handed over. -/
structure SendCompleted (request : ι → SendRequest) (conversationId : ConversationId)
    (clientMessageId : ClientMessageId) (w : ExchangeWorld ι) : Prop where
  handed : (w.shared.broadcasts.filter fun b =>
    b.2.carries conversationId clientMessageId).length = 1
  persisted : (w.shared.replies.filter fun b =>
    (request b.1).carries conversationId clientMessageId).length = 1
  replied : (w.shared.broadcasts.filter fun b => decide (b.2.role = .assistant) &&
    (request b.1).carries conversationId clientMessageId).length = 1

/-- What the attempts at one send that have returned tell: the message is stored, once; if the
    attempt that stored it is among them, the send is complete; one that is not has handed over
    nothing and replied nothing. -/
structure AttemptsReturned (request : ι → SendRequest) (conversationId : ConversationId)
    (clientMessageId : ClientMessageId) (w : ExchangeWorld ι) : Prop where
  stored : ∀ i m reply, (request i).carries conversationId clientMessageId = true →
    w.proc i = .returned m reply → m ∈ w.shared.store.messages.rows ∧
      m.carries conversationId clientMessageId = true ∧
      (w.shared.store.messages.rows.filter (·.carries conversationId clientMessageId)).length = 1
  completed : ∀ i m r, (request i).carries conversationId clientMessageId = true →
    w.proc i = .returned m (some r) → SendCompleted request conversationId clientMessageId w
  silent : ∀ i m, w.proc i = .returned m none →
    (∀ b ∈ w.shared.broadcasts, b.1 ≠ i) ∧ ∀ b ∈ w.shared.replies, b.1 ≠ i

/-- The message of a request that carries the pair carries it too. -/
theorem carries_of_request {request : SendRequest} {conversationId : ConversationId}
    {clientMessageId : ClientMessageId} {m : Message}
    (h : request.carries conversationId clientMessageId = true)
    (hconv : m.conversationId = request.conversationId)
    (hkey : m.clientMessageId = request.clientMessageId) :
    m.carries conversationId clientMessageId = true := by
  simpa [Message.carries, SendRequest.carries, hconv, hkey] using h

theorem length_filter_eq_one {α : Type*} {p : α → Bool} {l : List α} {x : α} (hx : x ∈ l)
    (hp : p x = true) (hle : (l.filter p).length ≤ 1) : (l.filter p).length = 1 := by
  have hpos : 0 < (l.filter p).length := List.length_pos_of_mem (List.mem_filter.2 ⟨hx, hp⟩)
  omega

/-- In every run, and so after every sequence of attempts, whatever fails in them. -/
theorem exchange_attemptsReturned (request : ι → SendRequest) (rows : List Message) (lastSeq : Int)
    (hrows : rows.Pairwise fun a b => Message.clash a b = false)
    (es : List (ι × ExchangeStep)) (w : ExchangeWorld ι)
    (hrun : exec (World.move (MessageExchange.exchange request)) (ExchangeWorld.init rows lastSeq)
      es = some w)
    (conversationId : ConversationId) (clientMessageId : ClientMessageId) :
    AttemptsReturned request conversationId clientMessageId w := by
  obtain ⟨hinv, hdone⟩ := exchange_invariants hrows hrun
  have honce : AtMostOnce request conversationId clientMessageId w := hinv.atMostOnce
  have hcreated : ∀ i m r, w.proc i = .returned m (some r) →
      m ∈ w.shared.store.messages.rows ∧ (request i).Sends m := fun i m r h =>
    hinv.created i m (by rw [h]; rfl)
  refine ⟨fun i m reply hcarries hi => ?_, fun i m r hcarries hi => ?_, fun i m hi => ?_⟩
  · obtain ⟨hm, hconv, hkey⟩ : m ∈ w.shared.store.messages.rows ∧
        m.conversationId = (request i).conversationId ∧
        m.clientMessageId = (request i).clientMessageId := by
      cases reply with
      | none => simpa [hi, ExchangeCall.Done] using hdone i
      | some r => exact ⟨(hcreated i m r hi).1, (hcreated i m r hi).2.2⟩
    have hmc := carries_of_request hcarries hconv hkey
    exact ⟨hm, hmc, length_filter_eq_one hm hmc honce.stored⟩
  · obtain ⟨hhanded, hreplied, _⟩ : (i, m) ∈ w.shared.broadcasts ∧ (i, r) ∈ w.shared.broadcasts ∧
        r ∈ w.shared.store.messages.rows := by simpa [hi, ExchangeCall.Done] using hdone i
    obtain ⟨_, _, hconv, hkey⟩ := hcreated i m r hi
    have hr := hinv.reply i r (by rw [hi]; rfl)
    exact ⟨length_filter_eq_one hhanded (carries_of_request hcarries hconv hkey) honce.handed,
      length_filter_eq_one hr.2 hcarries honce.persisted,
      length_filter_eq_one hreplied (by simp [hr.1.1.1, hcarries]) honce.replied⟩
  · refine ⟨fun b hb he => ?_, fun b hb he => ?_⟩
    · have hsent := (hinv.handed b hb).2
      rw [he, hi] at hsent
      cases hrole : b.2.role <;> rw [hrole] at hsent <;> cases hsent
    · have hreply := (hinv.replied b hb).1
      rw [he, hi] at hreply
      cases hreply

/-- An attempt that goes through completes the send. -/
def sentAtOnce : List (Bool × ExchangeStep) :=
  [(false, .user (.readConversation (some helloConversation))), (false, .user .findExisting),
    (false, .user (.draw ⟨5, 0⟩)), (false, .user .flush), (false, .user .commit),
    (false, .publish true), (false, .respond true), (false, .assistant (.draw ⟨6, 0⟩)),
    (false, .assistant .flush), (false, .assistant .commit), (false, .publish true)]

theorem exchange_attemptsReturned_atOnce :
    ∃ w, exec (World.move (MessageExchange.exchange fun _ : Bool => helloRequest))
        (ExchangeWorld.init [] 0) sentAtOnce = some w ∧
      w.shared.broadcasts.map (fun b => b.2.content.value) = ["hello", "You said: hello"] ∧
      AttemptsReturned (fun _ => helloRequest) ⟨1⟩ ⟨77⟩ w := by
  obtain ⟨w, hrun, hlog⟩ := exec_reaches (World.move (MessageExchange.exchange fun _ : Bool =>
    helloRequest)) (ExchangeWorld.init [] 0) sentAtOnce
    (fun w => w.shared.broadcasts.map (fun b => b.2.content.value) = ["hello", "You said: hello"])
    (by decide)
  exact ⟨w, hrun, hlog, exchange_attemptsReturned (fun _ => helloRequest) [] 0 List.Pairwise.nil
    sentAtOnce w hrun ⟨1⟩ ⟨77⟩⟩

/-- A retry of an attempt whose responder failed is acknowledged, and the send stays incomplete. -/
theorem exchange_retryNotCompleted :
    ∃ w, exec (World.move (MessageExchange.exchange fun _ : Bool => helloRequest))
        (ExchangeWorld.init [] 0) failedThenRetried = some w ∧
      (∃ m, w.proc true = .returned m none) ∧
      ¬ SendCompleted (fun _ => helloRequest) ⟨1⟩ ⟨77⟩ w := by
  obtain ⟨w, hrun, hreturned, hreplies⟩ := exec_reaches (World.move (MessageExchange.exchange
    fun _ : Bool => helloRequest)) (ExchangeWorld.init [] 0) failedThenRetried
    (fun w => w.proc true = .returned (PostMessage.userMessage helloRequest 1 ⟨5, 0⟩) none ∧
      w.shared.replies = []) (by decide)
  refine ⟨w, hrun, ⟨_, hreturned⟩, fun hcompleted => ?_⟩
  have hpersisted := hcompleted.persisted
  rw [hreplies] at hpersisted
  cases hpersisted

/-! ## Failing broadcasts -/

def ExchangeCall.hasEnded : ExchangeCall → Bool
  | .returned .. | .raised .. => true
  | .writing _ | .publishing _ | .responding _ | .replying .. | .publishingReply .. => false

/-- The broadcaster ended the call. -/
def ExchangeCall.cutOff : ExchangeCall → Bool
  | .raised .broadcaster _ _ => true
  | .raised .. | .returned .. | .writing _ | .publishing _ | .responding _ | .replying ..
  | .publishingReply .. => false

/-- The call has returned the stored user message, and, unless it is a duplicate, the assistant
    message is stored too. -/
def Fulfilled (w : ExchangeWorld ι) (i : ι) : Prop :=
  ∃ m reply, w.proc i = .returned m reply ∧ m ∈ w.shared.store.messages.rows ∧
    ∀ r, reply = some r → r ∈ w.shared.store.messages.rows

theorem afterUser_cutOff (call : FromUserCall) : (ExchangeCall.afterUser call).cutOff = false := by
  cases call with
  | returned m created => cases created <;> rfl
  | started | admitted | missed | found | drawn | flushed | raised => rfl

theorem afterAssistant_cutOff (m : Message) (call : FromAssistantCall) :
    (ExchangeCall.afterAssistant m call).cutOff = false := by
  cases call <;> rfl

/-- The broadcaster ends a call exactly when a broadcast of the call raises. -/
theorem cutOff_step {request : ι → SendRequest} {i : ι} {c : ExchangeStep} {s s' : Chat ι}
    {l l' : ExchangeCall} (h : MessageExchange.exchange request i c s l = some (s', l')) :
    l'.cutOff = true ↔ l.cutOff = true ∨ c = .publish false := by
  cases exchange_case h with
  | user =>
      rw [afterUser_cutOff]
      simp [ExchangeCall.cutOff]
  | assistant =>
      rw [afterAssistant_cutOff]
      simp [ExchangeCall.cutOff]
  | @publish succeeds | @respond succeeds | @publishReply succeeds =>
      cases succeeds <;> simp [ExchangeCall.cutOff]
  | cancelPublish | cancelRespond | cancelReply => simp [ExchangeCall.cutOff]

theorem cutOff_run {request : ι → SendRequest} {w w' : ExchangeWorld ι}
    {es : List (ι × ExchangeStep)}
    (h : exec (World.move (MessageExchange.exchange request)) w es = some w') (i : ι) :
    (w'.proc i).cutOff = true ↔ (w.proc i).cutOff = true ∨ (i, .publish false) ∈ es := by
  induction es generalizing w with
  | nil => simp [Option.some.inj h]
  | cons e es ih =>
      obtain ⟨v, hv, hrest⟩ := exec_cons_eq_some.1 h
      obtain ⟨j, c⟩ := e
      obtain ⟨s, l, hstep, rfl⟩ := World.move_eq_some.1 hv
      rw [ih hrest, List.mem_cons, ← or_assoc]
      refine or_congr_left ?_
      by_cases hi : i = j
      · subst hi
        simp only [Function.update_self, Prod.mk.injEq, true_and]
        rw [cutOff_step hstep]
        simp only [eq_comm]
      · simp [hi]

/-- A call whose writer and responder steps all succeed returns with its messages stored if and only
    if every broadcast it makes succeeds. -/
theorem exchange_fulfilled_iff (request : ι → SendRequest) (rows : List Message) (lastSeq : Int)
    (hrows : rows.Pairwise fun a b => Message.clash a b = false)
    (es : List (ι × ExchangeStep)) (w : ExchangeWorld ι)
    (hrun : exec (World.move (MessageExchange.exchange request)) (ExchangeWorld.init rows lastSeq)
      es = some w)
    (i : ι) (hended : (w.proc i).hasEnded = true)
    (hsteps : ∀ e stored reply, w.proc i = .raised e stored reply → e = .broadcaster) :
    Fulfilled w i ↔ ∀ succeeds, (i, .publish succeeds) ∈ es → succeeds = true := by
  obtain ⟨hinv, hdone⟩ := exchange_invariants hrows hrun
  have hcut : (w.proc i).cutOff = true ↔ (i, .publish false) ∈ es := by
    simpa [ExchangeWorld.init, ExchangeCall.cutOff] using cutOff_run hrun i
  have hall : (∀ succeeds, (i, .publish succeeds) ∈ es → succeeds = true) ↔
      (w.proc i).cutOff = false := by
    rw [Bool.forall_bool, ← Bool.not_eq_true, hcut]
    simp
  rw [hall]
  cases hi : w.proc i with
  | returned m reply =>
      refine iff_of_true ⟨m, reply, hi, ?_, ?_⟩ rfl
      · cases reply with
        | none =>
            have h := hdone i
            rw [hi] at h
            exact h.1
        | some r => exact (hinv.created i m (by rw [hi]; rfl)).1
      · rintro r rfl
        have h := hdone i
        rw [hi] at h
        exact h.2.2
  | raised e stored reply =>
      obtain rfl := hsteps e stored reply hi
      refine iff_of_false ?_ (by simp [ExchangeCall.cutOff])
      rintro ⟨m, reply, h, -⟩
      rw [hi] at h
      cases h
  | writing | publishing | responding | replying | publishingReply =>
      rw [hi] at hended
      cases hended

/-- With both broadcasts up the call returns and both messages are stored. -/
theorem exchange_fulfilled_atOnce :
    ∃ w, exec (World.move (MessageExchange.exchange fun _ : Bool => helloRequest))
        (ExchangeWorld.init [] 0) sentAtOnce = some w ∧ Fulfilled w false := by
  obtain ⟨w, hrun, hended, hcut⟩ := exec_reaches (World.move (MessageExchange.exchange
    fun _ : Bool => helloRequest)) (ExchangeWorld.init [] 0) sentAtOnce
    (fun w => (w.proc false).hasEnded = true ∧ w.proc false = .returned
      (PostMessage.userMessage helloRequest 1 ⟨5, 0⟩) (some (PostMessage.assistantMessage ⟨1⟩
        (MockAssistantResponder.replyTo helloRequest.content) 2 ⟨6, 0⟩))) (by decide)
  exact ⟨w, hrun, (exchange_fulfilled_iff (fun _ => helloRequest) [] 0 List.Pairwise.nil sentAtOnce w
    hrun false hended (fun _ _ _ h => by rw [hcut] at h; cases h)).2 (by decide)⟩

/-- Redis is down for the first broadcast: no reply is written, and no ack is sent. -/
def firstBroadcastFails : List (Bool × ExchangeStep) :=
  [(false, .user (.readConversation (some helloConversation))), (false, .user .findExisting),
    (false, .user (.draw ⟨5, 0⟩)), (false, .user .flush), (false, .user .commit),
    (false, .publish false)]

theorem exchange_notFulfilled :
    ∃ w, exec (World.move (MessageExchange.exchange fun _ : Bool => helloRequest))
        (ExchangeWorld.init [] 0) firstBroadcastFails = some w ∧
      (∀ e stored reply, w.proc false = .raised e stored reply → e = .broadcaster) ∧
      w.shared.replies = [] ∧ ¬ Fulfilled w false := by
  obtain ⟨w, hrun, hraised, hreplies⟩ := exec_reaches (World.move (MessageExchange.exchange
    fun _ : Bool => helloRequest)) (ExchangeWorld.init [] 0) firstBroadcastFails
    (fun w => w.proc false = .raised .broadcaster
      (some (PostMessage.userMessage helloRequest 1 ⟨5, 0⟩)) none ∧ w.shared.replies = [])
    (by decide)
  refine ⟨w, hrun, fun e stored reply h => ?_, hreplies, fun ⟨m, reply, h, _⟩ => ?_⟩
  · rw [hraised] at h
    cases h
    rfl
  · rw [hraised] at h
    cases h

end Dizzchat
