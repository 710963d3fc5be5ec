import Dizzchat.Messaging.ExchangeOutcome
import Dizzchat.Realtime.Seam

set_option autoImplicit false

/-! # No phantom messages

The backend with any step of any exchange failing. `backend_noPhantom`: what is handed to the
broadcaster, acknowledged or replayed is a committed row, and within one exchange the user message is
handed over before the assistant message and has the smaller sequence number.

That an exchange hands over and returns only what it has committed is `ExchangeInv` and `AllDone`.
What is new here is the order: a call draws the number of its reply after the one of its message, and
no number is drawn twice (`ExchangeCall.Ordered`). -/

namespace Dizzchat

open Transition

variable {ι ρ κ : Type*} [DecidableEq ι]

/-! ## The order within an exchange -/

/-- The user message has a number that has been drawn, and the reply a later one. -/
def ExchangeCall.Ordered (lastSeq : Int) : ExchangeCall → Prop
  | .writing (.drawn m) | .writing (.flushed m) | .publishing m | .responding m
  | .replying m (.started _) => m.id.value ≤ lastSeq
  | .replying m (.drawn r) | .replying m (.flushed r) | .publishingReply m r
  | .returned m (some r) | .raised _ (some m) (some r) => m.id.value < r.id.value
  | .writing _ | .replying .. | .returned .. | .raised .. => True

theorem ExchangeCall.Ordered.mono {n n' : Int} (hn : n ≤ n') {l : ExchangeCall} (h : l.Ordered n) :
    l.Ordered n' := by
  cases l with
  | writing call =>
      cases call with
      | drawn | flushed => exact Int.le_trans h hn
      | started | admitted | missed | found | returned | raised => trivial
  | publishing | responding => exact Int.le_trans h hn
  | replying m call =>
      cases call with
      | started => exact Int.le_trans h hn
      | drawn | flushed => exact h
      | returned | raised => trivial
  | publishingReply => exact h
  | returned m reply => cases reply <;> exact h
  | raised e m reply => cases m <;> cases reply <;> exact h

/-- The reply of an exchange has a larger number than its message. -/
theorem ExchangeCall.Ordered.lt {n : Int} {l : ExchangeCall} (h : l.Ordered n) {m r : Message}
    (hm : l.created = some m) (hr : l.reply = some r) : m.id.value < r.id.value := by
  cases l with
  | writing | publishing | responding | replying => cases hr
  | publishingReply =>
      cases hm
      cases hr
      exact h
  | returned m' reply =>
      obtain rfl : reply = some r := hr
      cases hm
      exact h
  | raised e m' reply =>
      obtain rfl : m' = some m := hm
      obtain rfl : reply = some r := hr
      exact h

/-- What an exchange has drawn it draws in order. -/
theorem exchange_ordered {request : ι → SendRequest} {i : ι} {c : ExchangeStep} {s s' : Chat ι}
    {l l' : ExchangeCall} (h : ExchangeCase request i s c l s' l')
    (hl : l.Ordered s.store.lastSeq) :
    s.store.lastSeq ≤ s'.store.lastSeq ∧ l'.Ordered s'.store.lastSeq := by
  cases h with
  | user h =>
      refine ⟨h.lastSeq_le, ?_⟩
      cases h with
      | drawn => exact Int.le_refl _
      | flushed | returnedCreated => exact hl
      | rejected | admitted | keyless | found | missed | duplicate | returnedExisting
      | failed => trivial
  | @publish succeeds | @respond succeeds =>
      refine ⟨Int.le_refl _, ?_⟩
      cases succeeds with
      | true => exact hl
      | false => trivial
  | assistant h =>
      cases h with
      | drawn => exact ⟨Int.le_of_lt (Int.lt_succ _), Int.lt_of_le_of_lt hl (Int.lt_succ _)⟩
      | flushed | returned => exact ⟨Int.le_refl _, hl⟩
      | duplicate | failed => exact ⟨Int.le_refl _, trivial⟩
  | @publishReply succeeds =>
      refine ⟨Int.le_refl _, ?_⟩
      cases succeeds <;> exact hl
  | cancelPublish | cancelRespond => exact ⟨Int.le_refl _, trivial⟩
  | cancelReply => exact ⟨Int.le_refl _, hl⟩

/-- An assistant message in the log comes after the user message of its exchange, and has the larger
    number. -/
def RepliesFollow (broadcasts : List (ι × Message)) : Prop :=
  ∀ (n : ℕ) (i : ι) (r : Message), broadcasts[n]? = some (i, r) → r.role = .assistant →
    ∃ p < n, ∃ m : Message, broadcasts[p]? = some (i, m) ∧ m.role = .user ∧
      m.id.value < r.id.value

omit [DecidableEq ι] in
theorem RepliesFollow.append {broadcasts : List (ι × Message)} (h : RepliesFollow broadcasts) {i : ι}
    {message : Message}
    (hreply : message.role = .assistant → ∃ m : Message, (i, m) ∈ broadcasts ∧ m.role = .user ∧
      m.id.value < message.id.value) : RepliesFollow (broadcasts ++ [(i, message)]) := by
  intro n j r hr hrole
  have hold : ∀ {p b}, broadcasts[p]? = some b → (broadcasts ++ [(i, message)])[p]? = some b :=
    fun hp => (List.getElem?_append_left (List.getElem?_eq_some_iff.1 hp).1).trans hp
  rcases Nat.lt_or_ge n broadcasts.length with hn | hn
  · rw [List.getElem?_append_left hn] at hr
    obtain ⟨p, hp, m, hm, hrest⟩ := h n j r hr hrole
    exact ⟨p, hp, m, hold hm, hrest⟩
  · -- the message is the new one
    rw [List.getElem?_append_right hn, List.getElem?_singleton] at hr
    split at hr
    · cases hr
      obtain ⟨m, hm, huser, hlt⟩ := hreply hrole
      obtain ⟨p, hp⟩ := List.mem_iff_getElem?.1 hm
      exact ⟨p, (List.getElem?_eq_some_iff.1 hp).1.trans_le hn, m, hold hp, huser, hlt⟩
    · cases hr

/-- Every exchange is accounted for, and in order. -/
structure OrderInv (request : ι → SendRequest) (w : ExchangeWorld ι) : Prop where
  store : ExchangeInv request w
  done : AllDone request w
  ordered : ∀ i, (w.proc i).Ordered w.shared.store.lastSeq
  follow : RepliesFollow w.shared.broadcasts

theorem orderInv_init {request : ι → SendRequest} {rows : List Message} {lastSeq : Int}
    (hrows : rows.Pairwise fun a b => Message.clash a b = false) :
    OrderInv request (ExchangeWorld.init rows lastSeq) where
  store := exchangeInv_init hrows
  done _ := trivial
  ordered _ := trivial
  follow n i r h := by cases h

theorem orderInv_step {request : ι → SendRequest} {w : ExchangeWorld ι} (hw : OrderInv request w)
    {i : ι} {c : ExchangeStep} {s' : Chat ι} {l' : ExchangeCall}
    (h : MessageExchange.exchange request i c w.shared (w.proc i) = some (s', l')) :
    OrderInv request ⟨s', Function.update w.proc i l'⟩ := by
  have hcase := exchange_case h
  obtain ⟨hle, hordered⟩ := exchange_ordered hcase (hw.ordered i)
  refine ⟨exchangeInv_step hw.store h, allDone_step hw.store hw.done h, ?_, ?_⟩
  · exact (Function.forall_update_iff w.proc fun _ l => l.Ordered s'.store.lastSeq).2
      ⟨hordered, fun j _ => (hw.ordered j).mono hle⟩
  · -- only the two broadcasts add to the log
    have hcreated := hw.store.created i
    have hdone := hw.done i
    have hcall := hw.ordered i
    generalize w.proc i = l at hcase hcreated hdone hcall
    cases hcase with
    | @publish succeeds m =>
        refine hw.follow.append fun hassistant => ?_
        cases ((hcreated m rfl).2.1).symm.trans hassistant
    | @publishReply succeeds m r =>
        exact hw.follow.append fun _ => ⟨m, hdone.1, (hcreated m rfl).2.1, hcall⟩
    | user | respond | assistant | cancelPublish | cancelRespond | cancelReply => exact hw.follow

/-! ## The frames -/

/-- The messages a handler has read from the store and not yet sent. -/
def Handler.unsent : Handler κ → List Message
  | .replaying _ collected => collected
  | .sending missed => missed
  | .authenticating | .joining _ | .serving | .leaving _ | .closed => []

theorem afterJoin_unsent (lastSeenSeq : Option MessageId) (l : RegistryCall κ) :
    (Handler.afterJoin lastSeenSeq l).unsent = [] := by
  cases l with
  | returned => cases lastSeenSeq <;> rfl
  | raised | waitingJoin | subscribing | waitingLeave | unsubscribing => rfl

theorem afterLeave_unsent (l : RegistryCall κ) : (Handler.afterLeave l).unsent = [] := by
  cases l <;> rfl

theorem afterSend_unsent (missed : List Message) :
    (Handler.afterSend missed : Handler κ).unsent = missed := by
  cases missed <;> rfl

theorem afterRead_unsent (replay : Replay) :
    (Handler.afterRead replay : Handler κ).unsent = replay.messages := by
  cases replay with
  | reading => rfl
  | finished missed => exact afterSend_unsent missed

/-- Every message the replica has queued or is delivering satisfies `P`. -/
structure Replica.Carried (P : Message → Prop) (r : Replica κ κ) : Prop where
  inbox : ∀ m ∈ r.registry.subscriber.pubsub.inbox, P m
  delivering : ∀ b, r.reader = .delivering b → P b.message

section Carried

variable {P : Message → Prop} {r : Replica κ κ}

/-- A replica with nothing queued and nothing under way. -/
theorem carried_empty {registry : ConversationRegistry κ κ} {reader : Reader (Broadcast κ)}
    (hinbox : registry.subscriber.pubsub.inbox = []) (hreader : ∀ b, reader ≠ .delivering b) :
    Replica.Carried P ⟨registry, reader⟩ where
  inbox _ hm := absurd (hinbox ▸ hm) List.not_mem_nil
  delivering b hb := absurd hb (hreader b)

theorem Replica.Carried.imp {Q : Message → Prop} (hr : r.Carried P) (h : ∀ m, P m → Q m) :
    r.Carried Q :=
  ⟨fun m hm => h m (hr.inbox m hm), fun b hb => h _ (hr.delivering b hb)⟩

theorem Replica.Carried.publish (hr : r.Carried P) {message : Message} (h : P message) :
    (r.publish message).Carried P where
  inbox m hm := by
    unfold Replica.publish PubSub.publish at hm
    split at hm
    · rcases List.mem_append.1 hm with hm | hm
      · exact hr.inbox m hm
      · rwa [List.mem_singleton.1 hm]
    · exact hr.inbox m hm
  delivering := hr.delivering

theorem Replica.Carried.reader [DecidableEq κ] (hr : r.Carried P) {step : ReaderStep}
    {subscriber : Subscriber κ} {reader : Reader (Broadcast κ)}
    (h : ReaderMove
      (fun message => r.registry.manager.broadcast message.conversationId message)
      r.registry.subscriber step r.reader subscriber reader) :
    Replica.Carried P { registry := { r.registry with subscriber }, reader } := by
  obtain ⟨registry, reader₀⟩ := r
  have hinbox : ∀ {message inbox}, registry.subscriber.pubsub.inbox = message :: inbox →
      P message ∧ ∀ m ∈ inbox, P m :=
    fun heq => List.forall_mem_cons.1 (heq ▸ hr.inbox)
  cases h with
  | polls | waits | wakes | reads | skips | fails | backsOff | reconnects | resubscribesLast
  | resubscribes | dies => exact ⟨hr.inbox, fun b hb => by cases hb⟩
  | closesEmpty | closes => exact carried_empty rfl fun b hb => by cases hb
  | drops heq => exact ⟨(hinbox heq).2, fun b hb => by cases hb⟩
  | delivers heq hdeliver =>
      refine ⟨(hinbox heq).2, fun b hb => ?_⟩
      cases hb
      obtain ⟨-, rfl⟩ := ConnectionManager.broadcast_eq_some hdeliver
      exact (hinbox heq).1

theorem Replica.Carried.sent [DecidableEq κ] (hr : r.Carried P) {k : κ} {succeeds : Bool}
    {b : Broadcast κ} (hreader : r.reader = .delivering b) {m : ConnectionManager κ}
    {b' : Option (Broadcast κ)} (h : BroadcastMove k succeeds b r.registry.manager m b') :
    Replica.Carried P { registry := { r.registry with manager := m },
                        reader := Replica.afterSend b' } where
  inbox := hr.inbox
  delivering b₀ hb₀ := by
    cases h with
    | goesOn =>
        cases hb₀
        exact hr.delivering b hreader
    | finishes => cases hb₀

theorem Replica.Carried.registry [DecidableEq κ] (hr : r.Carried P) {k : κ} {step : RegistryStep}
    {registry : ConversationRegistry κ κ} {l l' : RegistryCall κ}
    (h : RegistryMove k r.registry step l registry l') : Replica.Carried P { r with registry } where
  inbox m hm := hr.inbox m (h.inbox_eq ▸ hm)
  delivering := hr.delivering

end Carried

/-- What has been written to the socket, and what its handler has still to send, satisfies `P`. -/
structure Socket.Carries (P : Message → Prop) (s : Socket κ) : Prop where
  unsent : ∀ m ∈ s.handler.unsent, P m
  written : ∀ m ∈ s.written, P m

theorem Socket.Carries.imp {P Q : Message → Prop} {s : Socket κ} (hs : s.Carries P)
    (h : ∀ m, P m → Q m) : s.Carries Q :=
  ⟨fun m hm => h m (hs.unsent m hm), fun m hm => h m (hs.written m hm)⟩

theorem Socket.Carries.sent {P : Message → Prop} {s : Socket κ} (hs : s.Carries P)
    {message : Message} (h : P message) (succeeds : Bool) : (s.sent message succeeds).Carries P := by
  cases succeeds with
  | false => exact hs
  | true =>
      refine ⟨hs.unsent, fun m hm => ?_⟩
      rcases List.mem_append.1 hm with hm | hm
      · exact hs.written m hm
      · rwa [List.mem_singleton.1 hm]

/-- Whatever is on its way to a socket, or written to it, is committed. -/
structure FramesInv (T : Traffic ι ρ κ) (w : Backend ι ρ κ) : Prop where
  exchanges : OrderInv T.request w.chat
  replicas : ∀ r, (w.replicas r).Carried (· ∈ w.rows)
  sockets : ∀ k, (w.sockets k).Carries (· ∈ w.rows)

variable [DecidableEq ρ] [DecidableEq κ] {T : Traffic ι ρ κ} {w w' : Backend ι ρ κ}
  {e : BackendEvent ι ρ κ}

omit [DecidableEq ρ] [DecidableEq κ] in
theorem framesInv_init {stored : List Message} {lastSeq : Int}
    (hstored : stored.Pairwise fun a b => Message.clash a b = false) :
    FramesInv T (Backend.init stored lastSeq : Backend ι ρ κ) where
  exchanges := orderInv_init hstored
  replicas _ := carried_empty rfl fun b hb => by cases hb
  sockets _ := ⟨fun m hm => absurd hm List.not_mem_nil, fun m hm => absurd hm List.not_mem_nil⟩

theorem orderInv_move (hw : OrderInv T.request w.chat) (h : BackendMove T w e w') :
    OrderInv T.request w'.chat := by
  cases h with
  | exchange h =>
      rw [Backend.publish_chat]
      exact orderInv_step hw h
  | reader | delivered | connect | join | leaveStep | readPage | replaySent | cut | leave => exact hw

/-- Only an exchange changes the committed messages. -/
theorem replicas_carried_step (hw : FramesInv T w) (h : BackendMove T w e w') (r : ρ) :
    (w'.replicas r).Carried (· ∈ w'.rows) := by
  have hkept : w.rows ⊆ w'.rows := h.rows_subset hw.exchanges.store
  have hset : ∀ (r' : ρ) (replica : Replica κ κ), replica.Carried (· ∈ w.rows) →
      ((w.setReplica r' replica).replicas r).Carried (· ∈ w.rows) := fun r' replica hreplica =>
    Backend.setReplica_keeps (P := Replica.Carried (· ∈ w.rows)) (hw.replicas r) fun _ => hreplica
  cases h with
  | @exchange i step chat call h =>
      have hold := (hw.replicas r).imp hkept
      cases hpub : (w.chat.proc i).published step with
      | none => rwa [hpub] at hold
      | some message =>
          -- what is published has just been handed over
          rw [hpub] at hold
          have hbroadcasts := exchange_published (by rintro rfl; cases hpub) h
          rw [hpub] at hbroadcasts
          refine hold.publish ((exchangeInv_step hw.exchanges.store h).handed_committed
            (b := (i, message)) ?_)
          rw [hbroadcasts]
          exact List.mem_append_right _ List.mem_cons_self
  | @reader r' step subscriber reader h => exact hset _ _ ((hw.replicas r').reader h)
  | @delivered r' k succeeds b m b' hreader h => exact hset _ _ ((hw.replicas r').sent hreader h)
  | @join k step call call' registry hhandler h => exact hset _ _ ((hw.replicas _).registry h)
  | @leaveStep k step call call' registry hhandler h => exact hset _ _ ((hw.replicas _).registry h)
  | connect | readPage | replaySent | cut | leave => exact hw.replicas r

theorem sockets_carries_step (hw : FramesInv T w) (h : BackendMove T w e w') (k : κ) :
    (w'.sockets k).Carries (· ∈ w'.rows) := by
  refine Socket.Carries.imp (P := (· ∈ w.rows)) ?_ (h.rows_subset hw.exchanges.store)
  have hset : ∀ (v : Backend ι ρ κ) (k' : κ) (socket : Socket κ), v.sockets = w.sockets →
      socket.Carries (· ∈ w.rows) → ((v.setSocket k' socket).sockets k).Carries (· ∈ w.rows) := by
    intro v k' socket hv hsocket
    refine Backend.setSocket_keeps (P := Socket.Carries (· ∈ w.rows)) ?_ fun _ => hsocket
    rw [hv]
    exact hw.sockets k
  have hwritten : ∀ (k' : κ) (handler : Handler κ) (lastSeenSeq : Option MessageId),
      (∀ m ∈ handler.unsent, m ∈ w.rows) →
      Socket.Carries (· ∈ w.rows) { w.sockets k' with handler, lastSeenSeq } :=
    fun k' _ _ hunsent => ⟨hunsent, (hw.sockets k').written⟩
  cases h with
  | exchange =>
      rw [Backend.publish_sockets]
      exact hw.sockets k
  | reader => exact hw.sockets k
  | @delivered r k' succeeds b m b' hreader h =>
      exact hset _ _ _ rfl ((hw.sockets k').sent ((hw.replicas r).delivering b hreader) succeeds)
  | connect => exact hset _ _ _ rfl (hwritten _ _ _ fun m hm => absurd hm List.not_mem_nil)
  | join =>
      refine hset _ _ _ rfl (hwritten _ _ _ fun m hm => ?_)
      rw [afterJoin_unsent] at hm
      exact absurd hm List.not_mem_nil
  | leaveStep =>
      refine hset _ _ _ rfl (hwritten _ _ _ fun m hm => ?_)
      rw [afterLeave_unsent] at hm
      exact absurd hm List.not_mem_nil
  | @readPage k' cursor collected replay hhandler hreplay =>
      refine hset _ _ _ rfl (hwritten _ _ _ fun m hm => ?_)
      rw [hreplay, afterRead_unsent] at hm
      rcases mem_turn hm with hold | ⟨hrow, -⟩
      · refine (hw.sockets k').unsent m ?_
        rw [hhandler]
        exact hold
      · exact hrow
  | @replaySent k' succeeds message missed hhandler =>
      have hunsent : ∀ m ∈ message :: missed, m ∈ w.rows := by
        intro m hm
        refine (hw.sockets k').unsent m ?_
        rw [hhandler]
        exact hm
      have hsent := (hw.sockets k').sent (hunsent message List.mem_cons_self) succeeds
      refine hset _ _ _ rfl ⟨fun m hm => ?_, hsent.written⟩
      cases succeeds with
      | false => exact absurd hm List.not_mem_nil
      | true =>
          simp only [if_true, afterSend_unsent] at hm
          exact hunsent m (List.mem_cons_of_mem _ hm)
  | @cut k' => exact hset _ _ _ rfl ⟨(hw.sockets k').unsent, (hw.sockets k').written⟩
  | leave => exact hset _ _ _ rfl (hwritten _ _ _ fun m hm => absurd hm List.not_mem_nil)

theorem framesInv_step (hw : FramesInv T w) (h : BackendMove T w e w') : FramesInv T w' where
  exchanges := orderInv_move hw.exchanges h
  replicas := replicas_carried_step hw h
  sockets := sockets_carries_step hw h

/-! ## The result -/

/-- No phantom messages, whatever the interleaving and whatever fails: everything handed to the
    broadcaster, returned to be acknowledged or written in a `message.new` frame is a committed row,
    and so it is at every moment from then on. Within an exchange the user message comes first, in the
    log of the broadcaster and in the sequence. -/
theorem backend_noPhantom (T : Traffic ι ρ κ) {stored : List Message} {lastSeq : Int}
    (hstored : stored.Pairwise fun a b => Message.clash a b = false)
    {es : List (BackendEvent ι ρ κ)} {w : Backend ι ρ κ}
    (h : exec (Backend.step T) (Backend.init stored lastSeq) es = some w) :
    (∀ b ∈ w.chat.shared.broadcasts, b.2 ∈ w.rows) ∧
      (∀ i m reply, w.chat.proc i = .returned m reply → m ∈ w.rows) ∧
      (∀ k, ∀ m ∈ (w.sockets k).written, m ∈ w.rows) ∧
      RepliesFollow w.chat.shared.broadcasts ∧
      ∀ i m r, (w.chat.proc i).created = some m → (w.chat.proc i).reply = some r →
        m.id.value < r.id.value := by
  have hw : FramesInv T w :=
    exec_invariant (I := FramesInv T) (fun w e w' hw hstep => framesInv_step hw (backend_move hstep))
      (framesInv_init hstored) h
  refine ⟨fun b hb => hw.exchanges.store.handed_committed hb, fun i m reply hi => ?_,
    fun k => (hw.sockets k).written, hw.exchanges.follow, fun i m r => (hw.exchanges.ordered i).lt⟩
  cases reply with
  | none =>
      have hdone := hw.exchanges.done i
      rw [hi] at hdone
      exact hdone.1
  | some r => exact (hw.exchanges.store.created i m (by rw [hi]; rfl)).1

/-- Two exchanges commit and publish around the join of a socket, which is sent three frames. -/
theorem backend_noPhantom_publishedAround :
    ∃ w, exec (Backend.step twoSockets) (Backend.init [] 0) publishedAround = some w ∧
      (w.sockets true).written.length = 3 ∧ ∀ m ∈ (w.sockets true).written, m ∈ w.rows := by
  obtain ⟨w, hrun, hlength⟩ := exec_reaches (Backend.step twoSockets) (Backend.init [] 0)
    publishedAround (fun w => (w.sockets true).written.length = 3) (by decide)
  exact ⟨w, hrun, hlength, (backend_noPhantom twoSockets List.Pairwise.nil hrun).2.2.1 true⟩

end Dizzchat
