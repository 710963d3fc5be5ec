import Mathlib.Data.Finset.Card
import Dizzchat.Realtime.Isolation
import Dizzchat.Realtime.ReceiveLoop

set_option autoImplicit false

/-! # Messages against the quota

A user message is written by an exchange, and an exchange is started by a frame that the limiter has
let through. `withinQuota_run` counts the messages of a user, over all sockets and replicas, against
the frames of this user that were let through: an exchange that has still to commit its message is
held against one of them. -/

namespace Dizzchat

open Transition

/-! ## What an exchange commits -/

/-- The exchange may still commit its user message. -/
def ExchangeCall.writes : ExchangeCall → Bool
  | .writing _ => true
  | _ => false

/-- What an exchange of the user is about to commit is signed by the user, or by nobody. -/
def ExchangeCall.Signed (sender : SenderId) : ExchangeCall → Prop
  | .writing (.drawn message) | .writing (.flushed message) => message.senderId = some sender
  | .replying _ (.drawn reply) | .replying _ (.flushed reply) => reply.senderId = none
  | _ => True

section Exchange

variable {κ : Type*} [DecidableEq κ] {request : SendRequest} {k : κ}

/-- What a step of an exchange does to the rows: nothing, or it adds the user message and is done
    writing, or it adds a message without a sender. -/
inductive Adds (sender : SenderId) (l l' : ExchangeCall) (rows : List Message) : List Message → Prop
  | nothing : Adds sender l l' rows rows
  | message {m : Message} (hsender : m.senderId = some sender) (hbefore : l.writes = true)
      (hafter : l'.writes = false) : Adds sender l l' rows (rows ++ [m])
  | reply {m : Message} (hsender : m.senderId = none) : Adds sender l l' rows (rows ++ [m])

theorem FromUserMove.adds {c : FromUserStep} {s s' : MessageStore κ} {call call' : FromUserCall}
    (h : FromUserMove (fun _ => request) k s c call s' call')
    (hdistinct : s.messages.Distinct Message.clash) (hown : s.messages.own k = call.images)
    (hsigned : (ExchangeCall.writing call).Signed request.senderId) :
    Adds request.senderId (.writing call) (.afterUser call') s.messages.rows s'.messages.rows ∧
      (ExchangeCall.afterUser call').Signed request.senderId := by
  cases h with
  | drawn => exact ⟨.nothing, rfl⟩
  | flushed h =>
      obtain ⟨_, _, rfl⟩ := Table.insert_eq_done.1 h
      exact ⟨.nothing, hsigned⟩
  | @returnedCreated m =>
      refine ⟨?_, trivial⟩
      show Adds _ _ _ _ (s.messages.commit Message.id k).rows
      rw [Table.commit_rows_of_distinct Message.clash_of_id_eq hdistinct, hown]
      exact .message hsigned rfl rfl
  | rejected | admitted | keyless | found | missed | duplicate | returnedExisting | failed =>
      exact ⟨.nothing, trivial⟩

theorem FromAssistantMove.adds {c : FromAssistantStep} {s s' : MessageStore κ} {message : Message}
    {call call' : FromAssistantCall}
    (h : FromAssistantMove (fun _ => request.conversationId) k s c call s' call')
    (hdistinct : s.messages.Distinct Message.clash) (hown : s.messages.own k = call.images)
    (hsigned : (ExchangeCall.replying message call).Signed request.senderId) :
    Adds request.senderId (.replying message call) (.afterAssistant message call') s.messages.rows
        s'.messages.rows ∧
      (ExchangeCall.afterAssistant message call').Signed request.senderId := by
  cases h with
  | drawn => exact ⟨.nothing, rfl⟩
  | flushed h =>
      obtain ⟨_, _, rfl⟩ := Table.insert_eq_done.1 h
      exact ⟨.nothing, hsigned⟩
  | @returned m =>
      refine ⟨?_, trivial⟩
      show Adds _ _ _ _ (s.messages.commit Message.id k).rows
      rw [Table.commit_rows_of_distinct Message.clash_of_id_eq hdistinct, hown]
      exact .reply hsigned
  | duplicate | failed => exact ⟨.nothing, trivial⟩

/-- One step of an exchange in the table. -/
structure Books (sender : SenderId) (k : κ) (T T' : Table κ Message) (l l' : ExchangeCall) : Prop where
  effect : WriteEffect k T T'
  own : T'.own k = l'.images
  signed : l'.Signed sender
  adds : Adds sender l l' T.rows T'.rows
  writes : l'.writes = true → l.writes = true

theorem ExchangeCase.books {step : ExchangeStep} {s s' : Chat κ} {l l' : ExchangeCall}
    (h : ExchangeCase (fun _ => request) k s step l s' l')
    (hdistinct : s.store.messages.Distinct Message.clash) (hown : s.store.messages.own k = l.images)
    (hsigned : l.Signed request.senderId) :
    Books request.senderId k s.store.messages s'.store.messages l l' := by
  cases h with
  | @user _ call call' store h =>
      obtain ⟨hadds, hsigned'⟩ := h.adds hdistinct hown hsigned
      refine ⟨h.effect, ?_, hsigned', hadds, fun _ => rfl⟩
      rw [h.own hown]
      cases call' with
      | returned m created => cases created <;> rfl
      | started | admitted | missed | found | drawn | flushed | raised => rfl
  | @assistant _ message call call' store h =>
      obtain ⟨hadds, hsigned'⟩ := h.adds hdistinct hown hsigned
      refine ⟨h.effect, ?_, hsigned', hadds, fun hwrites => ?_⟩
      · rw [h.own hown]
        cases call' <;> rfl
      · cases call' <;> cases hwrites
  | @publish succeeds | @respond succeeds | @publishReply succeeds =>
      cases succeeds with
      | true | false =>
          refine ⟨.none, hown, trivial, .nothing, ?_⟩
          intro hwrites
          cases hwrites
  | cancelPublish | cancelRespond | cancelReply =>
      refine ⟨.none, hown, trivial, .nothing, ?_⟩
      intro hwrites
      cases hwrites

end Exchange

/-! ## The ledger of the endpoint -/

/-- The exchange a handler is in. -/
def Session.exchanging {κ : Type*} : Session κ → Option (SendRequest × ExchangeCall)
  | .admitted _ (.exchanging request call) => some (request, call)
  | _ => none

/-- Where an exchange stands after a step: it may have ended. -/
def ExchangeCall.continuing (request : SendRequest) : ExchangeCall → Option (SendRequest × ExchangeCall)
  | .returned .. | .raised .. => none
  | call => some (request, call)

section Ledger

variable {ρ κ : Type*} {E : Endpoint ρ κ}

def Gateway.exchanging (w : Gateway ρ κ) (k : κ) : Option (SendRequest × ExchangeCall) :=
  (w.sockets k).session.exchanging

/-- The frames of a user that the limiter lets through at a step: one or none. -/
def Gateway.granted (user : UUID) (w : Gateway ρ κ) : GatewayEvent ρ κ → ℕ
  | .handler k (.limited true) =>
      match (w.sockets k).session with
      | .admitted authenticated (.limiting _) => if authenticated.userId = user then 1 else 0
      | _ => 0
  | _ => 0

/-- The frames of a user that the limiter lets through in a run. -/
def Gateway.grantedAlong [DecidableEq ρ] [DecidableEq κ] (E : Endpoint ρ κ) (user : UUID) :
    Gateway ρ κ → List (GatewayEvent ρ κ) → ℕ
  | _, [] => 0
  | w, e :: es => w.granted user e +
      match w.step E e with
      | some w' => grantedAlong E user w' es
      | none => 0

/-- The stored messages that a user has sent. -/
def Gateway.messagesBy (user : UUID) (w : Gateway ρ κ) : ℕ :=
  w.chat.store.messages.rows.countP fun m => m.senderId = some ⟨user⟩

/-- What a step does to the ledger: an exchange begins, or goes on, or nothing happens to it. -/
inductive LedgerMove [DecidableEq κ] (w : Gateway ρ κ) (e : GatewayEvent ρ κ) (w' : Gateway ρ κ) : Prop
  | keeps (hchat : w'.chat = w.chat) (hexchanging : w'.exchanging = w.exchanging)
  | starts {k : κ} {request : SendRequest} {authenticated : Authenticated} {frame : InboundFrame}
      (hevent : e = .handler k (.limited true))
      (hsession : (w.sockets k).session = .admitted authenticated (.limiting frame))
      (hsender : request.senderId = ⟨authenticated.userId⟩) (hchat : w'.chat = w.chat)
      (hexchanging : w'.exchanging =
        Function.update w.exchanging k (some (request, .writing .started)))
  | exchange {k : κ} {step : ExchangeStep} {request : SendRequest} {call call' : ExchangeCall}
      (hbefore : w.exchanging k = some (request, call))
      (h : ExchangeCase (fun _ => request) k w.chat step call w'.chat call')
      (hexchanging : w'.exchanging =
        Function.update w.exchanging k (call'.continuing request))

theorem exchanging_afterJoin (authenticated : Authenticated) (call : RegistryCall κ) :
    (Session.afterJoin authenticated call).exchanging = none := by
  unfold Session.afterJoin
  split
  · split <;> rfl
  · rfl
  · rfl

theorem exchanging_afterLeave (authenticated : Authenticated) (call : RegistryCall κ) :
    (Session.afterLeave authenticated call).exchanging = none := by
  unfold Session.afterLeave
  split <;> rfl

theorem exchanging_afterExchange (k : κ) (authenticated : Authenticated) (request : SendRequest)
    (call : ExchangeCall) :
    (Session.admitted authenticated (Stage.afterExchange E k request call)).exchanging =
      call.continuing request := by
  cases call with
  | raised error stored reply => cases error <;> rfl
  | writing | publishing | responding | replying | publishingReply | returned => rfl

theorem exchanging_afterLimit (k : κ) (now : Datetime) (authenticated : Authenticated)
    (frame : InboundFrame) :
    (Session.admitted authenticated (Stage.afterLimit E k now authenticated frame)).exchanging = none ∨
      ∃ request, request.senderId = ⟨authenticated.userId⟩ ∧
        (Session.admitted authenticated (Stage.afterLimit E k now authenticated frame)).exchanging =
          some (request, .writing .started) := by
  cases frame with
  | auth | invalid | notJson | raises => exact .inl rfl
  | messageSend content key =>
      simp only [Stage.afterLimit]
      cases MessageContent.ofString content with
      | error e => exact .inl rfl
      | ok content =>
          cases E.decodeAccess authenticated.token now with
          | none => exact .inl rfl
          | some userId => exact .inr ⟨_, rfl, rfl⟩

/-- A step of a handler starts an exchange, or its session has none before and after. -/
theorem HandlerMove.exchanging {k : κ} {view : View} {step : HandlerStep} {s s' : WebSocket κ}
    (h : HandlerMove E k view s step s') :
    s.session.exchanging = none ∧ (s'.session.exchanging = none ∨
      ∃ authenticated frame request, step = .limited true ∧
        s.session = .admitted authenticated (.limiting frame) ∧
        request.senderId = ⟨authenticated.userId⟩ ∧
        s'.session.exchanging = some (request, .writing .started)) := by
  cases h with
  | accepts hsession | gives hsession | letsIn hsession | refuses hsession =>
      rw [hsession]
      exact ⟨rfl, .inl rfl⟩
  | @authenticates frame hsession =>
      rw [hsession]
      refine ⟨rfl, .inl ?_⟩
      rcases authenticate_cases E view.now frame with hclosed | ⟨_, _, _, _, _, hauth⟩
      · simp only [hclosed]
        rfl
      · simp only [hauth]
        rfl
  | @serves _ authenticated stage stage' frame hsession h =>
      rw [hsession]
      cases h with
      | greets | greetFails | readsOn | receives | limits | answers => exact ⟨rfl, .inl rfl⟩
      | @readsLast cursor collected missed => cases missed <;> exact ⟨rfl, .inl rfl⟩
      | @replays message missed => cases missed <;> exact ⟨rfl, .inl rfl⟩
      | leaves hserving =>
          refine ⟨?_, .inl rfl⟩
          cases stage <;> first | rfl | cases hserving
      | @passes frame =>
          refine ⟨rfl, ?_⟩
          rcases exchanging_afterLimit (E := E) k view.now authenticated frame with
            hnone | ⟨request, hsender, hstarted⟩
          · exact .inl hnone
          · exact .inr ⟨authenticated, frame, request, rfl, rfl, hsender, hstarted⟩

section Move

variable [DecidableEq ρ] [DecidableEq κ] {w w' : Gateway ρ κ} {e : GatewayEvent ρ κ}

omit [DecidableEq ρ] in
theorem exchanging_setSocket (k : κ) (socket : WebSocket κ) :
    (w.setSocket k socket).exchanging =
      Function.update w.exchanging k socket.session.exchanging := by
  funext k'
  show (Function.update w.sockets k socket k').session.exchanging = _
  by_cases hk : k' = k
  · subst hk
    simp
  · simp [Function.update_of_ne hk, Gateway.exchanging]

omit [DecidableEq ρ] in
theorem exchanging_setSocket_same {k : κ} {socket : WebSocket κ}
    (h : socket.session.exchanging = w.exchanging k) :
    (w.setSocket k socket).exchanging = w.exchanging := by
  rw [exchanging_setSocket, h, Function.update_eq_self]

theorem gateway_ledger (h : GatewayMove E w e w') : LedgerMove w e w' := by
  cases h with
  | tick | conversations | reader => exact .keeps rfl rfl
  | @handler k step socket h =>
      obtain ⟨hbefore, hafter | ⟨a, frame, request, rfl, hsession, hsender, hafter⟩⟩ := h.exchanging
      · exact .keeps rfl (exchanging_setSocket_same (hafter.trans hbefore.symm))
      · exact .starts rfl hsession hsender rfl (by rw [exchanging_setSocket, hafter])
  | @joinStep k step a call call' registry hsession h =>
      have hbefore : w.exchanging k = none := by
        rw [Gateway.exchanging, hsession]
        rfl
      exact .keeps rfl (exchanging_setSocket_same ((exchanging_afterJoin a call').trans hbefore.symm))
  | @leaveStep k step a call call' registry hsession h =>
      have hbefore : w.exchanging k = none := by
        rw [Gateway.exchanging, hsession]
        rfl
      exact .keeps rfl (exchanging_setSocket_same ((exchanging_afterLeave a call').trans hbefore.symm))
  | @exchange k step a request call call' chat hsession h =>
      have hbefore : w.exchanging k = some (request, call) := by
        rw [Gateway.exchanging, hsession]
        rfl
      have hchat : (({ w with chat }).publish request.conversationId (call.published step)).chat =
          chat := by
        cases call.published step <;> rfl
      have hothers : (({ w with chat }).publish request.conversationId
          (call.published step)).exchanging = w.exchanging := by
        funext k'
        simp only [Gateway.exchanging, Gateway.publish_sockets]
      have hcase : ExchangeCase (fun _ => request) k w.chat step call
          (({ w with chat }).publish request.conversationId (call.published step)).chat call' := by
        rw [hchat]
        exact h
      refine .exchange hbefore hcase ?_
      rw [Gateway.setSession, exchanging_setSocket, hothers, exchanging_afterExchange]
  | delivered => exact .keeps rfl (exchanging_setSocket_same rfl)

/-! ## The invariants -/

/-- The message an exchange has open, if there is an exchange. -/
def openImages : Option (SendRequest × ExchangeCall) → List Message
  | none => []
  | some (_, call) => call.images

/-- The open messages are those of the exchanges, and signed. -/
structure LedgerInv (w : Gateway ρ κ) : Prop where
  distinct : w.chat.store.messages.Distinct Message.clash
  own : ∀ k, w.chat.store.messages.own k = openImages (w.exchanging k)
  signed : ∀ k request call, w.exchanging k = some (request, call) → call.Signed request.senderId

omit [DecidableEq ρ] in
theorem ledgerInv_init {row : ConversationId → Option ConversationModel}
    {participants : ConversationId → Finset ParticipantId} {stored : List Message} {lastSeq : Int}
    {now : Datetime} (hstored : stored.Pairwise fun a b => Message.clash a b = false) :
    LedgerInv (Gateway.init row participants stored lastSeq now : Gateway ρ κ) where
  distinct := by simpa [Gateway.init, Table.Distinct] using hstored
  own k := rfl
  signed k request call h := by cases h

omit [DecidableEq ρ] [DecidableEq κ] in
theorem openImages_continuing (request : SendRequest) (call : ExchangeCall) :
    openImages (call.continuing request) = call.images := by
  cases call <;> rfl

omit [DecidableEq ρ] [DecidableEq κ] in
theorem continuing_eq_some {request r : SendRequest} {call c : ExchangeCall}
    (h : call.continuing request = some (r, c)) : r = request ∧ c = call := by
  cases call with
  | returned | raised => cases h
  | writing | publishing | responding | replying | publishingReply => cases h; exact ⟨rfl, rfl⟩

omit [DecidableEq ρ] in
theorem LedgerInv.books (hw : LedgerInv w) {k : κ} {step : ExchangeStep} {request : SendRequest}
    {call call' : ExchangeCall} {chat : Chat κ} (hbefore : w.exchanging k = some (request, call))
    (h : ExchangeCase (fun _ => request) k w.chat step call chat call') :
    Books request.senderId k w.chat.store.messages chat.store.messages call call' := by
  have hown := hw.own k
  rw [hbefore] at hown
  exact h.books hw.distinct hown (hw.signed k request call hbefore)

omit [DecidableEq ρ] in
theorem ledgerInv_step (hw : LedgerInv w) (h : LedgerMove w e w') : LedgerInv w' := by
  cases h with
  | keeps hchat hexchanging =>
      refine ⟨?_, ?_, ?_⟩
      · rw [hchat]
        exact hw.distinct
      · rw [hchat, hexchanging]
        exact hw.own
      · rw [hexchanging]
        exact hw.signed
  | @starts k request a frame hevent hsession hsender hchat hexchanging =>
      have hbefore : w.exchanging k = none := by
        rw [Gateway.exchanging, hsession]
        rfl
      have hown := hw.own k
      rw [hbefore] at hown
      refine ⟨?_, ?_, ?_⟩
      · rw [hchat]
        exact hw.distinct
      · rw [hchat, hexchanging]
        exact (Function.forall_update_iff w.exchanging
          fun k exchange => w.chat.store.messages.own k = openImages exchange).2
          ⟨hown, fun k' _ => hw.own k'⟩
      · rw [hexchanging]
        refine (Function.forall_update_iff w.exchanging fun _ exchange => ∀ request call,
          exchange = some (request, call) → call.Signed request.senderId).2
          ⟨fun r c hstarted => ?_, fun k' _ => hw.signed k'⟩
        cases hstarted
        trivial
  | @exchange k step request call call' hbefore h hexchanging =>
      have hbooks := hw.books hbefore h
      refine ⟨hbooks.effect.distinct hw.distinct, ?_, ?_⟩
      · rw [hexchanging]
        refine (Function.forall_update_iff w.exchanging
          fun k exchange => w'.chat.store.messages.own k = openImages exchange).2
          ⟨?_, fun k' hk' => ?_⟩
        · rw [hbooks.own, openImages_continuing]
        · rw [hbooks.effect.own_of_ne hk']
          exact hw.own k'
      · rw [hexchanging]
        refine (Function.forall_update_iff w.exchanging fun _ exchange => ∀ request call,
          exchange = some (request, call) → call.Signed request.senderId).2
          ⟨fun r c hcontinues => ?_, fun k' _ => hw.signed k'⟩
        obtain ⟨rfl, rfl⟩ := continuing_eq_some hcontinues
        exact hbooks.signed

/-- The exchange may still commit a user message of this user. -/
def writesFor (user : UUID) : Option (SendRequest × ExchangeCall) → Bool
  | none => false
  | some (request, call) => decide (request.senderId = ⟨user⟩) && call.writes

/-- The messages of the user and the exchanges that may still commit one are at most `n`. -/
def WithinQuota (user : UUID) (w : Gateway ρ κ) (n : ℕ) : Prop :=
  ∃ writers : Finset κ, (∀ k, writesFor user (w.exchanging k) = true → k ∈ writers) ∧
    w.messagesBy user + writers.card ≤ n

omit [DecidableEq ρ] [DecidableEq κ] in
theorem WithinQuota.mono {user : UUID} {n n' : ℕ} (h : WithinQuota user w n) (hn : n ≤ n') :
    WithinQuota user w n' := by
  obtain ⟨writers, hopen, hcount⟩ := h
  exact ⟨writers, hopen, hcount.trans hn⟩

/-- What may still write after its step has not ended, and may write in its new state. -/
theorem writes_of_continuing {user : UUID} {request : SendRequest} {call : ExchangeCall}
    (h : writesFor user (call.continuing request) = true) :
    request.senderId = ⟨user⟩ ∧ call.writes = true := by
  cases hcontinues : call.continuing request with
  | none =>
      rw [hcontinues] at h
      cases h
  | some p =>
      obtain ⟨r, c⟩ := p
      obtain ⟨rfl, rfl⟩ := continuing_eq_some hcontinues
      rw [hcontinues] at h
      simpa [writesFor] using h

omit [DecidableEq ρ] in
/-- The writers after a step of `k`, if `k` is among them where it has to be. -/
theorem writers_update {user : UUID} {k : κ} {exchange : Option (SendRequest × ExchangeCall)}
    {writers : Finset κ} (hexchanging : w'.exchanging = Function.update w.exchanging k exchange)
    (hk : writesFor user exchange = true → k ∈ writers)
    (hopen : ∀ k' ≠ k, writesFor user (w.exchanging k') = true → k' ∈ writers) (k' : κ)
    (hwrites : writesFor user (w'.exchanging k') = true) : k' ∈ writers := by
  rw [hexchanging] at hwrites
  rcases eq_or_ne k' k with rfl | hne
  · rw [Function.update_self] at hwrites
    exact hk hwrites
  · rw [Function.update_of_ne hne] at hwrites
    exact hopen k' hne hwrites

omit [DecidableEq ρ] in
/-- A frame that is let through may begin an exchange: one writer more for one frame more. -/
theorem WithinQuota.starts {user : UUID} {n : ℕ} (hquota : WithinQuota user w n) {k : κ}
    {request : SendRequest} {sender : UUID} (hsender : request.senderId = ⟨sender⟩)
    (hchat : w'.chat = w.chat)
    (hexchanging : w'.exchanging =
      Function.update w.exchanging k (some (request, .writing .started))) :
    WithinQuota user w' (n + if sender = user then 1 else 0) := by
  obtain ⟨writers, hopen, hcount⟩ := hquota
  have hsame : w'.messagesBy user = w.messagesBy user := by
    rw [Gateway.messagesBy, hchat]
    rfl
  by_cases huser : sender = user
  · refine ⟨insert k writers, writers_update hexchanging (fun _ => Finset.mem_insert_self k _)
      (fun k' _ hwrites => Finset.mem_insert_of_mem (hopen k' hwrites)), ?_⟩
    have hcard := Finset.card_insert_le k writers
    rw [hsame, if_pos huser]
    omega
  · have hother : writesFor user (some (request, .writing .started)) = true → k ∈ writers := by
      intro hwrites
      refine absurd ?_ huser
      simpa [writesFor, ExchangeCall.writes, hsender] using hwrites
    refine ⟨writers, writers_update hexchanging hother (fun k' _ => hopen k'), ?_⟩
    rw [hsame]
    omega

omit [DecidableEq ρ] in
/-- An exchange that commits a message of its user is no longer open. -/
theorem WithinQuota.exchange {user : UUID} {n : ℕ} (hw : LedgerInv w)
    (hquota : WithinQuota user w n) {k : κ} {step : ExchangeStep} {request : SendRequest}
    {call call' : ExchangeCall} (hbefore : w.exchanging k = some (request, call))
    (h : ExchangeCase (fun _ => request) k w.chat step call w'.chat call')
    (hexchanging : w'.exchanging = Function.update w.exchanging k (call'.continuing request)) :
    WithinQuota user w' n := by
  obtain ⟨writers, hopen, hcount⟩ := hquota
  have hbooks := hw.books hbefore h
  have hothers : ∀ k', writesFor user (w'.exchanging k') = true → k' ∈ writers := by
    refine writers_update hexchanging (fun hwrites => hopen k ?_) (fun k' _ => hopen k')
    obtain ⟨hsender, hstill⟩ := writes_of_continuing hwrites
    rw [hbefore]
    simp [writesFor, hsender, hbooks.writes hstill]
  have hadds := hbooks.adds
  unfold Gateway.messagesBy at hcount
  generalize hrows : w'.chat.store.messages.rows = rows at hadds
  cases hadds with
  | nothing =>
      refine ⟨writers, hothers, ?_⟩
      rw [Gateway.messagesBy, hrows]
      exact hcount
  | @reply m hsender =>
      refine ⟨writers, hothers, ?_⟩
      rw [Gateway.messagesBy, hrows, List.countP_append]
      simpa [hsender] using hcount
  | @message m hsender hbeforeWrites hafter =>
      by_cases huser : request.senderId = ⟨user⟩
      · have hmine : writesFor user (w.exchanging k) = true := by
          rw [hbefore]
          simp [writesFor, huser, hbeforeWrites]
        have hmem := hopen k hmine
        refine ⟨writers.erase k, writers_update hexchanging (fun hwrites => ?_)
          (fun k' hne hwrites => Finset.mem_erase.2 ⟨hne, hopen k' hwrites⟩), ?_⟩
        · have hstill := (writes_of_continuing hwrites).2
          rw [hafter] at hstill
          cases hstill
        · have hcard := Finset.card_erase_add_one hmem
          have hone : [m].countP (fun m => m.senderId = some ⟨user⟩) = 1 := by
            simp [hsender, huser]
          rw [Gateway.messagesBy, hrows, List.countP_append, hone]
          omega
      · refine ⟨writers, hothers, ?_⟩
        have hzero : [m].countP (fun m => m.senderId = some ⟨user⟩) = 0 := by
          simp [hsender, huser]
        rw [Gateway.messagesBy, hrows, List.countP_append, hzero]
        exact hcount

omit [DecidableEq ρ] in
/-- A frame that is let through may begin an exchange; one that commits is no longer open. -/
theorem withinQuota_step {user : UUID} {n : ℕ} (hw : LedgerInv w) (hquota : WithinQuota user w n)
    (h : LedgerMove w e w') : WithinQuota user w' (n + w.granted user e) := by
  cases h with
  | keeps hchat hexchanging =>
      obtain ⟨writers, hopen, hcount⟩ := hquota
      refine ⟨writers, ?_, ?_⟩
      · rw [hexchanging]
        exact hopen
      · rw [Gateway.messagesBy, hchat]
        exact hcount.trans (Nat.le_add_right _ _)
  | @starts k request a frame hevent hsession hsender hchat hexchanging =>
      have hgranted : w.granted user e = if a.userId = user then 1 else 0 := by
        rw [hevent]
        simp only [Gateway.granted, hsession]
      rw [hgranted]
      exact hquota.starts hsender hchat hexchanging
  | exchange hbefore h hexchanging =>
      exact (hquota.exchange hw hbefore h hexchanging).mono (Nat.le_add_right _ _)

/-- The user messages of a user that a run adds, over all sockets and replicas, are at most as many as
    the frames of this user that the limiter lets through in it. -/
theorem withinQuota_run {user : UUID} {es : List (GatewayEvent ρ κ)} {n : ℕ} (hw : LedgerInv w)
    (hquota : WithinQuota user w n) (h : exec (Gateway.step E) w es = some w') :
    WithinQuota user w' (n + w.grantedAlong E user es) := by
  induction es generalizing w n with
  | nil =>
      cases h
      exact hquota
  | cons e es ih =>
      obtain ⟨v, hstep, hrest⟩ := exec_cons_eq_some.1 h
      have hmove := gateway_ledger (gateway_move hstep)
      have hstepped := withinQuota_step hw hquota hmove
      rw [Gateway.grantedAlong, hstep, ← Nat.add_assoc]
      exact ih (ledgerInv_step hw hmove) hstepped hrest

end Move

/-! ## The loop in the endpoint -/

/-- A frame as `Gateway` has it in the receive loop. -/
def ReceiveLoop.inbound {V : Type*} (L : ReceiveLoop V) (event : WsEvent) : InboundFrame :=
  match receiveJson L.codec event with
  | .ok (some raw) =>
      match L.codec.sendMessageFrame raw with
      | some (content, clientMessageId) => .messageSend content clientMessageId
      | none => .invalid
  | .ok none | .error .valueError => .notJson
  | .error _ => .raises

/-- Behind the limiter the endpoint starts the exchange that the loop comes to, or none. -/
theorem exchanging_inbound {V : Type*} (L : ReceiveLoop V) (k : κ) (now : Datetime) {t : Turn}
    {lastSeenSeq : Option Int} (hconversation : E.conversation k = L.conversation)
    (hframe : t.event.isFrame = true) (hreadable : t.event.Readable L.codec)
    (hallowed : t.allowed = true) (hvalid : t.tokenValid = (E.decodeAccess L.token now).isSome) :
    (Session.admitted ⟨L.senderId.value, L.token, lastSeenSeq⟩
        (Stage.afterLimit E k now ⟨L.senderId.value, L.token, lastSeenSeq⟩
          (L.inbound t.event))).exchanging =
      (L.passed t).map fun request => (request, .writing .started) := by
  obtain ⟨text, hevent, hloads⟩ := WsEvent.readable_frame L.codec hframe hreadable
  unfold ReceiveLoop.inbound ReceiveLoop.passed ReceiveLoop.asked ReceiveLoop.value
  rw [hevent]
  simp only [receiveJson]
  rcases hloads with hloads | ⟨raw, hloads⟩
  · simp [hloads, Except.toOption]
    rfl
  · rw [hloads]
    cases raw with
    | none =>
        simp [Except.toOption]
        rfl
    | some raw =>
        simp only [Except.toOption, Option.join_some, Option.bind_some, ReceiveLoop.message]
        cases hsend : L.codec.sendMessageFrame raw with
        | none =>
            simp [hallowed]
            rfl
        | some p =>
            obtain ⟨content, key⟩ := p
            simp only [Option.bind_eq_bind, Option.bind_some, Stage.afterLimit]
            cases MessageContent.ofString content with
            | error e =>
                simp
                rfl
            | ok content =>
                cases hdecode : E.decodeAccess L.token now with
                | none =>
                    simp [hvalid, hdecode]
                    rfl
                | some userId =>
                    simp [hallowed, hvalid, hdecode, ReceiveLoop.request, hconversation]
                    rfl

section Result

variable [DecidableEq ρ] [DecidableEq κ]

/-- What a handler does outside its exchange touches neither the store, nor the assistant, nor a
    channel. -/
theorem handler_untouched {w w' : Gateway ρ κ} {k : κ} {step : HandlerStep}
    (h : w.step E (.handler k step) = some w') : w'.chat = w.chat ∧ w'.replicas = w.replicas := by
  obtain ⟨socket, -, rfl⟩ := Option.map_eq_some_iff.1 h
  exact ⟨rfl, rfl⟩

/-- The loop answers frame after frame as it owes, and returns at the first that finds the token
    expired. In the endpoint, behind the limiter, it is in an exchange just for a frame that has
    passed every check, and whatever it does otherwise leaves the store, the assistant and the
    channels alone. So a user adds at most as many messages, over all sockets and replicas, as frames
    of theirs are let through. -/
theorem receiveLoop_refines {V : Type*} (L : ReceiveLoop V) {turns : List Turn}
    (htexts : ∀ t ∈ turns, ∃ body, t.event = .text body ∧
      L.codec.loads body ≠ .error .recursionError)
    {row : ConversationId → Option ConversationModel}
    {participants : ConversationId → Finset ParticipantId} {stored : List Message} {lastSeq : Int}
    {now : Datetime} (hstored : stored.Pairwise fun a b => Message.clash a b = false)
    {es : List (GatewayEvent ρ κ)} {w : Gateway ρ κ}
    (hrun : exec (Gateway.step E) (Gateway.init row participants stored lastSeq now) es = some w) :
    (List.Forall₂ L.Answers (L.served turns) (L.run turns).1 ∧
      (L.run turns).2 = if turns.any L.expires then some .returned else none) ∧
    (∀ t ∈ turns, t.allowed = true → ∀ (k : κ) (now : Datetime) (lastSeenSeq : Option Int),
      E.conversation k = L.conversation →
      t.tokenValid = (E.decodeAccess L.token now).isSome →
      (Session.admitted ⟨L.senderId.value, L.token, lastSeenSeq⟩
          (Stage.afterLimit E k now ⟨L.senderId.value, L.token, lastSeenSeq⟩
            (L.inbound t.event))).exchanging =
        (L.passed t).map fun request => (request, .writing .started)) ∧
    (∀ (k : κ) (step : HandlerStep) (w' : Gateway ρ κ), w.step E (.handler k step) = some w' →
      w'.chat = w.chat ∧ w'.replicas = w.replicas) ∧
    ∀ user, w.messagesBy user ≤ (stored.countP fun m => m.senderId = some ⟨user⟩) +
      (Gateway.init row participants stored lastSeq now).grantedAlong E user es := by
  have hturns : ∀ t ∈ turns, t.event.isFrame = true ∧ t.event.Readable L.codec := by
    intro t ht
    obtain ⟨body, hbody, hloads⟩ := htexts t ht
    rw [hbody]
    exact ⟨rfl, hloads⟩
  refine ⟨L.run_answers hturns, ?_, fun k step w' h => handler_untouched h, fun user => ?_⟩
  · intro t ht hallowed k now lastSeenSeq hconversation hvalid
    obtain ⟨hframe, hreadable⟩ := hturns t ht
    exact exchanging_inbound L k now hconversation hframe hreadable hallowed hvalid
  · have hnone : WithinQuota user
        (Gateway.init row participants stored lastSeq now : Gateway ρ κ)
        (stored.countP fun m => m.senderId = some ⟨user⟩) :=
      ⟨∅, fun k hwrites => absurd hwrites Bool.false_ne_true, le_refl _⟩
    obtain ⟨writers, -, hcount⟩ := withinQuota_run (ledgerInv_init hstored) hnone hrun
    omega

end Result

end Ledger

/-- One socket sends one message. -/
theorem receiveLoop_refines_sendsMessage :
    List.Forall₂ plainLoop.Answers plainTurns (plainLoop.run plainTurns).1 ∧
      ∃ w, exec (Gateway.step twoConversations) (Gateway.init ownConversation ownParticipants [] 0
          ⟨0, 0⟩) (connects false "ten" ++ sendsMessage false) = some w ∧
        w.messagesBy 10 = 1 ∧
        w.messagesBy 10 ≤ 0 + (Gateway.init ownConversation ownParticipants [] 0 ⟨0, 0⟩).grantedAlong
          twoConversations 10 (connects false "ten" ++ sendsMessage false) := by
  have htexts : ∀ t ∈ plainTurns, ∃ body, t.event = .text body ∧
      plainLoop.codec.loads body ≠ .error .recursionError := by
    simp [plainTurns, plainLoop, plainCodec_loads]
  obtain ⟨w, hrun, hone⟩ := exec_reaches (Gateway.step twoConversations)
    (Gateway.init ownConversation ownParticipants [] 0 ⟨0, 0⟩)
    (connects false "ten" ++ sendsMessage false) (fun w => w.messagesBy 10 = 1) (by decide)
  obtain ⟨⟨hanswers, -⟩, -, -, hquota⟩ :=
    receiveLoop_refines plainLoop htexts List.Pairwise.nil hrun
  have hserved : plainLoop.served plainTurns = plainTurns := by
    simp [plainTurns, ReceiveLoop.served, ReceiveLoop.expires]
  rw [hserved] at hanswers
  exact ⟨hanswers, w, hrun, hone, hquota 10⟩

end Dizzchat
