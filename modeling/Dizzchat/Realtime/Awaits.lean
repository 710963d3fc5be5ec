import Dizzchat.Realtime.Cancellation

set_option autoImplicit false

/-! # The endpoint, await by await

What a run of the endpoint does on one replica is a run of the sockets of that replica: a handler of
`Gateway` is one of `Cancellation` whose closing of a socket takes no time. It is never cancelled
inside the registry, so it leaves no connection behind (`closed_not_registered`). -/

namespace Dizzchat

open Transition

variable {ρ κ : Type*}

/-- Where a handler waits that is at a stage. -/
def Stage.await (lastSeenSeq : Option Int) : Stage κ → Await κ
  | .greeting => .greeting lastSeenSeq
  | .joining call => .joining lastSeenSeq call
  | .replaying .. => .replaying
  | .sending missed => .sending missed
  | .receiving => .receiving
  | .limiting _ => .limiting
  | .exchanging .. => .exchanging
  | .answering _ => .answering
  | .leaving call => .leaving call

def Session.await : Session κ → Await κ
  | .connecting => .accepting
  | .authenticating => .authenticating
  | .authorizing authenticated => .ensuring authenticated.lastSeenSeq
  | .admitted authenticated stage => stage.await authenticated.lastSeenSeq
  | .closed => .ended

/-- What one await after another comes back with. -/
def ConversationWs.awaited (c : ConversationId) (k : κ) (a : Await κ) :
    Answer ⊕ Raised → Option (Await κ)
  | .inl answer => ConversationWs.returned c k answer a
  | .inr raised => ConversationWs.raised c k raised a

/-- A handler comes from one await to another, by itself. -/
def Await.Reaches (c : ConversationId) (k : κ) (a a' : Await κ) : Prop :=
  ∃ answers, exec (ConversationWs.awaited c k) a answers = some a'

namespace Await.Reaches

variable {c : ConversationId} {k : κ}

theorem refl (a : Await κ) : Await.Reaches c k a a := ⟨[], rfl⟩

theorem one {a a' : Await κ} (answer : Answer ⊕ Raised)
    (h : ConversationWs.awaited c k a answer = some a') : Await.Reaches c k a a' :=
  ⟨[answer], exec_cons_eq_some.2 ⟨a', h, rfl⟩⟩

theorem two {a a₁ a' : Await κ} (answer answer' : Answer ⊕ Raised)
    (h : ConversationWs.awaited c k a answer = some a₁)
    (h' : ConversationWs.awaited c k a₁ answer' = some a') : Await.Reaches c k a a' :=
  ⟨[answer, answer'], exec_cons_eq_some.2 ⟨a₁, h, exec_cons_eq_some.2 ⟨a', h', rfl⟩⟩⟩

end Await.Reaches

/-! ## A handler -/

section Handler

variable {E : Endpoint ρ κ} {k : κ}

/-- The steps of an admitted handler. -/
theorem serve_reaches {view : View} {authenticated : Authenticated} {step : HandlerStep}
    {stage : Stage κ} {stage' : Option (Stage κ)} {frame : Option OutboundFrame}
    (h : ServeMove E k view authenticated step stage stage' frame) :
    Await.Reaches (E.conversation k) k (stage.await authenticated.lastSeenSeq)
      (stage'.elim .ended (Stage.await authenticated.lastSeenSeq)) := by
  have hmissed : ∀ missed : List Message,
      (Stage.afterMissed missed : Stage κ).await authenticated.lastSeenSeq =
        .afterMissed missed := by
    intro missed
    cases missed <;> rfl
  cases h with
  | greets => exact .one (.inl .sent) rfl
  | greetFails => exact .one (.inr .exception) rfl
  | readsOn => exact .refl _
  | @readsLast _ _ missed =>
      refine .one (.inl (.missed missed)) ?_
      simp only [Option.elim, hmissed]
      rfl
  | @replays _ missed =>
      refine .one (.inl .sent) ?_
      simp only [Option.elim, hmissed]
      rfl
  | leaves hserving =>
      refine .one (.inr .webSocketDisconnect) ?_
      cases stage <;> first | rfl | cases hserving
  | receives => exact .one (.inl .received) rfl
  | limits => exact .one (.inl (.limited .refuse)) rfl
  | @passes frame =>
      cases frame with
      | messageSend content clientMessageId =>
          simp only [Stage.afterLimit]
          split
          · exact .one (.inl (.limited .refuse)) rfl
          · split
            · exact .two (.inl (.limited .expire)) (.inl .closed) rfl rfl
            · exact .one (.inl (.limited .exchange)) rfl
      | notJson | auth | invalid | raises => exact .one (.inl (.limited .refuse)) rfl
  | answers => exact .one (.inl .sent) rfl

theorem handler_reaches {view : View} {step : HandlerStep} {s s' : WebSocket κ}
    (h : HandlerMove E k view s step s') :
    Await.Reaches (E.conversation k) k s.session.await s'.session.await := by
  cases h with
  | accepts hsession =>
      rw [hsession]
      exact .one (.inl .accepted) rfl
  | @authenticates frame hsession =>
      rw [hsession]
      rcases authenticate_cases E view.now frame with hclosed | ⟨_, _, _, -, -, hauth⟩
      · simp only [hclosed]
        exact .two (.inl .notAuthenticated) (.inl .closed) rfl rfl
      · simp only [hauth]
        exact .one (.inl (.authenticated _)) rfl
  | gives hsession =>
      rw [hsession]
      exact .one (.inr .webSocketDisconnect) rfl
  | letsIn hsession =>
      rw [hsession]
      exact .one (.inl .ensured) rfl
  | refuses hsession =>
      rw [hsession]
      exact .one (.inr .exception) rfl
  | @serves _ authenticated stage stage' _ hsession h =>
      rw [hsession]
      have hreaches := serve_reaches h
      cases stage' <;> exact hreaches

theorem afterJoin_reaches (authenticated : Authenticated) (call : RegistryCall κ) :
    Await.Reaches (E.conversation k) k (.afterJoin authenticated.lastSeenSeq call)
      (Session.afterJoin authenticated call).await := by
  cases call with
  | returned =>
      simp only [Session.afterJoin]
      cases authenticated.lastSeenSeq <;> exact .refl _
  | raised => exact .one (.inl .closed) rfl
  | waitingJoin | subscribing | waitingLeave | unsubscribing => exact .refl _

theorem afterLeave_await (authenticated : Authenticated) (call : RegistryCall κ) :
    (Session.afterLeave authenticated call).await = Await.afterLeave call := by
  cases call <;> rfl

theorem afterExchange_reaches (lastSeenSeq : Option Int) (request : SendRequest)
    (call : ExchangeCall) :
    Await.Reaches (E.conversation k) k .exchanging
      ((Stage.afterExchange E k request call).await lastSeenSeq) := by
  cases call with
  | returned => exact .one (.inl .exchanged) rfl
  | raised failure =>
      cases failure with
      | cancelled => exact .one (.inr .cancelledError) rfl
      | _ => exact .one (.inr .exception) rfl
  | _ => exact .refl _

end Handler

/-! ## A replica of the endpoint -/

/-- An await outside the registry comes back. -/
def SocketsEvent.ofAnswer (k : κ) : Answer ⊕ Raised → SocketsEvent κ
  | .inl answer => .returned k answer
  | .inr exc => .raised k exc

/-- The task of a handler is not cancelled inside the registry. -/
def SocketsEvent.uncancelled : SocketsEvent κ → Bool
  | .cancelled .. => false
  | _ => true

section Sockets

variable [DecidableEq κ]

/-- What a handler does by itself it does on its replica. -/
theorem exec_awaited {conversation : κ → ConversationId} {k : κ} {answers : List (Answer ⊕ Raised)}
    {w : Sockets κ} {a' : Await κ}
    (h : exec (ConversationWs.awaited (conversation k) k) (w.awaits k) answers = some a') :
    exec (Sockets.step conversation) w (answers.map (SocketsEvent.ofAnswer k)) =
      some (w.goOn k w.replica.registry a') := by
  induction answers generalizing w with
  | nil =>
      obtain rfl := Option.some.inj h
      simp [exec, Sockets.goOn]
  | cons answer answers ih =>
      obtain ⟨a, ha, hrest⟩ := exec_cons_eq_some.1 h
      have hstep : Sockets.step conversation w (SocketsEvent.ofAnswer k answer) =
          some (w.goOn k w.replica.registry a) := by
        cases answer <;> exact Option.map_eq_some_iff.2 ⟨a, ha, rfl⟩
      rw [List.map_cons]
      refine exec_cons_eq_some.2 ⟨_, hstep, ?_⟩
      rw [ih (w := w.goOn k w.replica.registry a) (by simpa [Sockets.goOn] using hrest)]
      simp [Sockets.goOn]

/-- What a handler does by itself it does without a cancellation. -/
theorem Await.Reaches.exec_step {conversation : κ → ConversationId} {k : κ} {w : Sockets κ}
    {a' : Await κ} (h : Await.Reaches (conversation k) k (w.awaits k) a') :
    ∃ es, (∀ e ∈ es, SocketsEvent.uncancelled e = true) ∧
      exec (Sockets.step conversation) w es = some (w.goOn k w.replica.registry a') := by
  obtain ⟨answers, hrun⟩ := h
  refine ⟨_, fun e he => ?_, exec_awaited hrun⟩
  obtain ⟨answer, -, rfl⟩ := List.mem_map.1 he
  cases answer <;> rfl

/-- A step of a handler in the registry, and what it does by itself after it. -/
theorem Await.Reaches.exec_registry {conversation : κ → ConversationId} {k : κ}
    {step : RegistryStep} {w : Sockets κ} {registry : ConversationRegistry κ κ} {a a' : Await κ}
    (h : Await.Reaches (conversation k) k a a')
    (hstep : Sockets.step conversation w (.registry k step) = some (w.goOn k registry a)) :
    ∃ es, (∀ e ∈ es, SocketsEvent.uncancelled e = true) ∧
      exec (Sockets.step conversation) w es = some (w.goOn k registry a') := by
  have hafter : Await.Reaches (conversation k) k ((w.goOn k registry a).awaits k) a' := by
    simpa [Sockets.goOn] using h
  obtain ⟨es, hes, hrun⟩ := hafter.exec_step
  refine ⟨.registry k step :: es, by simpa using ⟨rfl, hes⟩, exec_cons_eq_some.2 ⟨_, hstep, ?_⟩⟩
  rw [hrun]
  simp [Sockets.goOn]

end Sockets

section Gateway

variable [DecidableEq ρ] [DecidableEq κ]

/-- A replica of the endpoint, and the handlers of its sockets. -/
def Gateway.socketsOf (E : Endpoint ρ κ) (r : ρ) (w : Gateway ρ κ) : Sockets κ where
  replica := w.replicas r
  awaits k := if E.replica k = r then (w.sockets k).session.await else .accepting

variable {E : Endpoint ρ κ} {r : ρ} {w w' : Gateway ρ κ} {e : GatewayEvent ρ κ}

/-- A socket that changes is seen on its own replica. -/
theorem awaits_setSocket (v : Gateway ρ κ) (k k' : κ) (socket : WebSocket κ) :
    ((v.setSocket k socket).socketsOf E r).awaits k' =
      if k' = k then (if E.replica k = r then socket.session.await else .accepting)
      else (v.socketsOf E r).awaits k' := by
  simp only [Gateway.socketsOf, Gateway.setSocket]
  rcases eq_or_ne k' k with rfl | hne
  · simp
  · simp [hne]

/-- A handler of the replica goes on. -/
theorem socketsOf_goOn {k : κ} (hk : E.replica k = r) {v : Gateway ρ κ}
    {registry : ConversationRegistry κ κ} (hreplica : v.replicas r = { w.replicas r with registry })
    (hsockets : v.sockets = w.sockets) (socket : WebSocket κ) :
    (v.setSocket k socket).socketsOf E r =
      (w.socketsOf E r).goOn k registry socket.session.await := by
  refine Sockets.ext hreplica (funext fun k' => ?_)
  rw [awaits_setSocket]
  rcases eq_or_ne k' k with rfl | hne
  · rw [if_pos rfl, if_pos hk, Sockets.goOn_awaits_self]
  · rw [if_neg hne, Sockets.goOn_awaits_of_ne hne]
    simp only [Gateway.socketsOf, hsockets]

/-- A handler of another replica goes on. -/
theorem socketsOf_other {k : κ} (hk : E.replica k ≠ r) {v : Gateway ρ κ}
    (hreplica : v.replicas r = w.replicas r) (hsockets : v.sockets = w.sockets)
    (socket : WebSocket κ) :
    (v.setSocket k socket).socketsOf E r = w.socketsOf E r := by
  refine Sockets.ext hreplica (funext fun k' => ?_)
  rw [awaits_setSocket]
  rcases eq_or_ne k' k with rfl | hne
  · rw [if_pos rfl, if_neg hk]
    exact (if_neg hk).symm
  · rw [if_neg hne]
    simp only [Gateway.socketsOf, hsockets]

/-- The frames of a socket are not what its handler waits for. -/
theorem socketsOf_frames {k : κ} {v : Gateway ρ κ} {socket : WebSocket κ}
    (hsession : socket.session = (v.sockets k).session) :
    (v.setSocket k socket).socketsOf E r = v.socketsOf E r := by
  refine Sockets.ext rfl (funext fun k' => ?_)
  rw [awaits_setSocket]
  rcases eq_or_ne k' k with rfl | hne
  · rw [if_pos rfl, hsession]
    rfl
  · rw [if_neg hne]

omit [DecidableEq κ] in
theorem socketsOf_awaits {k : κ} (hk : E.replica k = r) :
    (w.socketsOf E r).awaits k = (w.sockets k).session.await := if_pos hk

theorem Gateway.registryStep_eq_some {k : κ} {step : RegistryStep} {call : RegistryCall κ}
    {after : RegistryCall κ → Session κ} (h : w.registryStep E k step call after = some w') :
    ∃ registry call',
      ConversationRegistry.call k step (w.replicas (E.replica k)).registry call =
        some (registry, call') ∧
      w' = (w.setReplica (E.replica k) { w.replicas (E.replica k) with registry }).setSession k
        (after call') := by
  obtain ⟨⟨registry, call'⟩, hcall, rfl⟩ := Option.map_eq_some_iff.1 h
  exact ⟨registry, call', hcall, rfl⟩

variable (E r w w') in
/-- What the endpoint comes to, the sockets of the replica come to without a cancellation. -/
def Gateway.Follows : Prop :=
  ∃ es, (∀ e ∈ es, SocketsEvent.uncancelled e = true) ∧
    exec (Sockets.step E.conversation) (w.socketsOf E r) es = some (w'.socketsOf E r)

theorem Gateway.follows_of_eq (h : w'.socketsOf E r = w.socketsOf E r) : w.Follows E r w' :=
  ⟨[], by simp, by rw [h]; rfl⟩

theorem Gateway.follows_one {e : SocketsEvent κ} (he : e.uncancelled = true)
    (h : Sockets.step E.conversation (w.socketsOf E r) e = some (w'.socketsOf E r)) :
    w.Follows E r w' :=
  ⟨[e], by simpa using he, exec_cons_eq_some.2 ⟨_, h, rfl⟩⟩

theorem Gateway.Follows.trans {v : Gateway ρ κ} (h : w.Follows E r v) (h' : v.Follows E r w') :
    w.Follows E r w' := by
  obtain ⟨es, hes, hrun⟩ := h
  obtain ⟨es', hes', hrun'⟩ := h'
  refine ⟨es ++ es', fun e he => ?_, exec_append_eq_some.2 ⟨_, hrun, hrun'⟩⟩
  exact (List.mem_append.1 he).elim (hes e) (hes' e)

theorem Gateway.follows_goOn {k : κ} (hk : E.replica k = r) {v : Gateway ρ κ}
    {registry : ConversationRegistry κ κ} {socket : WebSocket κ}
    (hreplica : v.replicas r = { w.replicas r with registry }) (hsockets : v.sockets = w.sockets)
    (h : ∃ es, (∀ e ∈ es, SocketsEvent.uncancelled e = true) ∧
      exec (Sockets.step E.conversation) (w.socketsOf E r) es =
        some ((w.socketsOf E r).goOn k registry socket.session.await)) :
    w.Follows E r (v.setSocket k socket) := by
  unfold Gateway.Follows
  rw [socketsOf_goOn hk hreplica hsockets]
  exact h

/-- A step of `join` or `leave`, with what comes after it. -/
theorem follows_registry {k : κ} {step : RegistryStep} {call : RegistryCall κ}
    {after : RegistryCall κ → Session κ} {after' : RegistryCall κ → Await κ}
    (h : w.registryStep E k step call after = some w')
    (hstep : ∀ registry call',
      ConversationRegistry.call k step (w.replicas (E.replica k)).registry call =
        some (registry, call') →
      Sockets.step E.conversation (w.socketsOf E (E.replica k)) (.registry k step) =
        some ((w.socketsOf E (E.replica k)).goOn k registry (after' call')))
    (hafter : ∀ call', Await.Reaches (E.conversation k) k (after' call') (after call').await)
    (r : ρ) : w.Follows E r w' := by
  obtain ⟨registry, call', hcall, rfl⟩ := Gateway.registryStep_eq_some h
  unfold Gateway.setSession
  by_cases hk : E.replica k = r
  · subst hk
    have hrun := (hafter call').exec_registry (hstep registry call' hcall)
    exact Gateway.follows_goOn rfl (by simp [Gateway.setReplica]) rfl hrun
  · refine Gateway.follows_of_eq ?_
    refine socketsOf_other hk ?_ ?_ _
    · simp [Gateway.setReplica, Ne.symm hk]
    · rfl

/-- A step of an exchange: its message may be published, and the handler may go on. -/
theorem follows_exchange {k : κ} {authenticated : Authenticated} {request : SendRequest}
    {call : ExchangeCall}
    (hsession : (w.sockets k).session = .admitted authenticated (.exchanging request call))
    {chat : Chat κ} (message : Option Message) (call' : ExchangeCall) (r : ρ) :
    w.Follows E r ((({ w with chat }).publish request.conversationId message).setSession k
      (.admitted authenticated (Stage.afterExchange E k request call'))) := by
  have hpublish : w.Follows E r (({ w with chat }).publish request.conversationId message) := by
    cases message with
    | none => exact Gateway.follows_of_eq rfl
    | some message =>
        exact Gateway.follows_one (e := .published request.conversationId message) rfl rfl
  refine hpublish.trans ?_
  by_cases hk : E.replica k = r
  · refine Gateway.follows_goOn hk rfl rfl (Await.Reaches.exec_step ?_)
    rw [socketsOf_awaits hk, Gateway.publish_sockets, hsession]
    exact afterExchange_reaches _ request call'
  · refine Gateway.follows_of_eq ?_
    exact socketsOf_other hk rfl rfl _

/-- What the endpoint does in a step, the sockets of a replica do in a run. -/
theorem step_follows (h : w.step E e = some w') (r : ρ) : w.Follows E r w' := by
  cases e with
  | tick elapsed =>
      cases h
      exact Gateway.follows_of_eq rfl
  | conversations row participants =>
      cases h
      exact Gateway.follows_of_eq rfl
  | handler k step =>
      obtain ⟨socket, hstep, rfl⟩ := Option.map_eq_some_iff.1 h
      by_cases hk : E.replica k = r
      · refine Gateway.follows_goOn hk rfl rfl (Await.Reaches.exec_step ?_)
        rw [socketsOf_awaits hk]
        exact handler_reaches (handler_move hstep)
      · exact Gateway.follows_of_eq (socketsOf_other hk rfl rfl socket)
  | registry k step =>
      simp only [Gateway.step] at h
      split at h
      · next authenticated call hsession =>
          refine follows_registry h (fun registry call' hcall => ?_)
            (afterJoin_reaches authenticated) r
          simp only [Sockets.step, socketsOf_awaits, hsession, Session.await, Stage.await]
          exact Option.map_eq_some_iff.2 ⟨_, hcall, rfl⟩
      · next authenticated call hsession =>
          have hleft : ∀ call', Await.Reaches (E.conversation k) k (Await.afterLeave call')
              (Session.afterLeave authenticated call').await := by
            intro call'
            rw [afterLeave_await]
            exact .refl _
          refine follows_registry h (fun registry call' hcall => ?_) hleft r
          simp only [Sockets.step, socketsOf_awaits, hsession, Session.await, Stage.await]
          exact Option.map_eq_some_iff.2 ⟨_, hcall, rfl⟩
      · cases h
  | exchange k step =>
      simp only [Gateway.step] at h
      split at h
      · next authenticated request call hsession =>
          obtain ⟨⟨chat, call'⟩, -, rfl⟩ := Option.map_eq_some_iff.1 h
          exact follows_exchange hsession _ _ r
      · cases h
  | reader r' step =>
      obtain ⟨replica, hread, rfl⟩ := Option.map_eq_some_iff.1 h
      rcases eq_or_ne r' r with rfl | hr
      · refine Gateway.follows_one (e := .reader step) rfl ?_
        refine Option.map_eq_some_iff.2 ⟨replica, hread, ?_⟩
        simp [Gateway.socketsOf, Gateway.setReplica]
      · refine Gateway.follows_of_eq ?_
        simp [Gateway.socketsOf, Gateway.setReplica, hr.symm]
  | delivered r' k succeeds =>
      simp only [Gateway.step] at h
      split at h
      · next b hreader =>
          obtain ⟨replica, hdelivered, rfl⟩ := Option.map_eq_some_iff.1 h
          have hframes : ∀ (v : Gateway ρ κ) (frames : List OutboundFrame),
              (v.setSocket k { v.sockets k with frames }).socketsOf E r = v.socketsOf E r :=
            fun v frames => socketsOf_frames rfl
          rcases eq_or_ne r' r with rfl | hr
          · refine Gateway.follows_one (e := .delivered k succeeds) rfl ?_
            refine Option.map_eq_some_iff.2 ⟨replica, hdelivered, ?_⟩
            refine Eq.trans ?_ (hframes (w.setReplica r' replica) _).symm
            simp [Gateway.socketsOf, Gateway.setReplica]
          · refine Gateway.follows_of_eq ((hframes (w.setReplica r' replica) _).trans ?_)
            simp [Gateway.socketsOf, Gateway.setReplica, hr.symm]
      · cases h

/-- What the endpoint does in a run, the sockets of a replica do in one of theirs. -/
theorem exec_follows {es : List (GatewayEvent ρ κ)} (h : exec (Gateway.step E) w es = some w')
    (r : ρ) : w.Follows E r w' := by
  refine exec_simulated (f := Gateway.socketsOf E r)
    (C := fun e => SocketsEvent.uncancelled e = true) ?_ h
  intro v e v' hstep
  exact step_follows hstep r

/-- A handler of the endpoint that has ended has its connection in no map. -/
theorem closed_not_registered {row : ConversationId → Option ConversationModel}
    {participants : ConversationId → Finset ParticipantId} {stored : List Message} {lastSeq : Int}
    {now : Datetime} {es : List (GatewayEvent ρ κ)}
    (h : exec (Gateway.step E) (Gateway.init row participants stored lastSeq now) es = some w)
    {k : κ} (hclosed : (w.sockets k).session = .closed) (c : ConversationId) :
    k ∉ (w.replicas (E.replica k)).registry.manager.registered c := by
  obtain ⟨es', hes', hrun⟩ := exec_follows h (E.replica k)
  have hinit : (Gateway.init row participants stored lastSeq now : Gateway ρ κ).socketsOf E
      (E.replica k) = Sockets.init := by
    have hawaits : ((Gateway.init row participants stored lastSeq now : Gateway ρ κ).socketsOf E
        (E.replica k)).awaits = fun _ => .accepting := by
      funext k'
      exact ite_self _
    simp only [Gateway.socketsOf] at hawaits ⊢
    rw [hawaits]
    rfl
  rw [hinit] at hrun
  have hspares : StepsMeet (Sockets.step E.conversation) (Sockets.Spares E.conversation)
      Sockets.init es' := by
    refine (StepsMeet.of_forall hes').mono ?_
    intro v e he
    cases e <;> trivial
  have hinv : SocketsInv E.conversation (w.socketsOf E (E.replica k)) :=
    exec_invariant_of_stepsMeet (fun v e v' hv hspares hstep => hv.step hspares hstep)
      SocketsInv.init hspares hrun
  exact hinv.released k (by rw [socketsOf_awaits rfl, hclosed]; rfl) c

end Gateway

end Dizzchat
