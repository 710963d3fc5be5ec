import Dizzchat.Realtime.Cancellation
import Dizzchat.Realtime.ReceiveLoop

set_option autoImplicit false

/-! # The writes of one socket

Every send and close on the WebSocket of a connection, from the moment its `Connection` is made: those
of its handler, of any number of broadcasts, and of the drain. A handler is `conversation_ws` await by
await, as in `Cancellation`; here an await that writes starts its write and ends it, and a write through
`Connection` starts with the lock in hand.

The close for an expired token goes past the lock. Writes overlap by it, and only by it
(`writes_exclusive_iff`). -/

namespace Dizzchat

open Transition

variable {κ τ : Type*}

/-! ## What is written -/

/-- A call on a WebSocket. -/
inductive Write
  | send
  | close (code : ℕ)
deriving DecidableEq

/-- Through `Connection`, which takes its lock, or on the WebSocket itself. -/
inductive Via
  | connection
  | webSocket
deriving DecidableEq

def forbiddenClose : ℕ := 4403

/-- The send or the close that a handler waits for. -/
def Await.write : Await κ → Option (Via × Write)
  | .unauthenticated | .expiring => some (.webSocket, .close authFailedClose)
  | .forbidden => some (.webSocket, .close forbiddenClose)
  | .greeting _ | .sending _ | .answering => some (.connection, .send)
  | .unjoined | .failing => some (.connection, .close internalErrorClose)
  | .accepting | .authenticating | .ensuring _ | .joining .. | .replaying | .receiving | .limiting
  | .exchanging | .leaving _ | .ended => none

/-- The `Connection` has been made. -/
def Await.connected : Await κ → Bool
  | .accepting | .authenticating | .unauthenticated | .ensuring _ | .forbidden => false
  | .greeting _ | .joining .. | .unjoined | .replaying | .sending _ | .receiving | .limiting
  | .exchanging | .answering | .expiring | .failing | .leaving _ | .ended => true

/-- Who writes: the handler of the socket, and the tasks that broadcast or drain. -/
inductive Writer (τ : Type*)
  | handler
  | task (t : τ)
deriving DecidableEq

/-! ## The system -/

structure Wire (κ τ : Type*) where
  await : Await κ
  /-- What the other tasks call on the connection: `broadcast` sends, and `close_all` closes. -/
  calls : τ → Option Write
  /-- `Connection._lock`. -/
  lock : Option (Writer τ)
  /-- Whose send or close on the WebSocket is in progress. -/
  writing : Finset (Writer τ)

inductive WireEvent (κ τ : Type*)
  | returned (answer : Answer)
  | raised (raised : Raised)
  /-- The registry has brought the call of the handler so far. -/
  | registry (call : RegistryCall κ)
  /-- The task of the handler is cancelled where it waits. -/
  | cancelled
  | calls (t : τ) (write : Write)
  /-- The write starts that the handler or another task waits for. -/
  | starts (x : Writer τ)
  /-- The call of another task returns or raises, or the task is cancelled in it. -/
  | ends (t : τ)
deriving DecidableEq

namespace Wire

/-- A handler between two writes, with nobody else about. -/
def idle (a : Await κ) : Wire κ τ := ⟨a, fun _ => none, none, ∅⟩

/-- `Connection(websocket)` has been made, and the handler sends `auth.ok`. -/
def init (lastSeenSeq : Option Int) : Wire κ τ := idle (.greeting lastSeenSeq)

/-- The write that somebody waits for. -/
def pending (w : Wire κ τ) : Writer τ → Option (Via × Write)
  | .handler => w.await.write
  | .task t => (w.calls t).map fun write => (.connection, write)

variable [DecidableEq τ]

def start (x : Writer τ) (w : Wire κ τ) : Option (Wire κ τ) :=
  if x ∈ w.writing then none
  else match w.pending x with
    | none => none
    | some (.connection, _) =>
        if w.lock = none then some { w with lock := some x, writing := insert x w.writing } else none
    | some (.webSocket, _) => some { w with writing := insert x w.writing }

/-- Whoever is done with a write, or is cancelled, writes no more; `async with` gives the lock back. -/
def finish (x : Writer τ) (w : Wire κ τ) : Wire κ τ where
  await := w.await
  calls := w.calls
  lock := if w.lock = some x then none else w.lock
  writing := w.writing.erase x

/-- The handler goes on. -/
def goOn (w : Wire κ τ) (a : Await κ) : Wire κ τ := { w.finish .handler with await := a }

def step (c : ConversationId) (k : κ) (w : Wire κ τ) : WireEvent κ τ → Option (Wire κ τ)
  | .returned answer =>
      if w.await.write.isSome ∧ .handler ∉ w.writing then none
      else (ConversationWs.returned c k answer w.await).map w.goOn
  | .raised raised =>
      if w.await.write.isSome ∧ .handler ∉ w.writing then none
      else (ConversationWs.raised c k raised w.await).map w.goOn
  | .registry call => match w.await with
      | .joining lastSeenSeq _ => some (w.goOn (.afterJoin lastSeenSeq call))
      | .leaving _ => some (w.goOn (.afterLeave call))
      | _ => none
  -- also while it still waits for the lock of its `Connection`
  | .cancelled => match w.await.registryCall with
      | some _ => some (w.goOn .ended)
      | none => (ConversationWs.raised c k .cancelledError w.await).map w.goOn
  | .calls t write =>
      if w.calls t = none then some { w with calls := Function.update w.calls t (some write) } else none
  | .starts x => w.start x
  | .ends t =>
      if w.calls t = none then none
      else some { w.finish (.task t) with calls := Function.update w.calls t none }

/-! ## What is owed -/

/-- A send or a close starts only while no other one is in progress. -/
def Exclusive (w : Wire κ τ) : WireEvent κ τ → Prop
  | .starts _ => w.writing = ∅
  | _ => True

/-- The handler does not start the close for an expired token while somebody holds the lock, and nobody
    takes the lock while the handler is in that close. -/
def Guarded (w : Wire κ τ) : WireEvent κ τ → Prop
  | .starts .handler => w.await = .expiring → w.lock = none
  | .starts (.task _) => w.await = .expiring → .handler ∉ w.writing
  | _ => True

instance decidableExclusive (w : Wire κ τ) : (e : WireEvent κ τ) → Decidable (w.Exclusive e)
  | .starts _ => inferInstanceAs (Decidable (w.writing = ∅))
  | .returned _ | .raised _ | .registry _ | .cancelled | .calls .. | .ends _ =>
      inferInstanceAs (Decidable True)

instance decidableGuarded [DecidableEq κ] (w : Wire κ τ) :
    (e : WireEvent κ τ) → Decidable (w.Guarded e)
  | .starts .handler => inferInstanceAs (Decidable (w.await = .expiring → w.lock = none))
  | .starts (.task _) => inferInstanceAs (Decidable (w.await = .expiring → .handler ∉ w.writing))
  | .returned _ | .raised _ | .registry _ | .cancelled | .calls .. | .ends _ =>
      inferInstanceAs (Decidable True)

end Wire

/-! ## What a step can do -/

namespace Await

theorem afterMissed_connected (missed : List Message) :
    (Await.afterMissed missed : Await κ).connected = true := by
  cases missed <;> rfl

theorem afterServing_connected (c : ConversationId) (k : κ) (raised : Raised) :
    (Await.afterServing c k raised).connected = true := by
  cases raised <;> rfl

theorem afterJoin_connected (lastSeenSeq : Option Int) (call : RegistryCall κ) :
    (Await.afterJoin lastSeenSeq call).connected = true := by
  cases call with
  | returned => cases lastSeenSeq <;> rfl
  | waitingJoin | subscribing | waitingLeave | unsubscribing | raised => rfl

theorem afterLeave_connected (call : RegistryCall κ) : (Await.afterLeave call).connected = true := by
  cases call <;> rfl

end Await

theorem returned_connected {c : ConversationId} {k : κ} {answer : Answer} {a a' : Await κ}
    (h : ConversationWs.returned c k answer a = some a') (ha : a.connected = true) :
    a'.connected = true := by
  unfold ConversationWs.returned at h
  split at h
  all_goals cases h
  all_goals try first | rfl | cases ha
  · exact Await.afterMissed_connected _
  · exact Await.afterMissed_connected _
  · next verdict => cases verdict <;> rfl

theorem raised_connected {c : ConversationId} {k : κ} {raised : Raised} {a a' : Await κ}
    (h : ConversationWs.raised c k raised a = some a') : a'.connected = true := by
  unfold ConversationWs.raised at h
  split at h <;> cases h
  all_goals first | rfl | exact Await.afterServing_connected _ _ _ | (split <;> rfl)

namespace Wire

variable [DecidableEq τ] {c : ConversationId} {k : κ} {w w' : Wire κ τ} {e : WireEvent κ τ}

/-- The steps of a socket, as far as its writes go. -/
inductive Move (w : Wire κ τ) : WireEvent κ τ → Wire κ τ → Prop
  /-- The handler goes on, and nothing of its last write is left. -/
  | goesOn {e : WireEvent κ τ} {a : Await κ} (hevent : ∀ x, e ≠ .starts x)
      (ha : w.await.connected = true → a.connected = true) : Move w e (w.goOn a)
  | calls (t : τ) (write : Write) :
      Move w (.calls t write) { w with calls := Function.update w.calls t (some write) }
  | locks (x : Writer τ) (write : Write) (hpending : w.pending x = some (.connection, write))
      (hidle : x ∉ w.writing) (hfree : w.lock = none) :
      Move w (.starts x) { w with lock := some x, writing := insert x w.writing }
  | passes (x : Writer τ) (write : Write) (hpending : w.pending x = some (.webSocket, write))
      (hidle : x ∉ w.writing) :
      Move w (.starts x) { w with writing := insert x w.writing }
  | ends (t : τ) :
      Move w (.ends t) { w.finish (.task t) with calls := Function.update w.calls t none }

theorem start_move {x : Writer τ} (h : w.start x = some w') : Move w (.starts x) w' := by
  unfold start at h
  split at h
  · cases h
  · next hidle =>
      split at h
      · cases h
      · next write hpending =>
          split at h <;> cases h
          next hfree => exact .locks x write hpending hidle hfree
      · next write hpending => cases h; exact .passes x write hpending hidle

theorem step_move (h : step c k w e = some w') : Move w e w' := by
  unfold step at h
  split at h
  · split at h
    · cases h
    · obtain ⟨a, ha, rfl⟩ := Option.map_eq_some_iff.1 h
      exact .goesOn (by simp) (returned_connected ha)
  · split at h
    · cases h
    · obtain ⟨a, ha, rfl⟩ := Option.map_eq_some_iff.1 h
      exact .goesOn (by simp) fun _ => raised_connected ha
  · split at h <;> cases h
    · exact .goesOn (by simp) fun _ => Await.afterJoin_connected _ _
    · exact .goesOn (by simp) fun _ => Await.afterLeave_connected _
  · split at h
    · cases h
      exact .goesOn (by simp) fun _ => rfl
    · obtain ⟨a, ha, rfl⟩ := Option.map_eq_some_iff.1 h
      exact .goesOn (by simp) fun _ => raised_connected ha
  · split at h <;> cases h
    exact .calls _ _
  · exact start_move h
  · split at h <;> cases h
    exact .ends _

/-! ## The lock and the writes in progress -/

/-- Who writes holds the lock, but for a handler in its close for an expired token. -/
structure Inv (w : Wire κ τ) : Prop where
  connected : w.await.connected = true
  task : ∀ t, .task t ∈ w.writing ↔ w.lock = some (.task t)
  held : w.lock = some .handler → .handler ∈ w.writing
  handler : .handler ∈ w.writing → w.lock = some .handler ∨ w.await = .expiring

omit [DecidableEq τ] in
theorem inv_init (lastSeenSeq : Option Int) : (init lastSeenSeq : Wire κ τ).Inv := by
  refine ⟨rfl, ?_, ?_, ?_⟩ <;> simp [init, idle]

omit [DecidableEq τ] in
/-- A connected handler reaches the WebSocket past its `Connection` for an expired token only. -/
theorem expiring_of_passes {x : Writer τ} {write : Write} (hconnected : w.await.connected = true)
    (h : w.pending x = some (.webSocket, write)) : x = .handler ∧ w.await = .expiring := by
  cases x with
  | task t => simp [pending] at h
  | handler =>
      refine ⟨rfl, ?_⟩
      generalize hawait : w.await = a at hconnected
      simp only [pending, hawait] at h
      cases a <;> first | rfl | (cases h; done) | cases hconnected

theorem inv_step (hw : w.Inv) (h : Move w e w') : w'.Inv := by
  cases h with
  | @goesOn _ a _ ha =>
      refine ⟨ha hw.connected, ?_, ?_, ?_⟩
      · intro t
        have htask := hw.task t
        simp only [goOn, finish, Finset.mem_erase, ne_eq, reduceCtorEq, not_false_eq_true, true_and]
        rw [htask]
        split
        · next hlock => simp [hlock]
        · rfl
      · simp only [goOn, finish]
        intro hlock
        split at hlock
        · cases hlock
        · next hother => exact absurd hlock hother
      · simp [goOn, finish]
  | calls t write => exact ⟨hw.connected, hw.task, hw.held, hw.handler⟩
  | locks x write hpending hidle hfree =>
      have hnone : ∀ t, .task t ∉ w.writing := by
        intro t ht
        have hheld := (hw.task t).1 ht
        rw [hfree] at hheld
        cases hheld
      refine ⟨hw.connected, ?_, ?_, ?_⟩
      · intro t
        simp [hnone t, eq_comm]
      · intro hlock
        rw [Option.some.inj hlock]
        exact Finset.mem_insert_self _ _
      · intro hin
        rcases Finset.mem_insert.1 hin with rfl | hold
        · exact .inl rfl
        · refine .inr ((hw.handler hold).resolve_left fun hheld => ?_)
          rw [hfree] at hheld
          cases hheld
  | passes x write hpending hidle =>
      obtain ⟨rfl, hexpiring⟩ := expiring_of_passes hw.connected hpending
      refine ⟨hw.connected, ?_, ?_, ?_⟩
      · intro t
        simpa using hw.task t
      · intro _
        exact Finset.mem_insert_self _ _
      · intro _
        exact .inr hexpiring
  | ends t =>
      refine ⟨hw.connected, ?_, ?_, ?_⟩
      · intro t'
        have htask := hw.task t'
        simp only [finish, Finset.mem_erase, ne_eq, Writer.task.injEq]
        rw [htask]
        by_cases ht : t' = t
        · simp [ht]
        · have hne : ¬ t = t' := fun h => ht h.symm
          by_cases hlock : w.lock = some (.task t)
          · simp [ht, hlock, hne]
          · simp [ht, hlock]
      · simp only [finish]
        intro hlock
        split at hlock
        · cases hlock
        · exact Finset.mem_erase.2 ⟨by simp, hw.held hlock⟩
      · simp only [finish]
        intro hin
        rcases hw.handler (Finset.mem_erase.1 hin).2 with hheld | hexpiring
        · left
          simp [hheld]
        · exact .inr hexpiring

/-- Under the invariant a write starts alone just where it is guarded. -/
theorem exclusive_iff_guarded (hw : w.Inv) (h : Move w e w') : w.Exclusive e ↔ w.Guarded e := by
  -- with the lock free, only the handler can be writing, in its close for an expired token
  have hempty : w.lock = none → .handler ∉ w.writing → w.writing = ∅ := by
    intro hfree hhandler
    refine Finset.eq_empty_of_forall_notMem fun x hx => ?_
    cases x with
    | handler => exact hhandler hx
    | task t =>
        have hheld := (hw.task t).1 hx
        rw [hfree] at hheld
        cases hheld
  cases h with
  | goesOn hevent => cases e <;> first | exact Iff.rfl | exact absurd rfl (hevent _)
  | calls | ends => exact Iff.rfl
  | locks x write hpending hidle hfree =>
      cases x with
      | handler => exact ⟨fun _ _ => hfree, fun _ => hempty hfree hidle⟩
      | task t =>
          constructor
          · intro hnone _ hin
            rw [show w.writing = ∅ from hnone] at hin
            exact absurd hin (Finset.notMem_empty _)
          · intro hguard
            refine hempty hfree fun hin => ?_
            rcases hw.handler hin with hheld | hexpiring
            · rw [hfree] at hheld
              cases hheld
            · exact hguard hexpiring hin
  | passes x write hpending hidle =>
      obtain ⟨rfl, hexpiring⟩ := expiring_of_passes hw.connected hpending
      constructor
      · intro hnone _
        cases hlock : w.lock with
        | none => rfl
        | some y =>
            have hin : y ∈ w.writing := by
              cases y with
              | handler => exact hw.held hlock
              | task t => exact (hw.task t).2 hlock
            rw [show w.writing = ∅ from hnone] at hin
            exact absurd hin (Finset.notMem_empty _)
      · intro hguard
        exact hempty (hguard hexpiring) hidle

/-- In a run of one socket every write starts alone exactly when its handler closes for an expired token
    only while nobody holds the lock, and nobody takes it during that close. -/
theorem writes_exclusive_iff (c : ConversationId) (k : κ) {lastSeenSeq : Option Int}
    {es : List (WireEvent κ τ)} {w : Wire κ τ} (h : exec (step c k) (init lastSeenSeq) es = some w) :
    StepsMeet (step c k) Exclusive (init lastSeenSeq) es ↔
      StepsMeet (step c k) Guarded (init lastSeenSeq) es :=
  stepsMeet_congr (I := Inv) (fun _ _ _ hw _ he => inv_step hw (step_move he))
    (fun _ _ _ hw he => exclusive_iff_guarded hw (step_move he)) (inv_init lastSeenSeq) h

/-- The socket joins, and a frame comes in. -/
def joinRun : List (WireEvent Unit Unit) :=
  [.starts .handler, .returned .sent, .registry .returned, .returned .received]

/-- Its token has expired, and it closes while a broadcast is sending. -/
def overlapRun : List (WireEvent Unit Unit) :=
  joinRun ++ [.calls () .send, .starts (.task ()), .returned (.limited .expire), .starts .handler]

theorem writes_overlap :
    ¬ ∀ (es : List (WireEvent Unit Unit)) (w : Wire Unit Unit),
      exec (step ⟨1⟩ ()) (init none) es = some w →
        StepsMeet (step ⟨1⟩ ()) Exclusive (init none) es := by
  intro h
  obtain ⟨w, hrun, -⟩ := exec_reaches (step ⟨1⟩ ()) (init none) overlapRun
    (fun w => w.await = .expiring) (by decide)
  exact absurd (h overlapRun w hrun) (by decide)

/-- A reply and a broadcast take turns, and the drain closes the socket. -/
def turnsRun : List (WireEvent Unit Unit) :=
  joinRun ++ [.calls () .send, .returned (.limited .exchange), .returned .exchanged,
    .starts .handler, .returned .sent, .starts (.task ()), .ends (),
    .calls () (.close 1001), .starts (.task ())]

theorem writes_exclusive_iff_turns :
    ∃ w, exec (step ⟨1⟩ ()) (init none) turnsRun = some w ∧ w.writing = {.task ()} ∧
      StepsMeet (step ⟨1⟩ ()) Exclusive (init none) turnsRun := by
  obtain ⟨w, hrun, hwriting⟩ := exec_reaches (step ⟨1⟩ ()) (init none) turnsRun
    (fun w => w.writing = {.task ()}) (by decide)
  exact ⟨w, hrun, hwriting, (writes_exclusive_iff ⟨1⟩ () hrun).2 (by decide)⟩

/-! ## The handlers of a replica -/

theorem idle_goOn (a a' : Await κ) : (idle a : Wire κ τ).goOn a' = idle a' := by
  simp [idle, goOn, finish]

/-- What comes back from an await brings the handler on, after the write if the await writes. -/
theorem idle_answers {a a' : Await κ} {e : WireEvent κ τ} {next : Await κ → Option (Await κ)}
    (he : ∀ w : Wire κ τ, step c k w e =
      if w.await.write.isSome ∧ .handler ∉ w.writing then none else (next w.await).map w.goOn)
    (h : next a = some a') : ∃ es, exec (step c k) (idle a : Wire κ τ) es = some (idle a') := by
  cases hwrite : a.write with
  | none =>
      refine ⟨[e], exec_cons_eq_some.2 ⟨idle a', ?_, rfl⟩⟩
      rw [he]
      simp [idle, hwrite, h, goOn, finish]
  | some p =>
      obtain ⟨via, write⟩ := p
      have hstart : ∃ lock, step c k (idle a : Wire κ τ) (.starts .handler) =
          some ⟨a, fun _ => none, lock, {.handler}⟩ ∧ (lock = some .handler ∨ lock = none) := by
        cases via with
        | connection => exact ⟨some .handler, by simp [step, start, pending, idle, hwrite], .inl rfl⟩
        | webSocket => exact ⟨none, by simp [step, start, pending, idle, hwrite], .inr rfl⟩
      obtain ⟨lock, hstarted, hlock⟩ := hstart
      refine ⟨[.starts .handler, e], exec_cons_eq_some.2 ⟨_, hstarted,
        exec_cons_eq_some.2 ⟨idle a', ?_, rfl⟩⟩⟩
      rw [he]
      rcases hlock with rfl | rfl <;> simp [idle, h, goOn, finish]

/-- A `join` or `leave` goes on in the registry, and the handler with it. -/
theorem idle_registry {a : Await κ} {call call' : RegistryCall κ} :
    (∀ lastSeenSeq, a = .joining lastSeenSeq call →
      ∃ es, exec (step c k) (idle a : Wire κ τ) es = some (idle (.afterJoin lastSeenSeq call'))) ∧
    (a = .leaving call →
      ∃ es, exec (step c k) (idle a : Wire κ τ) es = some (idle (.afterLeave call'))) := by
  constructor
  · rintro lastSeenSeq rfl
    refine ⟨[.registry call'], exec_cons_eq_some.2 ⟨_, rfl, ?_⟩⟩
    rw [idle_goOn]
    rfl
  · rintro rfl
    refine ⟨[.registry call'], exec_cons_eq_some.2 ⟨_, rfl, ?_⟩⟩
    rw [idle_goOn]
    rfl

theorem idle_cancelled {a a' : Await κ}
    (h : step c k (idle a : Wire κ τ) .cancelled = some ((idle a : Wire κ τ).goOn a')) :
    ∃ es, exec (step c k) (idle a : Wire κ τ) es = some (idle a') := by
  refine ⟨[.cancelled], exec_cons_eq_some.2 ⟨_, h, ?_⟩⟩
  rw [idle_goOn]
  rfl

/-- A handler that goes on brings its own wire on, and leaves that of every other socket alone. -/
theorem goOn_simulated [DecidableEq κ] {conversation : κ → ConversationId} {v : Sockets κ} {k' : κ}
    {a : Await κ} (registry : ConversationRegistry κ κ)
    (h : ∃ es, exec (step (conversation k') k') (idle (v.awaits k') : Wire κ τ) es = some (idle a))
    (k : κ) :
    ∃ es, exec (step (conversation k) k) (idle (v.awaits k) : Wire κ τ) es =
      some (idle ((v.goOn k' registry a).awaits k)) := by
  by_cases hk : k = k'
  · subst hk
    rw [Sockets.goOn_awaits_self]
    exact h
  · rw [Sockets.goOn_awaits_of_ne hk]
    exact ⟨[], rfl⟩

/-- What a replica does in a step brings the wire of each of its handlers on. -/
theorem sockets_step [DecidableEq κ] {conversation : κ → ConversationId} {v v' : Sockets κ}
    {e : SocketsEvent κ} (h : Sockets.step conversation v e = some v') (k : κ) :
    ∃ es, exec (step (conversation k) k) (idle (v.awaits k) : Wire κ τ) es =
      some (idle (v'.awaits k)) := by
  have hsame : ∀ v' : Sockets κ, v'.awaits = v.awaits →
      ∃ es, exec (step (conversation k) k) (idle (v.awaits k) : Wire κ τ) es =
        some (idle (v'.awaits k)) := by
    intro v' hawaits
    rw [hawaits]
    exact ⟨[], rfl⟩
  cases e with
  | returned k' answer =>
      obtain ⟨a, ha, rfl⟩ := Option.map_eq_some_iff.1 h
      exact goOn_simulated _ (idle_answers (e := .returned answer) (fun _ => rfl) ha) k
  | raised k' raised =>
      obtain ⟨a, ha, rfl⟩ := Option.map_eq_some_iff.1 h
      exact goOn_simulated _ (idle_answers (e := .raised raised) (fun _ => rfl) ha) k
  | registry k' step =>
      simp only [Sockets.step] at h
      split at h
      · next lastSeenSeq call hawait =>
          obtain ⟨⟨registry, call'⟩, -, rfl⟩ := Option.map_eq_some_iff.1 h
          exact goOn_simulated registry (idle_registry.1 lastSeenSeq hawait) k
      · next call hawait =>
          obtain ⟨⟨registry, call'⟩, -, rfl⟩ := Option.map_eq_some_iff.1 h
          exact goOn_simulated registry (idle_registry.2 hawait) k
      · cases h
  | cancelled k' applied =>
      simp only [Sockets.step] at h
      split at h
      · next call hcall =>
          obtain ⟨registry, -, rfl⟩ := Option.map_eq_some_iff.1 h
          exact goOn_simulated registry (idle_cancelled (by simp [step, idle, hcall])) k
      · next hcall =>
          obtain ⟨a, ha, rfl⟩ := Option.map_eq_some_iff.1 h
          exact goOn_simulated _ (idle_cancelled (by simp [step, idle, hcall, ha])) k
  | reader step =>
      obtain ⟨_, -, rfl⟩ := Option.map_eq_some_iff.1 h
      exact hsame _ rfl
  | delivered k' succeeds =>
      obtain ⟨_, -, rfl⟩ := Option.map_eq_some_iff.1 h
      exact hsame _ rfl
  | published c message =>
      cases h
      exact hsame _ rfl
  | drained =>
      cases h
      exact hsame _ rfl

/-- What a replica does in a run is, for each of its sockets, a run of its wire. -/
theorem sockets_simulated [DecidableEq κ] {conversation : κ → ConversationId} {v v' : Sockets κ}
    {es : List (SocketsEvent κ)} (h : exec (Sockets.step conversation) v es = some v') (k : κ) :
    ∃ es', exec (step (conversation k) k) (idle (v.awaits k) : Wire κ τ) es' =
      some (idle (v'.awaits k)) := by
  obtain ⟨es', -, hrun⟩ := exec_simulated (f := fun v : Sockets κ => (idle (v.awaits k) : Wire κ τ))
    (C := fun _ => True) (fun v e v' he => by
      obtain ⟨es, hes⟩ := sockets_step (τ := τ) he k
      exact ⟨es, fun _ _ => trivial, hes⟩) h
  exact ⟨es', hrun⟩

end Wire

end Dizzchat
