import Dizzchat.Realtime.Subscriber

set_option autoImplicit false

/-! # Stopping the subscriber

The `lifespan` from the start of the subscriber to the end of the process, as far as it depends on the
subscriber: `stop` cancels the reader task, waits for it, and closes the pub/sub; Redis and the engine
come after it. The subscriber, its reader and its callers are those of `Subscriber`.

A reader that waits anywhere ends with the `CancelledError`, which `stop` suppresses. A reader that has
ended with an exception of its own hands that exception to `stop`, which leaves its pub/sub open
(`stop_cleansUp_iff`). -/

namespace Dizzchat

open Transition

variable {τ : Type*}

/-- `_task` -/
inductive ReaderTask
  /-- `None` -/
  | absent
  | created
  /-- `cancel()` has been called, and the reader waits as before. -/
  | cancelling
  /-- It has ended with the `CancelledError`. -/
  | cancelled
deriving DecidableEq

/-- Where the `lifespan` is. -/
inductive LifespanPhase
  | serving
  /-- In the `await self._task` of `stop`. -/
  | awaitingTask
  /-- In the `aclose` of `stop`. -/
  | closingPubsub
  /-- `stop` has returned. -/
  | closingRedis
  | disposingEngine
  | finished
  /-- `stop` has raised, and nothing comes after it. -/
  | raised
deriving DecidableEq

structure Lifespan (τ : Type*) where
  world : SubscriberWorld τ
  task : ReaderTask
  phase : LifespanPhase
  /-- `stop` has closed the pub/sub that `_pubsub` refers to. -/
  closed : Bool

inductive LifespanEvent (τ : Type*)
  | world (e : SubscriberEvent τ)
  | start
  /-- `stop` is called, and runs to its first await. -/
  | stop
  /-- The `CancelledError` arrives where the reader waits. -/
  | readerCancelled
  /-- The `await self._task` returns or raises. -/
  | taskDone
  | pubsubClosed
  | redisClosed
  | engineDisposed

/-- A step of the reader task. -/
def SubscriberEvent.ofReader : SubscriberEvent τ → Bool
  | .reader _ | .delivered => true
  | .subscribe .. | .unsubscribe .. | .call .. | .published _ | .dropped => false

/-- `_pubsub` refers to a new pub/sub. -/
def SubscriberEvent.replacesPubsub : SubscriberEvent τ → Bool
  | .reader (.closed _) => true
  | _ => false

namespace Lifespan

def init : Lifespan τ := ⟨SubscriberWorld.init, .absent, .serving, false⟩

/-- The reader ends where it waits; `async with` gives the lock back. -/
def cancelReader (w : SubscriberWorld τ) : SubscriberWorld τ :=
  { w with subscriber := if w.reader.locked then w.subscriber.release else w.subscriber
           reader := .ended }

variable [DecidableEq τ]

def step (w : Lifespan τ) : LifespanEvent τ → Option (Lifespan τ)
  | .world e =>
      -- after `cancel()` the reader comes to no step of its own any more
      if e.ofReader = true ∧ w.task ≠ .created then none
      else (w.world.step e).map fun world =>
        { w with world, closed := w.closed && !e.replacesPubsub }
  | .start => match w.phase, w.task with
      | .serving, .absent => some { w with task := .created }
      | _, _ => none
  | .stop => match w.phase, w.task with
      | .serving, .absent => some { w with phase := .closingPubsub }
      | .serving, .created =>
          -- `cancel()` does nothing to a task that has ended
          some { w with phase := .awaitingTask
                        task := if w.world.reader.hasEnded then .created else .cancelling }
      | _, _ => none
  | .readerCancelled => match w.task with
      | .cancelling => some { w with world := cancelReader w.world, task := .cancelled }
      | _ => none
  | .taskDone => match w.phase, w.task with
      | .awaitingTask, .cancelled => some { w with phase := .closingPubsub, task := .absent }
      -- what the task has ended with is no `CancelledError`, and is not suppressed
      | .awaitingTask, .created =>
          if w.world.reader.hasEnded then some { w with phase := .raised } else none
      | _, _ => none
  | .pubsubClosed => match w.phase with
      | .closingPubsub => some { w with phase := .closingRedis, closed := true }
      | _ => none
  | .redisClosed => match w.phase with
      | .closingRedis => some { w with phase := .disposingEngine }
      | _ => none
  | .engineDisposed => match w.phase with
      | .disposingEngine => some { w with phase := .finished }
      | _ => none

end Lifespan

/-! ## What is owed -/

/-- A step that `stop` waits for. -/
def LifespanEvent.ofStop : LifespanEvent τ → Bool
  | .readerCancelled | .taskDone | .pubsubClosed => true
  | .world _ | .start | .stop | .redisClosed | .engineDisposed => false

/-- A `subscribe` inside `_reconnect` raises. -/
def LifespanEvent.resubscribeRaises : LifespanEvent τ → Bool
  | .world e => e.resubscribeRaises
  | _ => false

namespace Lifespan

/-- `stop` has returned. -/
def stopped (w : Lifespan τ) : Bool :=
  match w.phase with
  | .closingRedis | .disposingEngine | .finished => true
  | .serving | .awaitingTask | .closingPubsub | .raised => false

/-- The steps that `stop` has still to wait for. -/
def remaining (w : Lifespan τ) : ℕ :=
  match w.phase with
  | .awaitingTask => if w.task = .cancelling then 3 else 2
  | .closingPubsub => 1
  | .serving | .closingRedis | .disposingEngine | .finished | .raised => 0

/-- There is no reader task, or it has ended. -/
def readerGone (w : Lifespan τ) : Bool :=
  decide (w.task = .absent) || w.world.reader.hasEnded

variable [DecidableEq τ]

/-- Whatever happens from here on, `stop` does not raise, it returns after the steps it has still to
    wait for, each of which can come at once, and then the reader is gone and the pub/sub is closed. -/
def CleansUp (w : Lifespan τ) : Prop :=
  ∀ es w', exec step w es = some w' →
    w'.phase ≠ .raised ∧
      es.countP LifespanEvent.ofStop + w'.remaining = w.remaining ∧
      (w'.stopped = false → ∃ e, e.ofStop = true ∧ (step w' e).isSome = true) ∧
      (w'.stopped = true → w'.readerGone = true ∧ w'.closed = true)

/-! ## What a step can do -/

inductive Move (w : Lifespan τ) : LifespanEvent τ → Lifespan τ → Prop
  | world {e : SubscriberEvent τ} {world : SubscriberWorld τ}
      (hguard : e.ofReader = true → w.task = .created) (h : w.world.step e = some world) :
      Move w (.world e) { w with world, closed := w.closed && !e.replacesPubsub }
  | starts (hphase : w.phase = .serving) (htask : w.task = .absent) :
      Move w .start { w with task := .created }
  /-- `stop` without a task. -/
  | stopsIdle (hphase : w.phase = .serving) (htask : w.task = .absent) :
      Move w .stop { w with phase := .closingPubsub }
  | stops (hphase : w.phase = .serving) (htask : w.task = .created)
      (halive : w.world.reader.hasEnded = false) :
      Move w .stop { w with phase := .awaitingTask, task := .cancelling }
  | stopsEnded (hphase : w.phase = .serving) (htask : w.task = .created)
      (hended : w.world.reader.hasEnded = true) : Move w .stop { w with phase := .awaitingTask }
  | cancels (htask : w.task = .cancelling) :
      Move w .readerCancelled { w with world := cancelReader w.world, task := .cancelled }
  | suppresses (hphase : w.phase = .awaitingTask) (htask : w.task = .cancelled) :
      Move w .taskDone { w with phase := .closingPubsub, task := .absent }
  | raises (hphase : w.phase = .awaitingTask) (htask : w.task = .created)
      (hended : w.world.reader.hasEnded = true) : Move w .taskDone { w with phase := .raised }
  | closes (hphase : w.phase = .closingPubsub) :
      Move w .pubsubClosed { w with phase := .closingRedis, closed := true }
  | closesRedis (hphase : w.phase = .closingRedis) :
      Move w .redisClosed { w with phase := .disposingEngine }
  | disposes (hphase : w.phase = .disposingEngine) :
      Move w .engineDisposed { w with phase := .finished }

theorem step_move {w w' : Lifespan τ} {e : LifespanEvent τ} (h : step w e = some w') :
    Move w e w' := by
  cases e with
  | world e =>
      obtain ⟨hguard, h⟩ := Option.ite_none_left_eq_some.1 h
      obtain ⟨world, hstep, rfl⟩ := Option.map_eq_some_iff.1 h
      refine .world (fun hreader => ?_) hstep
      by_contra hnot
      exact hguard ⟨hreader, hnot⟩
  | start =>
      simp only [step] at h
      split at h
      · next hphase htask => cases h; exact .starts hphase htask
      · cases h
  | stop =>
      simp only [step] at h
      split at h
      · next hphase htask => cases h; exact .stopsIdle hphase htask
      · next hphase htask =>
          cases h
          cases hended : w.world.reader.hasEnded with
          | false => exact .stops hphase htask hended
          | true =>
              simp only [if_true]
              rw [← htask]
              exact .stopsEnded hphase htask hended
      · cases h
  | readerCancelled =>
      simp only [step] at h
      split at h
      · next htask => cases h; exact .cancels htask
      · cases h
  | taskDone =>
      simp only [step] at h
      split at h
      · next hphase htask => cases h; exact .suppresses hphase htask
      · next hphase htask =>
          split at h
          · next hended => cases h; exact .raises hphase htask hended
          · cases h
      · cases h
  | pubsubClosed =>
      simp only [step] at h
      split at h
      · next hphase => cases h; exact .closes hphase
      · cases h
  | redisClosed =>
      simp only [step] at h
      split at h
      · next hphase => cases h; exact .closesRedis hphase
      · cases h
  | engineDisposed =>
      simp only [step] at h
      split at h
      · next hphase => cases h; exact .disposes hphase
      · cases h

/-! ## Before `stop` -/

/-- Until `stop` is called, the task is the one of `start`, and it has ended just when a `subscribe`
    inside `_reconnect` has raised. -/
structure Serving (es : List (LifespanEvent τ)) (w : Lifespan τ) : Prop where
  task : w.task = .absent ∨ w.task = .created
  unstarted : w.task = .absent → w.world.reader = .top
  ended : w.world.reader.hasEnded = true ↔ ∃ e ∈ es, e.resubscribeRaises = true

/-- The others leave the reader alone. -/
theorem reader_of_not_ofReader {w w' : SubscriberWorld τ} {e : SubscriberEvent τ}
    (h : w.step e = some w') (he : e.ofReader = false) : w'.reader = w.reader := by
  cases e with
  | reader | delivered => cases he
  | subscribe | unsubscribe =>
      obtain ⟨-, heq⟩ := Option.ite_none_right_eq_some.1 h
      cases heq
      rfl
  | call =>
      obtain ⟨_, -, rfl⟩ := Option.map_eq_some_iff.1 h
      rfl
  | published => cases h; rfl
  | dropped =>
      simp only [SubscriberWorld.step] at h
      split at h <;> cases h
      rfl

theorem serving_step {es : List (LifespanEvent τ)} {w w' : Lifespan τ} {e : LifespanEvent τ}
    (hw : w.phase = .serving → Serving es w) (h : Move w e w') (hphase' : w'.phase = .serving) :
    Serving (es ++ [e]) w' := by
  have hraised : (∃ f ∈ es ++ [e], f.resubscribeRaises = true) ↔
      (∃ f ∈ es, f.resubscribeRaises = true) ∨ e.resubscribeRaises = true := by
    simp [or_and_right, exists_or]
  cases h with
  | @world e world hguard hstep =>
      have hw := hw hphase'
      refine ⟨hw.task, ?_, ?_⟩
      · intro habsent
        have hother : e.ofReader = false := by
          by_contra hreader
          have hcreated := hguard (by simpa using hreader)
          cases habsent.symm.trans hcreated
        simp only
        rw [reader_of_not_ofReader hstep hother]
        exact hw.unstarted habsent
      · rw [hraised, ← hw.ended]
        exact step_hasEnded_iff hstep
  | starts hphase htask =>
      have hw := hw hphase
      refine ⟨.inr rfl, ?_, ?_⟩
      · intro habsent
        cases habsent
      · rw [hraised, ← hw.ended]
        simp [LifespanEvent.resubscribeRaises]
  | cancels htask =>
      rcases (hw hphase').task with hother | hother <;> cases htask.symm.trans hother
  | stopsIdle | stops | stopsEnded | suppresses | raises | closes | closesRedis | disposes =>
      cases hphase'

theorem serving_run {es : List (LifespanEvent τ)} {w : Lifespan τ}
    (hrun : exec step init es = some w) (hphase : w.phase = .serving) : Serving es w := by
  refine exec_history (I := fun es w => w.phase = .serving → Serving es w) (fun _ => ?_) ?_ hrun hphase
  · exact ⟨.inl rfl, fun _ => rfl, by simp [init, SubscriberWorld.init, Reader.hasEnded]⟩
  · intro es w e w' hw _ h hphase'
    exact serving_step hw (step_move h) hphase'

/-! ## From `stop` on -/

/-- What `stop` goes through that has found its reader alive, or none. -/
inductive Stopping (w : Lifespan τ) : Prop
  | cancelling (hphase : w.phase = .awaitingTask) (htask : w.task = .cancelling)
  | cancelled (hphase : w.phase = .awaitingTask) (htask : w.task = .cancelled)
  | closing (hphase : w.phase = .closingPubsub) (htask : w.task = .absent)
  | stopped (hphase : w.stopped = true) (htask : w.task = .absent) (hclosed : w.closed = true)

omit [DecidableEq τ] in
theorem not_stopped_of_phase {w : Lifespan τ} {phase : LifespanPhase} (h : w.phase = phase)
    (hphase : phase = .serving ∨ phase = .awaitingTask ∨ phase = .closingPubsub ∨ phase = .raised) :
    w.stopped = false := by
  unfold stopped
  rw [h]
  rcases hphase with rfl | rfl | rfl | rfl <;> rfl

omit [DecidableEq τ] in
/-- Nobody but the reader gives `_pubsub` another pub/sub. -/
theorem ofReader_of_replacesPubsub {e : SubscriberEvent τ} (h : e.replacesPubsub = true) :
    e.ofReader = true := by
  cases e <;> first | rfl | cases h

theorem stopping_step {w w' : Lifespan τ} {e : LifespanEvent τ} (hw : w.Stopping) (h : Move w e w') :
    w'.Stopping ∧ (if e.ofStop = true then 1 else 0) + w'.remaining = w.remaining := by
  cases h with
  | @world e world hguard hstep =>
      refine ⟨?_, by simp [LifespanEvent.ofStop, remaining]⟩
      cases hw with
      | cancelling hphase htask => exact .cancelling hphase htask
      | cancelled hphase htask => exact .cancelled hphase htask
      | closing hphase htask => exact .closing hphase htask
      | stopped hphase htask hclosed =>
          refine .stopped hphase htask ?_
          have hkept : e.replacesPubsub = false := by
            by_contra hreplaces
            have hcreated := hguard (ofReader_of_replacesPubsub (by simpa using hreplaces))
            cases htask.symm.trans hcreated
          simp [hclosed, hkept]
  | cancels htask =>
      cases hw with
      | cancelling hphase =>
          exact ⟨.cancelled hphase rfl, by simp [LifespanEvent.ofStop, remaining, hphase, htask]⟩
      | cancelled _ hother | closing _ hother | stopped _ hother => cases htask.symm.trans hother
  | suppresses hphase htask =>
      exact ⟨.closing rfl rfl, by simp [LifespanEvent.ofStop, remaining, hphase, htask]⟩
  | raises hphase htask =>
      cases hw with
      | cancelling _ hother | cancelled _ hother | closing _ hother | stopped _ hother =>
          cases htask.symm.trans hother
  | closes hphase =>
      refine ⟨?_, by simp [LifespanEvent.ofStop, remaining, hphase]⟩
      cases hw with
      | closing _ htask => exact .stopped rfl htask rfl
      | cancelling hother | cancelled hother => cases hphase.symm.trans hother
      | stopped hstopped htask => exact .stopped rfl htask rfl
  | closesRedis hphase | disposes hphase =>
      refine ⟨?_, by simp [LifespanEvent.ofStop, remaining, hphase]⟩
      cases hw with
      | closing hother | cancelling hother | cancelled hother => cases hphase.symm.trans hother
      | stopped hstopped htask hclosed => exact .stopped rfl htask hclosed
  | starts hphase | stopsIdle hphase | stops hphase | stopsEnded hphase =>
      cases hw with
      | closing hother | cancelling hother | cancelled hother => cases hphase.symm.trans hother
      | stopped hstopped =>
          rw [not_stopped_of_phase hphase (.inl rfl)] at hstopped
          cases hstopped

theorem stopping_run {w w' : Lifespan τ} {es : List (LifespanEvent τ)} (hw : w.Stopping)
    (hrun : exec step w es = some w') :
    w'.Stopping ∧ es.countP LifespanEvent.ofStop + w'.remaining = w.remaining := by
  induction es generalizing w with
  | nil =>
      obtain rfl := Option.some.inj hrun
      exact ⟨hw, by simp⟩
  | cons e es ih =>
      obtain ⟨t, ht, hrest⟩ := exec_cons_eq_some.1 hrun
      obtain ⟨hnext, hone⟩ := stopping_step hw (step_move ht)
      obtain ⟨hend, hcount⟩ := ih hnext hrest
      refine ⟨hend, ?_⟩
      rw [List.countP_cons]
      omega

/-- Where `stop` has found its reader alive, it cleans up. -/
theorem cleansUp_of_stopping {w : Lifespan τ} (hw : w.Stopping) : w.CleansUp := by
  intro es w' hrun
  obtain ⟨hend, hcount⟩ := stopping_run hw hrun
  refine ⟨?_, hcount, ?_, ?_⟩
  · intro hraised
    cases hend with
    | cancelling hphase | cancelled hphase | closing hphase => cases hraised.symm.trans hphase
    | stopped hstopped =>
        rw [not_stopped_of_phase hraised (by simp)] at hstopped
        cases hstopped
  · intro hnot
    cases hend with
    | cancelling hphase htask => exact ⟨.readerCancelled, rfl, by simp [step, htask]⟩
    | cancelled hphase htask => exact ⟨.taskDone, rfl, by simp [step, hphase, htask]⟩
    | closing hphase htask => exact ⟨.pubsubClosed, rfl, by simp [step, hphase]⟩
    | stopped hstopped =>
        rw [hnot] at hstopped
        cases hstopped
  · intro hstopped
    cases hend with
    | cancelling hphase | cancelled hphase | closing hphase =>
        rw [not_stopped_of_phase hphase (by simp)] at hstopped
        cases hstopped
    | stopped _ htask hclosed => exact ⟨by simp [readerGone, htask], hclosed⟩

/-- A `stop` that is called at any moment cleans up exactly when no `subscribe` inside `_reconnect` has
    raised before. -/
theorem stop_cleansUp_iff {es : List (LifespanEvent τ)} {w w' : Lifespan τ}
    (hrun : exec step init es = some w) (hstop : step w .stop = some w') :
    w'.CleansUp ↔ ∀ e ∈ es, e.resubscribeRaises = false := by
  have hcalled : w.phase = .serving := by
    have hmove := step_move hstop
    cases hmove <;> assumption
  have hw := serving_run hrun hcalled
  have hended : w.world.reader.hasEnded = false ↔ ∀ e ∈ es, e.resubscribeRaises = false := by
    rw [← Bool.not_eq_true, hw.ended]
    simp
  rw [← hended]
  have hmove := step_move hstop
  generalize hevent : (LifespanEvent.stop : LifespanEvent τ) = e at hmove
  cases hmove with
  | stopsIdle _ htask =>
      rw [hw.unstarted htask]
      exact iff_of_true (cleansUp_of_stopping (.closing rfl htask)) rfl
  | stops _ _ halive =>
      exact iff_of_true (cleansUp_of_stopping (.cancelling rfl rfl)) halive
  | stopsEnded _ htask hdead =>
      refine iff_of_false (fun hclean => ?_) (by simp [hdead])
      -- the `await` of a task that has ended comes back at once, with its exception
      refine (hclean [.taskDone] { w with phase := .raised } ?_).1 rfl
      exact exec_cons_eq_some.2 ⟨_, by simp [step, htask, hdead], rfl⟩
  | world | starts | cancels | suppresses | raises | closes | closesRedis | disposes => cases hevent

/-- The subscriber is started, and its reader comes to the `subscribe` of a `_reconnect`. -/
def reconnectRun : List (LifespanEvent Unit) := .start :: (readFails ⟨0⟩).map .world

theorem stop_cleansUp_iff_reconnecting :
    ∃ w w' : Lifespan Unit, exec step init reconnectRun = some w ∧
      w.world.reader = .resubscribing {conversationChannel ⟨0⟩} ∧ step w .stop = some w' ∧
      w'.CleansUp := by
  obtain ⟨w, hrun, hreader, hstop⟩ := exec_reaches step init reconnectRun
    (fun w => w.world.reader = .resubscribing {conversationChannel ⟨0⟩} ∧
      ((step w .stop).map Lifespan.task) = some .cancelling) (by decide)
  obtain ⟨w', hw', -⟩ := Option.map_eq_some_iff.1 hstop
  exact ⟨w, w', hrun, hreader, hw', (stop_cleansUp_iff hrun hw').2 (by decide)⟩

/-- The outage outlasts the backoff, and the process is stopped afterwards. -/
def outageRun : List (LifespanEvent Unit) :=
  reconnectRun ++ [.world (.reader (.resubscribed (conversationChannel ⟨0⟩) false))]

/-- `stop` raises, and the pub/sub stays open. -/
theorem stop_raises :
    ¬ ∀ (es : List (LifespanEvent Unit)) (w w' : Lifespan Unit), exec step init es = some w →
      step w .stop = some w' → w'.CleansUp := by
  intro h
  obtain ⟨w, hrun, hstop⟩ := exec_reaches step init outageRun
    (fun w => ((step w .stop).bind fun w => (step w .taskDone).map Lifespan.phase) = some .raised)
    (by decide)
  obtain ⟨w', hw', hdone⟩ := Option.bind_eq_some_iff.1 hstop
  obtain ⟨w'', hw'', hraised⟩ := Option.map_eq_some_iff.1 hdone
  exact (h outageRun w w' hrun hw' [.taskDone] w'' (exec_cons_eq_some.2 ⟨w'', hw'', rfl⟩)).1 hraised

end Lifespan

end Dizzchat
