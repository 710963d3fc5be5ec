import Dizzchat.Realtime.Seam

set_option autoImplicit false

/-! # Live fan-out

Any number of replicas and sockets, `RedisMessageBroadcaster.broadcast` on any conversation, and the
readers that deliver. `fanOut_exactlyOnce`: while nothing fails, the live frames on a socket are of
publications in the order of publication, each at most once, and a socket that has joined before a
publication and is still registered when its replica has finished with it has exactly one frame of
it.

Publications are told apart by their number in the log, so that a message that is published twice is
delivered twice. The argument is one list: the numbers of the frames already written to a socket and
of those still on their way to it (`FanOut.upcoming`) are increasing together. -/

namespace Dizzchat

open Transition

variable {ρ κ : Type*}

/-! ## The world -/

/-- Where the sockets are connected. -/
structure Placement (ρ κ : Type*) where
  replica : κ → ρ
  conversation : κ → ConversationId

/-- Redis queues a publication on a channel for a pub/sub that is subscribed at that moment. -/
def PubSub.receive (channel : Channel) (message : Message) (pubsub : PubSub) : PubSub :=
  if channel ∈ pubsub.subscribed then { pubsub with inbox := pubsub.inbox ++ [message] } else pubsub

theorem PubSub.publish_eq_receive (message : Message) (pubsub : PubSub) :
    pubsub.publish message =
      pubsub.receive (conversationChannel message.conversationId) message := rfl

@[simp]
theorem PubSub.receive_subscribed (channel : Channel) (message : Message) (pubsub : PubSub) :
    (pubsub.receive channel message).subscribed = pubsub.subscribed := by
  unfold PubSub.receive
  split <;> rfl

def Replica.receive (c : ConversationId) (message : Message) (r : Replica κ κ) : Replica κ κ :=
  { r with registry := { r.registry with subscriber := { r.registry.subscriber with
      pubsub := r.registry.subscriber.pubsub.receive (conversationChannel c) message } } }

structure FanOut (ρ κ : Type*) where
  replicas : ρ → Replica κ κ
  handlers : κ → Handler κ
  /-- The publications in order, each with the conversation whose channel it went to. -/
  log : List (ConversationId × Message)
  /-- The numbers in the log of the publications in the inbox of a replica. -/
  queued : ρ → List ℕ
  /-- The number of the publication a replica has read last. -/
  delivering : ρ → ℕ
  /-- The live `message.new` frames written to a socket: the publication and its message. -/
  frames : κ → List (ℕ × Message)

inductive FanOutEvent (ρ κ : Type*)
  | join (k : κ)
  | registry (k : κ) (step : RegistryStep)
  | leave (k : κ)
  /-- `RedisMessageBroadcaster.broadcast` on replica `r`. -/
  | broadcast (r : ρ) (conversationId : ConversationId) (message : Message)
  | reader (r : ρ) (step : ReaderStep)
  /-- The send to `k` of the broadcast under way on its replica comes back. -/
  | delivered (k : κ) (succeeds : Bool)
deriving DecidableEq

/-- The publications in the inbox after a step of the reader. -/
def queuedAfter : ReaderStep → List ℕ → List ℕ
  | .read .message, queued => queued.tail
  -- the inbox goes with the old pub/sub
  | .closed _, _ => []
  | _, queued => queued

def deliveringAfter : ReaderStep → List ℕ → ℕ → ℕ
  | .read .message, n :: _, _ => n
  | _, _, n => n

namespace FanOut

def init : FanOut ρ κ where
  replicas _ := Replica.init
  handlers _ := .authenticating
  log := []
  queued _ := []
  delivering _ := 0
  frames _ := []

/-- The publication reaches every replica alike, the one it came from included. -/
def broadcast (c : ConversationId) (message : Message) (w : FanOut ρ κ) : FanOut ρ κ :=
  { w with
    replicas := fun r => (w.replicas r).receive c message
    log := w.log ++ [(c, message)]
    queued := fun r =>
      if conversationChannel c ∈ (w.replicas r).registry.subscriber.pubsub.subscribed then
        w.queued r ++ [w.log.length]
      else w.queued r }

variable [DecidableEq ρ] [DecidableEq κ]

def setHandler (k : κ) (handler : Handler κ) (w : FanOut ρ κ) : FanOut ρ κ :=
  { w with handlers := Function.update w.handlers k handler }

def setReplica (r : ρ) (replica : Replica κ κ) (w : FanOut ρ κ) : FanOut ρ κ :=
  { w with replicas := Function.update w.replicas r replica }

/-- A step of the registry call of socket `k`, with where its handler goes on. -/
def registryStep (T : Placement ρ κ) (k : κ) (step : RegistryStep) (call : RegistryCall κ)
    (after : RegistryCall κ → Handler κ) (w : FanOut ρ κ) : Option (FanOut ρ κ) :=
  let replica := w.replicas (T.replica k)
  (ConversationRegistry.call k step replica.registry call).map fun (registry, call) =>
    (w.setReplica (T.replica k) { replica with registry }).setHandler k (after call)

/-- The frame of a send that succeeds. -/
def written (k : κ) (message : Message) (n : ℕ) (succeeds : Bool) (w : FanOut ρ κ) : FanOut ρ κ :=
  if succeeds then
    { w with frames := Function.update w.frames k (w.frames k ++ [(n, message)]) }
  else w

def step (T : Placement ρ κ) (w : FanOut ρ κ) : FanOutEvent ρ κ → Option (FanOut ρ κ)
  | .join k => match w.handlers k with
      | .authenticating =>
          some (w.setHandler k (.joining (.waitingJoin (T.conversation k) k)))
      | _ => none
  | .registry k step => match w.handlers k with
      | .joining call => w.registryStep T k step call (Handler.afterJoin none)
      | .leaving call => w.registryStep T k step call Handler.afterLeave
      | _ => none
  | .leave k =>
      if (w.handlers k).joined then
        some (w.setHandler k (.leaving (.waitingLeave (T.conversation k) k)))
      else none
  | .broadcast _ c message => some (w.broadcast c message)
  | .reader r step => ((w.replicas r).read step).map fun replica =>
      { w.setReplica r replica with
        queued := Function.update w.queued r (queuedAfter step (w.queued r))
        delivering :=
          Function.update w.delivering r (deliveringAfter step (w.queued r) (w.delivering r)) }
  | .delivered k succeeds => match (w.replicas (T.replica k)).reader with
      | .delivering b => ((w.replicas (T.replica k)).delivered k succeeds).map fun replica =>
          (w.setReplica (T.replica k) replica).written k b.message (w.delivering (T.replica k))
            succeeds
      | _ => none

end FanOut

/-! ## What a step can do -/

variable [DecidableEq ρ] [DecidableEq κ]

/-- The steps of the world, one constructor for each. -/
inductive FanOutMove (T : Placement ρ κ) (w : FanOut ρ κ) :
    FanOutEvent ρ κ → FanOut ρ κ → Prop
  | join {k : κ} (hhandler : w.handlers k = .authenticating) :
      FanOutMove T w (.join k)
        (w.setHandler k (.joining (.waitingJoin (T.conversation k) k)))
  | joinStep {k : κ} {step : RegistryStep} {call call' : RegistryCall κ}
      {registry : ConversationRegistry κ κ} (hhandler : w.handlers k = .joining call)
      (h : RegistryMove k (w.replicas (T.replica k)).registry step call registry call') :
      FanOutMove T w (.registry k step)
        ((w.setReplica (T.replica k) { w.replicas (T.replica k) with registry }).setHandler k
          (Handler.afterJoin none call'))
  | leave {k : κ} (hjoined : (w.handlers k).joined = true) :
      FanOutMove T w (.leave k)
        (w.setHandler k (.leaving (.waitingLeave (T.conversation k) k)))
  | leaveStep {k : κ} {step : RegistryStep} {call call' : RegistryCall κ}
      {registry : ConversationRegistry κ κ} (hhandler : w.handlers k = .leaving call)
      (h : RegistryMove k (w.replicas (T.replica k)).registry step call registry call') :
      FanOutMove T w (.registry k step)
        ((w.setReplica (T.replica k) { w.replicas (T.replica k) with registry }).setHandler k
          (Handler.afterLeave call'))
  | broadcast {r : ρ} {c : ConversationId} {message : Message} :
      FanOutMove T w (.broadcast r c message) (w.broadcast c message)
  | reader {r : ρ} {step : ReaderStep} {subscriber : Subscriber κ} {reader : Reader (Broadcast κ)}
      (h : ReaderMove
        (fun message =>
          (w.replicas r).registry.manager.broadcast message.conversationId message)
        (w.replicas r).registry.subscriber step (w.replicas r).reader subscriber reader) :
      FanOutMove T w (.reader r step)
        { w.setReplica r { registry := { (w.replicas r).registry with subscriber }, reader } with
          queued := Function.update w.queued r (queuedAfter step (w.queued r))
          delivering :=
            Function.update w.delivering r (deliveringAfter step (w.queued r) (w.delivering r)) }
  | delivered {k : κ} {succeeds : Bool} {b : Broadcast κ} {m : ConnectionManager κ}
      {b' : Option (Broadcast κ)} (hreader : (w.replicas (T.replica k)).reader = .delivering b)
      (h : BroadcastMove k succeeds b (w.replicas (T.replica k)).registry.manager m b') :
      FanOutMove T w (.delivered k succeeds)
        ((w.setReplica (T.replica k)
          { registry := { (w.replicas (T.replica k)).registry with manager := m }
            reader := Replica.afterSend b' }).written k b.message (w.delivering (T.replica k))
          succeeds)

theorem fanOut_move {T : Placement ρ κ} {w w' : FanOut ρ κ} {e : FanOutEvent ρ κ}
    (h : w.step T e = some w') : FanOutMove T w e w' := by
  cases e with
  | join k =>
      simp only [FanOut.step] at h
      split at h
      · next hhandler => cases h; exact .join hhandler
      · cases h
  | registry k step =>
      simp only [FanOut.step] at h
      split at h
      · next call hhandler =>
          obtain ⟨⟨registry, call'⟩, hcall, rfl⟩ := Option.map_eq_some_iff.1 h
          exact .joinStep hhandler (registryCall_move hcall)
      · next call hhandler =>
          obtain ⟨⟨registry, call'⟩, hcall, rfl⟩ := Option.map_eq_some_iff.1 h
          exact .leaveStep hhandler (registryCall_move hcall)
      · cases h
  | leave k =>
      obtain ⟨hjoined, heq⟩ := Option.ite_none_right_eq_some.1 h
      cases heq
      exact .leave hjoined
  | broadcast r c message => cases h; exact .broadcast
  | reader r step =>
      obtain ⟨replica, hread, rfl⟩ := Option.map_eq_some_iff.1 h
      obtain ⟨⟨subscriber, reader⟩, hrun, rfl⟩ := Option.map_eq_some_iff.1 hread
      exact .reader (run_move hrun)
  | delivered k succeeds =>
      simp only [FanOut.step] at h
      split at h
      · next b hreader =>
          obtain ⟨replica, hdelivered, rfl⟩ := Option.map_eq_some_iff.1 h
          obtain ⟨b₀, m, b', hreader', hsent, rfl⟩ := delivered_eq_some hdelivered
          obtain rfl : b = b₀ := Reader.delivering.inj (hreader.symm.trans hreader')
          exact .delivered hreader (sent_move hsent)
      · cases h

/-! ## The replicas and their sockets -/

/-- A Redis call or a send fails. -/
def FanOutEvent.fails : FanOutEvent ρ κ → Bool
  | .registry _ (.subscriber (.redis false)) | .reader _ (.read .raises)
  | .reader _ (.closed false) | .reader _ (.resubscribed _ false) | .delivered _ false => true
  | _ => false

omit [DecidableEq ρ] [DecidableEq κ] in
theorem fanOut_delivered_succeeds {k : κ} {succeeds : Bool}
    (he : (FanOutEvent.delivered k succeeds : FanOutEvent ρ κ).fails = false) :
    succeeds = true := by
  cases succeeds with
  | false => cases he
  | true => rfl

/-- Every replica is sound, and every handler is about its own socket. -/
structure Roster (T : Placement ρ κ) (w : FanOut ρ κ) : Prop where
  sound : ∀ r, Sound (w.replicas r) (callsOn T.replica w.handlers r)
  addressed : ∀ k, (w.handlers k).Addressed (T.conversation k) k

section Roster

variable {T : Placement ρ κ} {w w' : FanOut ρ κ} {e : FanOutEvent ρ κ}

omit [DecidableEq κ] in
theorem roster_init : Roster T (FanOut.init : FanOut ρ κ) where
  sound r := by
    have hcalls : callsOn T.replica (fun _ : κ => Handler.authenticating) r = fun _ => .returned := by
      funext k
      simp [callsOn, Handler.call]
    rw [FanOut.init, hcalls]
    exact sound_init
  addressed _ := trivial

omit [DecidableEq ρ] [DecidableEq κ] in
theorem Sound.receive {r : Replica κ κ} {calls : κ → RegistryCall κ} (hr : Sound r calls)
    (c : ConversationId) (message : Message) : Sound (r.receive c message) calls where
  registry := registryInv_shrink hr.registry rfl rfl (fun _ => Finset.Subset.refl _) (fun _ => id)
  subscribed := by
    simpa [Replica.receive] using hr.subscribed
  calm := hr.calm
  delivering := hr.delivering

omit [DecidableEq κ] in
/-- What every replica has, and what the replica at `r` takes over. -/
theorem forall_setReplica {P : ρ → Replica κ κ → Prop} {replicas : ρ → Replica κ κ}
    (hw : ∀ r, P r (replicas r)) {r : ρ} {replica : Replica κ κ} (h : P r replica) (r' : ρ) :
    P r' (Function.update replicas r replica r') :=
  (Function.forall_update_iff replicas P).2 ⟨h, fun r' _ => hw r'⟩ r'

theorem roster_step (he : e.fails = false) (hw : Roster T w) (h : FanOutMove T w e w') :
    Roster T w' := by
  have haddressed : ∀ {k handler}, Handler.Addressed (T.conversation k) k handler → ∀ k',
      (Function.update w.handlers k handler k').Addressed (T.conversation k') k' := by
    intro k handler hhandler
    exact (Function.forall_update_iff w.handlers
      fun k handler => handler.Addressed (T.conversation k) k).2
      ⟨hhandler, fun k' _ => hw.addressed k'⟩
  cases h with
  | join hhandler =>
      exact ⟨sound_handler hw.sound (by rw [hhandler]; rfl) rfl, haddressed ⟨rfl, rfl⟩⟩
  | @joinStep k step call call' registry hhandler h =>
      exact ⟨sound_registryStep hw.sound (by rwa [hhandler]) (afterJoin_call _ _),
        haddressed (h.addressed_join (hhandler ▸ hw.addressed k) _)⟩
  | @leave k hjoined =>
      refine ⟨sound_handler hw.sound ?_ rfl, haddressed ⟨rfl, rfl⟩⟩
      cases hhandler : w.handlers k <;> rw [hhandler] at hjoined <;> first | rfl | cases hjoined
  | @leaveStep k step call call' registry hhandler h =>
      exact ⟨sound_registryStep hw.sound (by rwa [hhandler]) (afterLeave_call _),
        haddressed (h.addressed_leave (hhandler ▸ hw.addressed k))⟩
  | broadcast => exact ⟨fun r => (hw.sound r).receive _ _, hw.addressed⟩
  | @reader r step subscriber reader h =>
      refine ⟨forall_setReplica (P := fun r replica => Sound replica _) hw.sound ?_, hw.addressed⟩
      exact (hw.sound r).reader (by rintro rfl; cases he) h
  | @delivered k succeeds b m b' hreader h =>
      obtain rfl := fanOut_delivered_succeeds he
      refine ⟨forall_setReplica (P := fun r replica => Sound replica _) hw.sound ?_, hw.addressed⟩
      exact ((hw.sound (T.replica k)).delivered hreader h).2

end Roster

/-! ## The numbers on their way to a socket -/

/-- The publication under way, if its frame has still to be sent to `k`. -/
def Reader.inFlight (k : κ) (n : ℕ) : Reader (Broadcast κ) → List ℕ
  | .delivering b => if k ∈ b.todo then [n] else []
  | _ => []

namespace FanOut

/-- Publication `n` is of this message. -/
def Names (w : FanOut ρ κ) (n : ℕ) (message : Message) : Prop :=
  ∃ c, w.log[n]? = some (c, message)

/-- The publications on their way to socket `k`, oldest first. -/
def upcoming (T : Placement ρ κ) (k : κ) (w : FanOut ρ κ) : List ℕ :=
  (w.replicas (T.replica k)).reader.inFlight k (w.delivering (T.replica k)) ++
    w.queued (T.replica k)

/-- The publications of which `k` has been written a frame, and then those on their way to it. -/
def line (T : Placement ρ κ) (k : κ) (w : FanOut ρ κ) : List ℕ :=
  (w.frames k).map Prod.fst ++ w.upcoming T k

omit [DecidableEq ρ] [DecidableEq κ] in
theorem Names.lt {w : FanOut ρ κ} {n : ℕ} {message : Message} (h : w.Names n message) :
    n < w.log.length := by
  obtain ⟨c, hc⟩ := h
  exact (List.getElem?_eq_some_iff.1 hc).1

omit [DecidableEq ρ] [DecidableEq κ] in
/-- A publication has one message. -/
theorem Names.unique {w : FanOut ρ κ} {n : ℕ} {m m' : Message} (h : w.Names n m)
    (h' : w.Names n m') : m = m' := by
  obtain ⟨c, hc⟩ := h
  obtain ⟨c', hc'⟩ := h'
  cases hc.symm.trans hc'
  rfl

omit [DecidableEq ρ] [DecidableEq κ] in
theorem Names.broadcast {w : FanOut ρ κ} {n : ℕ} {m : Message} (h : w.Names n m)
    (c : ConversationId) (message : Message) : (w.broadcast c message).Names n m := by
  have hlt := h.lt
  obtain ⟨c', hc'⟩ := h
  exact ⟨c', (List.getElem?_append_left hlt).trans hc'⟩

omit [DecidableEq ρ] [DecidableEq κ] in
theorem names_broadcast (w : FanOut ρ κ) (c : ConversationId) (message : Message) :
    (w.broadcast c message).Names w.log.length message :=
  ⟨c, List.getElem?_concat_length⟩

end FanOut

/-- The numbers tell which messages are in the inboxes, under way and written, and those of a socket
    are increasing. -/
structure Numbered (T : Placement ρ κ) (w : FanOut ρ κ) : Prop where
  queued : ∀ r, List.Forall₂ w.Names (w.queued r)
    (w.replicas r).registry.subscriber.pubsub.inbox
  delivering : ∀ r b, (w.replicas r).reader = .delivering b → w.Names (w.delivering r) b.message
  frames : ∀ k, ∀ f ∈ w.frames k, w.Names f.1 f.2
  increasing : ∀ k, (w.line T k).Pairwise (· < ·)

section Numbered

variable {T : Placement ρ κ} {w w' : FanOut ρ κ} {e : FanOutEvent ρ κ}

omit [DecidableEq ρ] in
theorem numbered_init : Numbered T (FanOut.init : FanOut ρ κ) where
  queued _ := .nil
  delivering _ _ h := by cases h
  frames _ f hf := by cases hf
  increasing _ := .nil

omit [DecidableEq ρ] in
theorem Numbered.line_lt (hw : Numbered T w) {k : κ} {n : ℕ} (hn : n ∈ w.line T k) :
    n < w.log.length := by
  rcases List.mem_append.1 hn with hframe | hupcoming
  · obtain ⟨f, hf, rfl⟩ := List.mem_map.1 hframe
    exact (hw.frames k f hf).lt
  · rcases List.mem_append.1 hupcoming with hflight | hqueued
    · unfold Reader.inFlight at hflight
      split at hflight
      · next b hreader =>
          split at hflight
          · obtain rfl := List.mem_singleton.1 hflight
            exact (hw.delivering _ b hreader).lt
          · cases hflight
      · cases hflight
    · obtain ⟨i, hi, rfl⟩ := List.mem_iff_getElem.1 hqueued
      have hall := hw.queued (T.replica k)
      exact (hall.get hi (hall.length_eq ▸ hi)).lt

/-- A step of the reader drops publications from those under way to a socket, or leaves them. -/
theorem ReaderMove.upcoming {r : Replica κ κ} {step : ReaderStep} {subscriber : Subscriber κ}
    {reader : Reader (Broadcast κ)}
    (h : ReaderMove
      (fun message => r.registry.manager.broadcast message.conversationId message)
      r.registry.subscriber step r.reader subscriber reader)
    {names : ℕ → Message → Prop} {queued : List ℕ}
    (hqueued : List.Forall₂ names queued r.registry.subscriber.pubsub.inbox) (n : ℕ) (k : κ) :
    (reader.inFlight k (deliveringAfter step queued n) ++ queuedAfter step queued).Sublist
      (r.reader.inFlight k n ++ queued) := by
  obtain ⟨registry, reader₀⟩ := r
  cases h with
  | polls | waits | wakes | reads | skips | fails | backsOff | reconnects | resubscribesLast
  | resubscribes | dies => exact List.Sublist.refl _
  | closesEmpty | closes => exact List.nil_sublist _
  | @drops message inbox hinbox hdeliver =>
      obtain ⟨n', rest, -, -, rfl⟩ := List.forall₂_cons_right_iff.1 (hinbox ▸ hqueued)
      exact List.sublist_cons_self _ _
  | @delivers message inbox delivery hinbox hdeliver =>
      obtain ⟨n', rest, -, -, rfl⟩ := List.forall₂_cons_right_iff.1 (hinbox ▸ hqueued)
      simp only [Reader.inFlight, deliveringAfter, queuedAfter, List.tail_cons]
      split
      · exact List.Sublist.refl _
      · exact List.sublist_cons_self _ _

omit [DecidableEq κ] in
/-- The messages read and still to be read go on having their numbers. -/
theorem ReaderMove.names {deliver : Message → Option (Broadcast κ)} {s s' : Subscriber κ}
    {reader reader' : Reader (Broadcast κ)} {step : ReaderStep}
    (h : ReaderMove deliver s step reader s' reader')
    (hdeliver : ∀ message b, deliver message = some b → b.message = message)
    {names : ℕ → Message → Prop} {queued : List ℕ} {n : ℕ}
    (hqueued : List.Forall₂ names queued s.pubsub.inbox) :
    List.Forall₂ names (queuedAfter step queued) s'.pubsub.inbox ∧
      ∀ b, reader' = .delivering b → names (deliveringAfter step queued n) b.message := by
  cases h with
  | polls | waits | wakes | reads | skips | fails | backsOff | reconnects | resubscribesLast
  | resubscribes | dies => exact ⟨hqueued, fun b hb => by cases hb⟩
  | closesEmpty | closes => exact ⟨.nil, fun b hb => by cases hb⟩
  | drops hinbox =>
      obtain ⟨n', rest, hn, hrest, rfl⟩ := List.forall₂_cons_right_iff.1 (hinbox ▸ hqueued)
      exact ⟨hrest, fun b hb => by cases hb⟩
  | @delivers message inbox delivery hinbox hsome =>
      obtain ⟨n', rest, hn, hrest, rfl⟩ := List.forall₂_cons_right_iff.1 (hinbox ▸ hqueued)
      refine ⟨hrest, fun b hb => ?_⟩
      cases hb
      rwa [hdeliver message delivery hsome]

/-- A send takes its socket, and no other, out of the broadcast. -/
theorem BroadcastMove.inFlight {k : κ} {succeeds : Bool} {b : Broadcast κ}
    {m m' : ConnectionManager κ} {b' : Option (Broadcast κ)}
    (h : BroadcastMove k succeeds b m m' b') (n : ℕ) :
    (Reader.delivering b).inFlight k n = [n] ∧ (Replica.afterSend b').inFlight k n = [] ∧
      ∀ k' ≠ k, (Replica.afterSend b').inFlight k' n = (Reader.delivering b).inFlight k' n := by
  cases h with
  | goesOn hmem hmore =>
      refine ⟨if_pos hmem, if_neg (Finset.notMem_erase k b.todo), fun k' hk => ?_⟩
      simp only [Replica.afterSend, Reader.inFlight, Finset.mem_erase, ne_eq, hk, not_false_eq_true,
        true_and]
  | finishes hlast =>
      refine ⟨if_pos (by rw [hlast]; exact Finset.mem_singleton_self k), rfl, fun k' hk => ?_⟩
      refine (if_neg ?_).symm
      rwa [hlast, Finset.mem_singleton]

omit [DecidableEq ρ] in
/-- A step of a registry call leaves the inboxes and the readers alone. -/
theorem Numbered.congr {w' : FanOut ρ κ} (hw : Numbered T w)
    (hreplicas : ∀ r, (w'.replicas r).registry.subscriber.pubsub.inbox =
      (w.replicas r).registry.subscriber.pubsub.inbox ∧
      (w'.replicas r).reader = (w.replicas r).reader)
    (hlog : w'.log = w.log) (hqueued : w'.queued = w.queued)
    (hdelivering : w'.delivering = w.delivering) (hframes : w'.frames = w.frames) :
    Numbered T w' where
  queued r := by
    have hnames : w'.Names = w.Names := by
      unfold FanOut.Names
      rw [hlog]
    rw [hnames, hqueued, (hreplicas r).1]
    exact hw.queued r
  delivering r b hreader := by
    have hnames := hw.delivering r b ((hreplicas r).2.symm.trans hreader)
    rw [hdelivering]
    unfold FanOut.Names at hnames ⊢
    rwa [hlog]
  frames k f hf := by
    have hnames := hw.frames k f (hframes ▸ hf)
    unfold FanOut.Names at hnames ⊢
    rwa [hlog]
  increasing k := by
    have hincreasing := hw.increasing k
    unfold FanOut.line FanOut.upcoming at hincreasing ⊢
    rwa [hframes, hqueued, hdelivering, (hreplicas (T.replica k)).2]

/-- A replica whose registry has made a step of a call. -/
theorem setReplica_registry (r₀ : ρ) {k : κ} {step : RegistryStep}
    {registry : ConversationRegistry κ κ} {l l' : RegistryCall κ}
    (h : RegistryMove k (w.replicas r₀).registry step l registry l') (r : ρ) :
    ((w.setReplica r₀ { w.replicas r₀ with registry }).replicas r).registry.subscriber.pubsub.inbox =
        (w.replicas r).registry.subscriber.pubsub.inbox ∧
      ((w.setReplica r₀ { w.replicas r₀ with registry }).replicas r).reader =
        (w.replicas r).reader := by
  unfold FanOut.setReplica
  rcases eq_or_ne r r₀ with rfl | hr
  · simp only [Function.update_self]
    exact ⟨h.inbox_eq, trivial⟩
  · simp only [Function.update_of_ne hr]
    exact ⟨trivial, trivial⟩

omit [DecidableEq ρ] in
theorem numbered_broadcast (hw : Numbered T w) (c : ConversationId) (message : Message) :
    Numbered T (w.broadcast c message) where
  queued r := by
    have hall := (hw.queued r).imp fun n m hn => FanOut.Names.broadcast hn c message
    simp only [FanOut.broadcast, Replica.receive, PubSub.receive]
    split
    · exact List.rel_append hall (.cons (FanOut.names_broadcast w c message) .nil)
    · exact hall
  delivering r b hreader := (hw.delivering r b hreader).broadcast c message
  frames k f hf := (hw.frames k f hf).broadcast c message
  increasing k := by
    have hline := hw.increasing k
    simp only [FanOut.line, FanOut.upcoming, FanOut.broadcast, Replica.receive]
    split
    · -- the new number is greater than all there are
      rw [← List.append_assoc, ← List.append_assoc, List.append_assoc ((w.frames k).map Prod.fst)]
      refine List.pairwise_append.2 ⟨hline, List.pairwise_singleton _ _, fun n hn n' hn' => ?_⟩
      rw [List.mem_singleton.1 hn']
      exact hw.line_lt hn
    · exact hline

theorem numbered_reader (hw : Numbered T w) {r : ρ} {step : ReaderStep}
    {subscriber : Subscriber κ} {reader : Reader (Broadcast κ)}
    (h : ReaderMove
      (fun message => (w.replicas r).registry.manager.broadcast message.conversationId message)
      (w.replicas r).registry.subscriber step (w.replicas r).reader subscriber reader) :
    Numbered T
      { w.setReplica r { registry := { (w.replicas r).registry with subscriber }, reader } with
        queued := Function.update w.queued r (queuedAfter step (w.queued r))
        delivering :=
          Function.update w.delivering r (deliveringAfter step (w.queued r) (w.delivering r)) } := by
  have hmessage : ∀ message b, (w.replicas r).registry.manager.broadcast message.conversationId
      message = some b → b.message = message := by
    intro message b hb
    obtain ⟨-, rfl⟩ := ConnectionManager.broadcast_eq_some hb
    rfl
  obtain ⟨hqueued, hdelivering⟩ := h.names hmessage (hw.queued r)
  refine ⟨fun r' => ?_, fun r' b hreader => ?_, hw.frames, fun k => ?_⟩
  · simp only [FanOut.setReplica]
    rcases eq_or_ne r' r with rfl | hr
    · simp only [Function.update_self]
      exact hqueued
    · simp only [Function.update_of_ne hr]
      exact hw.queued r'
  · simp only [FanOut.setReplica] at hreader ⊢
    rcases eq_or_ne r' r with rfl | hr
    · simp only [Function.update_self] at hreader ⊢
      exact hdelivering b hreader
    · simp only [Function.update_of_ne hr] at hreader ⊢
      exact hw.delivering r' b hreader
  · have hline := hw.increasing k
    simp only [FanOut.line, FanOut.upcoming, FanOut.setReplica] at hline ⊢
    rcases eq_or_ne (T.replica k) r with rfl | hr
    · simp only [Function.update_self]
      exact hline.sublist ((List.Sublist.refl _).append (h.upcoming (hw.queued _) _ k))
    · simp only [Function.update_of_ne hr]
      exact hline

/-- A send moves the publication from those under way to the written ones. -/
theorem line_delivered {k : κ} {b : Broadcast κ} {m : ConnectionManager κ}
    {b' : Option (Broadcast κ)} (hreader : (w.replicas (T.replica k)).reader = .delivering b)
    (h : BroadcastMove k true b (w.replicas (T.replica k)).registry.manager m b') (k' : κ) :
    ((w.setReplica (T.replica k)
      { registry := { (w.replicas (T.replica k)).registry with manager := m }
        reader := Replica.afterSend b' }).written k b.message (w.delivering (T.replica k))
      true).line T k' = w.line T k' := by
  obtain ⟨hbefore, hafter, hother⟩ := h.inFlight (w.delivering (T.replica k))
  simp only [FanOut.line, FanOut.upcoming, FanOut.written, FanOut.setReplica, if_true]
  rcases eq_or_ne k' k with rfl | hk
  · simp only [Function.update_self]
    rw [hafter, hreader, hbefore]
    simp
  · simp only [Function.update_of_ne hk]
    rcases eq_or_ne (T.replica k') (T.replica k) with hr | hr
    · rw [hr, Function.update_self]
      simp only
      rw [hother k' hk, hreader]
    · rw [Function.update_of_ne hr]

theorem numbered_delivered (hw : Numbered T w) {k : κ} {b : Broadcast κ} {m : ConnectionManager κ}
    {b' : Option (Broadcast κ)} (hreader : (w.replicas (T.replica k)).reader = .delivering b)
    (h : BroadcastMove k true b (w.replicas (T.replica k)).registry.manager m b') :
    Numbered T ((w.setReplica (T.replica k)
      { registry := { (w.replicas (T.replica k)).registry with manager := m }
        reader := Replica.afterSend b' }).written k b.message (w.delivering (T.replica k))
      true) where
  queued r := by
    simp only [FanOut.written, FanOut.setReplica, if_true]
    refine forall_setReplica
      (P := fun r replica => List.Forall₂ w.Names (w.queued r)
        replica.registry.subscriber.pubsub.inbox) hw.queued ?_ r
    exact hw.queued (T.replica k)
  delivering r b₀ hb₀ := by
    simp only [FanOut.written, FanOut.setReplica, if_true] at hb₀ ⊢
    rcases eq_or_ne r (T.replica k) with rfl | hr
    · -- the broadcast that goes on is of the same message
      rw [Function.update_self] at hb₀
      have hmessage : b₀.message = b.message := by
        cases h with
        | goesOn => cases hb₀; rfl
        | finishes => cases hb₀
      rw [hmessage]
      exact hw.delivering _ b hreader
    · rw [Function.update_of_ne hr] at hb₀
      exact hw.delivering r b₀ hb₀
  frames k' f hf := by
    simp only [FanOut.written, FanOut.setReplica, if_true] at hf ⊢
    rcases eq_or_ne k' k with rfl | hk
    · rw [Function.update_self] at hf
      rcases List.mem_append.1 hf with hold | hnew
      · exact hw.frames _ f hold
      · rw [List.mem_singleton.1 hnew]
        exact hw.delivering _ b hreader
    · rw [Function.update_of_ne hk] at hf
      exact hw.frames k' f hf
  increasing k' := by
    rw [line_delivered hreader h]
    exact hw.increasing k'

theorem numbered_step (he : e.fails = false) (hw : Numbered T w) (h : FanOutMove T w e w') :
    Numbered T w' := by
  cases h with
  | join | leave => exact hw.congr (fun r => ⟨rfl, rfl⟩) rfl rfl rfl rfl
  | joinStep _ h | leaveStep _ h =>
      exact hw.congr (fun r => setReplica_registry _ h r) rfl rfl rfl rfl
  | broadcast => exact numbered_broadcast hw _ _
  | reader h => exact numbered_reader hw h
  | @delivered k succeeds b m b' hreader h =>
      obtain rfl := fanOut_delivered_succeeds he
      exact numbered_delivered hw hreader h

end Numbered

/-! ## What a joined socket is owed -/

/-- The `join` of the socket has returned. -/
def Handler.hasJoined : Handler κ → Bool
  | .replaying .. | .sending _ | .serving | .leaving _ | .closed => true
  | .authenticating | .joining _ => false

/-- The socket is registered for its conversation. -/
def FanOut.Registered (T : Placement ρ κ) (k : κ) (w : FanOut ρ κ) : Prop :=
  k ∈ (w.replicas (T.replica k)).registry.manager.registered (T.conversation k)

/-- Publication `n`, of message `m`, has come to socket `k` or is on its way to it, if `k` has not
    left since. -/
structure Follows (T : Placement ρ κ) (k : κ) (n : ℕ) (m : Message) (w : FanOut ρ κ) : Prop where
  joined : (w.handlers k).hasJoined = true
  names : w.Names n m
  mem_line : w.Registered T k → n ∈ w.line T k

section Follows

variable {T : Placement ρ κ} {w w' : FanOut ρ κ} {e : FanOutEvent ρ κ} {k : κ} {n : ℕ} {m : Message}

omit [DecidableEq ρ] in
/-- A call brings no connection into the map but its own, and only by joining. -/
theorem RegistryMove.mem_or_joins {t k k' : κ} {step : RegistryStep}
    {s s' : ConversationRegistry κ κ} {l l' : RegistryCall κ} (h : RegistryMove t s step l s' l')
    {c c' : ConversationId} (hl : (Handler.joining l).Addressed c k ∨
      (Handler.leaving l).Addressed c k) (hk : k' ∈ s'.manager.registered c') :
    k' ∈ s.manager.registered c' ∨ (Handler.joining l).Addressed c k ∧ k' = k ∧ c' = c := by
  have hregister : ∀ c₀ k₀, k' ∈ (s.manager.register c₀ k₀).1.registered c' →
      k' ∈ s.manager.registered c' ∨ k' = k₀ ∧ c' = c₀ := by
    intro c₀ k₀ hin
    rcases eq_or_ne c' c₀ with rfl | hc
    · rw [ConnectionManager.register_registered] at hin
      exact (Finset.mem_insert.1 hin).symm.imp_right fun he => ⟨he, rfl⟩
    · rw [ConnectionManager.register_registered_of_ne hc] at hin
      exact .inl hin
  cases h with
  | joinsFirst | joins =>
      rcases hl with ⟨rfl, rfl⟩ | hl
      · exact (hregister _ _ hk).imp_right fun he => ⟨⟨rfl, rfl⟩, he⟩
      · exact hl.elim
  | subscribes | joined | unsubscribes | left => exact .inl hk
  | rollsBack | leavesLast | leaves =>
      exact .inl (ConnectionManager.unregister_registered_subset _ _ _ _ hk)

omit [DecidableEq ρ] in
/-- The reader delivers a publication to the sockets registered for it. -/
theorem ReaderMove.mem_upcoming {r : Replica κ κ} (hcalm : r.reader.calm = true)
    {step : ReaderStep} {subscriber : Subscriber κ} {reader : Reader (Broadcast κ)}
    (h : ReaderMove
      (fun message => r.registry.manager.broadcast message.conversationId message)
      r.registry.subscriber step r.reader subscriber reader)
    (hk : k ∈ r.registry.manager.registered m.conversationId)
    {queued : List ℕ} (hqueued : List.Forall₂ w.Names queued r.registry.subscriber.pubsub.inbox)
    (hm : w.Names n m) {n₀ : ℕ} (hn : n ∈ r.reader.inFlight k n₀ ++ queued) :
    n ∈ reader.inFlight k (deliveringAfter step queued n₀) ++ queuedAfter step queued := by
  obtain ⟨registry, reader₀⟩ := r
  cases h with
  | polls | waits | wakes | reads | skips | fails | backsOff | reconnects => exact hn
  | @drops message inbox hinbox hdeliver =>
      obtain ⟨n', rest, hn', -, rfl⟩ := List.forall₂_cons_right_iff.1 (hinbox ▸ hqueued)
      rcases List.mem_cons.1 hn with rfl | hin
      · rw [hm.unique hn', ConnectionManager.broadcast_eq_none hdeliver] at hk
        exact absurd hk (Finset.notMem_empty k)
      · exact hin
  | @delivers message inbox delivery hinbox hdeliver =>
      obtain ⟨n', rest, hn', -, rfl⟩ := List.forall₂_cons_right_iff.1 (hinbox ▸ hqueued)
      rcases List.mem_cons.1 hn with rfl | hin
      · obtain ⟨-, rfl⟩ := ConnectionManager.broadcast_eq_some hdeliver
        refine List.mem_append_left _ ?_
        rw [Reader.inFlight, if_pos (hm.unique hn' ▸ hk)]
        exact List.mem_singleton_self _
      · exact List.mem_append_right _ hin
  | closesEmpty | closes | resubscribesLast | resubscribes | dies => cases hcalm

omit [DecidableEq ρ] [DecidableEq κ] in
theorem hasJoined_afterLeave (l : RegistryCall κ) : (Handler.afterLeave l).hasJoined = true := by
  cases l <;> rfl

omit [DecidableEq ρ] [DecidableEq κ] in
theorem joining_of_not_hasJoined {handler : Handler κ} (h : handler.hasJoined = true) :
    handler ≠ .authenticating ∧ ∀ call, handler ≠ .joining call := by
  cases handler with
  | authenticating | joining => cases h
  | replaying | sending | serving | leaving | closed =>
      simp

/-- No step takes a handler back to before its `join`. -/
theorem hasJoined_step (hk : (w.handlers k).hasJoined = true) (h : FanOutMove T w e w') :
    (w'.handlers k).hasJoined = true := by
  have hset : ∀ k' handler, (k = k' → handler.hasJoined = true) →
      (Function.update w.handlers k' handler k).hasJoined = true := by
    intro k' handler hhandler
    rcases eq_or_ne k k' with rfl | hne
    · rw [Function.update_self]
      exact hhandler rfl
    · rwa [Function.update_of_ne hne]
  cases h with
  | join hhandler =>
      refine hset _ _ ?_
      rintro rfl
      exact absurd hhandler (joining_of_not_hasJoined hk).1
  | joinStep hhandler =>
      refine hset _ _ ?_
      rintro rfl
      exact absurd hhandler ((joining_of_not_hasJoined hk).2 _)
  | leave => exact hset _ _ fun _ => rfl
  | leaveStep => exact hset _ _ fun _ => hasJoined_afterLeave _
  | broadcast | reader => exact hk
  | @delivered k' succeeds => cases succeeds <;> exact hk

/-- A socket that has joined is not registered again. -/
theorem registered_of_step (hw : Roster T w) (hk : (w.handlers k).hasJoined = true)
    (h : FanOutMove T w e w') (hreg : w'.Registered T k) : w.Registered T k := by
  have hset : ∀ (r : ρ) (replica : Replica κ κ),
      (∀ c, k ∈ replica.registry.manager.registered c →
        k ∈ (w.replicas r).registry.manager.registered c) →
      k ∈ (Function.update w.replicas r replica (T.replica k)).registry.manager.registered
        (T.conversation k) → w.Registered T k := by
    intro r replica hreplica hin
    rcases eq_or_ne (T.replica k) r with rfl | hr
    · rw [Function.update_self] at hin
      exact hreplica _ hin
    · rwa [Function.update_of_ne hr] at hin
  cases h with
  | join | leave | broadcast => exact hreg
  | @joinStep k' step call call' registry hhandler h =>
      have hne : k ≠ k' := by
        rintro rfl
        exact (joining_of_not_hasJoined hk).2 _ hhandler
      refine hset _ _ (fun c hin => ?_) hreg
      exact (h.mem_or_joins (.inl (hhandler ▸ hw.addressed k')) hin).resolve_right fun he =>
        hne he.2.1
  | @leaveStep k' step call call' registry hhandler h =>
      have hleaving := hhandler ▸ hw.addressed k'
      refine hset _ _ (fun c hin => ?_) hreg
      exact (h.mem_or_joins (.inr hleaving) hin).resolve_right fun he =>
        (he.1.not_leaving hleaving).elim
  | @reader r step subscriber reader h =>
      exact hset r ⟨{ (w.replicas r).registry with subscriber }, reader⟩ (fun c => id) hreg
  | @delivered k' succeeds b manager b' hreader h =>
      refine hset (T.replica k')
        ⟨{ (w.replicas (T.replica k')).registry with manager }, Replica.afterSend b'⟩
        (fun c hin => h.registered_subset c hin) ?_
      cases succeeds <;> exact hreg

theorem follows_step (he : e.fails = false) (hroster : Roster T w) (hnumbered : Numbered T w)
    (hconv : m.conversationId = T.conversation k) (hw : Follows T k n m w)
    (h : FanOutMove T w e w') : Follows T k n m w' where
  joined := hasJoined_step hw.joined h
  names := by
    cases h with
    | broadcast => exact hw.names.broadcast _ _
    | join | joinStep | leave | leaveStep | reader => exact hw.names
    | @delivered _ succeeds => cases succeeds <;> exact hw.names
  mem_line hreg := by
    have hbefore := registered_of_step hroster hw.joined h hreg
    have hline := hw.mem_line hbefore
    cases h with
    | join | leave => exact hline
    | joinStep _ h | leaveStep _ h =>
        unfold FanOut.line FanOut.upcoming at hline ⊢
        simp only [FanOut.setHandler]
        rw [(setReplica_registry _ h _).2]
        exact hline
    | broadcast =>
        unfold FanOut.line FanOut.upcoming at hline ⊢
        simp only [FanOut.broadcast]
        split
        · rw [← List.append_assoc, ← List.append_assoc, List.append_assoc ((w.frames k).map Prod.fst)]
          exact List.mem_append_left _ hline
        · exact hline
    | @reader r step subscriber reader h =>
        rcases List.mem_append.1 hline with hframe | hupcoming
        · exact List.mem_append_left _ hframe
        · refine List.mem_append_right _ ?_
          unfold FanOut.upcoming at hupcoming ⊢
          simp only [FanOut.setReplica]
          rcases eq_or_ne (T.replica k) r with rfl | hr
          · simp only [Function.update_self]
            exact h.mem_upcoming (hroster.sound _).calm (hconv ▸ hbefore) (hnumbered.queued _)
              hw.names hupcoming
          · simp only [Function.update_of_ne hr]
            exact hupcoming
    | @delivered k' succeeds b manager b' hreader h =>
        obtain rfl := fanOut_delivered_succeeds he
        rw [line_delivered hreader h]
        exact hline

/-- At its publication a message comes to the replica of every socket that has joined. -/
theorem follows_broadcast (hroster : Roster T w) (hk : (w.handlers k).hasJoined = true)
    (hconv : m.conversationId = T.conversation k) :
    Follows T k w.log.length m (w.broadcast m.conversationId m) where
  joined := hk
  names := FanOut.names_broadcast w _ m
  mem_line hreg := by
    have hsubscribed : conversationChannel m.conversationId ∈
        (w.replicas (T.replica k)).registry.subscriber.pubsub.subscribed := by
      rw [hconv]
      exact subscribed_of_registered (hroster.sound (T.replica k)) hroster.addressed hreg
        (joining_of_not_hasJoined hk).2
    unfold FanOut.line FanOut.upcoming
    simp only [FanOut.broadcast, if_pos hsubscribed]
    exact List.mem_append_right _ (List.mem_append_right _ (List.mem_append_right _
      (List.mem_singleton_self _)))

end Follows

/-! ## The result -/

/-- The reader of the replica has finished delivering publication `n`. -/
def FanOut.Finished (n : ℕ) (r : ρ) (w : FanOut ρ κ) : Prop :=
  n ∉ w.queued r ∧ ∀ b, (w.replicas r).reader = .delivering b → w.delivering r ≠ n

omit [DecidableEq ρ] in
theorem FanOut.Finished.notMem_upcoming {T : Placement ρ κ} {w : FanOut ρ κ} {n : ℕ} {k : κ}
    (h : w.Finished n (T.replica k)) : n ∉ w.upcoming T k := by
  intro hin
  rcases List.mem_append.1 hin with hflight | hqueued
  · unfold Reader.inFlight at hflight
    split at hflight
    · next b hreader =>
        split at hflight
        · exact h.2 b hreader (List.mem_singleton.1 hflight).symm
        · cases hflight
    · cases hflight
  · exact h.1 hqueued

section Run

variable {T : Placement ρ κ} {w w' : FanOut ρ κ} {es : List (FanOutEvent ρ κ)}

/-- What every step in which nothing fails keeps, every run in which nothing fails keeps. -/
theorem fanOut_invariant {I : FanOut ρ κ → Prop}
    (hI : ∀ w e w', I w → e.fails = false → FanOutMove T w e w' → I w') (hw : I w)
    (h : exec (FanOut.step T) w es = some w') (hfails : ∀ e ∈ es, e.fails = false) : I w' :=
  exec_invariant_of_stepsMeet (C := fun _ e => e.fails = false)
    (fun w e w' hw he hstep => hI w e w' hw he (fanOut_move hstep)) hw
    (StepsMeet.of_forall hfails) h

theorem numbered_run (h : exec (FanOut.step T) FanOut.init es = some w)
    (hfails : ∀ e ∈ es, e.fails = false) : Roster T w ∧ Numbered T w :=
  fanOut_invariant (I := fun w => Roster T w ∧ Numbered T w)
    (fun _ _ _ hw he h => ⟨roster_step he hw.1 h, numbered_step he hw.2 h⟩)
    ⟨roster_init, numbered_init⟩ h hfails

end Run

/-- Live fan-out is exactly once and in the order of publication, in every run in which no Redis
    call and no send fails. -/
theorem fanOut_exactlyOnce (T : Placement ρ κ) {es : List (FanOutEvent ρ κ)} {w : FanOut ρ κ}
    (h : exec (FanOut.step T) FanOut.init es = some w) (hfails : ∀ e ∈ es, e.fails = false) (k : κ) :
    ((w.frames k).map Prod.fst).Pairwise (· < ·) ∧ (∀ f ∈ w.frames k, w.Names f.1 f.2) ∧
      ∀ es₁ r m es₂ w₁, es = es₁ ++ .broadcast r m.conversationId m :: es₂ →
        exec (FanOut.step T) FanOut.init es₁ = some w₁ → m.conversationId = T.conversation k →
        (w₁.handlers k).hasJoined = true → w.Registered T k →
        w.Finished w₁.log.length (T.replica k) →
        ((w.frames k).map Prod.fst).count w₁.log.length = 1 ∧ (w₁.log.length, m) ∈ w.frames k := by
  obtain ⟨-, hnumbered⟩ := numbered_run h hfails
  have hframes : ((w.frames k).map Prod.fst).Pairwise (· < ·) :=
    (hnumbered.increasing k).sublist (List.sublist_append_left _ _)
  refine ⟨hframes, hnumbered.frames k, fun es₁ r m es₂ w₁ hes h₁ hconv hjoined hreg hfinished => ?_⟩
  subst hes
  obtain ⟨hfails₁, hfails₂⟩ := List.forall_mem_append.1 hfails
  obtain ⟨hroster₁, hnumbered₁⟩ := numbered_run h₁ hfails₁
  obtain ⟨w₁', h₁', hrest⟩ := exec_append_eq_some.1 h
  obtain rfl : w₁ = w₁' := Option.some.inj (h₁.symm.trans h₁')
  obtain ⟨w₂, hbroadcast, hrest⟩ := exec_cons_eq_some.1 hrest
  cases hbroadcast
  obtain ⟨-, -, hfollows⟩ := fanOut_invariant
    (I := fun w => Roster T w ∧ Numbered T w ∧ Follows T k w₁.log.length m w)
    (fun w e w' hw he h => ⟨roster_step he hw.1 h, numbered_step he hw.2.1 h,
      follows_step he hw.1 hw.2.1 hconv hw.2.2 h⟩)
    ⟨roster_step rfl hroster₁ (.broadcast (r := r)), numbered_broadcast hnumbered₁ _ _,
      follows_broadcast hroster₁ hjoined hconv⟩ hrest (List.forall_mem_cons.1 hfails₂).2
  -- what is in line and not on its way any more has been written
  have hmem : w₁.log.length ∈ (w.frames k).map Prod.fst :=
    (List.mem_append.1 (hfollows.mem_line hreg)).resolve_right hfinished.notMem_upcoming
  refine ⟨List.count_eq_one_of_mem (hframes.imp ne_of_lt) hmem, ?_⟩
  obtain ⟨f, hf, hn⟩ := List.mem_map.1 hmem
  have hmessage : f.2 = m := (hnumbered.frames k f hf).unique (hn ▸ hfollows.names)
  rwa [← hn, ← hmessage]

/-- Two sockets of one conversation, each on a replica of its own. -/
def oneSocketEach : Placement Bool Bool where
  replica := id
  conversation _ := helloRequest.conversationId

def joinsReplica (k : Bool) : List (FanOutEvent Bool Bool) :=
  [.join k, .registry k .acquire, .registry k (.subscriber .acquire),
    .registry k (.subscriber (.redis true))]

def deliversOn (k : Bool) : List (FanOutEvent Bool Bool) :=
  [.reader k .turn, .reader k .acquire, .reader k (.read .message), .delivered k true]

/-- A message published on one replica comes once to the socket there and once to the other one. -/
theorem fanOut_exactlyOnce_twoReplicas :
    ∃ w, exec (FanOut.step oneSocketEach) FanOut.init
        ((joinsReplica false ++ joinsReplica true) ++
          .broadcast false helloRequest.conversationId (PostMessage.userMessage helloRequest 1 ⟨0, 0⟩)
            :: (deliversOn false ++ deliversOn true)) = some w ∧
      ∀ k, ((w.frames k).map Prod.fst).count 0 = 1 ∧
        (0, PostMessage.userMessage helloRequest 1 ⟨0, 0⟩) ∈ w.frames k := by
  obtain ⟨w₁, h₁, hlog, hjoined⟩ := exec_reaches (FanOut.step oneSocketEach) FanOut.init
    (joinsReplica false ++ joinsReplica true)
    (fun w => w.log.length = 0 ∧ ∀ k, (w.handlers k).hasJoined = true) (by decide)
  obtain ⟨w, h, hfacts⟩ := exec_reaches (FanOut.step oneSocketEach) FanOut.init
    ((joinsReplica false ++ joinsReplica true) ++
      .broadcast false helloRequest.conversationId (PostMessage.userMessage helloRequest 1 ⟨0, 0⟩)
        :: (deliversOn false ++ deliversOn true))
    (fun w => ∀ k, k ∈ (w.replicas k).registry.manager.registered helloRequest.conversationId ∧
      w.queued k = [] ∧ (w.replicas k).reader = .top) (by decide)
  refine ⟨w, h, fun k => ?_⟩
  obtain ⟨hreg, hqueued, hreader⟩ := hfacts k
  have honce := (fanOut_exactlyOnce oneSocketEach h (by decide) k).2.2 _ false
    (PostMessage.userMessage helloRequest 1 ⟨0, 0⟩) _ w₁ rfl h₁ rfl (hjoined k) hreg
  rw [hlog] at honce
  refine honce ⟨?_, fun b hb => ?_⟩
  · rw [show oneSocketEach.replica k = k from rfl, hqueued]
    exact List.not_mem_nil
  · cases hreader.symm.trans hb

end Dizzchat
