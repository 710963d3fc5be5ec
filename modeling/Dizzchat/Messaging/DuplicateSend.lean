import Dizzchat.Messaging.PostMessage
import Mathlib.Data.Fintype.Basic

set_option autoImplicit false

/-! # Concurrent sends of one client key

Any number of `from_user` calls with one pair of a conversation and a client key, by participants of
an active conversation, where nothing fails but the unique constraint. A call whose lookup misses
goes on to its `INSERT`; if another call committed the key in between, the `INSERT` violates the
constraint and the call raises instead of returning the stored message.

`duplicateSends_acknowledged_iff` is exact: every call is acknowledged with one and the same message
if and only if no lookup happened while another call had missed and not yet committed. -/

namespace Dizzchat

open Transition

variable {ι : Type*} [DecidableEq ι]

abbrev SendWorld (ι : Type*) := World ι (MessageStore ι) FromUserCall

/-! ## The runs -/

/-- Every call is about to start on a store nobody is writing to. -/
def SendWorld.init (rows : List Message) (lastSeq : Int) : SendWorld ι :=
  ⟨⟨{ rows, writes := [] }, lastSeq⟩, fun _ => .started⟩

/-- Every call carries the same pair. -/
def SameKey (request : ι → SendRequest) (conversationId : ConversationId)
    (clientMessageId : ClientMessageId) : Prop :=
  ∀ i, (request i).conversationId = conversationId ∧
    (request i).clientMessageId = some clientMessageId

/-- The rows obey the constraints, and the sequence is ahead of their ids. -/
def StoreValid (rows : List Message) (lastSeq : Int) : Prop :=
  (rows.Pairwise fun a b => Message.clash a b = false) ∧ ∀ m ∈ rows, m.id.value ≤ lastSeq

/-- A read sees the conversation active and the sender in it; nothing fails. -/
def Undisturbed (request : ι → SendRequest) : ι × FromUserStep → Prop
  | (i, .readConversation conversation) => ∃ c, conversation = some c ∧ c.deletedAt = none ∧
      c.isParticipant ⟨(request i).senderId.value⟩ = true
  | (_, .fail) => False
  | (_, .findExisting) | (_, .draw _) | (_, .flush) | (_, .commit) => True

namespace FromUserCall

/-- The lookup missed, and the call has not committed. -/
def racing : FromUserCall → Bool
  | .missed | .drawn _ | .flushed _ => true
  | .started | .admitted | .found _ | .returned .. | .raised _ => false

/-- The lookup missed, whatever has come of the call since. -/
def missedKey : FromUserCall → Bool
  | .missed | .drawn _ | .flushed _ | .returned _ true | .raised _ => true
  | .started | .admitted | .found _ | .returned _ false => false

/-- The message the call persisted and committed. -/
def created : FromUserCall → Option Message
  | .returned message true => some message
  | .started | .admitted | .missed | .found _ | .drawn _ | .flushed _ | .returned _ false
  | .raised _ => none

def hasEnded : FromUserCall → Bool
  | .returned .. | .raised _ => true
  | .started | .admitted | .missed | .found _ | .drawn _ | .flushed _ => false

theorem missedKey_of_racing {l : FromUserCall} (h : l.racing = true) : l.missedKey = true := by
  cases l with
  | missed | drawn | flushed => rfl
  | started | admitted | found | returned | raised => cases h

theorem created_eq_some {l : FromUserCall} {m : Message} (h : l.created = some m) :
    l = .returned m true := by
  cases l with
  | returned m' b => cases b <;> cases h; rfl
  | started | admitted | missed | found | drawn | flushed | raised => cases h

end FromUserCall

/-- No lookup happens while a call has missed and not yet committed. -/
def LooksUpAlone (w : SendWorld ι) (e : ι × FromUserStep) : Prop :=
  e.2 = .findExisting → ∀ j, (w.proc j).racing = false

instance [Fintype ι] (w : SendWorld ι) (e : ι × FromUserStep) : Decidable (LooksUpAlone w e) :=
  inferInstanceAs (Decidable (e.2 = .findExisting → ∀ j, (w.proc j).racing = false))

/-- Every call returns, all with the same id, and exactly one has created the message. -/
structure AllAcknowledged (w : SendWorld ι) : Prop where
  returned : ∀ i, ∃ message created, w.proc i = .returned message created
  sameId : ∀ i j m m' b b', w.proc i = .returned m b → w.proc j = .returned m' b' → m.id = m'.id
  createdOnce : ∃! i, ∃ message, w.proc i = .returned message true

/-! ## What holds in every such run -/

section Runs

variable {request : ι → SendRequest} {conversationId : ConversationId}
  {clientMessageId : ClientMessageId} {rows : List Message} {lastSeq : Int}

/-- What a call knows: the message it works on carries the pair, is new if the call draws it, and is
    stored once the call has found or committed it. -/
def CallInv (conversationId : ConversationId) (clientMessageId : ClientMessageId) (lastSeq : Int)
    (stored : List Message) : FromUserCall → Prop
  | .drawn m | .flushed m => m.carries conversationId clientMessageId = true ∧ lastSeq < m.id.value
  | .found m | .returned m false => m ∈ stored ∧ m.carries conversationId clientMessageId = true
  | .returned m true =>
      m ∈ stored ∧ m.carries conversationId clientMessageId = true ∧ lastSeq < m.id.value
  | .raised e => e = .integrityError
  | .started | .admitted | .missed => True

theorem CallInv.mono {stored stored' : List Message} (hsub : stored ⊆ stored')
    {l : FromUserCall} (h : CallInv conversationId clientMessageId lastSeq stored l) :
    CallInv conversationId clientMessageId lastSeq stored' l := by
  cases l with
  | found m => exact ⟨hsub h.1, h.2⟩
  | returned m created =>
      cases created with
      | false => exact ⟨hsub h.1, h.2⟩
      | true => exact ⟨hsub h.1, h.2⟩
  | started | admitted | missed | drawn | flushed | raised => exact h

structure SendInv (conversationId : ConversationId) (clientMessageId : ClientMessageId)
    (rows : List Message) (lastSeq : Int) (w : SendWorld ι) : Prop where
  distinct : w.shared.messages.Distinct Message.clash
  own : ∀ i, w.shared.messages.own i = (w.proc i).images
  seq : lastSeq ≤ w.shared.lastSeq
  call : ∀ i, CallInv conversationId clientMessageId lastSeq w.shared.messages.rows (w.proc i)
  kept : rows ⊆ w.shared.messages.rows
  source : ∀ m ∈ w.shared.messages.rows, m ∈ rows ∨ ∃ j, (w.proc j).created = some m

theorem sendInv_init (hvalid : StoreValid rows lastSeq) :
    SendInv conversationId clientMessageId rows lastSeq
      (SendWorld.init rows lastSeq : SendWorld ι) where
  distinct := by simpa [Table.Distinct, SendWorld.init] using hvalid.1
  own _ := rfl
  seq := le_refl _
  call _ := trivial
  kept := List.Subset.refl _
  source m h := Or.inl h

/-- What the step of a call leaves the call with. -/
theorem callInv_move (hsame : SameKey request conversationId clientMessageId) {i : ι}
    {c : FromUserStep} {s s' : MessageStore ι} {l l' : FromUserCall}
    (hdistinct : s.messages.Distinct Message.clash) (hown : s.messages.own i = l.images)
    (hseq : lastSeq ≤ s.lastSeq)
    (hl : CallInv conversationId clientMessageId lastSeq s.messages.rows l)
    (he : Undisturbed request (i, c)) (h : FromUserMove request i s c l s' l') :
    CallInv conversationId clientMessageId lastSeq s'.messages.rows l' := by
  obtain ⟨hconv, hkey⟩ := hsame i
  cases h with
  | rejected hadmit =>
      obtain ⟨c, rfl, _, hmember⟩ := he
      simp [PostMessage.ensureMayPost, Conversation.ensureParticipant, hmember] at hadmit
  | admitted | keyless | missed => trivial
  | found hkey' hfind =>
      obtain rfl := Option.some.inj (hkey.symm.trans hkey')
      rw [hconv] at hfind
      exact ⟨List.mem_of_find?_eq_some hfind, List.find?_some hfind⟩
  | drawn now =>
      refine ⟨?_, ?_⟩
      · simp [Message.carries, PostMessage.userMessage, hconv, hkey]
      · show lastSeq < s.lastSeq + 1
        omega
  | duplicate => rfl
  | flushed => exact hl
  | returnedExisting => exact hl
  | returnedCreated => exact ⟨mem_commit_of_own hdistinct (by simp [hown, FromUserCall.images]), hl⟩
  | failed => exact absurd he id

/-- Only a commit of the moving call changes what has been created. -/
theorem mem_rows_move {i : ι} {c : FromUserStep} {s s' : MessageStore ι} {l l' : FromUserCall}
    (hown : s.messages.own i = l.images)
    (h : FromUserMove request i s c l s' l') {m : Message} (hm : m ∈ s'.messages.rows) :
    m ∈ s.messages.rows ∨ l'.created = some m := by
  cases h with
  | rejected | admitted | keyless | found | missed | drawn | duplicate | returnedExisting
  | failed => exact Or.inl hm
  | flushed h =>
      obtain ⟨_, _, rfl⟩ := Table.insert_eq_done.1 h
      exact Or.inl hm
  | returnedCreated =>
      refine (Table.mem_commit_rows hm).symm.imp_right fun hm => ?_
      have hmine := Table.mem_own.2 hm
      rw [hown, FromUserCall.images, List.mem_singleton] at hmine
      rw [hmine]
      rfl

theorem created_move {i : ι} {c : FromUserStep} {s s' : MessageStore ι} {l l' : FromUserCall}
    (h : FromUserMove request i s c l s' l') {m : Message} (hm : l.created = some m) :
    l'.created = some m := by
  cases h with
  | rejected | admitted | keyless | found | missed | drawn | duplicate | flushed | returnedExisting
  | returnedCreated => cases hm
  | failed h =>
      rw [FromUserCall.created_eq_some hm] at h
      cases h

theorem sendInv_step (hsame : SameKey request conversationId clientMessageId)
    {w w' : SendWorld ι} {e : ι × FromUserStep}
    (hw : SendInv conversationId clientMessageId rows lastSeq w) (he : Undisturbed request e)
    (h : World.move (SessionScopedMessageWriter.fromUser request) w e = some w') :
    SendInv conversationId clientMessageId rows lastSeq w' := by
  obtain ⟨i, c⟩ := e
  obtain ⟨s, l, hstep, rfl⟩ := World.move_eq_some.1 h
  have hmove := fromUser_move hstep
  have hrows : w.shared.messages.rows ⊆ s.messages.rows := hmove.effect.rows_subset hw.distinct
  refine ⟨hmove.effect.distinct hw.distinct,
    hmove.effect.own_update (hmove.own (hw.own i)) hw.own, ?_, ?_, fun m hm => hrows (hw.kept hm),
    fun m hm => ?_⟩
  · exact le_trans hw.seq hmove.lastSeq_le
  · exact (Function.forall_update_iff w.proc fun _ l =>
      CallInv conversationId clientMessageId lastSeq s.messages.rows l).2
      ⟨callInv_move hsame hw.distinct (hw.own i) hw.seq (hw.call i) he hmove,
        fun j _ => (hw.call j).mono hrows⟩
  · rcases mem_rows_move (hw.own i) hmove hm with hm | hm
    · refine (hw.source m hm).imp_right ?_
      rintro ⟨j, hj⟩
      refine ⟨j, ?_⟩
      by_cases hji : j = i
      · subst hji
        simpa only [Function.update_self] using created_move hmove hj
      · simpa only [Function.update_of_ne hji] using hj
    · exact Or.inr ⟨i, by simpa only [Function.update_self] using hm⟩

/-! ## Lookups that happen alone -/

/-- At most one lookup misses, and no call raises. -/
structure AloneInv (w : SendWorld ι) : Prop where
  alone : ∀ i j, (w.proc i).missedKey = true → (w.proc j).missedKey = true → i = j
  fine : ∀ i e, w.proc i ≠ .raised e

omit [DecidableEq ι] in
theorem aloneInv_init : AloneInv (SendWorld.init rows lastSeq : SendWorld ι) where
  alone _ _ h := by cases h
  fine _ _ h := by cases h

/-- Without a row under the key, the `INSERT` of the only call that missed goes through. -/
theorem insert_ne_duplicate (hvalid : StoreValid rows lastSeq)
    (hnew : ∀ m ∈ rows, m.carries conversationId clientMessageId = false) {w : SendWorld ι}
    (hw : SendInv conversationId clientMessageId rows lastSeq w) (halone : AloneInv w) {i : ι}
    {m : Message} (hi : w.proc i = .drawn m) :
    w.shared.messages.insert Message.clash i m ≠ .duplicate := by
  intro hdup
  obtain ⟨hcarries, hid⟩ : m.carries conversationId clientMessageId = true ∧
      lastSeq < m.id.value := by simpa [hi, CallInv] using hw.call i
  rcases Table.insert_eq_duplicate hdup with ⟨x, hx, hclash⟩ | ⟨x, hx, _⟩
  · rcases hw.source x hx with hx | ⟨j, hj⟩
    · -- A row that was there at first has another id and another key.
      have hxid : x.id ≠ m.id := by
        intro he
        have := hvalid.2 x hx
        rw [he] at this
        omega
      have hxkey := hnew x hx
      obtain ⟨hconv, hkey⟩ := Message.carries_iff.1 hcarries
      simp only [Message.clash, hxid, decide_false, Bool.false_or, Bool.and_eq_true,
        decide_eq_true_eq] at hclash
      rw [Message.carries_iff.2 ⟨hclash.1.1.trans hconv, hclash.2.trans hkey⟩] at hxkey
      cases hxkey
    · have hjreturned := FromUserCall.created_eq_some hj
      obtain rfl : j = i := halone.alone j i (by rw [hjreturned]; rfl) (by rw [hi]; rfl)
      rw [hi] at hjreturned
      cases hjreturned
  · have hown := Table.mem_own.2 hx
    rw [hw.own i, hi] at hown
    cases hown

/-- A step that adds nobody to those who missed, and does not raise. -/
theorem AloneInv.keeps {w : SendWorld ι} (halone : AloneInv w) {i : ι} {l : FromUserCall}
    (hl : l.missedKey = true → (w.proc i).missedKey = true) (hfine : ∀ e, l ≠ .raised e)
    (s : MessageStore ι) : AloneInv ⟨s, Function.update w.proc i l⟩ where
  alone := by
    have hmissed : ∀ j, (Function.update w.proc i l j).missedKey = true →
        (w.proc j).missedKey = true :=
      (Function.forall_update_iff w.proc fun j l => l.missedKey = true →
        (w.proc j).missedKey = true).2 ⟨hl, fun _ _ => id⟩
    exact fun j k hj hk => halone.alone j k (hmissed j hj) (hmissed k hk)
  fine := (Function.forall_update_iff w.proc fun _ l => ∀ e, l ≠ .raised e).2
    ⟨hfine, fun j _ => halone.fine j⟩

/-- When the key is not stored and no call is between a miss and its commit, nobody has missed. -/
theorem AloneInv.missedKey_eq_false {w : SendWorld ι} (halone : AloneInv w)
    (hw : SendInv conversationId clientMessageId rows lastSeq w)
    (hracing : ∀ j, (w.proc j).racing = false)
    (hfind : ∀ m ∈ w.shared.messages.rows, m.carries conversationId clientMessageId = false)
    (j : ι) : (w.proc j).missedKey = false := by
  cases hj : w.proc j with
  | missed | drawn | flushed =>
      have hracing := hracing j
      rw [hj] at hracing
      cases hracing
  | raised e => exact absurd hj (halone.fine j e)
  | returned m created =>
      cases created with
      | false => rfl
      | true =>
          obtain ⟨hmem, hcarries, -⟩ : m ∈ w.shared.messages.rows ∧
              m.carries conversationId clientMessageId = true ∧ lastSeq < m.id.value := by
            simpa [hj, CallInv] using hw.call j
          rw [hfind m hmem] at hcarries
          cases hcarries
  | started | admitted | found => rfl

/-- The one lookup that misses. -/
theorem AloneInv.misses {w : SendWorld ι} (halone : AloneInv w)
    (hnobody : ∀ j, (w.proc j).missedKey = false) (i : ι) (s : MessageStore ι) :
    AloneInv ⟨s, Function.update w.proc i .missed⟩ where
  alone := by
    have hmissed : ∀ j, (Function.update w.proc i .missed j).missedKey = true → j = i := by
      intro j hj
      by_contra hji
      rw [Function.update_of_ne hji, hnobody j] at hj
      cases hj
    exact fun j k hj hk => (hmissed j hj).trans (hmissed k hk).symm
  fine := (Function.forall_update_iff w.proc fun _ l => ∀ e, l ≠ .raised e).2
    ⟨by simp, fun j _ => halone.fine j⟩

theorem aloneInv_step (hsame : SameKey request conversationId clientMessageId)
    (hvalid : StoreValid rows lastSeq)
    (hnew : ∀ m ∈ rows, m.carries conversationId clientMessageId = false)
    {w w' : SendWorld ι} {e : ι × FromUserStep}
    (hw : SendInv conversationId clientMessageId rows lastSeq w) (halone : AloneInv w)
    (he : Undisturbed request e) (hlook : LooksUpAlone w e)
    (h : World.move (SessionScopedMessageWriter.fromUser request) w e = some w') :
    AloneInv w' := by
  obtain ⟨i, c⟩ := e
  obtain ⟨s, l, hstep, rfl⟩ := World.move_eq_some.1 h
  have hmove := fromUser_move hstep
  generalize hi : w.proc i = li at hmove
  cases hmove with
  | rejected hadmit =>
      obtain ⟨c, rfl, _, hmember⟩ := he
      simp [PostMessage.ensureMayPost, Conversation.ensureParticipant, hmember] at hadmit
  | admitted | found | drawn | flushed | returnedExisting | returnedCreated =>
      exact halone.keeps (i := i) (by simp [hi, FromUserCall.missedKey]) (by simp) _
  | keyless hkey => exact absurd hkey (by simp [(hsame i).2])
  | missed hkey hfind =>
      obtain rfl := Option.some.inj ((hsame i).2.symm.trans hkey)
      rw [(hsame i).1] at hfind
      refine halone.misses (halone.missedKey_eq_false hw (hlook rfl) fun m hm => ?_) i _
      exact Bool.eq_false_iff.2 (List.find?_eq_none.1 hfind m hm)
  | duplicate hdup => exact absurd hdup (insert_ne_duplicate hvalid hnew hw halone hi)
  | failed => exact absurd he id

/-- When all calls have ended, a run of lookups that happened alone has acknowledged all of them. -/
theorem allAcknowledged_of_alone [Nonempty ι]
    (hnew : ∀ m ∈ rows, m.carries conversationId clientMessageId = false) {w : SendWorld ι}
    (hw : SendInv conversationId clientMessageId rows lastSeq w) (halone : AloneInv w)
    (hended : ∀ i, (w.proc i).hasEnded = true) : AllAcknowledged w := by
  have hreturned : ∀ i, ∃ m b, w.proc i = .returned m b := by
    intro i
    cases hi : w.proc i with
    | returned m b => exact ⟨m, b, rfl⟩
    | raised e => exact absurd hi (halone.fine i e)
    | started | admitted | missed | found | drawn | flushed =>
        have := hended i
        rw [hi] at this
        cases this
  have hstored : ∀ i m b, w.proc i = .returned m b → m ∈ w.shared.messages.rows ∧
      m.carries conversationId clientMessageId = true := by
    intro i m b hi
    have hcall := hw.call i
    rw [hi] at hcall
    cases b with
    | false => exact hcall
    | true => exact ⟨hcall.1, hcall.2.1⟩
  refine ⟨hreturned, fun i j m m' b b' hi hj => ?_, ?_⟩
  · obtain ⟨hm, hcarries⟩ := hstored i m b hi
    obtain ⟨hm', hcarries'⟩ := hstored j m' b' hj
    rw [hw.distinct.eq_of_clash Message.clash_comm hm hm' (Message.clash_of_carries hcarries
      hcarries')]
  · obtain ⟨i⟩ := ‹Nonempty ι›
    obtain ⟨m, b, hi⟩ := hreturned i
    obtain ⟨hm, hcarries⟩ := hstored i m b hi
    rcases hw.source m hm with hold | ⟨j, hj⟩
    · rw [hnew m hold] at hcarries
      cases hcarries
    · have hj := FromUserCall.created_eq_some hj
      refine ⟨j, ⟨m, hj⟩, fun k ⟨m', hk⟩ => ?_⟩
      exact halone.alone k j (by rw [hk]; rfl) (by rw [hj]; rfl)

/-! ## Lookups that do not -/

/-- Two lookups have missed; or one has, and its call can no longer create the message, which is
    already stored. -/
def SendDoomed (conversationId : ConversationId) (clientMessageId : ClientMessageId)
    (w : SendWorld ι) : Prop :=
  (∃ i j, i ≠ j ∧ (w.proc i).missedKey = true ∧ (w.proc j).missedKey = true) ∨
    ∃ m ∈ w.shared.messages.rows, m.carries conversationId clientMessageId = true ∧
      ∃ j, (w.proc j).missedKey = true ∧ (w.proc j).created = none

theorem missedKey_move {i : ι} {c : FromUserStep} {s s' : MessageStore ι} {l l' : FromUserCall}
    (h : FromUserMove request i s c l s' l') (hl : l.missedKey = true) : l'.missedKey = true := by
  cases h with
  | rejected | admitted | keyless | found | missed | returnedExisting => cases hl
  | drawn | duplicate | flushed | returnedCreated | failed => rfl

theorem sendDoomed_step {w w' : SendWorld ι} {e : ι × FromUserStep}
    (hw : SendInv conversationId clientMessageId rows lastSeq w)
    (hdoom : SendDoomed conversationId clientMessageId w)
    (h : World.move (SessionScopedMessageWriter.fromUser request) w e = some w') :
    SendDoomed conversationId clientMessageId w' := by
  obtain ⟨i, c⟩ := e
  obtain ⟨s, l, hstep, rfl⟩ := World.move_eq_some.1 h
  have hmove := fromUser_move hstep
  have hmissed : ∀ j, (w.proc j).missedKey = true →
      (Function.update w.proc i l j).missedKey = true := by
    intro j hj
    by_cases hji : j = i
    · subst hji
      simpa only [Function.update_self] using missedKey_move hmove hj
    · simpa only [Function.update_of_ne hji] using hj
  rcases hdoom with ⟨j, k, hne, hj, hk⟩ | ⟨m, hm, hcarries, j, hj, hcreated⟩
  · exact Or.inl ⟨j, k, hne, hmissed j hj, hmissed k hk⟩
  · refine Or.inr ⟨m, hmove.effect.rows_subset hw.distinct hm, hcarries, j, hmissed j hj, ?_⟩
    by_cases hji : j = i
    · subst hji
      simp only [Function.update_self]
      generalize hl : w.proc j = lj at hmove hj hcreated
      cases hmove with
      | rejected | admitted | keyless | found | missed | drawn | duplicate | flushed
      | returnedExisting | failed => rfl
      | returnedCreated =>
          -- What the call would commit clashes with the stored message.
          rename_i message
          have hmine : (j, message) ∈ w.shared.messages.writes :=
            Table.mem_own.1 (by simp [hw.own j, hl, FromUserCall.images])
          have hcall := hw.call j
          rw [hl] at hcall
          have hclash := Message.clash_of_carries hcarries hcall.1
          rw [hw.distinct.row_write hm hmine] at hclash
          cases hclash
    · simpa only [Function.update_of_ne hji] using hcreated

/-- A lookup beside a call that has missed leads to doom, whether it misses too or not. -/
theorem sendDoomed_of_lookup (hsame : SameKey request conversationId clientMessageId)
    {w w' : SendWorld ι} {e : ι × FromUserStep} (hlook : ¬ LooksUpAlone w e)
    (h : World.move (SessionScopedMessageWriter.fromUser request) w e = some w') :
    SendDoomed conversationId clientMessageId w' := by
  obtain ⟨i, c⟩ := e
  obtain ⟨s, l, hstep, rfl⟩ := World.move_eq_some.1 h
  simp only [LooksUpAlone, Classical.not_imp, not_forall, Bool.not_eq_false] at hlook
  obtain ⟨rfl, j, hracing⟩ := hlook
  have hmove := fromUser_move hstep
  generalize hi : w.proc i = li at hmove
  have hmissed := FromUserCall.missedKey_of_racing hracing
  have hne : j ≠ i := by
    rintro rfl
    rw [hi] at hracing
    cases hmove <;> cases hracing
  have hother : ∀ l, Function.update w.proc i l j = w.proc j := fun l => Function.update_of_ne hne _ _
  cases hmove with
  | keyless hkey => exact absurd hkey (by simp [(hsame i).2])
  | missed =>
      exact Or.inl ⟨i, j, Ne.symm hne, by simp only [Function.update_self]; rfl,
        by simpa only [hother] using hmissed⟩
  | found hkey hfind =>
      obtain rfl := Option.some.inj ((hsame i).2.symm.trans hkey)
      rw [(hsame i).1] at hfind
      refine Or.inr ⟨_, List.mem_of_find?_eq_some hfind, List.find?_some hfind, j,
        by simpa only [hother] using hmissed, ?_⟩
      simp only [hother]
      cases hj : w.proc j with
      | missed | drawn | flushed => rfl
      | started | admitted | found | returned | raised => rw [hj] at hracing; cases hracing

omit [DecidableEq ι] in
theorem not_sendDoomed_of_allAcknowledged {w : SendWorld ι} (hack : AllAcknowledged w) :
    ¬ SendDoomed conversationId clientMessageId w := by
  have hcreated : ∀ i, (w.proc i).missedKey = true → ∃ m, w.proc i = .returned m true := by
    intro i hi
    obtain ⟨m, b, hm⟩ := hack.returned i
    rw [hm] at hi ⊢
    cases b with
    | true => exact ⟨m, rfl⟩
    | false => cases hi
  rintro (⟨i, j, hne, hi, hj⟩ | ⟨m, _, _, j, hj, hnone⟩)
  · obtain ⟨k, _, honly⟩ := hack.createdOnce
    exact hne ((honly i (hcreated i hi)).trans (honly j (hcreated j hj)).symm)
  · obtain ⟨m', hm'⟩ := hcreated j hj
    rw [hm'] at hnone
    cases hnone

/-- An acknowledged key was new: its message was not there at first. -/
theorem new_of_allAcknowledged (hvalid : StoreValid rows lastSeq) {w : SendWorld ι}
    (hw : SendInv conversationId clientMessageId rows lastSeq w) (hack : AllAcknowledged w) :
    ∀ m ∈ rows, m.carries conversationId clientMessageId = false := by
  intro m hm
  by_contra hcarries
  obtain ⟨i, ⟨m', hi⟩, _⟩ := hack.createdOnce
  obtain ⟨hm', hcarries', hid⟩ : m' ∈ w.shared.messages.rows ∧
      m'.carries conversationId clientMessageId = true ∧ lastSeq < m'.id.value := by
    simpa [hi, CallInv] using hw.call i
  obtain rfl := hw.distinct.eq_of_clash Message.clash_comm (hw.kept hm) hm'
    (Message.clash_of_carries (by simpa using hcarries) hcarries')
  have := hvalid.2 m hm
  omega

/-! ## The result -/

/-- Of concurrent sends of one key every call is acknowledged with the one message if and only if
    the key is new and no lookup happens while a call has missed and not yet committed. -/
theorem duplicateSends_acknowledged_iff [Nonempty ι]
    (hsame : SameKey request conversationId clientMessageId) (hvalid : StoreValid rows lastSeq)
    (es : List (ι × FromUserStep)) (w : SendWorld ι) (hes : ∀ e ∈ es, Undisturbed request e)
    (hrun : exec (World.move (SessionScopedMessageWriter.fromUser request))
      (SendWorld.init rows lastSeq) es = some w)
    (hended : ∀ i, (w.proc i).hasEnded = true) :
    AllAcknowledged w ↔
      (∀ m ∈ rows, m.carries conversationId clientMessageId = false) ∧
        StepsMeet (World.move (SessionScopedMessageWriter.fromUser request)) LooksUpAlone
          (SendWorld.init rows lastSeq) es := by
  have hquiet : StepsMeet (World.move (SessionScopedMessageWriter.fromUser request))
      (fun _ => Undisturbed request) (SendWorld.init rows lastSeq) es := StepsMeet.of_forall hes
  have hinv : SendInv conversationId clientMessageId rows lastSeq w := exec_invariant_of_stepsMeet
    (fun w e w' hw he h => sendInv_step hsame hw he h) (sendInv_init hvalid) hquiet hrun
  constructor
  · intro hack
    refine ⟨new_of_allAcknowledged hvalid hinv hack, ?_⟩
    exact stepsMeet_of_not_doomed (fun w e w' hw he h => sendInv_step hsame hw he h)
      (fun w e w' hw _ hdoom h => sendDoomed_step hw hdoom h)
      (fun w e w' _ _ hlook h => sendDoomed_of_lookup hsame hlook h) (sendInv_init hvalid) hquiet
      hrun (not_sendDoomed_of_allAcknowledged hack)
  · rintro ⟨hnew, hlook⟩
    have halone : SendInv conversationId clientMessageId rows lastSeq w ∧ AloneInv w :=
      exec_invariant_of_stepsMeet (I := fun w => SendInv conversationId clientMessageId rows
        lastSeq w ∧ AloneInv w) (fun w e w' hw he h => ⟨sendInv_step hsame hw.1 he.1 h,
          aloneInv_step hsame hvalid hnew hw.1 hw.2 he.1 he.2 h⟩)
        ⟨sendInv_init hvalid, aloneInv_init⟩ (hquiet.and hlook) hrun
    exact allAcknowledged_of_alone hnew hinv halone.2 hended

/-- Nothing gets stuck: while some call has not ended, some call can take a step. -/
theorem sends_progress {w : SendWorld ι}
    (hw : SendInv conversationId clientMessageId rows lastSeq w) {i : ι}
    (hi : (w.proc i).hasEnded = false) :
    ∃ j c, c ≠ .fail ∧
      (SessionScopedMessageWriter.fromUser request j c w.shared (w.proc j)).isSome = true := by
  cases hl : w.proc i with
  | returned | raised => rw [hl] at hi; cases hi
  | started =>
      refine ⟨i, .readConversation none, by simp, ?_⟩
      rw [hl]
      rfl
  | admitted =>
      refine ⟨i, .findExisting, by simp, ?_⟩
      rw [hl, SessionScopedMessageWriter.fromUser]
      split
      · rfl
      · split <;> rfl
  | missed => exact ⟨i, .draw ⟨0, 0⟩, by simp, by rw [hl]; rfl⟩
  | found => exact ⟨i, .commit, by simp, by rw [hl]; rfl⟩
  | flushed => exact ⟨i, .commit, by simp, by rw [hl]; rfl⟩
  | drawn m =>
      by_cases hblocked : w.shared.messages.blocked Message.clash i m = true
      · -- The call waits for one that has flushed, and that one can commit.
        simp only [Table.blocked, List.any_eq_true, Bool.and_eq_true, decide_eq_true_eq] at hblocked
        obtain ⟨⟨j, x⟩, hx, _⟩ := hblocked
        have hown := Table.mem_own.2 hx
        rw [hw.own j] at hown
        refine ⟨j, .commit, by simp, ?_⟩
        cases hj : w.proc j with
        | flushed => rfl
        | started | admitted | missed | found | drawn | returned | raised =>
            rw [hj] at hown
            cases hown
      · refine ⟨i, .flush, by simp, ?_⟩
        rw [hl, SessionScopedMessageWriter.fromUser, Table.insert, if_neg hblocked]
        split
        · next h => split at h <;> cases h
        · rfl
        · rfl

end Runs

/-! ## Two sends of one key -/

def twoSends (_ : Bool) : SendRequest := helloRequest

/-- The second call looks up after the commit of the first. -/
def twoSendsInTurn : List (Bool × FromUserStep) :=
  [(false, .readConversation (some helloConversation)), (false, .findExisting),
    (true, .readConversation (some helloConversation)), (false, .draw ⟨5, 0⟩), (false, .flush),
    (false, .commit), (true, .findExisting), (true, .commit)]

/-- Both calls look up before either commits. -/
def twoSendsRacing : List (Bool × FromUserStep) :=
  [(false, .readConversation (some helloConversation)), (false, .findExisting),
    (true, .readConversation (some helloConversation)), (true, .findExisting),
    (false, .draw ⟨5, 0⟩), (false, .flush), (true, .draw ⟨6, 0⟩), (false, .commit), (true, .flush)]

theorem sameKey_twoSends : SameKey twoSends ⟨1⟩ ⟨77⟩ := fun _ => ⟨rfl, rfl⟩

theorem undisturbed_twoSends (i : Bool) : helloConversation.deletedAt = none ∧
    helloConversation.isParticipant ⟨(twoSends i).senderId.value⟩ = true :=
  ⟨rfl, by decide +revert⟩

/-- In turn, both calls are acknowledged with message 1. -/
theorem duplicateSends_acknowledged_inTurn :
    ∃ w, exec (World.move (SessionScopedMessageWriter.fromUser twoSends)) (SendWorld.init [] 0)
        twoSendsInTurn = some w ∧ AllAcknowledged w := by
  obtain ⟨w, hrun, hended⟩ := exec_reaches (World.move (SessionScopedMessageWriter.fromUser
    twoSends)) (SendWorld.init [] 0) twoSendsInTurn
    (fun w => ∀ i, (w.proc i).hasEnded = true) (by decide)
  refine ⟨w, hrun, (duplicateSends_acknowledged_iff sameKey_twoSends ⟨by simp, by simp⟩
    twoSendsInTurn w ?_ hrun hended).2 ⟨by simp, by decide⟩⟩
  simpa [twoSendsInTurn, Undisturbed] using
    And.intro (undisturbed_twoSends false) (undisturbed_twoSends true)

/-- Racing, the second call raises although the message it sent is stored. -/
theorem duplicateSends_loserRaises :
    ∃ w, exec (World.move (SessionScopedMessageWriter.fromUser twoSends)) (SendWorld.init [] 0)
        twoSendsRacing = some w ∧ (∀ e ∈ twoSendsRacing, Undisturbed twoSends e) ∧
      w.proc true = .raised .integrityError ∧ ¬ AllAcknowledged w := by
  obtain ⟨w, hrun, hraised⟩ := exec_reaches (World.move (SessionScopedMessageWriter.fromUser
    twoSends)) (SendWorld.init [] 0) twoSendsRacing
    (fun w => w.proc true = .raised .integrityError) (by decide)
  refine ⟨w, hrun, ?_, hraised, fun hack => ?_⟩
  · simpa [twoSendsRacing, Undisturbed] using
      And.intro (undisturbed_twoSends false) (undisturbed_twoSends true)
  obtain ⟨m, b, hreturned⟩ := hack.returned true
  rw [hraised] at hreturned
  cases hreturned

end Dizzchat
