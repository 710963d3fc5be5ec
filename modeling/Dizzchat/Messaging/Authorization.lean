import Dizzchat.Messaging.Store

set_option autoImplicit false

/-! # Who may do what

Nine use cases look up the conversation, check the caller and validate their input, each in its own order.
`calls_authorized` is the one table they all follow, with what comes of it: a call that is refused, or
raises any other domain error, leaves the store as it was, and over a sequence of calls whatever changes
about a conversation can be traced to a call of somebody who may change it (`Attributed`). -/

namespace Dizzchat

open Transition

/-! ## Authorization errors -/

/-- The error turns the caller away; the others are about the input. -/
def MessagingError.refuses : MessagingError → Bool
  | .conversationNotFound _ | .notConversationOwner | .notConversationParticipant
  | .cannotRemoveConversationOwner => true
  | .invalidConversationTitle _ | .participantUserNotFound _ | .invalidMessageContent => false

/-- The outcome of a domain function that does not turn the caller away. -/
def Clears {α : Type} (x : Except MessagingError α) : Prop := ∀ e, x = .error e → e.refuses = false

section Clears

variable {α β : Type}

theorem clears_ok (a : α) : Clears (.ok a : Except MessagingError α) := fun e he => by cases he

theorem clears_error {e : MessagingError} :
    Clears (.error e : Except MessagingError α) ↔ e.refuses = false := by
  constructor
  · intro h
    exact h e rfl
  · intro h e' he'
    cases he'
    exact h

theorem clears_map {x : Except MessagingError α} {f : α → β} :
    Clears (do let a ← x; return f a) ↔ Clears x := by
  cases x with
  | ok a => exact ⟨fun _ => clears_ok a, fun _ => clears_ok (f a)⟩
  | error e => exact (clears_error (α := β)).trans (clears_error (α := α)).symm

/-- A check of the owner, with what comes after it. -/
theorem clears_ensureOwnedBy {conversation : Conversation} {ownerId : OwnerId}
    {rest : Except MessagingError α} (hrest : Clears rest) :
    Clears (do conversation.ensureOwnedBy ownerId; rest) ↔ conversation.ownerId = ownerId := by
  unfold Conversation.ensureOwnedBy
  split
  · next howner => exact ⟨fun _ => howner, fun _ => hrest⟩
  · next howner =>
      refine ⟨fun h => ?_, fun h => absurd h howner⟩
      have hrefuses : MessagingError.notConversationOwner.refuses = false := h _ rfl
      cases hrefuses

theorem clears_ensureParticipant {conversation : Conversation} {participantId : ParticipantId} :
    Clears (conversation.ensureParticipant participantId) ↔
      participantId ∈ conversation.participantIds := by
  unfold Conversation.ensureParticipant Conversation.isParticipant
  by_cases hmember : participantId ∈ conversation.participantIds
  · simp [hmember, clears_ok]
  · simp [hmember, clears_error, MessagingError.refuses]

theorem clears_ofString (value : String) : Clears (ConversationTitle.ofString value) := by
  intro e he
  unfold ConversationTitle.ofString at he
  simp only at he
  split at he
  · cases he
    rfl
  · cases he

end Clears

/-! ## The checks of the use cases -/

section Checks

variable {α : Type} {participants : Finset ParticipantId} {c : ConversationId}
  {row : Option ConversationModel}

/-- A use case that reads with `get` needs the conversation to be active. -/
theorem clears_get {f : Conversation → Except MessagingError α} :
    Clears (match ConversationRepository.get participants row with
      | none => .error (.conversationNotFound c)
      | some conversation => f conversation) ↔
      ∃ model ∈ row, model.deletedAt = none ∧ Clears (f (model.toDomain participants)) := by
  cases hget : ConversationRepository.get participants row with
  | none =>
      simp only [clears_error, MessagingError.refuses, Bool.true_eq_false, false_iff]
      rintro ⟨model, hrow, hactive, -⟩
      cases hget.symm.trans (get_eq_some.2 ⟨model, hrow, hactive, rfl⟩)
  | some conversation =>
      obtain ⟨model, rfl, hactive, rfl⟩ := get_eq_some.1 hget
      constructor
      · intro h
        exact ⟨model, rfl, hactive, h⟩
      · rintro ⟨model', hmodel', -, h⟩
        cases hmodel'
        exact h

/-- The check of a call that only the owner may make. -/
theorem clears_owner {ownerId : OwnerId} {f : Conversation → Except MessagingError α}
    (hf : ∀ conversation, Clears (f conversation)) :
    Clears (match ConversationRepository.get participants row with
      | none => .error (.conversationNotFound c)
      | some conversation => do conversation.ensureOwnedBy ownerId; f conversation) ↔
      ∃ model ∈ row, model.deletedAt = none ∧ model.ownerId = ownerId := by
  refine clears_get.trans (exists_congr fun model => ?_)
  exact and_congr_right fun _ => and_congr_right fun _ => clears_ensureOwnedBy (hf _)

theorem clears_rename {ownerId : OwnerId} {newTitle : String} {now : Datetime} :
    Clears (RenameConversation.execute participants c ownerId newTitle now row) ↔
      ∃ model ∈ row, model.deletedAt = none ∧ model.ownerId = ownerId :=
  clears_owner fun _ => clears_map.2 (clears_ofString newTitle)

theorem clears_delete {ownerId : OwnerId} {now : Datetime} :
    Clears (DeleteConversation.execute participants c ownerId now row) ↔
      ∃ model ∈ row, model.deletedAt = none ∧ model.ownerId = ownerId :=
  clears_owner fun _ => clears_ok _

/-- A restore does not ask whether the conversation is deleted. -/
theorem clears_restore {ownerId : OwnerId} {now : Datetime} :
    Clears (RestoreConversation.execute participants c ownerId now row) ↔
      ∃ model ∈ row, model.ownerId = ownerId := by
  cases row with
  | none =>
      constructor
      · intro h
        have hrefuses : (MessagingError.conversationNotFound c).refuses = false := h _ rfl
        cases hrefuses
      · rintro ⟨model, hrow, -⟩
        cases hrow
  | some model =>
      refine (clears_ensureOwnedBy (clears_ok _)).trans ⟨fun h => ⟨model, rfl, h⟩, ?_⟩
      rintro ⟨model', hmodel', h⟩
      cases hmodel'
      exact h

theorem clears_addParticipant {ownerId : OwnerId} {email : String} {userId : Option UUID} :
    Clears (AddParticipant.execute participants c ownerId email userId row) ↔
      ∃ model ∈ row, model.deletedAt = none ∧ model.ownerId = ownerId := by
  have hadd : ∀ conversation, Clears (AddParticipant.addUser email userId conversation) := by
    intro conversation
    cases userId with
    | none => exact clears_error.2 rfl
    | some userId => exact clears_ok _
  have hexecute : AddParticipant.execute participants c ownerId email userId row =
      match ConversationRepository.get participants row with
      | none => .error (.conversationNotFound c)
      | some conversation => (do
          conversation.ensureOwnedBy ownerId
          AddParticipant.addUser email userId conversation) := by
    unfold AddParticipant.execute AddParticipant.ensureMayInvite
    cases ConversationRepository.get participants row with
    | none => rfl
    | some conversation =>
        simp only
        cases conversation.ensureOwnedBy ownerId <;> rfl
  rw [hexecute]
  exact clears_owner hadd

theorem clears_removeParticipant {actorId participantId : ParticipantId} :
    Clears (RemoveParticipant.execute participants c actorId participantId row) ↔
      ∃ model ∈ row, model.deletedAt = none ∧
        (model.ownerId = ⟨actorId.value⟩ ∨ actorId = participantId) ∧
        participantId.value ≠ model.ownerId.value ∧ participantId ∈ participants := by
  refine clears_get.trans (exists_congr fun model => ?_)
  refine and_congr_right fun _ => and_congr_right fun _ => ?_
  split
  · next hactor =>
      simp only [clears_error, MessagingError.refuses, Bool.true_eq_false, false_iff]
      exact fun h => h.1.elim hactor.1 hactor.2
  · next hactor =>
      rw [not_and_or, not_not, not_not] at hactor
      unfold Conversation.removeParticipant Conversation.isParticipant
      by_cases howner : participantId.value = model.ownerId.value
      · simp [ConversationModel.toDomain, howner, clears_error, MessagingError.refuses]
      · by_cases hmember : participantId ∈ participants
        · simpa [ConversationModel.toDomain, howner, hmember, clears_ok] using hactor
        · simp [ConversationModel.toDomain, howner, hmember, clears_error, MessagingError.refuses]

theorem clears_ensureConversationAccess {participantId : ParticipantId} :
    Clears (EnsureConversationAccess.execute participants c participantId row) ↔
      (∃ model ∈ row, model.deletedAt = none) ∧ participantId ∈ participants := by
  refine clears_get.trans ⟨?_, ?_⟩
  · rintro ⟨model, hrow, hactive, h⟩
    exact ⟨⟨model, hrow, hactive⟩, clears_ensureParticipant.1 h⟩
  · rintro ⟨⟨model, hrow, hactive⟩, h⟩
    exact ⟨model, hrow, hactive, clears_ensureParticipant.2 h⟩

end Checks

/-! ## The table -/

namespace Store

/-- The conversation is active and this is its owner. -/
def ActiveOwnedBy (c : ConversationId) (ownerId : OwnerId) (s : Store) : Prop :=
  ∃ model ∈ s.row c, model.deletedAt = none ∧ model.ownerId = ownerId

/-- The conversation is active and this is one of its participants. -/
def ActiveFor (c : ConversationId) (participantId : ParticipantId) (s : Store) : Prop :=
  (∃ model ∈ s.row c, model.deletedAt = none) ∧ participantId ∈ s.participantsOf c

end Store

/-- Who may make which use case call. -/
def UseCaseRequest.Authorized (request : UseCaseRequest) (s : Store) : Prop :=
  let c := request.conversationId
  match request.useCase with
  | .create _ => True
  | .rename _ | .delete | .addParticipant .. => s.ActiveOwnedBy c ⟨request.actorId⟩
  | .restore => ∃ model ∈ s.row c, model.ownerId = ⟨request.actorId⟩
  | .removeParticipant participantId => ∃ model ∈ s.row c, model.deletedAt = none ∧
      (model.ownerId = ⟨request.actorId⟩ ∨ request.actorId = participantId.value) ∧
      participantId.value ≠ model.ownerId.value ∧ participantId ∈ s.participantsOf c

def StoreCall.Authorized (s : Store) : StoreCall → Prop
  | .useCase request => request.Authorized s
  | .fromUser request _ => s.ActiveFor request.conversationId ⟨request.senderId.value⟩
  | .listParticipants c participantId | .getConversationHistory c participantId _ _
  | .ensureConversationAccess c participantId => s.ActiveFor c participantId
  | .listConversations _ => True

/-- The call gets past authorization: whatever it raises, it is not turned away. -/
def StoreCall.Passes (s : Store) (call : StoreCall) : Prop :=
  ∀ e, (call.run s).2 = .error (.messaging e) → e.refuses = false

section Calls

variable {s : Store}

theorem passes_useCase {request : UseCaseRequest} :
    StoreCall.Passes s (.useCase request) ↔ Clears (request.execute
      (s.participantsOf request.conversationId) (s.row request.conversationId)) := by
  unfold StoreCall.Passes StoreCall.run UseCaseRequest.run
  cases hexecute : request.execute (s.participantsOf request.conversationId)
      (s.row request.conversationId) with
  | error e =>
      simp only [hexecute, clears_error]
      exact ⟨fun h => h e rfl, fun h e' he' => by cases he'; exact h⟩
  | ok change =>
      obtain ⟨response, hreturns⟩ := (execute_accepts hexecute).returns
      simp only [hexecute, hreturns]
      refine ⟨fun _ => clears_ok change, fun _ e he => ?_⟩
      cases hwrite : s.write change <;> simp [hwrite] at he

theorem execute_clears {request : UseCaseRequest} : Clears (request.execute
    (s.participantsOf request.conversationId) (s.row request.conversationId)) ↔
      request.Authorized s := by
  unfold UseCaseRequest.execute UseCaseRequest.Authorized
  cases huse : request.useCase with
  | create value => exact iff_of_true (clears_map.2 (clears_map.2 (clears_ofString value))) trivial
  | rename => exact clears_map.trans clears_rename
  | delete => exact clears_map.trans clears_delete
  | restore => exact clears_map.trans clears_restore
  | addParticipant => exact clears_map.trans clears_addParticipant
  | removeParticipant participantId =>
      have hself : (⟨request.actorId⟩ : ParticipantId) = participantId ↔
          request.actorId = participantId.value := by
        cases participantId
        simp
      refine clears_map.trans (clears_removeParticipant.trans ?_)
      simp only [hself]

/-- A reading call passes when its check does. -/
theorem passes_reading {check : Except MessagingError Unit} {response : Response} :
    (∀ e, StoreCall.reading check response = .error (.messaging e) → e.refuses = false) ↔
      Clears check := by
  cases check with
  | error e => exact ⟨fun h => clears_error.2 (h e rfl), fun h e' he' => by cases he'; exact h e rfl⟩
  | ok => exact ⟨fun _ => clears_ok (), fun _ e he => by cases he⟩

theorem passes_fromUser {request : SendRequest} {now : Datetime} :
    StoreCall.Passes s (.fromUser request now) ↔
      Clears (PostMessage.ensureMayPost request (s.get request.conversationId)) := by
  unfold StoreCall.Passes StoreCall.run PostMessage.fromUser
  cases hmay : PostMessage.ensureMayPost request (s.get request.conversationId) with
  | error e =>
      simp only [hmay, clears_error]
      exact ⟨fun h => h e rfl, fun h e' he' => by cases he'; exact h⟩
  | ok =>
      simp only [hmay]
      refine ⟨fun _ => clears_ok (), fun _ e he => ?_⟩
      split at he
      · cases he
      · split at he <;> cases he

theorem passes_iff_authorized (call : StoreCall) : call.Passes s ↔ call.Authorized s := by
  cases call with
  | useCase request => exact passes_useCase.trans execute_clears
  | fromUser request now =>
      exact passes_fromUser.trans clears_ensureConversationAccess
  | listConversations => exact iff_of_true (fun e he => by cases he) trivial
  | listParticipants | getConversationHistory | ensureConversationAccess =>
      exact passes_reading.trans clears_ensureConversationAccess

/-- A call that raises a domain error leaves the store exactly as it was. -/
theorem run_eq_of_error {call : StoreCall} {e : MessagingError}
    (h : (call.run s).2 = .error (.messaging e)) : (call.run s).1 = s := by
  cases call with
  | useCase request =>
      cases hrun : request.run s with
      | error => simp only [StoreCall.run, hrun]
      | ok result =>
          simp only [StoreCall.run, hrun] at h
          cases h
  | fromUser request now =>
      simp only [StoreCall.run, PostMessage.fromUser] at h ⊢
      split at h
      · rfl
      · split at h
        · cases h
        · split at h <;> cases h
  | listConversations | listParticipants | getConversationHistory | ensureConversationAccess => rfl

theorem attempt_eq_of_error {call : StoreCall} {commits : Bool} {e : MessagingError}
    (h : (call.attempt commits s).2 = .error (.messaging e)) : (call.attempt commits s).1 = s := by
  unfold StoreCall.attempt at h ⊢
  split at h
  · cases h
  · exact run_eq_of_error h

end Calls

/-! ## Tracing a change to a call -/

namespace UseCaseRequest

/-- A call about this conversation by this user. -/
def By (c : ConversationId) (actor : UUID) (request : UseCaseRequest) : Prop :=
  request.conversationId = c ∧ request.actorId = actor

def Creates (request : UseCaseRequest) : Prop := ∃ title, request.useCase = .create title

def Renames (request : UseCaseRequest) : Prop := ∃ newTitle, request.useCase = .rename newTitle

def DeletesOrRestores (request : UseCaseRequest) : Prop :=
  request.useCase = .delete ∨ request.useCase = .restore

/-- The call makes this user a participant: as the one who creates, or as the one who is invited. -/
def Admits (participantId : ParticipantId) (request : UseCaseRequest) : Prop :=
  match request.useCase with
  | .create _ => participantId.value = request.actorId
  | .addParticipant _ userId => userId = some participantId.value
  | .rename _ | .delete | .restore | .removeParticipant _ => False

end UseCaseRequest

/-- Whatever has changed about a conversation between two stores is the doing of one of the calls, made
    by somebody who may. -/
structure Attributed (s s' : Store) (requests : List UseCaseRequest) : Prop where
  rows : ∀ c model, s.row c = some model → ∃ model', s'.row c = some model' ∧
    model'.ownerId = model.ownerId ∧
    (model'.title ≠ model.title → ∃ r ∈ requests, r.By c model.ownerId.value ∧ r.Renames) ∧
    (model'.deletedAt ≠ model.deletedAt → ∃ r ∈ requests, r.By c model.ownerId.value ∧ r.DeletesOrRestores)
  created : ∀ c model', s.row c = none → s'.row c = some model' →
    ∃ r ∈ requests, r.By c model'.ownerId.value ∧ r.Creates
  admitted : ∀ c p, p ∉ s.participantsOf c → p ∈ s'.participantsOf c → ∃ model', s'.row c = some model' ∧
    ∃ r ∈ requests, r.By c model'.ownerId.value ∧ r.Admits p
  removed : ∀ c p, p ∈ s.participantsOf c → p ∉ s'.participantsOf c → ∃ model, s.row c = some model ∧
    ∃ r ∈ requests, (r.By c model.ownerId.value ∨ r.By c p.value) ∧ r.useCase = .removeParticipant p

section Attributed

variable {s t u : Store} {requests requests' : List UseCaseRequest}

/-- A member's conversation is there. -/
theorem Store.row_of_mem {c : ConversationId} {p : ParticipantId} (h : p ∈ s.participantsOf c) :
    ∃ model, s.row c = some model := by
  obtain ⟨m, hm, hk⟩ := Store.mem_participantsOf.1 h
  obtain rfl : m.conversationId = c := congrArg Prod.fst hk
  exact Option.ne_none_iff_exists'.1 (s.references m hm)

theorem attributed_refl (hrow : ∀ c, t.row c = s.row c)
    (hparticipants : ∀ c, t.participantsOf c = s.participantsOf c) : Attributed s t requests where
  rows c model hmodel :=
    ⟨model, (hrow c).trans hmodel, rfl, fun h => absurd rfl h, fun h => absurd rfl h⟩
  created c model' hnone hmodel' := by
    rw [hrow, hnone] at hmodel'
    cases hmodel'
  admitted c _ hout hin := absurd (hparticipants c ▸ hin) hout
  removed c _ hin hout := absurd (hparticipants c ▸ hin) hout

theorem Attributed.trans (h : Attributed s t requests) (h' : Attributed t u requests') :
    Attributed s u (requests ++ requests') where
  rows c model hmodel := by
    obtain ⟨model', hmodel', howner, htitle, hdeleted⟩ := h.rows c model hmodel
    obtain ⟨model'', hmodel'', howner', htitle', hdeleted'⟩ := h'.rows c model' hmodel'
    rw [howner] at htitle' hdeleted' howner'
    refine ⟨model'', hmodel'', howner', fun hne => ?_, fun hne => ?_⟩
    · by_cases hsame : model'.title = model.title
      · obtain ⟨r, hr, hby⟩ := htitle' (hsame ▸ hne)
        exact ⟨r, List.mem_append_right _ hr, hby⟩
      · obtain ⟨r, hr, hby⟩ := htitle hsame
        exact ⟨r, List.mem_append_left _ hr, hby⟩
    · by_cases hsame : model'.deletedAt = model.deletedAt
      · obtain ⟨r, hr, hby⟩ := hdeleted' (hsame ▸ hne)
        exact ⟨r, List.mem_append_right _ hr, hby⟩
      · obtain ⟨r, hr, hby⟩ := hdeleted hsame
        exact ⟨r, List.mem_append_left _ hr, hby⟩
  created c model'' hnone hmodel'' := by
    cases hbetween : t.row c with
    | none =>
        obtain ⟨r, hr, hby⟩ := h'.created c model'' hbetween hmodel''
        exact ⟨r, List.mem_append_right _ hr, hby⟩
    | some model' =>
        -- the row was there in between, with the same owner
        obtain ⟨r, hr, hby, hcreates⟩ := h.created c model' hnone hbetween
        obtain ⟨row, hrow, howner, -⟩ := h'.rows c model' hbetween
        obtain rfl : row = model'' := Option.some.inj (hrow.symm.trans hmodel'')
        exact ⟨r, List.mem_append_left _ hr, howner ▸ hby, hcreates⟩
  admitted c p hout hin := by
    by_cases hmember : p ∈ t.participantsOf c
    · obtain ⟨model', hmodel', r, hr, hby, hadmits⟩ := h.admitted c p hout hmember
      obtain ⟨model'', hmodel'', howner, -⟩ := h'.rows c model' hmodel'
      exact ⟨model'', hmodel'', r, List.mem_append_left _ hr, howner ▸ hby, hadmits⟩
    · obtain ⟨model'', hmodel'', r, hr, hby⟩ := h'.admitted c p hmember hin
      exact ⟨model'', hmodel'', r, List.mem_append_right _ hr, hby⟩
  removed c p hin hout := by
    by_cases hmember : p ∈ t.participantsOf c
    · obtain ⟨model, hmodel⟩ := Store.row_of_mem hin
      obtain ⟨model', hmodel', howner, -⟩ := h.rows c model hmodel
      obtain ⟨model'', hmodel'', r, hr, hby, hremoves⟩ := h'.removed c p hmember hout
      obtain rfl : model'' = model' := Option.some.inj (hmodel''.symm.trans hmodel')
      exact ⟨model, hmodel, r, List.mem_append_right _ hr, howner ▸ hby, hremoves⟩
    · obtain ⟨model, hmodel, r, hr, hby⟩ := h.removed c p hin hmember
      exact ⟨model, hmodel, r, List.mem_append_left _ hr, hby⟩

/-- An `UPDATE` by the owner changes the title in a rename only, and the mark in a delete or a restore
    only. -/
theorem attributed_update {request : UseCaseRequest} {model : ConversationModel}
    {conversation : Conversation} (hrow : s.row model.id = some model)
    (hid : conversation.id = model.id) (hby : request.By model.id model.ownerId.value)
    (htitle : conversation.title ≠ model.title → request.Renames)
    (hdeleted : conversation.deletedAt ≠ model.deletedAt → request.DeletesOrRestores)
    (h : s.Writes (.update conversation) t) : Attributed s t [request] := by
  obtain ⟨hrows, hmembers, -⟩ := h.of_row hrow hid
  have hparticipants := Store.participantsOf_congr hmembers
  refine ⟨fun c row hc => ?_, fun c row hnone hc => ?_,
    fun c _ hout hin => absurd (hparticipants c ▸ hin) hout,
    fun c _ hin hout => absurd (hparticipants c ▸ hin) hout⟩
  · rw [hrows]
    by_cases heq : model.id = c
    · subst heq
      obtain rfl : model = row := Option.some.inj (hrow.symm.trans hc)
      refine ⟨_, if_pos rfl, rfl, fun hne => ?_, fun hne => ?_⟩
      · exact ⟨request, List.mem_singleton_self _, hby, htitle hne⟩
      · exact ⟨request, List.mem_singleton_self _, hby, hdeleted hne⟩
    · exact ⟨row, (if_neg heq).trans hc, rfl, fun hne => absurd rfl hne, fun hne => absurd rfl hne⟩
  · rw [hrows] at hc
    split at hc
    · next heq =>
        subst heq
        cases hnone.symm.trans hrow
    · cases hnone.symm.trans hc

/-- One user more in a conversation, and everything else as it was. -/
theorem attributed_admit {request : UseCaseRequest} {model : ConversationModel} {q : ParticipantId}
    (hrows : ∀ c row, s.row c = some row → t.row c = some row)
    (hmembers : ∀ c, t.participantsOf c =
      s.participantsOf c ∪ if request.conversationId = c then {q} else ∅)
    (hmodel : t.row request.conversationId = some model)
    (hactor : request.actorId = model.ownerId.value) (hadmits : request.Admits q)
    (hcreated : ∀ c row, s.row c = none → t.row c = some row →
      request.By c row.ownerId.value ∧ request.Creates) : Attributed s t [request] where
  rows c row hc := ⟨row, hrows c row hc, rfl, fun hne => absurd rfl hne, fun hne => absurd rfl hne⟩
  created c row hnone hc := ⟨request, List.mem_singleton_self _, hcreated c row hnone hc⟩
  admitted c p hout hin := by
    rw [hmembers, Finset.mem_union] at hin
    have hnew := hin.resolve_left hout
    split at hnew
    · next hc =>
        subst hc
        obtain rfl := Finset.mem_singleton.1 hnew
        exact ⟨model, hmodel, request, List.mem_singleton_self _, ⟨rfl, hactor⟩, hadmits⟩
    · exact absurd hnew (Finset.notMem_empty p)
  removed c p hin hout := by
    rw [hmembers] at hout
    exact absurd (Finset.mem_union_left _ hin) hout

theorem Accepts.attributed {request : UseCaseRequest} {change : Change}
    (h : Accepts request (s.participantsOf request.conversationId) (s.row request.conversationId)
      change) (hwrites : s.Writes change t) : Attributed s t [request] := by
  have hfound : ∀ model, s.row request.conversationId = some model →
      model.id = request.conversationId := fun model hmodel => key_of_lookup hmodel
  generalize hrow : s.row request.conversationId = row at h hfound
  cases h with
  | create huse htitle =>
      have hmember := Store.participantsOf_create hwrites
      cases hwrites with
      | create hfresh hrows =>
          refine attributed_admit (fun c model hc => ?_) hmember ((hrows _).trans (if_pos rfl)) rfl ?_ ?_
          · rw [hrows, if_neg, hc]
            rintro rfl
            cases hc.symm.trans hfresh
          · simp [UseCaseRequest.Admits, huse]
          · intro c row hnone hc
            rw [hrows] at hc
            split at hc
            · next heq =>
                obtain rfl := Option.some.inj hc
                exact ⟨⟨heq, rfl⟩, _, huse⟩
            · cases hnone.symm.trans hc
  | @rename model value title huse hactive howner htitle =>
      rw [← hfound model rfl] at hrow
      refine attributed_update hrow rfl ⟨(hfound model rfl).symm, by rw [howner]⟩
        (fun _ => ⟨value, huse⟩) (fun hne => absurd ?_ hne) hwrites
      rfl
  | @delete model huse hactive howner =>
      rw [← hfound model rfl] at hrow
      refine attributed_update hrow ?_ ⟨(hfound model rfl).symm, by rw [howner]⟩
        (fun hne => absurd ?_ hne) (fun _ => .inl huse) hwrites
      all_goals simp [Conversation.delete, ConversationModel.toDomain, hactive]
  | @restore model huse howner =>
      rw [← hfound model rfl] at hrow
      refine attributed_update hrow ?_ ⟨(hfound model rfl).symm, by rw [howner]⟩
        (fun hne => absurd ?_ hne) (fun _ => .inr huse) hwrites
      all_goals
        unfold Conversation.restore
        split <;> rfl
  | @add model email q huse hactive howner hnew =>
      cases hwrites with
      | addParticipant hrows hmembers =>
          refine attributed_admit (fun c row hc => (hrows c).trans hc)
            (Store.participantsOf_insert hmembers) ((hrows _).trans hrow) ?_ ?_ ?_
          · rw [howner]
          · simp [UseCaseRequest.Admits, huse]
          · intro c row hnone hc
            cases hnone.symm.trans ((hrows c).symm.trans hc)
  | addAgain huse =>
      cases hwrites with
      | nothing => exact attributed_refl (fun _ => rfl) fun _ => rfl
  | @remove model q huse hactive hactor howner hmember =>
      cases hwrites with
      | removeParticipant =>
          refine ⟨fun c row hc => ⟨row, hc, rfl, fun hne => absurd rfl hne,
            fun hne => absurd rfl hne⟩, ?_, fun c p hout hin => ?_, fun c p hin hout => ?_⟩
          · intro c row hnone hc
            cases hnone.symm.trans hc
          · rw [Store.participantsOf_deleteParticipant] at hin
            split at hin
            · exact absurd (Finset.sdiff_subset hin) hout
            · exact absurd hin hout
          · rw [Store.participantsOf_deleteParticipant] at hout
            split at hout
            · next hc =>
                subst hc
                obtain rfl : p = q := by
                  by_contra hne
                  exact hout (Finset.mem_sdiff.2 ⟨hin, fun h => hne (Finset.mem_singleton.1 h)⟩)
                refine ⟨model, hrow, request, List.mem_singleton_self _, ?_, huse⟩
                exact hactor.imp (fun h => ⟨rfl, by rw [h]⟩) fun h => ⟨rfl, h⟩
            · exact absurd hin hout

/-- Over a sequence of calls every change is the doing of a call that has succeeded. -/
theorem attributed_after (s : Store) (calls : List (StoreCall × Bool)) :
    Attributed s (s.after calls) (s.succeeded calls) := by
  induction calls generalizing s with
  | nil => exact attributed_refl (fun _ => rfl) fun _ => rfl
  | cons e calls ih =>
      obtain ⟨call, commits⟩ := e
      rw [Store.after]
      rcases attempt_cases call commits calls s with
        ⟨request, response, hrun, hsucceeded⟩ | ⟨⟨hconversations, hparticipants⟩, hsucceeded⟩
      · obtain ⟨change, haccepts, -, hwrites⟩ := run_eq_ok hrun
        rw [hsucceeded]
        exact (haccepts.attributed hwrites).trans (ih _)
      · have hsame : Attributed s (call.attempt commits s).1 [] :=
          attributed_refl (Store.row_congr hconversations) (Store.participantsOf_congr hparticipants)
        rw [hsucceeded]
        exact hsame.trans (ih _)

end Attributed

/-- On every store a call gets past authorization exactly when the table lets it; a call that raises a
    domain error leaves the store exactly as it was, whether or not its commit would have gone through;
    and over every sequence of calls whatever changes is the doing of somebody who may change it: a new
    conversation, the title and the deletion of the owner, a new member of the owner, a lost one of the
    owner or of the member. -/
theorem calls_authorized (s : Store) :
    (∀ call : StoreCall, call.Passes s ↔ call.Authorized s) ∧
      (∀ (call : StoreCall) (commits : Bool) (e : MessagingError),
        (call.attempt commits s).2 = .error (.messaging e) → (call.attempt commits s).1 = s) ∧
      ∀ calls : List (StoreCall × Bool), Attributed s (s.after calls) (s.succeeded calls) :=
  ⟨passes_iff_authorized, fun _ _ _ h => attempt_eq_of_error h, attributed_after s⟩

end Dizzchat
