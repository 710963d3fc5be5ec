import Dizzchat.Messaging.Exchange
import Dizzchat.Messaging.UseCases
import Dizzchat.Transition.RowSet

set_option autoImplicit false

/-! # Use cases and sends side by side

Any number of calls of the use cases and of `exchange` against one database, each statement on its own
under READ COMMITTED. A call that reads a conversation sends two statements, the row first and its
participants after it; then it decides in memory, writes, and commits. Nothing it has read is locked.
Every call may fail and roll back before it commits.

The database keeps a log that the code does not: what each commit has made visible, in the order of
the commits. -/

namespace Dizzchat

open Transition

/-! ## The database -/

/-- What the commit of a use case has made visible. -/
inductive Effect
  | created (model : ConversationModel) (members : Finset ConversationParticipantModel)
  | updated (model : ConversationModel)
  | admitted (member : ConversationParticipantModel)
  | removed (key : ConversationId × ParticipantId)
  | nothing
deriving DecidableEq

/-- A commit. -/
inductive Commit
  | useCase (request : UseCaseRequest) (effect : Effect)
  | posted (message : Message)
deriving DecidableEq

/-- The tables, with the log of the commits. -/
structure Database (ι : Type*) where
  conversations : Table ι ConversationModel
  participants : RowSet ι (ConversationId × ParticipantId) ConversationParticipantModel
  chat : Chat ι
  log : List Commit

/-- The primary key of `conversations`. -/
def ConversationModel.clash (a b : ConversationModel) : Bool := decide (a.id = b.id)

variable {ι : Type*}

namespace Database

/-- The committed row of a conversation. -/
def row (c : ConversationId) (D : Database ι) : Option ConversationModel :=
  lookup ConversationModel.id c D.conversations.rows

/-- The participants of a conversation in the committed rows. -/
def participantsOf (c : ConversationId) (D : Database ι) : Finset ParticipantId :=
  Dizzchat.participantsOf c D.participants.rows

variable [DecidableEq ι]

/-- `COMMIT` of a use case of call `i`. -/
def commit (i : ι) (D : Database ι) : Database ι :=
  { D with
    conversations := D.conversations.commit ConversationModel.id i
    participants := D.participants.commit ConversationParticipantModel.key i }

def rollback (i : ι) (D : Database ι) : Database ι :=
  { D with
    conversations := D.conversations.rollback i
    participants := D.participants.rollback i }

end Database

/-! ## A use case -/

/-- How far a call of a use case has come. -/
inductive UseCaseCall
  | started
  | rowRead (row : Option ConversationModel)
  | decided (change : Change)
  /-- The row of a new conversation is inserted, its memberships are not. -/
  | inserted (model : ConversationModel) (members : Finset ConversationParticipantModel)
  | written (effect : Effect)
  | returned
  | raised (error : WriteError)
deriving DecidableEq

inductive WorkspaceStep
  | start
  | readParticipants
  | write
  | commit
  | fail
  /-- A step of `exchange`, but for the reads of the conversation. -/
  | exchange (step : ExchangeStep)
deriving DecidableEq

/-- Where a call goes on when it has decided. -/
def UseCaseCall.afterExecute : Except MessagingError Change → UseCaseCall
  | .error e => .raised (.messaging e)
  | .ok change => .decided change

/-- Something the call waits for can still fail. -/
def UseCaseCall.running : UseCaseCall → Bool
  | .started | .rowRead _ | .decided _ | .inserted .. | .written _ => true
  | .returned | .raised _ => false

section Program

variable [DecidableEq ι]

/-- The statement a call sends for what it has decided. -/
def Change.write (i : ι) (D : Database ι) : Change → Option (Database ι × UseCaseCall)
  | .create model members => match D.conversations.insert ConversationModel.clash i model with
      | .blocked => none
      | .duplicate => some (D.rollback i, .raised .integrityError)
      | .done conversations => some ({ D with conversations }, .inserted model members)
  | .update conversation => match D.row conversation.id with
      | none => some (D, .written .nothing)
      | some row =>
          (D.conversations.update ConversationModel.id i (row.update conversation)).map
            fun conversations => ({ D with conversations }, .written (.updated (row.update conversation)))
  | .addParticipant member =>
      match D.participants.insert ConversationParticipantModel.key i {member} with
      | .blocked => none
      | .duplicate => some (D.rollback i, .raised .integrityError)
      | .done participants => some ({ D with participants }, .written (.admitted member))
  | .removeParticipant c participantId =>
      (D.participants.delete ConversationParticipantModel.key i (c, participantId)).map
        fun (participants, found) => ({ D with participants },
          .written (if found then .removed (c, participantId) else .nothing))
  | .nothing => some (D, .written .nothing)

/-- The steps of a use case by call `i`. -/
def UseCaseRequest.step (request : UseCaseRequest) (i : ι) :
    WorkspaceStep → Database ι → UseCaseCall → Option (Database ι × UseCaseCall)
  | .start, D, .started =>
      if request.reads then some (D, .rowRead (D.row request.conversationId))
      else some (D, .afterExecute (request.execute ∅ none))
  | .readParticipants, D, .rowRead row =>
      some (D, .afterExecute (request.execute (D.participantsOf request.conversationId) row))
  | .write, D, .decided change => change.write i D
  | .write, D, .inserted model members =>
      match D.participants.insert ConversationParticipantModel.key i members with
      | .blocked => none
      | .duplicate => some (D.rollback i, .raised .integrityError)
      | .done participants => some ({ D with participants }, .written (.created model members))
  | .commit, D, .written effect =>
      some ({ D.commit i with log := D.log ++ [.useCase request effect] }, .returned)
  | .fail, D, call => if call.running then some (D.rollback i, .raised .failed) else none
  | _, _, _ => none

/-! ## A send -/

/-- The message a step of an exchange commits. -/
def ExchangeCall.commits : ExchangeStep → ExchangeCall → List Message
  | .user .commit, .writing (.flushed message) => [message]
  | .assistant .commit, .replying _ (.flushed reply) => [reply]
  | _, _ => []

inductive Call
  | useCase (call : UseCaseCall)
  /-- `from_user` has read the row of the conversation. -/
  | reading (row : Option ConversationModel)
  | exchange (call : ExchangeCall)
deriving DecidableEq

def SendRequest.exchange (request : SendRequest) (i : ι) (step : ExchangeStep) (D : Database ι)
    (call : ExchangeCall) : Option (Database ι × Call) :=
  (MessageExchange.exchange (fun _ => request) i step D.chat call).map fun (chat, call') =>
    ({ D with chat, log := D.log ++ (call.commits step).map Commit.posted }, .exchange call')

/-- The steps of `exchange` by call `i`. -/
def SendRequest.step (request : SendRequest) (i : ι) :
    WorkspaceStep → Database ι → Call → Option (Database ι × Call)
  | .start, D, .exchange (.writing .started) => some (D, .reading (D.row request.conversationId))
  | .readParticipants, D, .reading row =>
      request.exchange i (.user (.readConversation
        (ConversationRepository.get (D.participantsOf request.conversationId) row))) D
        (.writing .started)
  | .fail, D, .reading _ => request.exchange i (.user .fail) D (.writing .started)
  -- the conversation is read by the two steps above
  | .exchange (.user (.readConversation _)), _, _ => none
  | .exchange step, D, .exchange call => request.exchange i step D call
  | _, _, _ => none

/-! ## The calls -/

inductive Request
  | useCase (request : UseCaseRequest)
  | send (request : SendRequest)
deriving DecidableEq

def Call.start : Request → Call
  | .useCase _ => .useCase .started
  | .send _ => .exchange (.writing .started)

/-- The steps of call `i`. -/
def Request.step (request : ι → Request) (i : ι) (step : WorkspaceStep) (D : Database ι)
    (call : Call) : Option (Database ι × Call) :=
  match request i, call with
  | .useCase request, .useCase call =>
      (request.step i step D call).map fun (D, call) => (D, .useCase call)
  | .useCase _, _ => none
  | .send request, call => request.step i step D call

end Program

abbrev Workspace (ι : Type*) := World ι (Database ι) Call

/-- Every call is about to start on a database nobody is writing to. -/
def Workspace.init (request : ι → Request) (rows : List ConversationModel)
    (members : Finset ConversationParticipantModel) (stored : List Message) (lastSeq : Int) :
    Workspace ι where
  shared :=
    { conversations := { rows, writes := [] }
      participants := { rows := members, inserts := ∅, deletes := ∅ }
      chat := ⟨⟨{ rows := stored, writes := [] }, lastSeq⟩, [], []⟩
      log := [] }
  proc i := .start (request i)

/-! ## What a step can do -/

variable [DecidableEq ι]

/-- The steps of a use case, one constructor for each. -/
inductive UseCaseMove (request : UseCaseRequest) (i : ι) (D : Database ι) :
    WorkspaceStep → UseCaseCall → Database ι → UseCaseCall → Prop
  | reads (hreads : request.reads = true) :
      UseCaseMove request i D .start .started D (.rowRead (D.row request.conversationId))
  | creates {change : Change} (h : Accepts request ∅ none change) (hreads : request.reads = false) :
      UseCaseMove request i D .start .started D (.decided change)
  | decides {row : Option ConversationModel} {change : Change}
      (h : Accepts request (D.participantsOf request.conversationId) row change) :
      UseCaseMove request i D .readParticipants (.rowRead row) D (.decided change)
  | rejects {step : WorkspaceStep} {call : UseCaseCall} {e : MessagingError}
      (hcall : call = .started ∨ ∃ row, call = .rowRead row) :
      UseCaseMove request i D step call D (.raised (.messaging e))
  | inserts {model : ConversationModel} {members : Finset ConversationParticipantModel}
      {conversations : Table ι ConversationModel}
      (h : D.conversations.insert ConversationModel.clash i model = .done conversations) :
      UseCaseMove request i D .write (.decided (.create model members)) { D with conversations }
        (.inserted model members)
  | seeds {model : ConversationModel} {members : Finset ConversationParticipantModel}
      {participants : RowSet ι (ConversationId × ParticipantId) ConversationParticipantModel}
      (h : D.participants.insert ConversationParticipantModel.key i members = .done participants) :
      UseCaseMove request i D .write (.inserted model members) { D with participants }
        (.written (.created model members))
  | updates {conversation : Conversation} {row : ConversationModel}
      {conversations : Table ι ConversationModel} (hrow : D.row conversation.id = some row)
      (h : D.conversations.update ConversationModel.id i (row.update conversation) =
        some conversations) :
      UseCaseMove request i D .write (.decided (.update conversation)) { D with conversations }
        (.written (.updated (row.update conversation)))
  | admits {member : ConversationParticipantModel}
      {participants : RowSet ι (ConversationId × ParticipantId) ConversationParticipantModel}
      (h : D.participants.insert ConversationParticipantModel.key i {member} = .done participants) :
      UseCaseMove request i D .write (.decided (.addParticipant member)) { D with participants }
        (.written (.admitted member))
  | removes {c : ConversationId} {participantId : ParticipantId}
      {participants : RowSet ι (ConversationId × ParticipantId) ConversationParticipantModel}
      (h : D.participants.delete ConversationParticipantModel.key i (c, participantId) =
        some (participants, true)) :
      UseCaseMove request i D .write (.decided (.removeParticipant c participantId)) { D with participants }
        (.written (.removed (c, participantId)))
  /-- There is nothing to write, or the statement finds no row. -/
  | writesNothing {change : Change} :
      UseCaseMove request i D .write (.decided change) D (.written .nothing)
  | commits {effect : Effect} :
      UseCaseMove request i D .commit (.written effect)
        { D.commit i with log := D.log ++ [.useCase request effect] } .returned
  | fails {step : WorkspaceStep} {call : UseCaseCall} {e : WriteError} (h : call.running = true) :
      UseCaseMove request i D step call (D.rollback i) (.raised e)

theorem write_move {request : UseCaseRequest} {i : ι} {D D' : Database ι} {change : Change}
    {call : UseCaseCall} (h : change.write i D = some (D', call)) :
    UseCaseMove request i D .write (.decided change) D' call := by
  cases change with
  | create model members =>
      simp only [Change.write] at h
      split at h
      · cases h
      · cases h; exact .fails rfl
      · next hinsert => cases h; exact .inserts hinsert
  | update conversation =>
      simp only [Change.write] at h
      split at h
      · cases h; exact .writesNothing
      · next row hrow =>
          obtain ⟨conversations, hupdate, heq⟩ := Option.map_eq_some_iff.1 h
          cases heq
          exact .updates hrow hupdate
  | addParticipant member =>
      simp only [Change.write] at h
      split at h
      · cases h
      · cases h; exact .fails rfl
      · next hinsert => cases h; exact .admits hinsert
  | removeParticipant c participantId =>
      obtain ⟨⟨participants, found⟩, hdelete, heq⟩ := Option.map_eq_some_iff.1 h
      cases found with
      | true => cases heq; exact .removes hdelete
      | false =>
          -- a statement that finds no row leaves the table alone
          rcases RowSet.delete_eq_some hdelete with ⟨hfound, -⟩ | ⟨-, -, rfl⟩
          · cases hfound
          · cases heq; exact .writesNothing
  | nothing => cases h; exact .writesNothing

theorem useCase_move {request : UseCaseRequest} {i : ι} {step : WorkspaceStep} {D D' : Database ι}
    {call call' : UseCaseCall} (h : request.step i step D call = some (D', call')) :
    UseCaseMove request i D step call D' call' := by
  unfold UseCaseRequest.step at h
  split at h
  · split at h
    · next hreads => cases h; exact .reads hreads
    · next hreads =>
        cases hexecute : request.execute ∅ none with
        | error e =>
            rw [hexecute] at h
            cases h
            exact .rejects (.inl rfl)
        | ok change =>
            rw [hexecute] at h
            cases h
            exact .creates (execute_accepts hexecute) (by simpa using hreads)
  · next row =>
      cases hexecute : request.execute (D.participantsOf request.conversationId) row with
      | error e =>
          rw [hexecute] at h
          cases h
          exact .rejects (.inr ⟨row, rfl⟩)
      | ok change =>
          rw [hexecute] at h
          cases h
          exact .decides (execute_accepts hexecute)
  · exact write_move h
  · split at h
    · cases h
    · cases h; exact .fails rfl
    · next hinsert => cases h; exact .seeds hinsert
  · cases h; exact .commits
  · obtain ⟨hrunning, heq⟩ := Option.ite_none_right_eq_some.1 h
    cases heq
    exact .fails hrunning
  · cases h

/-- The steps of a send, one constructor for each. -/
inductive SendMove (request : SendRequest) (i : ι) (D : Database ι) :
    WorkspaceStep → Call → Database ι → Call → Prop
  | reads :
      SendMove request i D .start (.exchange (.writing .started)) D
        (.reading (D.row request.conversationId))
  | checks {row : Option ConversationModel} {chat : Chat ι} {call' : ExchangeCall}
      (h : ExchangeCase (fun _ => request) i D.chat (.user (.readConversation
        (ConversationRepository.get (D.participantsOf request.conversationId) row)))
        (.writing .started) chat call') :
      SendMove request i D .readParticipants (.reading row) { D with chat } (.exchange call')
  | gives {row : Option ConversationModel} {chat : Chat ι} {call' : ExchangeCall}
      (h : ExchangeCase (fun _ => request) i D.chat (.user .fail) (.writing .started) chat call') :
      SendMove request i D .fail (.reading row) { D with chat } (.exchange call')
  | exchanges {step : ExchangeStep} {call call' : ExchangeCall} {chat : Chat ι}
      (hstep : ∀ conversation, step ≠ .user (.readConversation conversation))
      (h : ExchangeCase (fun _ => request) i D.chat step call chat call') :
      SendMove request i D (.exchange step) (.exchange call)
        { D with chat, log := D.log ++ (call.commits step).map Commit.posted } (.exchange call')

theorem send_move {request : SendRequest} {i : ι} {step : WorkspaceStep} {D D' : Database ι}
    {call call' : Call} (h : request.step i step D call = some (D', call')) :
    SendMove request i D step call D' call' := by
  unfold SendRequest.step at h
  split at h
  · cases h; exact .reads
  · obtain ⟨⟨chat, call'⟩, hexchange, heq⟩ := Option.map_eq_some_iff.1 h
    simp only [ExchangeCall.commits, List.map_nil, List.append_nil] at heq
    cases heq
    exact .checks (exchange_case hexchange)
  · obtain ⟨⟨chat, call'⟩, hexchange, heq⟩ := Option.map_eq_some_iff.1 h
    simp only [ExchangeCall.commits, List.map_nil, List.append_nil] at heq
    cases heq
    exact .gives (exchange_case hexchange)
  · cases h
  · next hstep =>
      obtain ⟨⟨chat, call'⟩, hexchange, heq⟩ := Option.map_eq_some_iff.1 h
      cases heq
      exact .exchanges (fun conversation he => hstep conversation he) (exchange_case hexchange)
  · cases h

/-- A step of call `i`: of a use case or of a send. -/
inductive RequestMove (request : ι → Request) (i : ι) (D : Database ι) (step : WorkspaceStep) :
    Call → Database ι → Call → Prop
  | useCase {r : UseCaseRequest} {call call' : UseCaseCall} {D' : Database ι}
      (hr : request i = .useCase r) (h : UseCaseMove r i D step call D' call') :
      RequestMove request i D step (.useCase call) D' (.useCase call')
  | send {r : SendRequest} {call call' : Call} {D' : Database ι} (hr : request i = .send r)
      (h : SendMove r i D step call D' call') :
      RequestMove request i D step call D' call'

theorem request_move {request : ι → Request} {i : ι} {step : WorkspaceStep} {D D' : Database ι}
    {call call' : Call} (h : Request.step request i step D call = some (D', call')) :
    RequestMove request i D step call D' call' := by
  unfold Request.step at h
  split at h
  · next hr =>
      obtain ⟨⟨D₁, call₁⟩, hstep, heq⟩ := Option.map_eq_some_iff.1 h
      cases heq
      exact .useCase hr (useCase_move hstep)
  · cases h
  · next hr => exact .send hr (send_move h)

end Dizzchat
