import Dizzchat.Identity.Accounts
import Dizzchat.Messaging.Cursors
import Dizzchat.Messaging.MessageModel
import Dizzchat.Messaging.Store

set_option autoImplicit false

/-! # The HTTP API

A request of one of the routes of `/auth` and `/conversations` from its parameters to its response: who
makes it (`get_current_user`), the checks of its schema, the use case in its transaction, which
`TransactionalRoute` commits before the response goes out, and the status that the handlers of
`errors.py` give an error.

A parameter that is no string, number or UUID at all is left out, and so is a body that is no JSON. -/

namespace Dizzchat

/-! ## Requests -/

/-- A route with its parameters: path, query and body. -/
inductive Operation
  | signup (email password : String)
  | login (email password : String)
  | refresh (refreshToken : String)
  | currentUser
  | createConversation (title : String)
  | listConversations
  | renameConversation (conversationId : UUID) (title : String)
  | deleteConversation (conversationId : UUID)
  | restoreConversation (conversationId : UUID)
  | getConversationHistory (conversationId : UUID) (before limit : Option ℤ)
  | addParticipant (conversationId : UUID) (email : String)
  | listParticipants (conversationId : UUID)
  | removeParticipant (conversationId userId : UUID)
deriving DecidableEq

/-- A request: its bearer token, the readings of the clock by PyJWT and by the use case, what is drawn
    at random, and whether the commit goes through. -/
structure ApiRequest where
  operation : Operation
  bearer : Option String
  decodedAt : Datetime
  now : Datetime
  accessNow : Datetime
  drawnId : UUID
  salt : String
  newJti : String
  newSecret : String
  commits : Bool
deriving DecidableEq

/-- `Field(min_length=…, max_length=…)` -/
def lengthBetween (minLength maxLength : ℕ) (value : String) : Bool :=
  decide (minLength ≤ value.length) && decide (value.length ≤ maxLength)

/-- The integers that the query parser reads: of 4300 digits at most. -/
def QueryInteger.reads (value : ℤ) : Bool := decide (value.natAbs < 10 ^ 4300)

/-- The checks of the request schema, and of the query parameters. -/
def Operation.valid : Operation → Bool
  | .signup email password | .login email password =>
      lengthBetween 1 320 email && lengthBetween 1 1024 password
  | .refresh refreshToken => decide (1 ≤ refreshToken.length)
  | .createConversation title | .renameConversation _ title => lengthBetween 1 200 title
  | .addParticipant _ email => lengthBetween 3 320 email
  | .getConversationHistory _ before limit =>
      before.all (fun before => QueryInteger.reads before && decide (1 ≤ before)) &&
        limit.all fun limit =>
          QueryInteger.reads limit && (decide (1 ≤ limit) && decide (limit ≤ 100))
  | .currentUser | .listConversations | .deleteConversation _ | .restoreConversation _
  | .listParticipants _ | .removeParticipant _ _ => true

/-- What a route writes itself is a text that PostgreSQL takes: a title. -/
def Operation.writesText : Operation → Bool
  | .createConversation title | .renameConversation _ title => Postgres.takesText title
  | .signup .. | .login .. | .refresh _ | .currentUser | .listConversations | .deleteConversation _
  | .restoreConversation _ | .getConversationHistory .. | .addParticipant .. | .listParticipants _
  | .removeParticipant .. => true

/-- The writes of the use case are taken and committed. -/
def ApiRequest.stored (request : ApiRequest) : Bool := request.operation.writesText && request.commits

/-! ## Responses -/

structure UserResponse where
  id : UUID
  email : String
  createdAt : Datetime
deriving DecidableEq

structure TokenResponse where
  accessToken : String
  refreshToken : String
  tokenType : String := "bearer"
deriving DecidableEq

structure ConversationResponse where
  id : UUID
  ownerId : UUID
  title : String
  createdAt : Datetime
  updatedAt : Datetime
deriving DecidableEq

def ConversationResponse.fromDomain (conversation : Conversation) : ConversationResponse where
  id := conversation.id.value
  ownerId := conversation.ownerId.value
  title := conversation.title.value
  createdAt := conversation.createdAt
  updatedAt := conversation.updatedAt

structure ParticipantResponse where
  userId : UUID
  joinedAt : Datetime
deriving DecidableEq

def ParticipantResponse.fromDomain (participant : Participant) : ParticipantResponse where
  userId := participant.id.value
  joinedAt := participant.joinedAt

structure MessageResponse where
  id : ℤ
  conversationId : UUID
  senderId : Option UUID
  role : String
  content : String
  createdAt : Datetime
deriving DecidableEq

def MessageResponse.fromDomain (message : Message) : MessageResponse where
  id := message.id.value
  conversationId := message.conversationId.value
  senderId := message.senderId.map SenderId.value
  role := message.role.value
  content := message.content.value
  createdAt := message.createdAt

structure MessagePageResponse where
  items : List MessageResponse
  nextCursor : Option ℤ
  hasMore : Bool
deriving DecidableEq

def MessagePageResponse.fromDomain (page : MessagePage) : MessagePageResponse where
  items := page.items.map MessageResponse.fromDomain
  nextCursor := page.nextCursor.map MessageId.value
  hasMore := page.hasMore

/-- The participants come in the order of `joined_at`. -/
inductive ResponseBody
  | user (user : UserResponse)
  | token (token : TokenResponse)
  | currentUser (userId : UUID)
  | conversation (conversation : ConversationResponse)
  | conversations (list : List ConversationResponse)
  | participants (list : Finset ParticipantResponse)
  | page (page : MessagePageResponse)
  | empty
  | detail (detail : String)
  /-- What FastAPI and the server write themselves. -/
  | unspecified
deriving DecidableEq

structure ApiResponse where
  status : ℕ
  body : ResponseBody
  headers : List (String × String) := []
deriving DecidableEq

/-! ## Errors -/

/-- `_STATUS_BY_ERROR` of the messaging context. -/
def MessagingError.statusByError : MessagingError → ℕ
  | .conversationNotFound _ | .participantUserNotFound _ => 404
  | .notConversationOwner | .notConversationParticipant => 403
  | .cannotRemoveConversationOwner => 409
  | .invalidConversationTitle _ | .invalidMessageContent => 422

section Details

variable (repr : String → String)

/-! `str` of an error, over `repr` of a string. -/

def MessagingError.str : MessagingError → String
  | .invalidConversationTitle value => "invalid conversation title: " ++ repr value
  | .conversationNotFound conversationId => "conversation not found: " ++ conversationId.value.str
  | .notConversationOwner => "conversation is owned by another user"
  | .notConversationParticipant => "caller is not a participant of this conversation"
  | .participantUserNotFound email => "no registered user for email: " ++ email
  | .cannotRemoveConversationOwner => "the conversation owner cannot be removed"
  | .invalidMessageContent => "message content must not be empty"

def UserError.str : UserError → String
  | .invalidEmail value => "invalid email address: " ++ repr value
  | .emailAlreadyRegistered email => "email already registered: " ++ email
  | .invalidCredentials => "invalid credentials"

def IdentityError.str : IdentityError → String
  | .invalidRefreshToken => "invalid or expired refresh token"

end Details

namespace ApiResponse

def validationError : ApiResponse := ⟨422, .unspecified, []⟩

def serverError : ApiResponse := ⟨500, .unspecified, []⟩

/-- The handler of the identity errors. -/
def ofIdentityError (status : ℕ) (detail : String) : ApiResponse where
  status := status
  body := .detail detail
  headers := if status = 401 then [("WWW-Authenticate", "Bearer")] else []

def ofMessagingError (repr : String → String) (e : MessagingError) : ApiResponse where
  status := e.statusByError
  body := .detail (e.str repr)

end ApiResponse

/-- The answer to what a call on the accounts raises. -/
def AccountError.response (repr : String → String) : AccountError → ApiResponse
  | .user (.user e) => .ofIdentityError e.statusByError (e.str repr)
  | .token .invalidCredentials =>
      .ofIdentityError UserError.invalidCredentials.statusByError (UserError.invalidCredentials.str repr)
  | .token (.identity .invalidRefreshToken) => .ofIdentityError 401 IdentityError.invalidRefreshToken.str
  | .user .emptyPasswordHash | .user .multipleResultsFound | .user .integrityError | .user .failed
  | .token .integrityError | .token .rolledBack => .serverError

/-- The answer to what a call on the conversations raises. -/
def WriteError.response (repr : String → String) : WriteError → ApiResponse
  | .messaging e => .ofMessagingError repr e
  | .integrityError | .failed => .serverError

/-! ## Handling a request -/

/-- The tables of the service. -/
structure Server where
  accounts : Accounts
  store : Store
deriving DecidableEq

/-- What the service is wired with. -/
structure ApiServices extends IdentityServices where
  repr : String → String

/-- `find_id_by_email` -/
def IdentityUserDirectory.findIdByEmail (lower : String → String) (email : String)
    (users : List UserModel) : Except SignUpError (Option UUID) :=
  match Email.ofString lower email with
  | .error _ => .ok none
  | .ok address =>
      match UserRepository.select lower address users with
      | .error e => .error e
      | .ok user => .ok (user.map fun user => user.id.value)

/-- What a route does to the accounts that asks for no token. -/
def Operation.accountAction : Operation → Option AccountAction
  | .signup email password => some (.signUp email password)
  | .login email password => some (.login email password)
  | .refresh refreshToken => some (.refresh refreshToken)
  | .currentUser | .createConversation _ | .listConversations | .renameConversation ..
  | .deleteConversation _ | .restoreConversation _ | .getConversationHistory .. | .addParticipant ..
  | .listParticipants _ | .removeParticipant .. => none

def ApiRequest.accountCall (request : ApiRequest) : Option AccountCall :=
  request.operation.accountAction.map fun action =>
    ⟨action, request.now, request.accessNow, request.drawnId, request.salt, request.newJti,
      request.newSecret, request.commits⟩

/-- `get_current_user` -/
def ApiRequest.getCurrentUser (services : ApiServices) (request : ApiRequest) :
    Except ApiResponse UserId :=
  match request.bearer with
  | none => .error (.ofIdentityError 401 "missing bearer token")
  | some token =>
      match services.tokenService.decodeAccess request.decodedAt token with
      | .ok userId => .ok userId
      | .error .invalidAccessToken => .error (.ofIdentityError 401 "invalid or expired access token")
      | .error .attributeError => .error .serverError

/-- The call on the conversations that a user makes with the request, with what the directory answers
    to an email; none for the route that has no use case. -/
def ApiRequest.storeCall (request : ApiRequest) (userId : UserId) (found : Option UUID) :
    Option StoreCall :=
  let participantId : ParticipantId := ⟨userId.value⟩
  let useCase (useCase : UseCase) (conversationId : UUID) : Option StoreCall :=
    some (.useCase ⟨useCase, ⟨conversationId⟩, userId.value, request.now⟩)
  match request.operation with
  | .createConversation title => useCase (.create title) request.drawnId
  | .listConversations => some (.listConversations participantId)
  | .renameConversation c title => useCase (.rename title) c
  | .deleteConversation c => useCase .delete c
  | .restoreConversation c => useCase .restore c
  | .getConversationHistory c before limit =>
      some (.getConversationHistory ⟨c⟩ participantId (before.map MessageId.mk) (limit.getD 50).toNat)
  | .addParticipant c email => useCase (.addParticipant email found) c
  | .listParticipants c => some (.listParticipants ⟨c⟩ participantId)
  | .removeParticipant c removed => useCase (.removeParticipant ⟨removed⟩) c
  | .signup .. | .login .. | .refresh _ | .currentUser => none

/-- The status of a response that goes well. -/
def Operation.status : Operation → ℕ
  | .signup .. | .createConversation _ => 201
  | .deleteConversation _ | .addParticipant .. | .removeParticipant .. => 204
  | .login .. | .refresh _ | .currentUser | .listConversations | .renameConversation ..
  | .restoreConversation _ | .getConversationHistory .. | .listParticipants _ => 200

def AccountAnswer.body : AccountAnswer → ResponseBody
  | .user u => .user ⟨u.id.value, u.email.value, u.createdAt⟩
  | .pair p => .token { accessToken := p.accessToken, refreshToken := p.refreshToken }

/-- What the controllers make of the result of a use case. -/
def Response.body : Response → ResponseBody
  | .conversation c => .conversation (.fromDomain c)
  | .conversations list => .conversations (list.map ConversationResponse.fromDomain)
  | .participants list => .participants (list.image ParticipantResponse.fromDomain)
  | .page p => .page (.fromDomain p)
  | .participant _ | .done | .message .. => .empty

/-- What a use case asks others for, once it lets the caller: `AddParticipant.execute` the directory, for
    the id of the user, and `GetConversationHistory.execute` the driver, to send the cursor. -/
def ApiRequest.outside (services : ApiServices) (request : ApiRequest) (userId : UserId)
    (server : Server) : Except WriteError (Option UUID) :=
  match request.operation with
  | .addParticipant c email =>
      match AddParticipant.ensureMayInvite (server.store.participantsOf ⟨c⟩) ⟨c⟩ ⟨userId.value⟩
          (server.store.row ⟨c⟩) with
      | .error e => .error (.messaging e)
      | .ok _ => (IdentityUserDirectory.findIdByEmail services.lower email server.accounts.users).mapError
          fun _ => .failed
  | .getConversationHistory c before _ =>
      match GetConversationHistory.ensureMayRead (server.store.participantsOf ⟨c⟩) ⟨c⟩ ⟨userId.value⟩
          (server.store.row ⟨c⟩) with
      | .error e => .error (.messaging e)
      | .ok () =>
          match bindCursor (before.map MessageId.mk) with
          | .error _ => .error .failed
          | .ok _ => .ok none
  | _ => .ok none

/-- The response to what a use case returns or raises. -/
def ApiRequest.answer (services : ApiServices) (request : ApiRequest) :
    Except WriteError Response → ApiResponse
  | .error e => e.response services.repr
  | .ok response => ⟨request.operation.status, response.body, []⟩

/-- A request of a user whose token has been accepted. -/
def ApiRequest.handleAs (services : ApiServices) (request : ApiRequest) (userId : UserId)
    (server : Server) : Server × ApiResponse :=
  match request.outside services userId server with
  | .error e => (server, e.response services.repr)
  | .ok found =>
      match request.storeCall userId found with
      | none => (server, ⟨request.operation.status, .currentUser userId.value, []⟩)
      | some call =>
          let (store, outcome) := call.attempt request.stored server.store
          ({ server with store }, request.answer services outcome)

def ApiRequest.handle (services : ApiServices) (request : ApiRequest) (server : Server) :
    Server × ApiResponse :=
  match request.accountCall with
  | some call =>
      if request.operation.valid then
        match call.attempt services.toIdentityServices server.accounts with
        | .error e => (server, e.response services.repr)
        | .ok (accounts, answer) =>
            ({ server with accounts }, ⟨request.operation.status, answer.body, []⟩)
      else (server, .validationError)
  | none =>
      -- the dependencies come before the parameters
      match request.getCurrentUser services with
      | .error response => (server, response)
      | .ok userId =>
          if request.operation.valid then request.handleAs services userId server
          else (server, .validationError)

end Dizzchat
