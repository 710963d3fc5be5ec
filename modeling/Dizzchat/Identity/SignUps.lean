import Dizzchat.Identity.User
import Dizzchat.Transition.CheckThenInsert
import Dizzchat.Transition.Table
import Mathlib.Data.Fintype.Basic

set_option autoImplicit false

/-! # Concurrent sign-ups of one address

Any number of `RegisterUser.execute` transactions whose emails normalise to one address, where nothing
fails but the constraints of `users`. The lookup, the hash and the `INSERT` are steps of their own. A
request that does not find the address, but comes after another one with its `INSERT`, raises the
integrity error, to which the API has no answer but 500.

`signUps_rejected_iff` is exact: every request but the one that stores the user is rejected as
`EmailAlreadyRegistered` if and only if no lookup happens while another request is between its miss and
its commit. -/

namespace Dizzchat

open Transition

/-! ## The requests -/

/-- A call of `RegisterUser.execute`, with what `uuid4` and its clock will answer. -/
structure SignUpRequest where
  email : String
  password : String
  userId : UUID
  now : Datetime
deriving DecidableEq

inductive SignUpCall
  | started
  | missed (address : Email)
  | hashed (user : User)
  | flushed (user : User)
  | returned (user : User)
  | raised (error : SignUpError)
deriving DecidableEq

inductive SignUpStep
  | lookUp
  | hash
  | flush
  | commit
  | fail
deriving DecidableEq

namespace SignUpCall

def hasEnded : SignUpCall → Bool
  | .returned _ | .raised _ => true
  | .started | .missed _ | .hashed _ | .flushed _ => false

/-- The lookup missed, and the call has not committed. -/
def racing : SignUpCall → Bool
  | .missed _ | .hashed _ | .flushed _ => true
  | .started | .returned _ | .raised _ => false

/-- The rows a call has open. -/
def images : SignUpCall → List UserModel
  | .flushed user => [user.toModel]
  | .started | .missed _ | .hashed _ | .returned _ | .raised _ => []

end SignUpCall

/-- What `execute` finds before it hashes. -/
def RegisterUser.lookUp (lower : String → String) (email : String) (rows : List UserModel) :
    Except SignUpError Email := do
  let address ← (Email.ofString lower email).mapError .user
  match ← UserRepository.getByEmail lower address rows with
  | some _ => throw (.user (.emailAlreadyRegistered address.value))
  | none => return address

variable {ι : Type*} [DecidableEq ι] (lower : String → String) (hash : String → PasswordHash)

/-- The steps of request `i`. -/
def RegisterUser.step (request : ι → SignUpRequest) (i : ι) :
    SignUpStep → Table ι UserModel → SignUpCall → Option (Table ι UserModel × SignUpCall)
  | .lookUp, T, .started => match RegisterUser.lookUp lower (request i).email T.rows with
      | .error e => some (T, .raised e)
      | .ok address => some (T, .missed address)
  | .hash, T, .missed address => some (T, .hashed (User.register ⟨(request i).userId⟩ address
      (request i).password hash (request i).now))
  | .flush, T, .hashed user => match T.insert UserModel.clash i user.toModel with
      | .blocked => none
      | .duplicate => some (T.rollback i, .raised .integrityError)
      | .done T' => some (T', .flushed user)
  | .commit, T, .flushed user => some (T.commit UserModel.id i, .returned user)
  | .fail, T, call => if call.hasEnded then none else some (T.rollback i, .raised .failed)
  | _, _, _ => none

abbrev SignUpWorld (ι : Type*) := World ι (Table ι UserModel) SignUpCall

omit [DecidableEq ι] in
/-- Every request is about to start on a table nobody is writing to. -/
def SignUpWorld.init (users : List User) : SignUpWorld ι :=
  ⟨{ rows := users.map User.toModel, writes := [] }, fun _ => .started⟩

/-- Nobody looks the address up while another request is between its miss and its commit. -/
def SignUpWorld.LooksUpAlone (w : SignUpWorld ι) (e : ι × SignUpStep) : Prop :=
  e.2 = .lookUp → ∀ j, (w.proc j).racing = false

/-- The emails of the requests normalise to one address, which stays as it is when it is normalised
    again, and what `uuid4` draws is new. -/
structure SameAddress (request : ι → SignUpRequest) (address : Email) (users : List User) :
    Prop where
  email : ∀ i, lower (strip (request i).email) = address.value
  normal : lower (strip address.value) = address.value
  drawn : ∀ i j, (request i).userId = (request j).userId → i = j
  fresh : ∀ user ∈ users, ∀ i, user.id.value ≠ (request i).userId

/-- At most one user has the address; one request may have stored it, and every other one is rejected
    with a conflict. -/
structure SignedUpOnce (address : Email) (w : SignUpWorld ι) : Prop where
  oneRow : (w.shared.rows.filter fun row => row.email = address.value).length ≤ 1
  answered : ∀ i, (∃ user, w.proc i = .returned user ∧ user.email = address) ∨
    w.proc i = .raised (.user (.emailAlreadyRegistered address.value))
  oneReturned : ∀ i j user user', w.proc i = .returned user → w.proc j = .returned user' → i = j

/-- Among the errors of a sign-up only the duplicate address is a conflict. -/
theorem SignUpError.status_eq_conflict {error : SignUpError} :
    error.status = 409 ↔ ∃ email, error = .user (.emailAlreadyRegistered email) := by
  cases error with
  | user error => cases error <;> simp [SignUpError.status, UserError.statusByError]
  | emptyPasswordHash | multipleResultsFound | integrityError | failed =>
      simp [SignUpError.status]

/-! ## What a step can do -/

theorem UserModel.clash_of_id {a b : UserModel} (h : a.id = b.id) : UserModel.clash a b = true := by
  simp [UserModel.clash, h]

theorem UserModel.clash_of_email {a b : UserModel} (h : a.email = b.email) :
    UserModel.clash a b = true := by
  simp [UserModel.clash, h]

theorem UserModel.clash_comm (a b : UserModel) : UserModel.clash a b = UserModel.clash b a := by
  simp [UserModel.clash, eq_comm]

/-- A stored user is read back unchanged. -/
theorem User.toDomain_toModel {user : User} (h : lower (strip user.email.value) = user.email.value) :
    user.toModel.toDomain lower = .ok user := by
  have hemail : Email.ofString lower user.email.value = .ok user.email := by
    simp only [Email.ofString, h, dif_pos user.email.valid]
  simp [UserModel.toDomain, User.toModel, hemail, Except.mapError, bind, Except.bind, pure,
    Except.pure, user.passwordHash.nonempty]

/-- Of rows that do not clash at most one has an email. -/
theorem filter_email_length_le {rows : List UserModel} (email : String)
    (h : rows.Pairwise fun a b => UserModel.clash a b = false) :
    (rows.filter fun row => row.email = email).length ≤ 1 := by
  have hfilter := h.filter fun row => decide (row.email = email)
  generalize hmatching : rows.filter (fun row => decide (row.email = email)) = matching at hfilter ⊢
  have hemail : ∀ row ∈ matching, row.email = email := by
    intro row hrow
    rw [← hmatching] at hrow
    simpa using (List.mem_filter.1 hrow).2
  rcases matching with _ | ⟨a, _ | ⟨b, rest⟩⟩
  · simp
  · simp
  · have hclash := List.rel_of_pairwise_cons hfilter List.mem_cons_self
    rw [UserModel.clash_of_email ((hemail a (by simp)).trans (hemail b (by simp)).symm)] at hclash
    cases hclash

section Step

variable {lower hash} {request : ι → SignUpRequest} {address : Email} {users : List User} {i : ι}
  {step : SignUpStep} {T T' : Table ι UserModel} {call call' : SignUpCall}

/-- The committed row of the address. -/
def Registered (address : Email) (rows : List UserModel) : Prop :=
  ∃ row ∈ rows, row.email = address.value

instance (address : Email) (rows : List UserModel) : Decidable (Registered address rows) :=
  inferInstanceAs (Decidable (∃ row ∈ rows, row.email = address.value))

omit [DecidableEq ι] in
theorem registerUser_lookUp (hsame : SameAddress lower request address users)
    {rows : List UserModel} (hrows : rows.Pairwise fun a b => UserModel.clash a b = false)
    (hstored : ∀ row ∈ rows, ∃ user : User, row = user.toModel) :
    RegisterUser.lookUp lower (request i).email rows =
      if Registered address rows then .error (.user (.emailAlreadyRegistered address.value))
      else .ok address := by
  have hemail : Email.ofString lower (request i).email = .ok address := by
    simp only [Email.ofString, hsame.email i, dif_pos address.valid]
  have hone := filter_email_length_le address.value hrows
  simp only [RegisterUser.lookUp, hemail, UserRepository.getByEmail, Except.mapError, bind,
    Except.bind]
  by_cases hregistered : Registered address rows
  · obtain ⟨row, hrow, haddress⟩ := hregistered
    have hmatching : row ∈ rows.filter fun row => decide (row.email = address.value) :=
      List.mem_filter.2 ⟨hrow, by simpa using haddress⟩
    rw [if_pos ⟨row, hrow, haddress⟩]
    generalize rows.filter (fun row => decide (row.email = address.value)) = matching at hone hmatching
    rcases matching with _ | ⟨a, _ | ⟨b, rest⟩⟩
    · cases hmatching
    · obtain rfl := List.mem_singleton.1 hmatching
      obtain ⟨user, rfl⟩ := hstored row hrow
      have hnormal : lower (strip user.email.value) = user.email.value := by
        show lower (strip user.toModel.email) = user.toModel.email
        rw [haddress, hsame.normal]
      simp [User.toDomain_toModel lower hnormal, pure, Except.pure, throw, throwThe,
        MonadExceptOf.throw]
    · simp at hone
  · have hnone : rows.filter (fun row => decide (row.email = address.value)) = [] := by
      refine List.filter_eq_nil_iff.2 fun row hrow => ?_
      simpa using fun h => hregistered ⟨row, hrow, h⟩
    rw [if_neg hregistered, hnone]
    rfl

/-- How far a request comes where nothing fails but the constraints. -/
inductive SignUpStage (request : SignUpRequest) (address : Email) : SignUpCall → Prop
  | started : SignUpStage request address .started
  | missed : SignUpStage request address (.missed address)
  | hashed {user : User} (hid : user.id.value = request.userId) (hemail : user.email = address) :
      SignUpStage request address (.hashed user)
  | flushed {user : User} (hid : user.id.value = request.userId) (hemail : user.email = address) :
      SignUpStage request address (.flushed user)
  | returned {user : User} (hid : user.id.value = request.userId) (hemail : user.email = address) :
      SignUpStage request address (.returned user)
  | rejected :
      SignUpStage request address (.raised (.user (.emailAlreadyRegistered address.value)))
  | collided : SignUpStage request address (.raised .integrityError)

/-- The steps of a request, one constructor for each. -/
inductive SignUpMove (request : SignUpRequest) (address : Email) (i : ι) (T : Table ι UserModel) :
    SignUpStep → SignUpCall → Table ι UserModel → SignUpCall → Prop
  | rejects (h : Registered address T.rows) :
      SignUpMove request address i T .lookUp .started T
        (.raised (.user (.emailAlreadyRegistered address.value)))
  | misses (h : ¬ Registered address T.rows) :
      SignUpMove request address i T .lookUp .started T (.missed address)
  | hashes {user : User} (hid : user.id.value = request.userId) (hemail : user.email = address) :
      SignUpMove request address i T .hash (.missed address) T (.hashed user)
  | inserts {user : User} {T' : Table ι UserModel} (hid : user.id.value = request.userId)
      (hemail : user.email = address)
      (h : T.insert UserModel.clash i user.toModel = .done T') :
      SignUpMove request address i T .flush (.hashed user) T' (.flushed user)
  | collides {user : User} (hid : user.id.value = request.userId) (hemail : user.email = address)
      (h : T.insert UserModel.clash i user.toModel = .duplicate) :
      SignUpMove request address i T .flush (.hashed user) (T.rollback i) (.raised .integrityError)
  | commits {user : User} (hid : user.id.value = request.userId) (hemail : user.email = address) :
      SignUpMove request address i T .commit (.flushed user) (T.commit UserModel.id i)
        (.returned user)

theorem signUp_move (hsame : SameAddress lower request address users)
    (hrows : T.rows.Pairwise fun a b => UserModel.clash a b = false)
    (hstored : ∀ row ∈ T.rows, ∃ user : User, row = user.toModel) (hstep : step ≠ .fail)
    (hstage : SignUpStage (request i) address call)
    (h : RegisterUser.step lower hash request i step T call = some (T', call')) :
    SignUpMove (request i) address i T step call T' call' := by
  have hlookUp := registerUser_lookUp (i := i) hsame hrows hstored
  cases hstage with
  | started =>
      cases step with
      | lookUp =>
          rw [RegisterUser.step, hlookUp] at h
          by_cases hregistered : Registered address T.rows
          · rw [if_pos hregistered] at h
            cases h
            exact .rejects hregistered
          · rw [if_neg hregistered] at h
            cases h
            exact .misses hregistered
      | hash | flush | commit => cases h
      | fail => exact absurd rfl hstep
  | missed =>
      cases step with
      | hash => cases h; exact .hashes rfl rfl
      | lookUp | flush | commit => cases h
      | fail => exact absurd rfl hstep
  | hashed hid hemail =>
      cases step with
      | flush =>
          rw [RegisterUser.step] at h
          split at h
          · cases h
          · next hinsert => cases h; exact .collides hid hemail hinsert
          · next hinsert => cases h; exact .inserts hid hemail hinsert
      | lookUp | hash | commit => cases h
      | fail => exact absurd rfl hstep
  | flushed hid hemail =>
      cases step with
      | commit => cases h; exact .commits hid hemail
      | lookUp | hash | flush => cases h
      | fail => exact absurd rfl hstep
  | returned | rejected | collided =>
      cases step with
      | lookUp | hash | flush | commit => cases h
      | fail => exact absurd rfl hstep

theorem SignUpMove.stage (h : SignUpMove (request i) address i T step call T' call') :
    SignUpStage (request i) address call' := by
  cases h with
  | rejects => exact .rejected
  | misses => exact .missed
  | hashes hid hemail => exact .hashed hid hemail
  | inserts hid hemail => exact .flushed hid hemail
  | collides => exact .collided
  | commits hid hemail => exact .returned hid hemail

theorem SignUpMove.distinct (h : SignUpMove (request i) address i T step call T' call')
    (hT : T.Distinct UserModel.clash) : T'.Distinct UserModel.clash := by
  cases h with
  | rejects | misses | hashes => exact hT
  | inserts _ _ hinsert => exact hT.insert hinsert
  | collides => exact hT.rollback i
  | commits => exact hT.commit (fun _ _ => UserModel.clash_of_id) UserModel.clash_comm i

/-- A request knows the row it has open, and touches nobody else's. -/
theorem SignUpMove.own (h : SignUpMove (request i) address i T step call T' call')
    (hown : T.own i = call.images) :
    T'.own i = call'.images ∧ ∀ j, j ≠ i → T'.own j = T.own j := by
  cases h with
  | rejects | misses | hashes => exact ⟨hown, fun _ _ => rfl⟩
  | inserts _ _ hinsert =>
      obtain ⟨-, -, rfl⟩ := Table.insert_eq_done.1 hinsert
      refine ⟨?_, fun j hj => ?_⟩
      · rw [Table.own_write, if_pos rfl, hown]
        rfl
      · rw [Table.own_write, if_neg hj.symm]
  | collides => exact ⟨Table.own_rollback_self i T, fun _ hj => Table.own_rollback_of_ne hj T⟩
  | commits => exact ⟨Table.own_commit_self i T, fun _ hj => Table.own_commit_of_ne hj T⟩

/-- Only a commit adds a row, that of the user the request then returns. -/
theorem SignUpMove.rows (h : SignUpMove (request i) address i T step call T' call')
    (hT : T.Distinct UserModel.clash) (hown : T.own i = call.images) :
    T'.rows = T.rows ∨
      ∃ user, call' = .returned user ∧ T'.rows = T.rows ++ [user.toModel] := by
  cases h with
  | rejects | misses | hashes | collides => exact .inl rfl
  | inserts _ _ hinsert =>
      obtain ⟨-, -, rfl⟩ := Table.insert_eq_done.1 hinsert
      exact .inl rfl
  | commits =>
      refine .inr ⟨_, rfl, ?_⟩
      rw [Table.commit_rows_of_distinct (fun _ _ => UserModel.clash_of_id) hT, hown]
      rfl

/-! ## The race for the address -/

def SignUpCall.inserter : SignUpCall → Inserter
  | .started => .waiting
  | .missed _ | .hashed _ | .flushed _ => .missed
  | .returned _ => .inserted
  | .raised .integrityError => .refused
  | .raised _ => .found

/-- In the race for the address a request looks when it looks the address up, and inserts when its
    `INSERT` is committed, or fails. -/
theorem SignUpMove.race (h : SignUpMove (request i) address i T step call T' call')
    (hT : T.Distinct UserModel.clash) (hown : T.own i = call.images)
    (hids : call.racing = true → ∀ row ∈ T.rows, row.id ≠ (request i).userId) :
    InsertRace.IsMove (step = .lookUp) (decide (Registered address T.rows)) call.inserter
      (decide (Registered address T'.rows)) call'.inserter := by
  cases h with
  | rejects hregistered =>
      refine .inr ⟨.look, by simp, ?_⟩
      rw [decide_eq_true hregistered]
      exact .finds
  | misses hregistered =>
      refine .inr ⟨.look, by simp, ?_⟩
      rw [decide_eq_false hregistered]
      exact .misses
  | hashes => exact .inl ⟨by simp, rfl, rfl⟩
  | inserts _ _ hinsert =>
      obtain ⟨-, -, rfl⟩ := Table.insert_eq_done.1 hinsert
      exact .inl ⟨by simp, rfl, rfl⟩
  | @collides user hid hemail hinsert =>
      -- the id is new and the request has nothing open, so the address is registered
      have hregistered : Registered address T.rows := by
        rcases Table.insert_eq_duplicate hinsert with ⟨row, hrow, hclash⟩ | ⟨row, hrow, -⟩
        · have hne : row.id ≠ user.toModel.id := by
            intro he
            exact hids rfl row hrow (he.trans hid)
          simp only [UserModel.clash, hne, decide_false, Bool.false_or, decide_eq_true_eq] at hclash
          exact ⟨row, hrow, hclash.trans (congrArg Email.value hemail)⟩
        · have hopen := Table.mem_own.2 hrow
          rw [hown] at hopen
          exact absurd hopen List.not_mem_nil
      have hregistered' : Registered address (T.rollback i).rows := hregistered
      refine .inr ⟨.insert, by simp, ?_⟩
      rw [decide_eq_true hregistered, decide_eq_true hregistered']
      exact .isRefused
  | @commits user hid hemail =>
      have hopen : (i, user.toModel) ∈ T.writes := by
        rw [← Table.mem_own, hown]
        exact List.mem_singleton_self _
      have hfree : ¬ Registered address T.rows := by
        rintro ⟨row, hrow, haddress⟩
        have hclash := hT.row_write hrow hopen
        rw [UserModel.clash_of_email (haddress.trans (congrArg Email.value hemail).symm)] at hclash
        cases hclash
      have hregistered : Registered address (T.commit UserModel.id i).rows := by
        rw [Table.commit_rows_of_distinct (fun _ _ => UserModel.clash_of_id) hT, hown]
        exact ⟨user.toModel, List.mem_append_right _ (List.mem_singleton_self _),
          congrArg Email.value hemail⟩
      refine .inr ⟨.insert, by simp, ?_⟩
      rw [decide_eq_false hfree, decide_eq_true hregistered]
      exact .inserts

end Step

/-! ## What holds in every such run -/

structure SignUpInv (request : ι → SignUpRequest) (address : Email) (users : List User)
    (w : SignUpWorld ι) : Prop where
  distinct : w.shared.Distinct UserModel.clash
  own : ∀ i, w.shared.own i = (w.proc i).images
  stage : ∀ i, SignUpStage (request i) address (w.proc i)
  source : ∀ row ∈ w.shared.rows, ∃ user : User, row = user.toModel ∧
    (user ∈ users ∨ ∃ j, w.proc j = .returned user)

/-- What the requests do about the address. -/
def SignUpWorld.race (address : Email) : SignUpWorld ι → InsertRace ι :=
  InsertRace.view (fun T => decide (Registered address T.rows)) SignUpCall.inserter

section Runs

variable {lower hash} {request : ι → SignUpRequest} {address : Email} {users : List User}
  {w w' : SignUpWorld ι}

theorem SignUpInv.move (hsame : SameAddress lower request address users)
    (hw : SignUpInv request address users w) {i : ι} {step : SignUpStep} (hstep : step ≠ .fail)
    {T' : Table ι UserModel} {call' : SignUpCall}
    (h : RegisterUser.step lower hash request i step w.shared (w.proc i) = some (T', call')) :
    SignUpMove (request i) address i w.shared step (w.proc i) T' call' := by
  refine signUp_move hsame hw.distinct.rows (fun row hrow => ?_) hstep (hw.stage i) h
  obtain ⟨user, hrow, -⟩ := hw.source row hrow
  exact ⟨user, hrow⟩

theorem signUpInv_step (hsame : SameAddress lower request address users)
    (hw : SignUpInv request address users w) {e : ι × SignUpStep} (hstep : e.2 ≠ .fail)
    (h : World.move (RegisterUser.step lower hash request) w e = some w') :
    SignUpInv request address users w' := by
  obtain ⟨i, step⟩ := e
  obtain ⟨T', call', hprogram, rfl⟩ := World.move_eq_some.1 h
  have hmove := hw.move hsame hstep hprogram
  have hown := hmove.own (hw.own i)
  refine ⟨hmove.distinct hw.distinct, ?_, ?_, fun row hrow => ?_⟩
  · refine (Function.forall_update_iff w.proc fun j call => T'.own j = call.images).2
      ⟨hown.1, fun j hj => (hown.2 j hj).trans (hw.own j)⟩
  · refine (Function.forall_update_iff w.proc fun j call =>
      SignUpStage (request j) address call).2 ⟨hmove.stage, fun j _ => hw.stage j⟩
  · have hbefore : row ∈ w.shared.rows → ∃ user : User, row = user.toModel ∧
        (user ∈ users ∨ ∃ j, Function.update w.proc i call' j = .returned user) := by
      intro hrow
      obtain ⟨user, rfl, huser | ⟨j, hj⟩⟩ := hw.source row hrow
      · exact ⟨user, rfl, .inl huser⟩
      · have hji : j ≠ i := by
          rintro rfl
          rw [hj] at hmove
          cases hmove
        exact ⟨user, rfl, .inr ⟨j, (Function.update_of_ne hji _ _).trans hj⟩⟩
    rcases hmove.rows hw.distinct (hw.own i) with hrows | ⟨user, hreturned, hrows⟩
    · exact hbefore (hrows ▸ hrow)
    · rw [hrows] at hrow
      rcases List.mem_append.1 hrow with hrow | hrow
      · exact hbefore hrow
      · obtain rfl := List.mem_singleton.1 hrow
        exact ⟨user, rfl, .inr ⟨i, (Function.update_self i _ _).trans hreturned⟩⟩

theorem signUpInv_init
    (hrows : (users.map User.toModel).Pairwise fun a b => UserModel.clash a b = false) :
    SignUpInv request address users (SignUpWorld.init users) where
  distinct := by simpa [Table.Distinct, SignUpWorld.init] using hrows
  own _ := rfl
  stage _ := .started
  source row hrow := by
    obtain ⟨user, huser, rfl⟩ := List.mem_map.1 hrow
    exact ⟨user, rfl, .inl huser⟩

/-- No stored user has the id of a request that has not stored its own. -/
theorem SignUpInv.fresh (hsame : SameAddress lower request address users)
    (hw : SignUpInv request address users w) {i : ι} (hi : (w.proc i).racing = true) :
    ∀ row ∈ w.shared.rows, row.id ≠ (request i).userId := by
  intro row hrow hid
  obtain ⟨user, rfl, huser | ⟨j, hj⟩⟩ := hw.source row hrow
  · exact hsame.fresh user huser i hid
  · have hstage := hw.stage j
    rw [hj] at hstage
    cases hstage with
    | returned hdrawn =>
        obtain rfl := hsame.drawn j i (hdrawn.symm.trans hid)
        rw [hj] at hi
        cases hi

omit [DecidableEq ι] in
theorem SignUpStage.racing_iff {r : SignUpRequest} {call : SignUpCall}
    (h : SignUpStage r address call) : call.racing = true ↔ call.inserter = .missed := by
  cases h <;> simp [SignUpCall.racing, SignUpCall.inserter]

/-- The run of the requests as a race for the address. -/
theorem signUps_race (hsame : SameAddress lower request address users) {w₀ : SignUpWorld ι}
    (hw₀ : SignUpInv request address users w₀) {es : List (ι × SignUpStep)}
    (hfails : ∀ e ∈ es, e.2 ≠ .fail)
    (hrun : exec (World.move (RegisterUser.step lower hash request)) w₀ es = some w) :
    ∃ es', exec InsertRace.step (w₀.race address) es' = some (w.race address) ∧
      (StepsMeet InsertRace.step InsertRace.LooksAlone (w₀.race address) es' ↔
        StepsMeet (World.move (RegisterUser.step lower hash request)) SignUpWorld.LooksUpAlone w₀
          es) := by
  have halone : ∀ (w : SignUpWorld ι) (e : ι × SignUpStep), SignUpInv request address users w →
      (w.LooksUpAlone e ↔ (e.2 = .lookUp → ∀ j, (w.proc j).inserter ≠ .missed)) := by
    intro w e hw
    refine forall_congr' fun _ => forall_congr' fun j => ?_
    rw [← Bool.not_eq_true, (hw.stage j).racing_iff]
  refine InsertRace.simulated (fun step => step = .lookUp)
    (fun _ _ _ hw he h => signUpInv_step hsame hw he h) halone
    (fun w i step T' call' hw hstep h => ?_) hw₀ hfails hrun
  exact (hw.move hsame hstep h).race hw.distinct (hw.own i) (hw.fresh hsame)

/-! ## The result -/

/-- What has become of a request that has ended. -/
theorem SignUpStage.ended {r : SignUpRequest} {call : SignUpCall} (h : SignUpStage r address call)
    (hended : call.hasEnded = true) :
    call.inserter.hasEnded = true ∧
      (call.inserter ≠ .refused ↔ (∃ user, call = .returned user ∧ user.email = address) ∨
        call = .raised (.user (.emailAlreadyRegistered address.value))) := by
  cases h with
  | returned hid hemail => simp [SignUpCall.inserter, Inserter.hasEnded, hemail]
  | rejected | collided => simp [SignUpCall.inserter, Inserter.hasEnded]
  | started | missed | hashed | flushed => cases hended

/-- A request that has not ended can go on, or waits for one that can. -/
theorem signUp_goesOn (lower : String → String) (hash : String → PasswordHash)
    (hw : SignUpInv request address users w) {i : ι} (hended : (w.proc i).hasEnded = false) :
    ∃ e, e.2 ≠ .fail ∧
      (World.move (RegisterUser.step lower hash request) w e).isSome = true := by
  have hgoes : ∀ j step, step ≠ .fail →
      (RegisterUser.step lower hash request j step w.shared (w.proc j)).isSome = true →
      ∃ e, e.2 ≠ .fail ∧
        (World.move (RegisterUser.step lower hash request) w e).isSome = true := by
    intro j step hstep hprogram
    exact ⟨(j, step), hstep, by simpa only [World.move, Option.isSome_map] using hprogram⟩
  have hstage := hw.stage i
  have hi := hgoes i
  generalize w.proc i = call at hstage hended hi
  cases hstage with
  | started =>
      refine hi .lookUp (by simp) ?_
      rw [RegisterUser.step]
      split <;> rfl
  | missed => exact hi .hash (by simp) rfl
  | flushed => exact hi .commit (by simp) rfl
  | returned | rejected | collided => cases hended
  | @hashed user =>
      cases hinsert : w.shared.insert UserModel.clash i user.toModel with
      | done | duplicate =>
          refine hi .flush (by simp) ?_
          rw [RegisterUser.step, hinsert]
          rfl
      | blocked =>
          obtain ⟨⟨j, row⟩, hopen, -⟩ := Table.insert_eq_blocked hinsert
          have hown := Table.mem_own.2 hopen
          rw [hw.own j] at hown
          refine hgoes j .commit (by simp) ?_
          generalize w.proc j = other at hown
          cases other with
          | flushed => rfl
          | started | missed | hashed | returned | raised => cases hown

/-- Every statement respects the constraints. -/
theorem distinct_step {i : ι} {step : SignUpStep} {T T' : Table ι UserModel}
    {call call' : SignUpCall} (hT : T.Distinct UserModel.clash)
    (h : RegisterUser.step lower hash request i step T call = some (T', call')) :
    T'.Distinct UserModel.clash := by
  unfold RegisterUser.step at h
  split at h
  · split at h <;> cases h <;> exact hT
  · cases h
    exact hT
  · split at h
    · cases h
    · cases h
      exact hT.rollback i
    · next hinsert =>
        cases h
        exact hT.insert hinsert
  · cases h
    exact hT.commit (fun _ _ => UserModel.clash_of_id) UserModel.clash_comm i
  · split at h
    · cases h
    · cases h
      exact hT.rollback i
  · cases h

/-- Whatever fails, at most one user with the address is ever committed. -/
theorem signUps_oneRow (lower : String → String) (hash : String → PasswordHash)
    (request : ι → SignUpRequest) {users : List User} (address : Email)
    (hrows : (users.map User.toModel).Pairwise fun a b => UserModel.clash a b = false)
    {es : List (ι × SignUpStep)} {w : SignUpWorld ι}
    (hrun : exec (World.move (RegisterUser.step lower hash request)) (SignUpWorld.init users) es =
      some w) :
    (w.shared.rows.filter fun row => row.email = address.value).length ≤ 1 := by
  have hdistinct : w.shared.Distinct UserModel.clash := by
    refine World.exec_invariant_of_program (I := fun w => w.shared.Distinct UserModel.clash)
      (fun w i step T' call' hw h => ?_) ?_ hrun
    · exact distinct_step hw h
    · simpa [Table.Distinct, SignUpWorld.init] using hrows
  exact filter_email_length_le _ hdistinct.rows

/-- In a run that nothing but the constraints makes fail, and that goes on as long as it can, every
    request but the one that stores the user is rejected with a conflict exactly when no lookup happens
    while another request is between its miss and its commit. -/
theorem signUps_rejected_iff (lower : String → String) (hash : String → PasswordHash)
    (request : ι → SignUpRequest) {users : List User} {address : Email}
    (hrows : (users.map User.toModel).Pairwise fun a b => UserModel.clash a b = false)
    (hsame : SameAddress lower request address users)
    {es : List (ι × SignUpStep)} {w : SignUpWorld ι}
    (hrun : exec (World.move (RegisterUser.step lower hash request)) (SignUpWorld.init users) es =
      some w)
    (hfails : ∀ e ∈ es, e.2 ≠ .fail)
    (hend : ∀ e, e.2 ≠ .fail → World.move (RegisterUser.step lower hash request) w e = none) :
    SignedUpOnce address w ↔
      StepsMeet (World.move (RegisterUser.step lower hash request)) SignUpWorld.LooksUpAlone
        (SignUpWorld.init users) es := by
  have hinit : SignUpInv request address users (SignUpWorld.init users) := signUpInv_init hrows
  have hinv : SignUpInv request address users w :=
    exec_invariant_of_stepsMeet (fun _ _ _ hw he h => signUpInv_step hsame hw he h) hinit
      (StepsMeet.of_forall hfails) hrun
  have hended : ∀ i, (w.proc i).hasEnded = true := by
    intro i
    by_contra hrunning
    obtain ⟨e, he, hmove⟩ := signUp_goesOn lower hash hinv (Bool.not_eq_true _ ▸ hrunning)
    rw [hend e he] at hmove
    cases hmove
  obtain ⟨es', hrace, hmeet⟩ := signUps_race hsame hinit hfails hrun
  have hrefused := InsertRace.nobody_refused_iff hrace fun i => ((hinv.stage i).ended (hended i)).1
  refine Iff.trans ?_ (hrefused.trans hmeet)
  constructor
  · intro honce i
    exact ((hinv.stage i).ended (hended i)).2.2 (honce.answered i)
  · intro hnobody
    refine ⟨filter_email_length_le _ hinv.distinct.rows,
      fun i => ((hinv.stage i).ended (hended i)).2.1 (hnobody i), fun i j user user' hi hj => ?_⟩
    have hinserted : ∀ {k user}, w.proc k = .returned user → (w.race address).proc k = .inserted := by
      intro k user hk
      show (w.proc k).inserter = .inserted
      rw [hk]
      rfl
    exact (InsertRace.insertInv_run hrace).once i j (hinserted hi) (hinserted hj)

end Runs

/-! ## Two sign-ups of one address -/

def adaEmail : Email := ⟨"ada@example.org", by decide⟩

/-- `str.lower` on ASCII. -/
def lowerAscii (s : String) : String := String.ofList (s.toList.map Char.toLower)

def someHash (_ : String) : PasswordHash := ⟨"$argon2id$v=19", by decide⟩

def twoSignUps : Bool → SignUpRequest
  | false => ⟨"ada@example.org", "hunter2", 1, ⟨5, 0⟩⟩
  | true => ⟨" Ada@Example.org ", "correct horse", 2, ⟨6, 0⟩⟩

theorem twoSignUps_same : SameAddress lowerAscii twoSignUps adaEmail [] where
  email i := by cases i <;> decide
  normal := by decide
  drawn i j := by cases i <;> cases j <;> decide
  fresh user huser := absurd huser List.not_mem_nil

/-- A request from its lookup to its commit. -/
def signUpSteps (i : ι) : List (ι × SignUpStep) :=
  [(i, .lookUp), (i, .hash), (i, .flush), (i, .commit)]

theorem signUp_move_of_ended {lower : String → String} {hash : String → PasswordHash}
    {request : ι → SignUpRequest} {w : SignUpWorld ι} (hended : ∀ i, (w.proc i).hasEnded = true)
    (e : ι × SignUpStep) : World.move (RegisterUser.step lower hash request) w e = none := by
  obtain ⟨i, step⟩ := e
  have hi := hended i
  simp only [World.move, Option.map_eq_none_iff]
  generalize w.proc i = call at hi ⊢
  cases call with
  | returned | raised => cases step <;> rfl
  | started | missed | hashed | flushed => cases hi

instance SignUpWorld.decidableLooksUpAlone [Fintype ι] (w : SignUpWorld ι) (e : ι × SignUpStep) :
    Decidable (w.LooksUpAlone e) :=
  inferInstanceAs (Decidable (e.2 = .lookUp → ∀ j, (w.proc j).racing = false))

/-- The second request looks the address up after the first one has committed. -/
theorem signUps_rejected_inTurn :
    ∃ w, exec (World.move (RegisterUser.step lowerAscii someHash twoSignUps)) (SignUpWorld.init [])
        (signUpSteps false ++ [(true, .lookUp)]) = some w ∧ SignedUpOnce adaEmail w := by
  obtain ⟨w, hrun, hended⟩ := exec_reaches
    (World.move (RegisterUser.step lowerAscii someHash twoSignUps)) (SignUpWorld.init [])
    (signUpSteps false ++ [(true, .lookUp)]) (fun w => ∀ i, (w.proc i).hasEnded = true)
    (by decide +kernel)
  exact ⟨w, hrun, (signUps_rejected_iff lowerAscii someHash twoSignUps (by simp) twoSignUps_same
    hrun (by decide) fun e _ => signUp_move_of_ended hended e).2 (by decide +kernel)⟩

/-- Both requests look the address up before one of them commits: the other one raises the integrity
    error, which the API answers with 500. -/
theorem signUps_collide :
    SameAddress lowerAscii twoSignUps adaEmail [] ∧
    ∃ w, exec (World.move (RegisterUser.step lowerAscii someHash twoSignUps)) (SignUpWorld.init [])
        ((true, .lookUp) :: signUpSteps false ++ [(true, .hash), (true, .flush)]) = some w ∧
      (∃ user, w.proc false = .returned user ∧ user.email = adaEmail) ∧
      w.proc true = .raised .integrityError ∧ SignUpError.integrityError.status = 500 := by
  refine ⟨twoSignUps_same, ?_⟩
  obtain ⟨w, hrun, hreturned, hraised⟩ := exec_reaches
    (World.move (RegisterUser.step lowerAscii someHash twoSignUps)) (SignUpWorld.init [])
    ((true, .lookUp) :: signUpSteps false ++ [(true, .hash), (true, .flush)])
    (fun w => w.proc false = .returned (User.register ⟨1⟩ adaEmail "hunter2" someHash ⟨5, 0⟩) ∧
      w.proc true = .raised .integrityError) (by decide +kernel)
  exact ⟨w, hrun, ⟨_, hreturned, rfl⟩, hraised, rfl⟩

end Dizzchat
