import Dizzchat.Identity.RefreshToken

set_option autoImplicit false

/-! # Users

The `User` aggregate with its value objects, its row, and the answers of the API to its errors. An
`Email` and a `PasswordHash` carry the check of their constructors. `str.lower` is a parameter: nothing
here depends on the case mapping of a letter. -/

namespace Dizzchat

/-- The errors of the user aggregate. -/
inductive UserError
  /-- "invalid email address: {value!r}" -/
  | invalidEmail (value : String)
  /-- "email already registered: {email}" -/
  | emailAlreadyRegistered (email : String)
  /-- "invalid credentials" -/
  | invalidCredentials
deriving DecidableEq, Repr

/-- `_STATUS_BY_ERROR` -/
def UserError.statusByError : UserError → ℕ
  | .emailAlreadyRegistered _ => 409
  | .invalidEmail _ => 422
  | .invalidCredentials => 401

/-! ## Email addresses -/

/-- `[^@\s]` -/
def emailChar (c : Char) : Bool := c ≠ '@' && !isSpace c

/-- `[^@\s]+` -/
def emailPart (cs : List Char) : Bool := !cs.isEmpty && cs.all emailChar

/-- `[^@\s]+@[^@\s]+\.[^@\s]+`, on all of the characters. -/
def emailFullMatch (cs : List Char) : Bool :=
  match cs.dropWhile (· ≠ '@') with
  | [] => false
  | _ :: domain =>
      -- a dot that is neither the first nor the last character ends the first part of the domain
      emailPart (cs.takeWhile (· ≠ '@')) && emailPart domain &&
        decide ('.' ∈ domain.tail.dropLast)

/-- `_EMAIL_PATTERN.match(value)`; the `$` also matches before a line feed at the end. -/
def emailPattern (value : String) : Bool :=
  emailFullMatch value.toList ||
    (value.toList.getLast? == some '\n' && emailFullMatch value.toList.dropLast)

theorem emailPart_append {cs ds : List Char} (hcs : cs ≠ []) (hds : ds ≠ []) :
    emailPart (cs ++ '.' :: ds) = (emailPart cs && emailPart ds) := by
  have hdot : emailChar '.' = true := by decide
  obtain ⟨c, cs, rfl⟩ := List.exists_cons_of_ne_nil hcs
  obtain ⟨d, ds, rfl⟩ := List.exists_cons_of_ne_nil hds
  simp [emailPart, hdot, Bool.and_assoc]

theorem ne_nil_of_emailPart {cs : List Char} (h : emailPart cs = true) : cs ≠ [] := by
  rintro rfl
  cases h

/-- A dot that is neither the first nor the last character has something on both sides. -/
theorem innerDot_iff {cs : List Char} :
    '.' ∈ cs.tail.dropLast ↔ ∃ ds es, cs = ds ++ '.' :: es ∧ ds ≠ [] ∧ es ≠ [] := by
  constructor
  · intro h
    obtain ⟨ds, es, hsplit⟩ := List.append_of_mem h
    have htail : cs.tail ≠ [] := by
      intro hnil
      rw [hnil] at h
      exact List.not_mem_nil h
    have hcs : cs ≠ [] := by
      rintro rfl
      exact htail rfl
    refine ⟨cs.head hcs :: ds, es ++ [cs.tail.getLast htail], ?_, by simp, by simp⟩
    calc cs = cs.head hcs :: cs.tail := (List.cons_head_tail hcs).symm
      _ = cs.head hcs :: (cs.tail.dropLast ++ [cs.tail.getLast htail]) := by
          rw [List.dropLast_append_getLast]
      _ = (cs.head hcs :: ds) ++ '.' :: (es ++ [cs.tail.getLast htail]) := by
          rw [hsplit]
          simp
  · rintro ⟨_ | ⟨d, ds⟩, es, rfl, hds, hes⟩
    · exact absurd rfl hds
    · rw [List.cons_append, List.tail_cons, List.dropLast_append_of_ne_nil (by simp),
        List.dropLast_cons_of_ne_nil hes]
      simp

/-- The characters split as the pattern says. -/
theorem emailFullMatch_iff {cs : List Char} :
    emailFullMatch cs = true ↔ ∃ user domain rest, cs = user ++ '@' :: (domain ++ '.' :: rest) ∧
      emailPart user = true ∧ emailPart domain = true ∧ emailPart rest = true := by
  unfold emailFullMatch
  constructor
  · intro h
    split at h
    · cases h
    · next at_ domain hdrop =>
        have hat : at_ = '@' := by
          have hhead := List.head_dropWhile_not (fun c : Char => decide (c ≠ '@'))
            (show cs.dropWhile (· ≠ '@') ≠ [] by rw [hdrop]; simp)
          simp only [hdrop, List.head_cons] at hhead
          simpa using hhead
        subst hat
        simp only [Bool.and_eq_true, decide_eq_true_eq] at h
        obtain ⟨ds, es, rfl, hds, hes⟩ := innerDot_iff.1 h.2
        have hparts := h.1.2
        rw [emailPart_append hds hes, Bool.and_eq_true] at hparts
        refine ⟨_, ds, es, ?_, h.1.1, hparts⟩
        rw [← hdrop, List.takeWhile_append_dropWhile]
  · rintro ⟨user, domain, rest, rfl, huser, hdomain, hrest⟩
    have hat : ∀ c ∈ user, decide (c ≠ '@') = true := by
      intro c hc
      simp only [emailPart, Bool.and_eq_true, List.all_eq_true] at huser
      have := huser.2 c hc
      simp only [emailChar, Bool.and_eq_true] at this
      exact this.1
    have hds := ne_nil_of_emailPart hdomain
    have hes := ne_nil_of_emailPart hrest
    rw [List.dropWhile_append_of_pos hat, List.takeWhile_append_of_pos hat]
    have hdot := innerDot_iff.2 ⟨domain, rest, rfl, hds, hes⟩
    have hpart := emailPart_append hds hes
    simp [huser, hdomain, hrest, hpart, hdot]

/-- A syntactically valid address. -/
structure Email where
  value : String
  valid : emailPattern value = true
deriving DecidableEq, Repr

/-- `Email(value)`: trimmed and in lower case. -/
def Email.ofString (lower : String → String) (value : String) : Except UserError Email :=
  let normalized := lower (strip value)
  if h : emailPattern normalized = true then .ok ⟨normalized, h⟩
  else .error (.invalidEmail value)

/-! ## The aggregate -/

@[ext]
structure PasswordHash where
  value : String
  nonempty : value ≠ ""
deriving Repr

instance PasswordHash.decidableEq : DecidableEq PasswordHash := fun a b =>
  decidable_of_iff (a.value = b.value) PasswordHash.ext_iff.symm

/-- A registered user. -/
structure User where
  id : UserId
  email : Email
  passwordHash : PasswordHash
  createdAt : Datetime
deriving DecidableEq, Repr

/-- Register a new user, storing only the hash of the password. -/
def User.register (userId : UserId) (email : Email) (plaintextPassword : String)
    (hash : String → PasswordHash) (createdAt : Datetime) : User where
  id := userId
  email := email
  passwordHash := hash plaintextPassword
  createdAt := createdAt

/-! ## Rows -/

/-- A row of `users`. -/
structure UserModel where
  id : UUID
  email : String
  passwordHash : String
  createdAt : Datetime
deriving DecidableEq, Repr

/-- The primary key, and the unique index on `email`. -/
def UserModel.clash (a b : UserModel) : Bool := decide (a.id = b.id) || decide (a.email = b.email)

/-- `_to_model` -/
def User.toModel (user : User) : UserModel where
  id := user.id.value
  email := user.email.value
  passwordHash := user.passwordHash.value
  createdAt := user.createdAt

/-- What a request can end with instead of its answer. -/
inductive SignUpError
  | user (error : UserError)
  /-- `ValueError("password hash must not be empty")` -/
  | emptyPasswordHash
  | multipleResultsFound
  | integrityError
  /-- Anything else fails: the hasher, a statement, the connection. -/
  | failed
deriving DecidableEq, Repr

/-- The status of the response: without a handler the server answers 500. -/
def SignUpError.status : SignUpError → ℕ
  | .user error => error.statusByError
  | .emptyPasswordHash | .multipleResultsFound | .integrityError | .failed => 500

/-- `_to_domain` -/
def UserModel.toDomain (lower : String → String) (model : UserModel) : Except SignUpError User := do
  let email ← (Email.ofString lower model.email).mapError .user
  if h : model.passwordHash = "" then throw .emptyPasswordHash
  else return { id := ⟨model.id⟩, email, passwordHash := ⟨model.passwordHash, h⟩,
                createdAt := model.createdAt }

/-- `get_by_email` on the committed rows. -/
def UserRepository.getByEmail (lower : String → String) (email : Email) (rows : List UserModel) :
    Except SignUpError (Option User) :=
  match rows.filter fun row => row.email = email.value with
  | [] => return none
  | [model] => do
      let user ← model.toDomain lower
      return some user
  | _ :: _ :: _ => throw .multipleResultsFound

end Dizzchat
