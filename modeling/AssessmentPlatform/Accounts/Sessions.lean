import AssessmentPlatform.Accounts.Tokens

/-!
# The requests of an account's life

The handlers under `/auth` that sign in, refresh a session, move a password or
an address, and spend a link.  A handler that raises writes nothing; otherwise
it answers the interviewers as they are then, and what it did to tokens and
passwords, which the run keeps as its history.
-/

namespace AssessmentPlatform.Accounts

/-- What the history of a run records. -/
inductive Entry where
  | minted (claims : Claims)
  | passwordSet (interviewer : Nat) (fingerprint : String)
  | resetBy (token : Token)
  deriving DecidableEq, Repr

/-- What a request finds around it: the clock, whether the rate limiter admits
it, whether the breach corpus holds the new password, and bcrypt's salt. -/
structure Surroundings where
  now : Time
  admitted : Bool
  breached : Bool
  salt : String
  deriving Repr

/-- A handler: the interviewers and the history entries, or a refusal. -/
abbrev Handled := Except HTTPException (List Interviewer × List Entry)

variable (settings : AuthSettings) (around : Surroundings)
variable (interviewers : List Interviewer)

/-- `limiter.check` -/
def checkLimiter : Except HTTPException Unit :=
  if around.admitted then return ()
  else throw ⟨429, "too many requests; slow down and retry shortly."⟩

/-- `check_password_policy`, as the request validation answers it. -/
def checkPasswordPolicy (password : String) : Except HTTPException Unit :=
  if password.length < 12 then
    throw ⟨422, "password must be at least 12 characters."⟩
  else if password.utf8ByteSize > 72 then
    throw ⟨422, "password must be at most 72 bytes."⟩
  else return ()

/-- `_reject_breached` -/
def rejectBreached : Except HTTPException Unit :=
  if around.breached then
    throw ⟨422, "that password appears in a known data breach; " ++
      "please choose another."⟩
  else return ()

/-- The account with an address. -/
def byEmail (email : String) : Option Interviewer :=
  interviewers.find? fun row => row.email == email

/-- `_issue_session`: a refresh cookie and an access token. -/
def issueSession (interviewer : Interviewer) : List Entry :=
  [.minted (createRefreshToken settings around.now interviewer),
    .minted (createAccessToken settings around.now interviewer)]

/-- `_set_password` -/
def setPassword (interviewer : Interviewer) (newPassword : String) :
    Interviewer :=
  { interviewer with
    passwordHash := settings.hashpw newPassword around.salt
    tokenVersion := interviewer.tokenVersion + 1 }

/-- The history entry of a password that was set. -/
def passwordEntry (interviewer : Interviewer) : Entry :=
  .passwordSet interviewer.id
    (settings.hashFingerprint interviewer.passwordHash)

/-- `login` -/
def login (email password : String) : Handled := do
  checkLimiter around
  match byEmail interviewers (settings.normalizeEmail email) with
  | none => throw ⟨401, "invalid email or password."⟩
  | some interviewer =>
      if settings.checkpw password interviewer.passwordHash then
        return (interviewers, issueSession settings around interviewer)
      else throw ⟨401, "invalid email or password."⟩

/-- `refresh_session` -/
def refreshSession (cookie : Option Token) : Handled :=
  match interviewerFromRefresh around.now interviewers cookie with
  | none => throw ⟨401, "not signed in."⟩
  | some interviewer =>
      return (interviewers, issueSession settings around interviewer)

/-- `forgot_password` -/
def forgotPassword (email : String) : Handled := do
  checkLimiter around
  match byEmail interviewers (settings.normalizeEmail email) with
  | none => return (interviewers, [])
  | some interviewer =>
      return (interviewers,
        [.minted (createResetToken settings around.now interviewer)])

/-- `reset_password`; its body is validated before its link is read. -/
def resetPassword (token : Token) (newPassword : String) : Handled := do
  checkPasswordPolicy newPassword
  match interviewerFromActionToken settings around.now interviewers token
      .reset with
  | none => throw ⟨400, "invalid or expired reset link."⟩
  | some interviewer =>
      rejectBreached around
      let saved :=
        { setPassword settings around interviewer newPassword with
          emailVerifiedAt :=
            interviewer.emailVerifiedAt.or (some around.now) }
      return (Rows.save Interviewer.id saved interviewers,
        [.resetBy token, passwordEntry settings saved])

/-- `change_password`; the dependency that reads the bearer comes before the
body. -/
def changePassword (bearer : Option Token)
    (currentPassword newPassword : String) : Handled := do
  let current ← getCurrentInterviewer around.now interviewers bearer
  checkPasswordPolicy newPassword
  if !settings.checkpw currentPassword current.passwordHash then
    throw ⟨403, "current password is incorrect."⟩
  rejectBreached around
  let saved := setPassword settings around current newPassword
  return (Rows.save Interviewer.id saved interviewers,
    passwordEntry settings saved :: issueSession settings around saved)

/-- `verify_email` -/
def verifyEmail (token : Token) : Handled :=
  match interviewerFromActionToken settings around.now interviewers token
      .verify with
  | none => throw ⟨400, "invalid or expired verification link."⟩
  | some interviewer =>
      if interviewer.emailVerifiedAt.isNone then
        return (Rows.save Interviewer.id
          { interviewer with emailVerifiedAt := some around.now }
          interviewers, [])
      else return (interviewers, [])

/-- `resend_verification` -/
def resendVerification (bearer : Option Token) : Handled := do
  let current ← getCurrentInterviewer around.now interviewers bearer
  checkLimiter around
  if current.emailVerifiedAt.isSome then return (interviewers, [])
  else
    return (interviewers, [.minted (createVerifyToken around.now current)])

/-- The refusal of an address that has an account. -/
def alreadyRegistered (email : String) : HTTPException :=
  ⟨409, s!"email '{email}' already registered."⟩

/-- The name part of `update_me`. -/
def rename (current : Interviewer) (name : Option String) :
    Except HTTPException Interviewer :=
  match name with
  | none => return current
  | some given =>
      let trimmed := settings.strip given
      if trimmed = "" then throw ⟨422, "name cannot be empty."⟩
      else return { current with name := trimmed }

/-- The address part of `update_me`: the link that it mails, if it does. -/
def startEmailChange (current : Interviewer) (email password : Option String) :
    Except HTTPException (List Entry) :=
  match email.map settings.normalizeEmail with
  | none => return []
  | some newEmail =>
      if newEmail = current.email then return []
      else if !password.any fun given =>
          given != "" && settings.checkpw given current.passwordHash then
        throw ⟨403, "password is incorrect."⟩
      else do
        checkLimiter around
        if (byEmail interviewers newEmail).isSome then
          throw (alreadyRegistered newEmail)
        else
          return [.minted
            (createChangeEmailToken around.now current newEmail)]

/-- `update_me` -/
def updateMe (bearer : Option Token) (name email password : Option String) :
    Handled := do
  let current ← getCurrentInterviewer around.now interviewers bearer
  let renamed ← rename settings current name
  let mailed ←
    startEmailChange settings around interviewers renamed email password
  return (Rows.save Interviewer.id renamed interviewers, mailed)

/-- `confirm_email_change` -/
def confirmEmailChange (token : Token) : Handled :=
  match changeEmailFromToken settings around.now interviewers token with
  | none => throw ⟨400, "this link is invalid or has expired."⟩
  | some (interviewer, newEmail) =>
      match byEmail interviewers newEmail with
      | some taken =>
          if taken.id ≠ interviewer.id then
            throw (alreadyRegistered newEmail)
          else return (moved interviewer newEmail, [])
      | none => return (moved interviewer newEmail, [])
where
  moved (interviewer : Interviewer) (newEmail : String) : List Interviewer :=
    Rows.save Interviewer.id
      { interviewer with
        email := newEmail, emailVerifiedAt := some around.now }
      interviewers

/-- Any route that only asks who is calling, as `me` does. -/
def me (bearer : Option Token) : Handled := do
  let _ ← getCurrentInterviewer around.now interviewers bearer
  return (interviewers, [])

/-! ## Runs -/

/-- The requests of the model. -/
inductive Request where
  | login (email password : String)
  | refreshSession (cookie : Option Token)
  | logout
  | forgotPassword (email : String)
  | resetPassword (token : Token) (newPassword : String)
  | changePassword (bearer : Option Token)
      (currentPassword newPassword : String)
  | verifyEmail (token : Token)
  | resendVerification (bearer : Option Token)
  | updateMe (bearer : Option Token) (name email password : Option String)
  | confirmEmailChange (token : Token)
  | me (bearer : Option Token)
  deriving Repr

/-- The handler of a request. -/
def Request.handle : Request → Handled
  | .login email password =>
      Accounts.login settings around interviewers email password
  | .refreshSession cookie =>
      Accounts.refreshSession settings around interviewers cookie
  | .logout => return (interviewers, [])
  | .forgotPassword email =>
      Accounts.forgotPassword settings around interviewers email
  | .resetPassword token newPassword =>
      Accounts.resetPassword settings around interviewers token newPassword
  | .changePassword bearer currentPassword newPassword =>
      Accounts.changePassword settings around interviewers bearer
        currentPassword newPassword
  | .verifyEmail token =>
      Accounts.verifyEmail settings around interviewers token
  | .resendVerification bearer =>
      Accounts.resendVerification around interviewers bearer
  | .updateMe bearer name email password =>
      Accounts.updateMe settings around interviewers bearer name email
        password
  | .confirmEmailChange token =>
      Accounts.confirmEmailChange settings around interviewers token
  | .me bearer => Accounts.me around interviewers bearer

/-- The tokens that a request presents. -/
def Request.presented : Request → List Token
  | .refreshSession token | .changePassword token _ _
  | .resendVerification token | .updateMe token _ _ _ | .me token =>
      token.toList
  | .resetPassword token _ | .verifyEmail token
  | .confirmEmailChange token => [token]
  | .login _ _ | .logout | .forgotPassword _ => []

/-- The password that a request sets, if it succeeds. -/
def Request.newPassword : Request → Option String
  | .resetPassword _ password | .changePassword _ _ password => some password
  | _ => none

/-- The accounts, with the history of the run: which tokens were minted, which
passwords were set and which links reset one. -/
structure World where
  interviewers : List Interviewer
  history : List Entry
  deriving DecidableEq, Repr

/-- Some accounts, each with the password that it has. -/
def World.start (interviewers : List Interviewer) : World where
  interviewers := interviewers
  history := interviewers.map (passwordEntry settings)

/-- Execute one request. -/
def World.serve (world : World) (request : Request) : World :=
  match request.handle settings around world.interviewers with
  | .error _ => world
  | .ok (interviewers, entries) =>
      ⟨interviewers, world.history ++ entries⟩

/-- What signatures and hashes promise: a signed token was minted, and a new
password's fingerprint differs from those of all earlier settings. -/
def World.Possible (world : World) (request : Request) : Prop :=
  (∀ claims, Token.signed claims ∈ request.presented →
    .minted claims ∈ world.history) ∧
  ∀ password ∈ request.newPassword, ∀ interviewer fingerprint,
    .passwordSet interviewer fingerprint ∈ world.history →
      settings.hashFingerprint (settings.hashpw password around.salt) ≠
        fingerprint

/-- The worlds of the runs from `start`: requests one at a time, under any
clock. -/
inductive World.Reaches (start : World) : World → Prop where
  | refl : World.Reaches start start
  | step {world : World} (around : Surroundings) (request : Request) :
      World.Reaches start world →
      world.Possible settings around request →
      World.Reaches start (world.serve settings around request)

end AssessmentPlatform.Accounts
