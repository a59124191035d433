import AssessmentPlatform.Models
import AssessmentPlatform.Refusals
import AssessmentPlatform.Rows

/-!
# Session and action tokens

Signatures are ideal: a token is either one that the server has signed, and then
carries its claims, or it never verifies.
-/

namespace AssessmentPlatform.Accounts

/-- The settings and the library functions that authentication uses. -/
structure AuthSettings where
  /-- `config.JWT_EXPIRE_MIN` -/
  jwtExpireMin : Int
  /-- `config.REFRESH_EXPIRE_DAYS` -/
  refreshExpireDays : Int
  /-- Python's `str.strip`. -/
  strip : String → String
  /-- Python's `str.lower`. -/
  lower : String → String
  /-- `bcrypt.hashpw` of a password with a salt. -/
  hashpw : String → String → String
  /-- `bcrypt.checkpw`; `false` where it raises. -/
  checkpw : String → String → Bool
  /-- `_hash_fingerprint` -/
  hashFingerprint : String → String

/-- `_normalize_email` -/
def AuthSettings.normalizeEmail (settings : AuthSettings) (email : String) :
    String :=
  settings.lower (settings.strip email)

/-! ## Claims -/

/-- The `use` claim. -/
inductive TokenUse where
  | access
  | refresh
  | verify
  | reset
  | changeEmail
  deriving DecidableEq, Repr

/-- The claims of a token; `iat` and `exp` are whole seconds. -/
structure Claims where
  use : TokenUse
  sub : Nat
  ver : Option Nat := none
  email : Option String := none
  newEmail : Option String := none
  pwd : Option String := none
  iat : Int := 0
  exp : Int := 0
  deriving DecidableEq, Repr

/-- What a client presents. -/
inductive Token where
  | signed (claims : Claims)
  | forged (text : String)
  deriving DecidableEq, Repr

/-- Microseconds in a second, a minute, an hour and a day. -/
def seconds (count : Int) : Time := count * 1000000

/-- `timedelta(minutes=count)` -/
def minutes (count : Int) : Time := seconds (60 * count)

/-- `timedelta(hours=count)` -/
def hours (count : Int) : Time := minutes (60 * count)

/-- `timedelta(days=count)` -/
def days (count : Int) : Time := hours (24 * count)

/-- `VERIFY_TOKEN_TTL` -/
def verifyTokenTtl : Time := days 3

/-- `RESET_TOKEN_TTL` -/
def resetTokenTtl : Time := hours 1

/-- `_encode` -/
def encode (now : Time) (claims : Claims) (ttl : Time) : Claims :=
  { claims with
    iat := now / seconds 1
    exp := (now + ttl) / seconds 1 }

/-- `_decode`: the signature, the two instants and the use must all be right. -/
def decode (now : Time) (token : Token) (use : TokenUse) : Option Claims :=
  match token with
  | .forged _ => none
  | .signed claims =>
      if now < seconds claims.iat ∨ seconds claims.exp ≤ now then none
      else if claims.use = use then some claims
      else none

/-- `_subject` -/
def subject (interviewers : List Interviewer) (claims : Claims) :
    Option Interviewer :=
  Rows.fetch Interviewer.id claims.sub interviewers

/-! ## Sessions -/

variable (settings : AuthSettings)

/-- `create_access_token` -/
def createAccessToken (now : Time) (interviewer : Interviewer) : Claims :=
  encode now
    { use := .access, sub := interviewer.id,
      ver := some interviewer.tokenVersion }
    (minutes settings.jwtExpireMin)

/-- `create_refresh_token` -/
def createRefreshToken (now : Time) (interviewer : Interviewer) : Claims :=
  encode now
    { use := .refresh, sub := interviewer.id,
      ver := some interviewer.tokenVersion }
    (days settings.refreshExpireDays)

/-- `_session_interviewer` -/
def sessionInterviewer (now : Time) (interviewers : List Interviewer)
    (token : Token) (use : TokenUse) : Option Interviewer := do
  let claims ← decode now token use
  let interviewer ← subject interviewers claims
  if claims.ver = some interviewer.tokenVersion then some interviewer
  else none

/-- `get_current_interviewer` -/
def getCurrentInterviewer (now : Time) (interviewers : List Interviewer)
    (token : Option Token) : Except HTTPException Interviewer :=
  match token with
  | none => throw ⟨401, "missing bearer token."⟩
  | some presented =>
      match sessionInterviewer now interviewers presented .access with
      | none => throw ⟨401, "invalid or expired token."⟩
      | some interviewer => return interviewer

/-- `interviewer_from_refresh` -/
def interviewerFromRefresh (now : Time) (interviewers : List Interviewer)
    (token : Option Token) : Option Interviewer :=
  token.bind fun presented =>
    sessionInterviewer now interviewers presented .refresh

/-! ## Links -/

/-- `create_verify_token` -/
def createVerifyToken (now : Time) (interviewer : Interviewer) : Claims :=
  encode now
    { use := .verify, sub := interviewer.id,
      email := some interviewer.email }
    verifyTokenTtl

/-- `create_change_email_token` -/
def createChangeEmailToken (now : Time) (interviewer : Interviewer)
    (newEmail : String) : Claims :=
  encode now
    { use := .changeEmail, sub := interviewer.id,
      email := some interviewer.email, newEmail := some newEmail }
    verifyTokenTtl

/-- `create_reset_token` -/
def createResetToken (now : Time) (interviewer : Interviewer) : Claims :=
  encode now
    { use := .reset, sub := interviewer.id,
      email := some interviewer.email,
      pwd := some (settings.hashFingerprint interviewer.passwordHash) }
    resetTokenTtl

/-- `interviewer_from_action_token` -/
def interviewerFromActionToken (now : Time) (interviewers : List Interviewer)
    (token : Token) (use : TokenUse) : Option Interviewer := do
  let claims ← decode now token use
  let interviewer ← subject interviewers claims
  if (use = .verify ∨ use = .changeEmail) ∧
      claims.email ≠ some interviewer.email then none
  else if use = .reset ∧
      claims.pwd ≠
        some (settings.hashFingerprint interviewer.passwordHash) then none
  else some interviewer

/-- `change_email_from_token` -/
def changeEmailFromToken (now : Time) (interviewers : List Interviewer)
    (token : Token) : Option (Interviewer × String) := do
  let interviewer ←
    interviewerFromActionToken settings now interviewers token .changeEmail
  let claims ← decode now token .changeEmail
  let newEmail ← claims.newEmail
  if newEmail = "" then none else some (interviewer, newEmail)

/-! ## What the decoder lets through -/

variable {settings} {now : Time} {interviewers : List Interviewer}
variable {token : Token} {use : TokenUse} {claims : Claims}
variable {interviewer : Interviewer}

theorem decode_eq_some (decoded : decode now token use = some claims) :
    token = .signed claims ∧ claims.use = use := by
  cases token with
  | forged text => simp [decode] at decoded
  | signed found =>
      simp only [decode] at decoded
      split at decoded
      · simp at decoded
      · split at decoded
        · next isUse =>
            have same : found = claims := by simpa using decoded
            exact ⟨congrArg Token.signed same, same ▸ isUse⟩
        · simp at decoded

theorem sessionInterviewer_eq_some
    (accepted :
      sessionInterviewer now interviewers token use = some interviewer) :
    ∃ claims, token = .signed claims ∧ claims.use = use ∧
      interviewer ∈ interviewers ∧ interviewer.id = claims.sub ∧
      claims.ver = some interviewer.tokenVersion := by
  simp only [sessionInterviewer, Option.bind_eq_bind,
    Option.bind_eq_some_iff] at accepted
  obtain ⟨claims, decoded, found, isFound, isCurrent⟩ := accepted
  have ⟨isToken, isUse⟩ := decode_eq_some decoded
  by_cases current : claims.ver = some found.tokenVersion
  · rw [if_pos current] at isCurrent
    obtain rfl := Option.some.inj isCurrent
    exact ⟨claims, isToken, isUse, Rows.mem_of_fetch isFound,
      Rows.key_of_fetch isFound, current⟩
  · simp [current] at isCurrent

theorem interviewerFromActionToken_eq_some
    (accepted : interviewerFromActionToken settings now interviewers token
      use = some interviewer) :
    ∃ claims, token = .signed claims ∧ claims.use = use ∧
      interviewer ∈ interviewers ∧ interviewer.id = claims.sub ∧
      (use = .reset → claims.pwd =
        some (settings.hashFingerprint interviewer.passwordHash)) := by
  simp only [interviewerFromActionToken, Option.bind_eq_bind,
    Option.bind_eq_some_iff] at accepted
  obtain ⟨claims, decoded, found, isFound, applies⟩ := accepted
  have ⟨isToken, isUse⟩ := decode_eq_some decoded
  split at applies
  · simp at applies
  · split at applies
    · simp at applies
    · next bound =>
        obtain rfl := Option.some.inj applies
        refine ⟨claims, isToken, isUse, Rows.mem_of_fetch isFound,
          Rows.key_of_fetch isFound, ?_⟩
        intro isReset
        exact not_not.mp fun different => bound ⟨isReset, different⟩

end AssessmentPlatform.Accounts
