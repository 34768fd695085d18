import TraceQ.Library.Transactions
import TraceQ.Projections.Recovery
import TraceQ.Quality.Release

/-! # Sessions

The endpoints of `backend/app/api/auth.py` and the dependencies of `backend/app/security/auth.py`, as
transactions under READ COMMITTED. `refresh` and `logout` hold the row of the presented token to their
end. A transaction reads the clock when it calls `utcnow`, and what it writes is committed later.

Passwords, JWTs and hashes are library functions. Access tokens appear as the claims they carry.
-/
namespace TraceQ.Security
open Projections Quality Tables Transactions
set_option autoImplicit false
set_option maxHeartbeats 250000

/-! ## Tables -/

structure User where
  id : Uuid
  username : String
  passwordHash : String
  enabled : Bool := true
  failedLoginAttempts : ℕ := 0
  lockedUntil : Option Instant := none
deriving DecidableEq

structure RefreshToken where
  userId : Uuid
  sessionId : Uuid
  tokenHash : String
  expiresAt : Instant
  revokedAt : Option Instant := none
  replacedByHash : Option String := none
deriving DecidableEq

structure AuthSession where
  id : Uuid
  userId : Uuid
  lastAuthenticatedAt : Instant
  expiresAt : Instant
  revokedAt : Option Instant := none
deriving DecidableEq

structure Principal where
  userId : Uuid
  username : String
  sessionId : Uuid
  permissions : List String
deriving DecidableEq

structure AccessClaims where
  userId : Uuid
  sessionId : Uuid
  iat : Instant
  exp : Instant
deriving DecidableEq

structure TokenResponse where
  accessToken : AccessClaims
  refreshToken : String
  expiresIn : ℤ
deriving DecidableEq

/-- How a call of the API ended, with the time it decided. -/
inductive AuthEvent where
  | loggedIn (userId : Uuid) (time : Instant) (response : TokenResponse)
  /-- Refused as locked. -/
  | locked (userId : Uuid) (time : Instant)
  /-- A failed login and the value of `locked_until` it sets. -/
  | denied (userId : Option Uuid) (time : Instant) (locks : Option Instant)
  | refreshed (presented : String) (time : Instant) (response : TokenResponse)
  /-- With the session of the presented token, if a row was found for it. -/
  | loggedOut (presented : String) (sessionId : Option Uuid)
  | admitted (principal : Principal) (freshnessMinutes : ℕ) (time : Instant)
  | refused (error : Quality.TraceQError)
deriving DecidableEq

/-- The committed rows, the wall clock and the answers given so far. -/
structure AuthTables where
  clock : Instant
  users : List User := []
  /-- The permissions of a user through `user_roles` and `role_permissions`. -/
  permissions : Uuid → List String := fun _ => []
  sessions : List AuthSession := []
  tokens : List RefreshToken := []
  answers : List AuthEvent := []

/-- The settings and library functions of the endpoints. -/
structure AuthSettings where
  accessTokenTtlMinutes : ℕ := 15
  refreshTokenTtlHours : ℕ := 8
  verifyPassword : String → String → Bool
  tokenHash : String → String
  /-- `jwt.decode` at a time, with the two identifiers of the claims. -/
  decode : String → Instant → Option (Uuid × Uuid)

def minutes (n : ℕ) : ℤ := n * 60000000

def hours (n : ℕ) : ℤ := minutes (n * 60)

/-! ## Token responses -/

/-- What `_token_response` draws and reads: the raw refresh token and the clock, four times. -/
structure Issue where
  sessionId : Uuid
  rawRefresh : String
  /-- For `session_expiry`. -/
  started : Instant
  authenticated : Instant
  issued : Instant
  finished : Instant
deriving DecidableEq

/-- The clock is read in this order from `clock` on. -/
def Issue.From (clock : Instant) (issue : Issue) : Prop :=
  clock ≤ issue.started ∧ issue.started ≤ issue.authenticated ∧ issue.authenticated ≤ issue.issued ∧
    issue.issued ≤ issue.finished

section Responses
variable (settings : AuthSettings)

def createAccessToken (user : User) (sessionId : Uuid) (now : Instant) : AccessClaims × ℤ :=
  (⟨user.id, sessionId, now, now + minutes settings.accessTokenTtlMinutes⟩,
    settings.accessTokenTtlMinutes * 60)

def Issue.response (issue : Issue) (user : User) : TokenResponse :=
  ⟨(createAccessToken settings user issue.sessionId issue.issued).1, issue.rawRefresh,
    (createAccessToken settings user issue.sessionId issue.issued).2⟩

def Issue.record (issue : Issue) (user : User) : RefreshToken where
  userId := user.id
  sessionId := issue.sessionId
  tokenHash := settings.tokenHash issue.rawRefresh
  expiresAt := issue.finished + hours settings.refreshTokenTtlHours

def Issue.session (issue : Issue) (user : User) : AuthSession where
  id := issue.sessionId
  userId := user.id
  lastAuthenticatedAt := issue.authenticated
  expiresAt := issue.started + hours settings.refreshTokenTtlHours

/-- The row of a session that `_token_response` found and flushes. -/
def Issue.renews (issue : Issue) (read row : AuthSession) : AuthSession :=
  { row with
    lastAuthenticatedAt := written read.lastAuthenticatedAt issue.authenticated row.lastAuthenticatedAt
    expiresAt :=
      written read.expiresAt (issue.started + hours settings.refreshTokenTtlHours) row.expiresAt }

/-- The sessions after `_token_response`; `found` is the row it read. -/
def Issue.sessions (issue : Issue) (user : User) (found : Option AuthSession)
    (rows : List AuthSession) : List AuthSession :=
  match found with
  | none => rows ++ [issue.session settings user]
  | some read => modifyWhere (fun row => decide (row.id = read.id)) (issue.renews settings read) rows

end Responses

/-! ## Rows the endpoints write -/

/-- The user after a failed login. -/
def User.fails (user : User) (now : Instant) : User :=
  if user.failedLoginAttempts + 1 ≥ 5 then
    { user with lockedUntil := some (now + minutes 15), failedLoginAttempts := 0 }
  else { user with failedLoginAttempts := user.failedLoginAttempts + 1 }

/-- The user after a login. -/
def User.passes (user : User) : User := { user with failedLoginAttempts := 0, lockedUntil := none }

/-- The row of the user read, changed to `changed`, is written back. -/
def User.flushes (read changed row : User) : User :=
  { row with
    failedLoginAttempts :=
      written read.failedLoginAttempts changed.failedLoginAttempts row.failedLoginAttempts
    lockedUntil := written read.lockedUntil changed.lockedUntil row.lockedUntil }

def flushUser (read changed : User) (rows : List User) : List User :=
  modifyWhere (fun row => decide (row.id = read.id)) (read.flushes changed) rows

def User.isLocked (user : User) (now : Instant) : Bool := 
  user.lockedUntil.any fun time => decide (time > now)

/-- The value of `locked_until` that a failed login sets. -/
def User.locks (user : User) (now : Instant) : Option Instant :=
  if user.failedLoginAttempts + 1 ≥ 5 then some (now + minutes 15) else none

def RefreshToken.revoke (now : Instant) (token : RefreshToken) : RefreshToken :=
  { token with revokedAt := some now }

def RefreshToken.rotate (now : Instant) (successor : String) (token : RefreshToken) : RefreshToken :=
  { token with revokedAt := some now, replacedByHash := some successor }

def AuthSession.revoke (now : Instant) (session : AuthSession) : AuthSession :=
  { session with revokedAt := some now }

def findToken (rows : List RefreshToken) (hash : String) : Option RefreshToken :=
  rows.find? fun row => decide (row.tokenHash = hash)

def findSession (rows : List AuthSession) (id : Uuid) : Option AuthSession :=
  rows.find? fun row => decide (row.id = id)

def findUser (rows : List User) (id : Uuid) : Option User := rows.find? fun row => decide (row.id = id)

/-- The token that was rotated. -/
def rotateToken (record : RefreshToken) (now : Instant) (successor : String)
    (rows : List RefreshToken) : List RefreshToken :=
  modifyWhere (fun row => decide (row.tokenHash = record.tokenHash))
    (RefreshToken.rotate now successor) rows

/-- The presented token and the siblings that `logout` found are revoked. -/
def revokeTokens (hashes : List String) (now : Instant) (rows : List RefreshToken) :
    List RefreshToken :=
  modifyWhere (fun row => decide (row.tokenHash ∈ hashes)) (RefreshToken.revoke now) rows

/-- The session is revoked if `logout` found it unrevoked. -/
def revokeSession (found : Option AuthSession) (now : Instant) (rows : List AuthSession) :
    List AuthSession :=
  match found with
  | none => rows
  | some read =>
      if read.revokedAt = none then
        modifyWhere (fun row => decide (row.id = read.id)) (AuthSession.revoke now) rows
      else rows

/-! ## Admission -/

def invalidAccessToken : Quality.TraceQError :=
  ⟨"INVALID_ACCESS_TOKEN", "Access token is invalid or expired", 401⟩

def invalidRefreshToken : Quality.TraceQError :=
  ⟨"INVALID_REFRESH_TOKEN", "Refresh token is invalid or expired", 401⟩

/-- `current_principal`, with the session it read. The credentials are the scheme and the token. -/
def currentPrincipal (settings : AuthSettings) (tables : AuthTables)
    (credentials : Option (String × String)) (now : Instant) :
    Except Quality.TraceQError (Principal × AuthSession) :=
  match credentials with
  | none => .error ⟨"AUTHENTICATION_REQUIRED", "Authentication required", 401⟩
  | some (scheme, token) =>
      if scheme.toLower ≠ "bearer" then
        .error ⟨"AUTHENTICATION_REQUIRED", "Authentication required", 401⟩
      else
        match settings.decode token now with
        | none => .error invalidAccessToken
        | some (userId, sessionId) =>
            match findUser tables.users userId, findSession tables.sessions sessionId with
            | some user, some session =>
                if !user.enabled || decide (session.userId ≠ userId) || session.revokedAt.isSome ||
                    decide (session.expiresAt ≤ now) then .error invalidAccessToken
                else .ok (⟨user.id, user.username, sessionId, tables.permissions user.id⟩, session)
            | _, _ => .error invalidAccessToken

structure CriticalRequest where
  credentials : Option (String × String)
  permission : String
  freshnessMinutes : ℕ := 30

/-- The body of `require_critical_permission`. `db.get` returns the session that `current_principal`
read. -/
def requireCriticalPermission (request : CriticalRequest) (principal : Principal)
    (session : AuthSession) (now : Instant) : AuthEvent :=
  if request.permission ∉ principal.permissions then
    .refused ⟨"FORBIDDEN", "Permission " ++ request.permission ++ " is required", 403⟩
  else if session.revokedAt.isSome || decide (session.expiresAt ≤ now) then
    .refused ⟨"SESSION_REVOKED", "The authenticated session is no longer active", 401⟩
  else if session.lastAuthenticatedAt < now - minutes request.freshnessMinutes then
    .refused ⟨"FRESH_AUTH_REQUIRED", "Fresh authentication is required", 403⟩
  else .admitted principal request.freshnessMinutes now

/-! ## Transactions -/

structure LoginRequest where
  username : String
  password : String

inductive AuthTransaction where
  /-- Time passes. -/
  | waits (time : Instant)
  | login (body : LoginRequest)
  | loginRead (body : LoginRequest) (user : Option User)
  | loginLocked (user : User) (now : Instant)
  | loginDenied (user : Option User) (now : Instant)
  | loginPassed (user : User) (now : Instant)
  | loginResponded (user : User) (now : Instant) (issue : Issue)
  | refresh (presented : String)
  | refreshLocked (presented : String) (record : Option RefreshToken)
  | refreshRefused
  | refreshChecked (presented : String) (record : RefreshToken) (now : Instant) (user : User)
  | refreshResponded (presented : String) (record : RefreshToken) (now : Instant) (user : User)
      (found : Option AuthSession) (issue : Issue)
  | logout (presented : String)
  | logoutLocked (presented : String) (record : Option RefreshToken)
  | logoutRead (presented : String) (record : RefreshToken) (now : Instant)
      (found : Option AuthSession)
  | logoutListed (presented : String) (record : RefreshToken) (now : Instant)
      (found : Option AuthSession) (siblings : List String)
  | critical (request : CriticalRequest)
  | criticalRead (request : CriticalRequest) (principal : Principal) (session : AuthSession)
  | criticalRefused (error : Quality.TraceQError)

namespace AuthTransaction

/-- The token row that the transaction holds until it ends. -/
def record? : AuthTransaction → Option RefreshToken
  | .refreshLocked _ record => record
  | .refreshChecked _ record _ _ => some record
  | .refreshResponded _ record _ _ _ _ => some record
  | .logoutLocked _ record => record
  | .logoutRead _ record _ _ => some record
  | .logoutListed _ record _ _ _ => some record
  | _ => none

/-- The user row that a login has read. -/
def loginUser : AuthTransaction → Option User
  | .loginRead _ user => user
  | .loginLocked user _ => some user
  | .loginDenied user _ => user
  | .loginPassed user _ => some user
  | .loginResponded user _ _ => some user
  | _ => none

inductive Begins : AuthTransaction → Prop where
  | waits (time : Instant) : Begins (.waits time)
  | login (body : LoginRequest) : Begins (.login body)
  | refresh (presented : String) : Begins (.refresh presented)
  | logout (presented : String) : Begins (.logout presented)
  | critical (request : CriticalRequest) : Begins (.critical request)

end AuthTransaction

abbrev AuthWorld := World AuthTables AuthTransaction

/-- No other transaction holds the row of the token. -/
def TokenFree (w : AuthWorld) (i : ℕ) (hash : String) : Prop :=
  w.Others i fun m => ∀ record, m.record? = some record → record.tokenHash ≠ hash

/-- The user is unknown or disabled, or the password is wrong. -/
def loginFails (settings : AuthSettings) (body : LoginRequest) (user : Option User) : Bool :=
  !user.any fun user => user.enabled && settings.verifyPassword user.passwordHash body.password

section Steps
variable (settings : AuthSettings) (w : AuthWorld) (i : ℕ)

inductive AuthMoves : AuthTransaction → AuthTransaction → Prop where
  | loginReads (body : LoginRequest) :
      AuthMoves (.login body) (.loginRead body
        (w.committed.users.find? fun row => decide (row.username = body.username)))
  | loginLocked (body : LoginRequest) (user : User)
      (h : user.isLocked w.committed.clock = true) :
      AuthMoves (.loginRead body (some user)) (.loginLocked user w.committed.clock)
  | loginDenied (body : LoginRequest) (user : Option User)
      (hopen : ∀ u, user = some u → u.isLocked w.committed.clock = false)
      (h : loginFails settings body user = true) :
      AuthMoves (.loginRead body user) (.loginDenied user w.committed.clock)
  | loginPassed (body : LoginRequest) (user : User)
      (hopen : user.isLocked w.committed.clock = false)
      (h : loginFails settings body (some user) = false) :
      AuthMoves (.loginRead body (some user)) (.loginPassed user w.committed.clock)
  /-- `uuid4` draws an identifier that no session has. -/
  | loginResponds (user : User) (now : Instant) (issue : Issue) (htimes : issue.From w.committed.clock)
      (hfresh : findSession w.committed.sessions issue.sessionId = none) :
      AuthMoves (.loginPassed user now) (.loginResponded user now issue)
  | refreshLocks (presented : String) (hfree : TokenFree w i (settings.tokenHash presented)) :
      AuthMoves (.refresh presented)
        (.refreshLocked presented (findToken w.committed.tokens (settings.tokenHash presented)))
  | refreshMissing (presented : String) : AuthMoves (.refreshLocked presented none) .refreshRefused
  | refreshInvalid (presented : String) (record : RefreshToken)
      (h : record.revokedAt.isSome = true ∨ record.expiresAt ≤ w.committed.clock) :
      AuthMoves (.refreshLocked presented (some record)) .refreshRefused
  | refreshDisabled (presented : String) (record : RefreshToken)
      (h : (findUser w.committed.users record.userId).any (·.enabled) = false) :
      AuthMoves (.refreshLocked presented (some record)) .refreshRefused
  | refreshChecks (presented : String) (record : RefreshToken) (user : User)
      (hrevoked : record.revokedAt = none) (hexpires : w.committed.clock < record.expiresAt)
      (huser : findUser w.committed.users record.userId = some user) (henabled : user.enabled = true) :
      AuthMoves (.refreshLocked presented (some record))
        (.refreshChecked presented record w.committed.clock user)
  | refreshResponds (presented : String) (record : RefreshToken) (now : Instant) (user : User)
      (issue : Issue) (htimes : issue.From w.committed.clock)
      (hsession : issue.sessionId = record.sessionId) :
      AuthMoves (.refreshChecked presented record now user)
        (.refreshResponded presented record now user
          (findSession w.committed.sessions record.sessionId) issue)
  | logoutLocks (presented : String) (hfree : TokenFree w i (settings.tokenHash presented)) :
      AuthMoves (.logout presented)
        (.logoutLocked presented (findToken w.committed.tokens (settings.tokenHash presented)))
  | logoutReads (presented : String) (record : RefreshToken) (h : record.revokedAt = none) :
      AuthMoves (.logoutLocked presented (some record))
        (.logoutRead presented record w.committed.clock
          (findSession w.committed.sessions record.sessionId))
  /-- The row of the presented token is among the siblings; it is revoked anyway. -/
  | logoutLists (presented : String) (record : RefreshToken) (now : Instant)
      (found : Option AuthSession) :
      AuthMoves (.logoutRead presented record now found)
        (.logoutListed presented record now found
          ((w.committed.tokens.filter fun row => decide (row.sessionId = record.sessionId) &&
            row.revokedAt.isNone).map (·.tokenHash)))
  | criticalReads (request : CriticalRequest) (principal : Principal) (session : AuthSession)
      (h : currentPrincipal settings w.committed request.credentials w.committed.clock =
        .ok (principal, session)) :
      AuthMoves (.critical request) (.criticalRead request principal session)
  | criticalRefuses (request : CriticalRequest) (error : Quality.TraceQError)
      (h : currentPrincipal settings w.committed request.credentials w.committed.clock = .error error) :
      AuthMoves (.critical request) (.criticalRefused error)

/-- The call is answered. -/
def AuthTables.answer (tables : AuthTables) (event : AuthEvent) : AuthTables :=
  { tables with answers := tables.answers ++ [event] }

/-- `login` of a locked user, `refresh` of an invalid token and `logout` with a revoked or unknown one
change no row of these tables. -/
inductive AuthCommits : AuthTransaction → AuthTables → Option AuthTransaction → Prop where
  | waits (time : Instant) (h : w.committed.clock ≤ time) :
      AuthCommits (.waits time) { w.committed with clock := time } none
  | locked (user : User) (now : Instant) :
      AuthCommits (.loginLocked user now) (w.committed.answer (.locked user.id now)) none
  | denied (user : User) (now : Instant) :
      AuthCommits (.loginDenied (some user) now)
        ({ w.committed with users := flushUser user (user.fails now) w.committed.users }.answer
          (.denied (some user.id) now (user.locks now))) none
  | unknown (now : Instant) :
      AuthCommits (.loginDenied none now) (w.committed.answer (.denied none now none)) none
  | loggedIn (user : User) (now : Instant) (issue : Issue) (htime : issue.finished ≤ w.committed.clock)
      (hsession : findSession w.committed.sessions issue.sessionId = none)
      (htoken : findToken w.committed.tokens (settings.tokenHash issue.rawRefresh) = none) :
      AuthCommits (.loginResponded user now issue)
        ({ w.committed with
            users := flushUser user user.passes w.committed.users
            sessions := issue.sessions settings user none w.committed.sessions
            tokens := w.committed.tokens ++ [issue.record settings user] }.answer
          (.loggedIn user.id issue.authenticated (issue.response settings user))) none
  | refreshRefused : AuthCommits .refreshRefused (w.committed.answer (.refused invalidRefreshToken)) none
  | refreshed (presented : String) (record : RefreshToken) (now : Instant) (user : User)
      (found : Option AuthSession) (issue : Issue) (htime : issue.finished ≤ w.committed.clock)
      (hsession : found = none → findSession w.committed.sessions issue.sessionId = none)
      (htoken : findToken w.committed.tokens (settings.tokenHash issue.rawRefresh) = none) :
      AuthCommits (.refreshResponded presented record now user found issue)
        ({ w.committed with
            sessions := issue.sessions settings user found w.committed.sessions
            tokens := rotateToken record now (settings.tokenHash issue.rawRefresh)
              (w.committed.tokens ++ [issue.record settings user]) }.answer
          (.refreshed presented issue.authenticated (issue.response settings user))) none
  | loggedOutUnknown (presented : String) :
      AuthCommits (.logoutLocked presented none) (w.committed.answer (.loggedOut presented none)) none
  | loggedOutRevoked (presented : String) (record : RefreshToken)
      (h : record.revokedAt.isSome = true) :
      AuthCommits (.logoutLocked presented (some record))
        (w.committed.answer (.loggedOut presented (some record.sessionId))) none
  | loggedOut (presented : String) (record : RefreshToken) (now : Instant)
      (found : Option AuthSession) (siblings : List String)
      (hfree : ∀ hash ∈ siblings, TokenFree w i hash) :
      AuthCommits (.logoutListed presented record now found siblings)
        ({ w.committed with
            sessions := revokeSession found now w.committed.sessions
            tokens := revokeTokens (record.tokenHash :: siblings) now w.committed.tokens }.answer
          (.loggedOut presented (some record.sessionId))) none
  | critical (request : CriticalRequest) (principal : Principal) (session : AuthSession) :
      AuthCommits (.criticalRead request principal session)
        (w.committed.answer
          (requireCriticalPermission request principal session w.committed.clock)) none
  | criticalRefused (error : Quality.TraceQError) :
      AuthCommits (.criticalRefused error) (w.committed.answer (.refused error)) none

end Steps

/-- Any transaction may be rolled back before it commits. -/
def sessionProtocol (settings : AuthSettings) : Protocol AuthTables AuthTransaction where
  begins := AuthTransaction.Begins
  moves := AuthMoves settings
  commits := AuthCommits settings
  rollsBack _ := True

end TraceQ.Security
