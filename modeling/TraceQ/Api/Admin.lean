import TraceQ.Api.Nonconformances
import TraceQ.Library.Machine
import TraceQ.Security.Sessions

/-! # Users and roles

`create_user` and `patch_user` of `backend/app/api/admin.py` behind `require_permission("MANAGE_USERS")`, over the
users and the role tables. A caller is the user whose live session the request presents; sessions and the audit
trail are left out.
-/
namespace TraceQ.Api
open Quality Tables Security
set_option autoImplicit false
set_option maxHeartbeats 250000

/-! ## Tables -/

/-- A role with its grants in `role_permissions`. -/
structure Role where
  name : String
  permissions : List String
deriving DecidableEq

/-- A user with its roles in `user_roles`, by their unique names. -/
structure Account extends User where
  displayName : String
  roles : List String
deriving DecidableEq

structure UserTables where
  roles : List Role := []
  users : List Account := []
  nextId : ℕ := 0

def findAccount (t : UserTables) (userId : Uuid) : Option Account :=
  t.users.find? fun user => decide (user.id = userId)

/-- The roles of these names. -/
def selectRoles (t : UserTables) (names : List String) : List Role :=
  t.roles.filter fun role => decide (role.name ∈ names)

/-- `_permissions_for_user`, by the names of the user's roles. -/
def permissionsOf (t : UserTables) (names : List String) : List String :=
  (selectRoles t names).flatMap (·.permissions)

/-! ## Requests -/

/-- `^[A-Za-z0-9_.-]+$`. -/
def usernamePattern (username : String) : Bool :=
  !username.isEmpty && username.toList.all fun c =>
    ('A' ≤ c && c ≤ 'Z') || ('a' ≤ c && c ≤ 'z') || ('0' ≤ c && c ≤ '9') || c = '_' || c = '.' || c = '-'

structure UserCreate where
  username : String
  displayName : String
  password : String
  roles : List String
  username_length : 3 ≤ username.length ∧ username.length ≤ 96 := by decide
  username_pattern : usernamePattern username = true := by decide
  display_name_length : 1 ≤ displayName.length ∧ displayName.length ≤ 160 := by decide
  password_length : 12 ≤ password.length ∧ password.length ≤ 512 := by decide
  min_length : roles ≠ [] := by decide

structure UserPatch where
  enabled : Option Bool := none
  displayName : Option String := none
  roles : Option (List String) := none
  display_name_length : ∀ name ∈ displayName, 1 ≤ name.length ∧ name.length ≤ 160 := by decide

/-! ## Endpoints -/

/-- The caller, if `current_principal` and `require_permission("MANAGE_USERS")` let it pass. -/
def managingPrincipal (t : UserTables) (callerId : Uuid) : Except Quality.TraceQError Account :=
  match findAccount t callerId with
  | none => .error ⟨"INVALID_ACCESS_TOKEN", "Access token is invalid or expired", 401⟩
  | some user =>
      if ¬ user.enabled then .error ⟨"INVALID_ACCESS_TOKEN", "Access token is invalid or expired", 401⟩
      else if "MANAGE_USERS" ∈ permissionsOf t user.roles then .ok user
      else .error ⟨"FORBIDDEN", "Permission MANAGE_USERS is required", 403⟩

/-- The roles of these names, if all are known. -/
def knownRoles (t : UserTables) (names : List String) : Except Quality.TraceQError (List String) :=
  if (selectRoles t names).length ≠ names.dedup.length then
    .error ⟨"UNKNOWN_ROLE", "One or more roles are unknown", 422⟩
  else .ok ((selectRoles t names).map (·.name))

def newUser (hashPassword : String → String) (t : UserTables) (body : UserCreate) (roles : List String) :
    Account where
  id := t.nextId
  username := body.username
  passwordHash := hashPassword body.password
  displayName := body.displayName
  roles := roles

def createUser (hashPassword : String → String) (t : UserTables) (callerId : Uuid) (body : UserCreate) :
    Except Quality.TraceQError (UserTables × Account) := do
  let _ ← managingPrincipal t callerId
  if t.users.any fun user => decide (user.username = body.username) then
    .error ⟨"USERNAME_EXISTS", "Username already exists", 409⟩
  else
    let roles ← knownRoles t body.roles
    let user := newUser hashPassword t body roles
    return ({ t with users := t.users ++ [user], nextId := t.nextId + 1 }, user)

def userOr404 (t : UserTables) (userId : Uuid) : Except Quality.TraceQError Account :=
  match findAccount t userId with
  | some user => .ok user
  | none => .error (notFound "User")

/-- The row with what the body sets; `roles` are those it has named, if it has. -/
def patchedUser (body : UserPatch) (roles : Option (List String)) (user : Account) : Account :=
  { user with
    enabled := body.enabled.getD user.enabled
    displayName := body.displayName.getD user.displayName
    roles := roles.getD user.roles }

def patchUser (t : UserTables) (callerId userId : Uuid) (body : UserPatch) :
    Except Quality.TraceQError (UserTables × Account) := do
  let principal ← managingPrincipal t callerId
  let user ← userOr404 t userId
  if user.id = principal.id ∧ body.enabled = some false then
    .error ⟨"CANNOT_DISABLE_SELF", "You cannot disable your own account", 409⟩
  else
    let roles ← body.roles.mapM (knownRoles t)
    return ({ t with
      users := modifyWhere (fun row => decide (row.id = user.id)) (patchedUser body roles) t.users },
      patchedUser body roles user)

/-! ## Calls -/

inductive UserCall where
  | createUser (callerId : Uuid) (body : UserCreate)
  | patchUser (callerId userId : Uuid) (body : UserPatch)

/-- The answers of the two endpoints. -/
inductive UserAnswer where
  | created (id : Uuid) (username : String)
  | patched (id : Uuid) (enabled : Bool) (roles : List String)
  | refused (error : Quality.TraceQError)
deriving DecidableEq

/-- A call that raises commits nothing. -/
def execUser (hashPassword : String → String) (t : UserTables) : UserCall → UserTables × UserAnswer
  | .createUser callerId body =>
      match createUser hashPassword t callerId body with
      | .ok (committed, user) => (committed, .created user.id user.username)
      | .error error => (t, .refused error)
  | .patchUser callerId userId body =>
      match patchUser t callerId userId body with
      | .ok (committed, user) => (committed, .patched user.id user.enabled user.roles)
      | .error error => (t, .refused error)

end TraceQ.Api
