import TraceQ.Api.Admin
import TraceQ.Library.Draining

/-! # Users administered while they are logged in

`create_user` and `patch_user` of `backend/app/api/admin.py` as transactions beside those of `api/auth.py`: what
they have read may be old when they commit. A patch writes the columns it changes and the rows of `user_roles`
it adds and removes. Display names and the audit trail are left out.
-/
namespace TraceQ.Api
open Quality Tables Security Transactions
set_option autoImplicit false
set_option maxHeartbeats 250000

/-! ## Tables -/

/-- The rows of `api/auth.py`, the roles with their grants, and the rows of `user_roles`. -/
structure Managed where
  auth : AuthTables
  roles : List Role := []
  userRoles : Uuid → List String := fun _ => []

/-- `_permissions_for_user`. -/
def grantsOf (roles : List Role) (userRoles : Uuid → List String) (userId : Uuid) : List String :=
  permissionsOf { roles := roles } (userRoles userId)

/-- What a patch writes of the row it has loaded. -/
structure UserChanges where
  enabled : Option Bool := none
  removed : List String := []
  added : List String := []
deriving DecidableEq

/-- `roles` are the known roles the body names, if it names any; `held` those the user had when the patch
replaced them. -/
def userChanges (loaded : User) (held : List String) (body : UserPatch) (roles : Option (List String)) :
    UserChanges where
  enabled := body.enabled.filter fun enabled => decide (enabled ≠ loaded.enabled)
  removed := roles.elim [] fun names => held.filter fun name => decide (name ∉ names)
  added := roles.elim [] fun names => names.filter fun name => decide (name ∉ held)

def UserChanges.apply (changes : UserChanges) (row : User) : User :=
  { row with enabled := changes.enabled.getD row.enabled }

/-- The rows of `user_roles` of the user afterwards. -/
def UserChanges.roles (changes : UserChanges) (held : List String) : List String :=
  (held.filter fun name => decide (name ∉ changes.removed)) ++ changes.added

/-- A removed row that is gone raises `StaleDataError`, an added one that is there `IntegrityError`. -/
def UserChanges.Fits (changes : UserChanges) (held : List String) : Prop :=
  (∀ name ∈ changes.removed, name ∈ held) ∧ ∀ name ∈ changes.added, name ∉ held

def Managed.patched (m : Managed) (userId : Uuid) (changes : UserChanges) : Managed :=
  let userRoles := Function.update m.userRoles userId (changes.roles (m.userRoles userId))
  { m with
    auth :=
      { m.auth with
        users := modifyWhere (fun row => decide (row.id = userId)) changes.apply m.auth.users
        permissions := grantsOf m.roles userRoles }
    userRoles := userRoles }

def Managed.created (m : Managed) (user : User) (names : List String) : Managed :=
  let userRoles := Function.update m.userRoles user.id names
  { m with
    auth :=
      { m.auth with
        users := m.auth.users ++ [user]
        permissions := grantsOf m.roles userRoles }
    userRoles := userRoles }

section Fields
variable (m : Managed) (userId : Uuid) (changes : UserChanges) (user : User) (names : List String)

@[simp] theorem patched_roles : (m.patched userId changes).roles = m.roles := rfl

@[simp] theorem patched_userRoles : (m.patched userId changes).userRoles =
    Function.update m.userRoles userId (changes.roles (m.userRoles userId)) := rfl

@[simp] theorem patched_ids : (m.patched userId changes).auth.users.map (·.id) = m.auth.users.map (·.id) := by
  rw [Managed.patched, map_modifyWhere]
  intro row
  rfl

@[simp] theorem created_roles : (m.created user names).roles = m.roles := rfl

@[simp] theorem created_userRoles : (m.created user names).userRoles = Function.update m.userRoles user.id names :=
  rfl

@[simp] theorem created_users : (m.created user names).auth.users = m.auth.users ++ [user] := rfl

end Fields

/-! ## Transactions -/

inductive Managing where
  | auth (l : AuthTransaction)
  | patch (credentials : Option (String × String)) (userId : Uuid) (body : UserPatch)
  /-- With the row of the caller. -/
  | patchAllowed (caller : User) (userId : Uuid) (body : UserPatch)
  | patchLoaded (loaded : User) (body : UserPatch)
  /-- The flush waits for the commit. -/
  | patching (userId : Uuid) (changes : UserChanges)
  | create (credentials : Option (String × String)) (body : UserCreate)
  | createAllowed (body : UserCreate)
  | createNamed (body : UserCreate)
  | creating (user : User) (names : List String)
  | refused (error : Quality.TraceQError)

def Managing.auth? : Managing → Option AuthTransaction
  | .auth l => some l
  | _ => none

abbrev ManagedWorld := World Managed Managing

/-- What the transactions of `api/auth.py` see. -/
abbrev authOf (w : ManagedWorld) : AuthWorld := Protocol.view Managed.auth Managing.auth? w

/-- `require_permission("MANAGE_USERS")` after `current_principal`. -/
def requireManageUsers (settings : AuthSettings) (tables : AuthTables) (credentials : Option (String × String)) :
    Except Quality.TraceQError Principal :=
  match currentPrincipal settings tables credentials tables.clock with
  | .error error => .error error
  | .ok (principal, _) =>
      if "MANAGE_USERS" ∈ principal.permissions then .ok principal
      else .error ⟨"FORBIDDEN", "Permission MANAGE_USERS is required", 403⟩

/-- `db.get(User, …)`: the row, or for the caller the one `current_principal` has read while the session still
holds it. -/
def Loads (tables : AuthTables) (caller : User) (userId : Uuid) (loaded : Option User) : Prop :=
  loaded = findUser tables.users userId ∨ caller.id = userId ∧ loaded = some caller

section Protocol
variable (settings : AuthSettings) (hashPassword : String → String)

/-- The row of a new user, under the id `uuid4` has drawn. -/
def createdUser (id : Uuid) (body : UserCreate) : User where
  id := id
  username := body.username
  passwordHash := hashPassword body.password

inductive ManagingMoves (w : ManagedWorld) (i : ℕ) : Managing → Managing → Prop where
  | auth (l l' : AuthTransaction) (h : AuthMoves settings (authOf w) i l l') :
      ManagingMoves w i (.auth l) (.auth l')
  | allowsPatch (credentials : Option (String × String)) (userId : Uuid) (body : UserPatch)
      (principal : Principal) (caller : User)
      (h : requireManageUsers settings w.committed.auth credentials = .ok principal)
      (hcaller : findUser w.committed.auth.users principal.userId = some caller) :
      ManagingMoves w i (.patch credentials userId body) (.patchAllowed caller userId body)
  | refusesPatch (credentials : Option (String × String)) (userId : Uuid) (body : UserPatch)
      (error : Quality.TraceQError)
      (h : requireManageUsers settings w.committed.auth credentials = .error error) :
      ManagingMoves w i (.patch credentials userId body) (.refused error)
  | noUser (caller : User) (userId : Uuid) (body : UserPatch)
      (hnone : Loads w.committed.auth caller userId none) :
      ManagingMoves w i (.patchAllowed caller userId body) (.refused (notFound "User"))
  | disablesSelf (caller : User) (userId : Uuid) (body : UserPatch) (loaded : User)
      (hloaded : Loads w.committed.auth caller userId (some loaded))
      (hself : loaded.id = caller.id ∧ body.enabled = some false) :
      ManagingMoves w i (.patchAllowed caller userId body)
        (.refused ⟨"CANNOT_DISABLE_SELF", "You cannot disable your own account", 409⟩)
  | loadsPatch (caller : User) (userId : Uuid) (body : UserPatch) (loaded : User)
      (hloaded : Loads w.committed.auth caller userId (some loaded))
      (hother : ¬ (loaded.id = caller.id ∧ body.enabled = some false)) :
      ManagingMoves w i (.patchAllowed caller userId body) (.patchLoaded loaded body)
  | unknownRole (loaded : User) (body : UserPatch) (error : Quality.TraceQError)
      (hroles : body.roles.mapM (knownRoles { roles := w.committed.roles }) = .error error) :
      ManagingMoves w i (.patchLoaded loaded body) (.refused error)
  | preparesPatch (loaded : User) (body : UserPatch) (roles : Option (List String))
      (hroles : body.roles.mapM (knownRoles { roles := w.committed.roles }) = .ok roles) :
      ManagingMoves w i (.patchLoaded loaded body)
        (.patching loaded.id (userChanges loaded (w.committed.userRoles loaded.id) body roles))
  | allowsCreate (credentials : Option (String × String)) (body : UserCreate) (principal : Principal)
      (h : requireManageUsers settings w.committed.auth credentials = .ok principal) :
      ManagingMoves w i (.create credentials body) (.createAllowed body)
  | refusesCreate (credentials : Option (String × String)) (body : UserCreate) (error : Quality.TraceQError)
      (h : requireManageUsers settings w.committed.auth credentials = .error error) :
      ManagingMoves w i (.create credentials body) (.refused error)
  | usernameExists (body : UserCreate) (user : User) (hmem : user ∈ w.committed.auth.users)
      (hname : user.username = body.username) :
      ManagingMoves w i (.createAllowed body)
        (.refused ⟨"USERNAME_EXISTS", "Username already exists", 409⟩)
  | usernameFree (body : UserCreate) (hfree : ∀ user ∈ w.committed.auth.users, user.username ≠ body.username) :
      ManagingMoves w i (.createAllowed body) (.createNamed body)
  | unknownRoles (body : UserCreate) (error : Quality.TraceQError)
      (hroles : knownRoles { roles := w.committed.roles } body.roles = .error error) :
      ManagingMoves w i (.createNamed body) (.refused error)
  | preparesCreate (body : UserCreate) (id : Uuid) (names : List String)
      (hroles : knownRoles { roles := w.committed.roles } body.roles = .ok names) :
      ManagingMoves w i (.createNamed body) (.creating (createdUser hashPassword id body) names)

inductive ManagingCommits (w : ManagedWorld) (i : ℕ) : Managing → Managed → Option Managing → Prop where
  | auth (l : AuthTransaction) (tables : AuthTables) (next : Option AuthTransaction)
      (h : AuthCommits settings (authOf w) i l tables next) :
      ManagingCommits w i (.auth l) { w.committed with auth := tables } (next.map .auth)
  | patches (userId : Uuid) (changes : UserChanges) (hfits : changes.Fits (w.committed.userRoles userId)) :
      ManagingCommits w i (.patching userId changes) (w.committed.patched userId changes) none
  /-- The keys of the row are free. -/
  | creates (user : User) (names : List String)
      (hkeys : ∀ row ∈ w.committed.auth.users, row.id ≠ user.id ∧ row.username ≠ user.username) :
      ManagingCommits w i (.creating user names) (w.committed.created user names) none

inductive Managing.Begins : Managing → Prop where
  | auth (l : AuthTransaction) (h : l.Begins) : Begins (.auth l)
  | patch (credentials : Option (String × String)) (userId : Uuid) (body : UserPatch) :
      Begins (.patch credentials userId body)
  | create (credentials : Option (String × String)) (body : UserCreate) : Begins (.create credentials body)

/-- A refusal and any other transaction may be rolled back. -/
def managing : Protocol Managed Managing where
  begins := Managing.Begins
  moves := ManagingMoves settings hashPassword
  commits := ManagingCommits settings
  rollsBack _ := True

end Protocol

end TraceQ.Api
