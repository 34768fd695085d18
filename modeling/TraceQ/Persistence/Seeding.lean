import TraceQ.Persistence.Models

/-! # Seeding roles and permissions

The part of `backend/app/seed.py` that fills the permission tables and the demo users, `permissions.py`, and the two
readings of the permissions of a user: the join of `_permissions_for_user` and the constant of `list_users`.
`nextId` stands for the next fresh UUID.
-/
namespace TraceQ.Seeding
set_option autoImplicit false
set_option maxHeartbeats 250000

/-! ## Tables -/

@[ext]
structure Permission where
  id : Uuid
  name : String
deriving DecidableEq

structure Role where
  id : Uuid
  name : String
  description : Option String
deriving DecidableEq

structure RolePermission where
  roleId : Uuid
  permissionId : Uuid
deriving DecidableEq

structure User where
  id : Uuid
  username : String
  displayName : String
  passwordHash : String
  enabled : Bool
deriving DecidableEq

structure UserRole where
  userId : Uuid
  roleId : Uuid
deriving DecidableEq

structure AccessTables where
  permissions : List Permission := []
  roles : List Role := []
  rolePermissions : List RolePermission := []
  users : List User := []
  userRoles : List UserRole := []
  nextId : Uuid := 0

/-- The unique columns and the foreign keys of the tables. -/
structure Valid (t : AccessTables) : Prop where
  permission_ids : (t.permissions.map (·.id)).Nodup
  permission_names : (t.permissions.map (·.name)).Nodup
  role_ids : (t.roles.map (·.id)).Nodup
  role_names : (t.roles.map (·.name)).Nodup
  usernames : (t.users.map (·.username)).Nodup
  user_ids : (t.users.map (·.id)).Nodup
  role_permissions : ∀ row ∈ t.rolePermissions, (∃ role ∈ t.roles, role.id = row.roleId) ∧
    ∃ permission ∈ t.permissions, permission.id = row.permissionId
  user_roles : ∀ row ∈ t.userRoles, (∃ user ∈ t.users, user.id = row.userId) ∧
    ∃ role ∈ t.roles, role.id = row.roleId
  fresh_permissions : ∀ row ∈ t.permissions, row.id < t.nextId
  fresh_roles : ∀ row ∈ t.roles, row.id < t.nextId
  fresh_users : ∀ row ∈ t.users, row.id < t.nextId

/-! ## `permissions.py` -/

/-- `PERMISSIONS`. -/
def permissionNames : List String :=
  ["VIEW_PRODUCT", "VIEW_TIMELINE", "VIEW_RAW_EVENT", "VIEW_NONCONFORMANCE", "REVIEW_NONCONFORMANCE",
    "ISSUE_QC_DECISION", "REQUEST_EXTRA_INSPECTION", "VIEW_LINE", "VIEW_ANALYTICS",
    "CREATE_INVESTIGATION_NOTE", "MANAGE_ROUTES", "PROPOSE_CONTAINMENT", "APPROVE_CONTAINMENT",
    "MANAGE_USERS", "MANAGE_INTEGRATIONS", "VIEW_AUDIT", "VERIFY_INTEGRITY", "REPLAY_REBUILD",
    "RUN_DEMO_SCENARIOS", "INVALIDATE_CONTROL_DEVICE", "MANAGE_TRUST_POLICY", "ROTATE_KEYS",
    "CHANGE_CRYPTO_PROFILE", "EXPORT_EVIDENCE", "APPROVE_CRITICAL_ACTION", "RUN_BLAST_RADIUS"]

/-- `ROLE_PERMISSIONS`. -/
def rolePermissions : List (String × List String) :=
  [("controller",
      ["VIEW_PRODUCT", "VIEW_TIMELINE", "VIEW_RAW_EVENT", "VIEW_NONCONFORMANCE", "REVIEW_NONCONFORMANCE",
        "ISSUE_QC_DECISION", "REQUEST_EXTRA_INSPECTION", "VIEW_LINE", "CREATE_INVESTIGATION_NOTE",
        "APPROVE_CONTAINMENT", "INVALIDATE_CONTROL_DEVICE", "APPROVE_CRITICAL_ACTION",
        "RUN_DEMO_SCENARIOS"]),
    ("master",
      ["VIEW_PRODUCT", "VIEW_TIMELINE", "VIEW_NONCONFORMANCE", "VIEW_LINE", "VIEW_ANALYTICS",
        "CREATE_INVESTIGATION_NOTE", "RUN_DEMO_SCENARIOS"]),
    ("technologist",
      ["VIEW_PRODUCT", "VIEW_TIMELINE", "VIEW_RAW_EVENT", "VIEW_NONCONFORMANCE", "VIEW_LINE",
        "VIEW_ANALYTICS", "CREATE_INVESTIGATION_NOTE", "MANAGE_ROUTES", "PROPOSE_CONTAINMENT",
        "RUN_BLAST_RADIUS", "RUN_DEMO_SCENARIOS"]),
    ("manager",
      ["VIEW_PRODUCT", "VIEW_NONCONFORMANCE", "VIEW_LINE", "VIEW_ANALYTICS", "VIEW_AUDIT",
        "RUN_DEMO_SCENARIOS"]),
    ("admin",
      ["MANAGE_USERS", "MANAGE_INTEGRATIONS", "VIEW_AUDIT", "VERIFY_INTEGRITY", "REPLAY_REBUILD",
        "MANAGE_TRUST_POLICY", "ROTATE_KEYS", "CHANGE_CRYPTO_PROFILE", "EXPORT_EVIDENCE",
        "RUN_DEMO_SCENARIOS"])]

/-- `ROLE_PERMISSIONS.get(name, set())`. -/
def basePermissions (name : String) : List String := (rolePermissions.lookup name).getD []

/-! ## `seed` -/

inductive SeedError where
  | keyError
  | runtimeError (message : String)
deriving DecidableEq

/-- `_get_or_create`: the row, and whether it was created. -/
def getOrCreate {α : Type} (rows : List α) (lookup : α → Bool) (row : α) : List α × α × Bool :=
  match rows.find? lookup with
  | some found => (rows, found, false)
  | none => (rows ++ [row], row, true)

/-- The counter after a row that takes an id. -/
def advance (created : Bool) (nextId : Uuid) : Uuid := if created then nextId + 1 else nextId

def getOrCreatePermission (t : AccessTables) (name : String) : AccessTables × Permission :=
  let made := getOrCreate t.permissions (fun row => decide (row.name = name)) ⟨t.nextId, name⟩
  ({ t with permissions := made.1, nextId := advance made.2.2 t.nextId }, made.2.1)

def getOrCreateRole (t : AccessTables) (name : String) : AccessTables × Role :=
  let made := getOrCreate t.roles (fun row => decide (row.name = name))
    ⟨t.nextId, name, some ("TRACE-Q base role: " ++ name)⟩
  ({ t with roles := made.1, nextId := advance made.2.2 t.nextId }, made.2.1)

def getOrCreateRolePermission (t : AccessTables) (row : RolePermission) : AccessTables :=
  { t with rolePermissions := (getOrCreate t.rolePermissions (fun other => decide (other = row)) row).1 }

/-- The rows of a dict by their names. -/
abbrev Rows := List (String × Uuid)

def seedPermission (state : AccessTables × Rows) (name : String) : AccessTables × Rows :=
  let made := getOrCreatePermission state.1 name
  (made.1, state.2 ++ [(name, made.2.id)])

def seedGrant (permissions : Rows) (roleId : Uuid) (t : AccessTables) (name : String) :
    Except SeedError AccessTables :=
  match permissions.lookup name with
  | some permissionId => .ok (getOrCreateRolePermission t ⟨roleId, permissionId⟩)
  | none => .error .keyError

def seedRole (permissions : Rows) (state : AccessTables × Rows) (entry : String × List String) :
    Except SeedError (AccessTables × Rows) := do
  let made := getOrCreateRole state.1 entry.1
  let granted ← entry.2.foldlM (seedGrant permissions made.2.id) made.1
  return (granted, state.2 ++ [(entry.1, made.2.id)])

structure SeedSettings where
  demoMode : Bool := false
  demoControllerPassword : Option String := none
  demoMasterPassword : Option String := none
  demoTechnologistPassword : Option String := none
  demoManagerPassword : Option String := none
  demoAdminPassword : Option String := none

def passwordFields (settings : SeedSettings) : List (String × Option String) :=
  [("controller", settings.demoControllerPassword), ("master", settings.demoMasterPassword),
    ("technologist", settings.demoTechnologistPassword), ("manager", settings.demoManagerPassword),
    ("admin", settings.demoAdminPassword)]

def displayNames : List (String × String) :=
  [("controller", "Контролёр качества"), ("master", "Мастер участка"), ("technologist", "Технолог"),
    ("manager", "Руководитель производства"), ("admin", "Администратор")]

section Seed
variable (hashPassword : String → String)

def seedDemoUser (roles : Rows) (t : AccessTables) (entry : String × Option String) :
    Except SeedError AccessTables :=
  match roles.lookup entry.1 with
  | none => .error .keyError
  | some roleId =>
    match t.users.find? fun user => decide (user.username = entry.1) with
    | none => .ok
        { t with
          users := t.users ++ [⟨t.nextId, entry.1, (displayNames.lookup entry.1).getD "",
            hashPassword (entry.2.getD ""), true⟩]
          userRoles := t.userRoles ++ [⟨t.nextId, roleId⟩]
          nextId := t.nextId + 1 }
    | some user =>
      if ⟨user.id, roleId⟩ ∈ t.userRoles then .ok t
      else .ok
        { t with
          userRoles := (t.userRoles.filter fun row => decide (row.userId ≠ user.id)) ++
            [⟨user.id, roleId⟩] }

def seedDemoUsers (settings : SeedSettings) (roles : Rows) (t : AccessTables) :
    Except SeedError AccessTables :=
  let missing := ((passwordFields settings).filter fun field => !truthy field.2).map (·.1)
  if missing ≠ [] then .error (.runtimeError ("Missing demo passwords: " ++ ", ".intercalate missing))
  else (passwordFields settings).foldlM (seedDemoUser hashPassword roles) t

/-- `seed`; nothing is committed where it raises. -/
def seed (settings : SeedSettings) (t : AccessTables) : Except SeedError AccessTables := do
  let seeded := permissionNames.foldl seedPermission (t, [])
  let granted ← rolePermissions.foldlM (seedRole seeded.2) (seeded.1, [])
  if settings.demoMode then seedDemoUsers hashPassword settings granted.2 granted.1
  else return granted.1

end Seed

/-! ## The permissions of a user -/

/-- `_permissions_for_user`. -/
def permissionsForUser (t : AccessTables) (userId : Uuid) : List String :=
  (t.userRoles.filter fun row => decide (row.userId = userId)).flatMap fun userRole =>
    (t.rolePermissions.filter fun row => decide (row.roleId = userRole.roleId)).flatMap fun granted =>
      (t.permissions.filter fun row => decide (row.id = granted.permissionId)).map (·.name)

/-- The names of `user.roles`. -/
def roleNames (t : AccessTables) (userId : Uuid) : List String :=
  (t.userRoles.filter fun row => decide (row.userId = userId)).flatMap fun userRole =>
    (t.roles.filter fun row => decide (row.id = userRole.roleId)).map (·.name)

/-- The `effective_permissions` of `list_users`, before they are sorted. -/
def effectivePermissions (t : AccessTables) (userId : Uuid) : List String :=
  ((roleNames t userId).flatMap basePermissions).dedup

end TraceQ.Seeding
