import TraceQ.Library.Results
import TraceQ.Library.Tables
import TraceQ.Persistence.Seeding

/-! # What seeding does to the permission tables

Seeding adds rows and never takes one away; every grant it adds is listed in `ROLE_PERMISSIONS`, and in the end
every listed grant is there.
-/
namespace TraceQ.Seeding
open Tables Results
set_option autoImplicit false
set_option maxHeartbeats 250000

/-! ## Reading the tables -/

section Reading
variable {t : AccessTables} {userId : Uuid}

theorem mem_permissionsForUser {name : String} : name ∈ permissionsForUser t userId ↔
    ∃ roleId, ⟨userId, roleId⟩ ∈ t.userRoles ∧ ∃ permissionId, ⟨roleId, permissionId⟩ ∈ t.rolePermissions ∧
      ⟨permissionId, name⟩ ∈ t.permissions := by
  simp only [permissionsForUser, List.mem_flatMap, List.mem_filter, decide_eq_true_eq, List.mem_map]
  constructor
  · rintro ⟨⟨_, _⟩, ⟨hown, rfl⟩, ⟨_, _⟩, ⟨hgrant, rfl⟩, ⟨_, _⟩, ⟨hrow, rfl⟩, rfl⟩
    exact ⟨_, hown, _, hgrant, hrow⟩
  · rintro ⟨roleId, hown, permissionId, hgrant, hrow⟩
    exact ⟨_, ⟨hown, rfl⟩, _, ⟨hgrant, rfl⟩, _, ⟨hrow, rfl⟩, rfl⟩

theorem mem_roleNames {name : String} : name ∈ roleNames t userId ↔
    ∃ role ∈ t.roles, ⟨userId, role.id⟩ ∈ t.userRoles ∧ role.name = name := by
  simp only [roleNames, List.mem_flatMap, List.mem_filter, decide_eq_true_eq, List.mem_map]
  constructor
  · rintro ⟨⟨_, _⟩, ⟨hown, rfl⟩, role, ⟨hrole, rfl⟩, rfl⟩
    exact ⟨role, hrole, hown, rfl⟩
  · rintro ⟨role, hrole, hown, rfl⟩
    exact ⟨_, ⟨hown, rfl⟩, role, ⟨hrole, rfl⟩, rfl⟩

theorem mem_effectivePermissions {name : String} : name ∈ effectivePermissions t userId ↔
    ∃ role ∈ t.roles, ⟨userId, role.id⟩ ∈ t.userRoles ∧ name ∈ basePermissions role.name := by
  simp only [effectivePermissions, List.mem_dedup, List.mem_flatMap, mem_roleNames]
  constructor
  · rintro ⟨_, ⟨role, hrole, hown, rfl⟩, hname⟩
    exact ⟨role, hrole, hown, hname⟩
  · rintro ⟨role, hrole, hown, hname⟩
    exact ⟨_, ⟨role, hrole, hown, rfl⟩, hname⟩

end Reading

/-! ## Adding rows -/

/-- A grant that `ROLE_PERMISSIONS` lists. -/
def Listed (t : AccessTables) (row : RolePermission) : Prop :=
  ∃ role ∈ t.roles, role.id = row.roleId ∧ ∃ permission ∈ t.permissions, permission.id = row.permissionId ∧
    permission.name ∈ basePermissions role.name

/-- What the steps before the demo users do. -/
structure Grows (t t' : AccessTables) : Prop where
  permissions : ∀ row ∈ t.permissions, row ∈ t'.permissions
  roles : ∀ row ∈ t.roles, row ∈ t'.roles
  grants : ∀ row ∈ t.rolePermissions, row ∈ t'.rolePermissions
  listed : ∀ row ∈ t'.rolePermissions, row ∈ t.rolePermissions ∨ Listed t' row
  users : t'.users = t.users
  userRoles : t'.userRoles = t.userRoles
  valid : Valid t → Valid t'

theorem Listed.mono {t t' : AccessTables} {row : RolePermission} (h : Listed t row)
    (hroles : ∀ row ∈ t.roles, row ∈ t'.roles) (hpermissions : ∀ row ∈ t.permissions, row ∈ t'.permissions) :
    Listed t' row := by
  obtain ⟨role, hrole, hid, permission, hpermission, hid', hname⟩ := h
  exact ⟨role, hroles role hrole, hid, permission, hpermissions permission hpermission, hid', hname⟩

theorem Grows.refl (t : AccessTables) : Grows t t :=
  ⟨fun _ h => h, fun _ h => h, fun _ h => h, fun _ h => .inl h, rfl, rfl, fun h => h⟩

theorem Grows.trans {t u v : AccessTables} (h : Grows t u) (h' : Grows u v) : Grows t v where
  permissions row hrow := h'.permissions row (h.permissions row hrow)
  roles row hrow := h'.roles row (h.roles row hrow)
  grants row hrow := h'.grants row (h.grants row hrow)
  listed row hrow := by
    rcases h'.listed row hrow with hold | hnew
    · rcases h.listed row hold with hold | hlisted
      · exact .inl hold
      · exact .inr (hlisted.mono h'.roles h'.permissions)
    · exact .inr hnew
  users := h'.users.trans h.users
  userRoles := h'.userRoles.trans h.userRoles
  valid hvalid := h'.valid (h.valid hvalid)

/-- A row that was there already, or one at the end. -/
theorem getOrCreate_cases {α : Type} (rows : List α) (lookup : α → Bool) (row : α) :
    (∃ found ∈ rows, lookup found = true ∧ getOrCreate rows lookup row = (rows, found, false)) ∨
      ((∀ other ∈ rows, lookup other = false) ∧ getOrCreate rows lookup row = (rows ++ [row], row, true)) := by
  unfold getOrCreate
  cases hfind : rows.find? lookup with
  | some found => exact .inl ⟨found, List.mem_of_find?_eq_some hfind, List.find?_some hfind, rfl⟩
  | none =>
    have hnone := List.find?_eq_none.mp hfind
    exact .inr ⟨fun other hother => by simpa using hnone other hother, rfl⟩

theorem getOrCreatePermission_grows (t : AccessTables) (name : String) :
    Grows t (getOrCreatePermission t name).1 ∧
      (getOrCreatePermission t name).2 ∈ (getOrCreatePermission t name).1.permissions ∧
      (getOrCreatePermission t name).2.name = name := by
  unfold getOrCreatePermission
  rcases getOrCreate_cases t.permissions (fun row => decide (row.name = name)) ⟨t.nextId, name⟩ with
    ⟨found, hfound, hname, hmade⟩ | ⟨habsent, hmade⟩
  · simp only [hmade, advance, Bool.false_eq_true, if_false]
    exact ⟨Grows.refl t, hfound, of_decide_eq_true hname⟩
  · simp only [hmade, advance, if_true]
    refine ⟨⟨fun row hrow => List.mem_append_left _ hrow, fun _ h => h, fun _ h => h, fun _ h => .inl h, rfl, rfl,
      fun hvalid => ?_⟩, List.mem_concat_self, trivial⟩
    have hids : ∀ row ∈ t.permissions, row.id ≠ t.nextId :=
      fun row hrow => (hvalid.fresh_permissions row hrow).ne
    have hnames : ∀ row ∈ t.permissions, row.name ≠ name :=
      fun row hrow => of_decide_eq_false (habsent row hrow)
    refine { hvalid with
      permission_ids := nodup_map_append hvalid.permission_ids hids
      permission_names := nodup_map_append hvalid.permission_names hnames
      role_permissions := fun row hrow => ?_
      fresh_permissions := ?_
      fresh_roles := fun row hrow => Nat.lt_succ_of_lt (hvalid.fresh_roles row hrow)
      fresh_users := fun row hrow => Nat.lt_succ_of_lt (hvalid.fresh_users row hrow) }
    · obtain ⟨hrole, permission, hpermission, hid⟩ := hvalid.role_permissions row hrow
      exact ⟨hrole, permission, List.mem_append_left _ hpermission, hid⟩
    · intro row hrow
      rcases List.mem_append.mp hrow with hold | hnew
      · exact Nat.lt_succ_of_lt (hvalid.fresh_permissions row hold)
      · rw [List.mem_singleton.mp hnew]
        exact Nat.lt_succ_self _

theorem getOrCreateRole_grows (t : AccessTables) (name : String) :
    Grows t (getOrCreateRole t name).1 ∧ (getOrCreateRole t name).2 ∈ (getOrCreateRole t name).1.roles ∧
      (getOrCreateRole t name).2.name = name := by
  unfold getOrCreateRole
  rcases getOrCreate_cases t.roles (fun row => decide (row.name = name))
    ⟨t.nextId, name, some ("TRACE-Q base role: " ++ name)⟩ with
    ⟨found, hfound, hname, hmade⟩ | ⟨habsent, hmade⟩
  · simp only [hmade, advance, Bool.false_eq_true, if_false]
    exact ⟨Grows.refl t, hfound, of_decide_eq_true hname⟩
  · simp only [hmade, advance, if_true]
    refine ⟨⟨fun _ h => h, fun row hrow => List.mem_append_left _ hrow, fun _ h => h, fun _ h => .inl h, rfl, rfl,
      fun hvalid => ?_⟩, List.mem_concat_self, trivial⟩
    have hids : ∀ row ∈ t.roles, row.id ≠ t.nextId :=
      fun row hrow => (hvalid.fresh_roles row hrow).ne
    have hnames : ∀ row ∈ t.roles, row.name ≠ name :=
      fun row hrow => of_decide_eq_false (habsent row hrow)
    have hkept : ∀ roleId, (∃ role ∈ t.roles, role.id = roleId) → ∃ role ∈ t.roles ++
        [⟨t.nextId, name, some ("TRACE-Q base role: " ++ name)⟩], role.id = roleId :=
      fun roleId ⟨role, hrole, hid⟩ => ⟨role, List.mem_append_left _ hrole, hid⟩
    refine { hvalid with
      role_ids := nodup_map_append hvalid.role_ids hids
      role_names := nodup_map_append hvalid.role_names hnames
      role_permissions := fun row hrow => ?_
      user_roles := fun row hrow => ?_
      fresh_permissions := fun row hrow => Nat.lt_succ_of_lt (hvalid.fresh_permissions row hrow)
      fresh_roles := ?_
      fresh_users := fun row hrow => Nat.lt_succ_of_lt (hvalid.fresh_users row hrow) }
    · exact ⟨hkept _ (hvalid.role_permissions row hrow).1, (hvalid.role_permissions row hrow).2⟩
    · exact ⟨(hvalid.user_roles row hrow).1, hkept _ (hvalid.user_roles row hrow).2⟩
    · intro row hrow
      rcases List.mem_append.mp hrow with hold | hnew
      · exact Nat.lt_succ_of_lt (hvalid.fresh_roles row hold)
      · rw [List.mem_singleton.mp hnew]
        exact Nat.lt_succ_self _

theorem getOrCreateRolePermission_grows {t : AccessTables} {row : RolePermission} (h : Listed t row) :
    Grows t (getOrCreateRolePermission t row) ∧ row ∈ (getOrCreateRolePermission t row).rolePermissions := by
  unfold getOrCreateRolePermission
  rcases getOrCreate_cases t.rolePermissions (fun other => decide (other = row)) row with
    ⟨found, hfound, hsame, hmade⟩ | ⟨-, hmade⟩
  · simp only [hmade]
    exact ⟨Grows.refl t, of_decide_eq_true hsame ▸ hfound⟩
  · simp only [hmade]
    refine ⟨⟨fun _ h => h, fun _ h => h, fun other hother => List.mem_append_left _ hother, fun other hother => ?_,
      rfl, rfl, fun hvalid => { hvalid with role_permissions := fun other hother => ?_ }⟩, List.mem_concat_self⟩
    · rcases List.mem_append.mp hother with hold | hnew
      · exact .inl hold
      · rw [List.mem_singleton.mp hnew]
        exact .inr h
    · rcases List.mem_append.mp hother with hold | hnew
      · exact hvalid.role_permissions other hold
      · rw [List.mem_singleton.mp hnew]
        obtain ⟨role, hrole, hid, permission, hpermission, hid', -⟩ := h
        exact ⟨⟨role, hrole, hid⟩, permission, hpermission, hid'⟩

/-! ## The base roles -/

/-- The dict of the permissions that are there. -/
def KnownPermissions (t : AccessTables) (rows : Rows) : Prop :=
  ∀ entry ∈ rows, ⟨entry.2, entry.1⟩ ∈ t.permissions

def KnownRoles (t : AccessTables) (rows : Rows) : Prop :=
  ∀ entry ∈ rows, ∃ role ∈ t.roles, role.name = entry.1 ∧ role.id = entry.2

/-- The role is there with its permissions. -/
def Granted (t : AccessTables) (entry : String × List String) : Prop :=
  ∃ role ∈ t.roles, role.name = entry.1 ∧ ∀ name ∈ entry.2, ∃ permission ∈ t.permissions,
    permission.name = name ∧ ⟨role.id, permission.id⟩ ∈ t.rolePermissions

section Base
variable {t t' : AccessTables} {rows : Rows}

theorem KnownPermissions.mono (h : KnownPermissions t rows) (hgrows : Grows t t') : KnownPermissions t' rows :=
  fun entry hentry => hgrows.permissions _ (h entry hentry)

theorem KnownRoles.mono (h : KnownRoles t rows) (hgrows : Grows t t') : KnownRoles t' rows := by
  intro entry hentry
  obtain ⟨role, hrole, hsame⟩ := h entry hentry
  exact ⟨role, hgrows.roles role hrole, hsame⟩

theorem Granted.mono {entry : String × List String} (h : Granted t entry) (hgrows : Grows t t') :
    Granted t' entry := by
  obtain ⟨role, hrole, hname, hall⟩ := h
  refine ⟨role, hgrows.roles role hrole, hname, fun name hmem => ?_⟩
  obtain ⟨permission, hpermission, hsame, hgrant⟩ := hall name hmem
  exact ⟨permission, hgrows.permissions permission hpermission, hsame, hgrows.grants _ hgrant⟩

theorem seedPermissions_grows {state : AccessTables × Rows} (h : KnownPermissions state.1 state.2)
    (names : List String) : Grows state.1 (names.foldl seedPermission state).1 ∧
      KnownPermissions (names.foldl seedPermission state).1 (names.foldl seedPermission state).2 := by
  induction names generalizing state with
  | nil => exact ⟨Grows.refl _, h⟩
  | cons name rest ih =>
    obtain ⟨hgrows, hrow, hname⟩ := getOrCreatePermission_grows state.1 name
    have hknown : KnownPermissions (seedPermission state name).1 (seedPermission state name).2 := by
      intro entry hentry
      rcases List.mem_append.mp hentry with hold | hnew
      · exact h.mono hgrows entry hold
      · rw [List.mem_singleton.mp hnew]
        have hsame : (getOrCreatePermission state.1 name).2 =
            ⟨(getOrCreatePermission state.1 name).2.id, name⟩ := Permission.ext rfl hname
        exact hsame ▸ hrow
    obtain ⟨hrest, hall⟩ := ih hknown
    exact ⟨hgrows.trans hrest, hall⟩

/-- The inner loop, over the permissions of one role. -/
theorem seedGrants_grows {role : Role} {names : List String} (hnames : ∀ name ∈ names, name ∈ basePermissions role.name)
    (hrole : role ∈ t.roles) (hknown : KnownPermissions t rows)
    (h : names.foldlM (seedGrant rows role.id) t = .ok t') :
    Grows t t' ∧ ∀ name ∈ names, ∃ permission ∈ t'.permissions, permission.name = name ∧
      ⟨role.id, permission.id⟩ ∈ t'.rolePermissions := by
  induction names generalizing t with
  | nil =>
    cases h
    exact ⟨Grows.refl _, fun name hname => by cases hname⟩
  | cons name rest ih =>
    obtain ⟨middle, hstep, hrest⟩ := foldlM_cons_ok.mp h
    unfold seedGrant at hstep
    cases hlookup : rows.lookup name with
    | none =>
      rw [hlookup] at hstep
      cases hstep
    | some permissionId =>
      rw [hlookup] at hstep
      cases hstep
      have hpermission := hknown _ (mem_of_lookup hlookup)
      have hgrant : Listed t ⟨role.id, permissionId⟩ :=
        ⟨role, hrole, rfl, _, hpermission, rfl, hnames name List.mem_cons_self⟩
      obtain ⟨hgrows, hmade⟩ := getOrCreateRolePermission_grows hgrant
      obtain ⟨hmore, hall⟩ := ih (fun other hother => hnames other (List.mem_cons_of_mem _ hother))
        (hgrows.roles role hrole) (hknown.mono hgrows) hrest
      refine ⟨hgrows.trans hmore, fun other hother => ?_⟩
      rcases List.mem_cons.mp hother with rfl | hin
      · exact ⟨_, hmore.permissions _ (hgrows.permissions _ hpermission), rfl, hmore.grants _ hmade⟩
      · exact hall other hin

theorem seedRoles_grows {entries : List (String × List String)} {permissions : Rows}
    (hlisted : ∀ entry ∈ entries, ∀ name ∈ entry.2, name ∈ basePermissions entry.1)
    {state state' : AccessTables × Rows} (hknown : KnownPermissions state.1 permissions)
    (hroles : KnownRoles state.1 state.2)
    (h : entries.foldlM (seedRole permissions) state = .ok state') :
    Grows state.1 state'.1 ∧ KnownRoles state'.1 state'.2 ∧ ∀ entry ∈ entries, Granted state'.1 entry := by
  induction entries generalizing state with
  | nil =>
    cases h
    exact ⟨Grows.refl _, hroles, fun entry hentry => by cases hentry⟩
  | cons entry rest ih =>
    obtain ⟨middle, hstep, hrest⟩ := foldlM_cons_ok.mp h
    obtain ⟨granted, hgrants, hmiddle⟩ := bind_ok.mp hstep
    obtain ⟨hgrows, hrow, hname⟩ := getOrCreateRole_grows state.1 entry.1
    obtain ⟨hmore, hall⟩ := seedGrants_grows
      (fun name hin => hname.symm ▸ hlisted entry List.mem_cons_self name hin) hrow (hknown.mono hgrows) hgrants
    cases hmiddle
    have hboth := hgrows.trans hmore
    have hmiddle : KnownRoles granted (state.2 ++ [(entry.1, (getOrCreateRole state.1 entry.1).2.id)]) := by
      intro known hmem
      rcases List.mem_append.mp hmem with hold | hnew
      · exact hroles.mono hboth known hold
      · rw [List.mem_singleton.mp hnew]
        exact ⟨_, hmore.roles _ hrow, hname, rfl⟩
    obtain ⟨hlater, hknownRoles, hgranted⟩ := ih (fun other hother => hlisted other (List.mem_cons_of_mem _ hother))
      (hknown.mono hboth) hmiddle hrest
    refine ⟨hboth.trans hlater, hknownRoles, fun other hother => ?_⟩
    rcases List.mem_cons.mp hother with rfl | hin
    · exact Granted.mono ⟨_, hmore.roles _ hrow, hname, hall⟩ hlater
    · exact hgranted other hin

end Base

theorem base_listed : ∀ entry ∈ rolePermissions, ∀ name ∈ entry.2, name ∈ basePermissions entry.1 := by
  decide +kernel

/-! ## The demo users -/

/-- The roles of a user who is given one unless he has it. -/
def RolesGiven (roleId : Uuid) (userId : Uuid) (before after : List UserRole) : Prop :=
  ∀ other, ⟨userId, other⟩ ∈ after ↔
    if ⟨userId, roleId⟩ ∈ before then ⟨userId, other⟩ ∈ before else other = roleId

def RolesKept (userId : Uuid) (before after : List UserRole) : Prop :=
  ∀ other, ⟨userId, other⟩ ∈ after ↔ (⟨userId, other⟩ : UserRole) ∈ before

/-- The roles, the permissions and the grants stay. -/
structure SameGrants (t t' : AccessTables) : Prop where
  permissions : t'.permissions = t.permissions
  roles : t'.roles = t.roles
  grants : t'.rolePermissions = t.rolePermissions

structure DemoStep (username : String) (roleId : Uuid) (t t' : AccessTables) : Prop where
  same : SameGrants t t'
  valid : Valid t'
  users : ∀ user ∈ t.users, user ∈ t'.users
  others : ∀ userId, (∀ user ∈ t'.users, user.id = userId → user.username ≠ username) →
    RolesKept userId t.userRoles t'.userRoles
  known : ∀ user ∈ t'.users, user.username ≠ username → user ∈ t.users
  given : ∀ user ∈ t'.users, user.username = username → RolesGiven roleId user.id t.userRoles t'.userRoles

section Demo
variable {hashPassword : String → String} {roles : Rows} {t t' : AccessTables}

theorem seedDemoUser_step {entry : String × Option String} (hvalid : Valid t) (hknown : KnownRoles t roles)
    (h : seedDemoUser hashPassword roles t entry = .ok t') :
    ∃ roleId, roles.lookup entry.1 = some roleId ∧ DemoStep entry.1 roleId t t' := by
  unfold seedDemoUser at h
  cases hlookup : roles.lookup entry.1 with
  | none =>
    rw [hlookup] at h
    cases h
  | some roleId =>
    obtain ⟨role, hrole, -, hroleId⟩ := hknown _ (mem_of_lookup hlookup)
    simp only [hlookup] at h
    refine ⟨roleId, rfl, ?_⟩
    cases hfind : t.users.find? fun user => decide (user.username = entry.1) with
    | none =>
      have habsent : ∀ user ∈ t.users, user.username ≠ entry.1 := by
        simpa using List.find?_eq_none.mp hfind
      have hunused : ∀ other, (⟨t.nextId, other⟩ : UserRole) ∉ t.userRoles := by
        intro other hmem
        obtain ⟨⟨user, huser, hid⟩, -⟩ := hvalid.user_roles _ hmem
        exact absurd (hvalid.fresh_users user huser) (hid ▸ lt_irrefl _)
      rw [hfind] at h
      cases h
      refine ⟨⟨rfl, rfl, rfl⟩, ?_, fun user huser => List.mem_append_left _ huser, fun userId hother other => ?_,
        fun user huser hname => ?_, fun user huser hname other => ?_⟩
      · refine { hvalid with
          usernames := nodup_map_append hvalid.usernames habsent
          user_ids := nodup_map_append hvalid.user_ids fun user huser => (hvalid.fresh_users user huser).ne
          user_roles := fun row hrow => ?_
          fresh_permissions := fun row hrow => Nat.lt_succ_of_lt (hvalid.fresh_permissions row hrow)
          fresh_roles := fun row hrow => Nat.lt_succ_of_lt (hvalid.fresh_roles row hrow)
          fresh_users := fun row hrow => ?_ }
        · rcases List.mem_append.mp hrow with hold | hnew
          · obtain ⟨⟨user, huser, hid⟩, hin⟩ := hvalid.user_roles row hold
            exact ⟨⟨user, List.mem_append_left _ huser, hid⟩, hin⟩
          · rw [List.mem_singleton.mp hnew]
            exact ⟨⟨_, List.mem_concat_self, rfl⟩, role, hrole, hroleId⟩
        · rcases List.mem_append.mp hrow with hold | hnew
          · exact Nat.lt_succ_of_lt (hvalid.fresh_users row hold)
          · rw [List.mem_singleton.mp hnew]
            exact Nat.lt_succ_self _
      · have hid : userId ≠ t.nextId := fun heq =>
          hother _ List.mem_concat_self heq.symm rfl
        rw [List.mem_append, List.mem_singleton, UserRole.mk.injEq]
        exact ⟨fun hin => hin.resolve_right fun hsame => hid hsame.1, .inl⟩
      · rcases List.mem_append.mp huser with hold | hnew
        · exact hold
        · exact absurd (by rw [List.mem_singleton.mp hnew]) hname
      · have hnew : user.id = t.nextId := by
          rcases List.mem_append.mp huser with hold | hnew
          · exact absurd hname (habsent user hold)
          · rw [List.mem_singleton.mp hnew]
        rw [hnew, if_neg (hunused roleId), List.mem_append, List.mem_singleton, UserRole.mk.injEq]
        exact ⟨fun hin => (hin.resolve_left (hunused other)).2, fun hsame => .inr ⟨rfl, hsame⟩⟩
    | some user =>
      have huser := List.mem_of_find?_eq_some hfind
      have husername : user.username = entry.1 := by simpa using List.find?_some hfind
      have hunique : ∀ other ∈ t.users, other.username = entry.1 → other = user :=
        fun other hother hname => eq_of_nodup_map hvalid.usernames hother huser (hname.trans husername.symm)
      simp only [hfind] at h
      split at h
      · rename_i hhas
        cases h
        refine ⟨⟨rfl, rfl, rfl⟩, hvalid, fun _ h => h, fun _ _ _ => Iff.rfl, fun _ h _ => h,
          fun other hother hname role => ?_⟩
        rw [hunique other hother hname, if_pos hhas]
      · rename_i hhas
        cases h
        have hrows : ∀ row : UserRole, row ∈ (t.userRoles.filter fun row => decide (row.userId ≠ user.id)) ++
            [⟨user.id, roleId⟩] ↔ (row ∈ t.userRoles ∧ row.userId ≠ user.id) ∨ row = ⟨user.id, roleId⟩ := by
          intro row
          rw [List.mem_append, List.mem_filter, decide_eq_true_eq, List.mem_singleton]
        refine ⟨⟨rfl, rfl, rfl⟩, { hvalid with user_roles := fun row hrow => ?_ }, fun _ h => h,
          fun userId hother other => ?_, fun _ h _ => h, fun other hother hname role => ?_⟩
        · rcases (hrows row).mp hrow with ⟨hold, -⟩ | rfl
          · exact hvalid.user_roles row hold
          · exact ⟨⟨user, huser, rfl⟩, role, hrole, hroleId⟩
        · have hid : userId ≠ user.id := fun heq => hother user huser heq.symm husername
          rw [hrows, UserRole.mk.injEq]
          exact ⟨fun hin => (hin.resolve_right fun hsame => hid hsame.1).1, fun hin => .inl ⟨hin, hid⟩⟩
        · rw [hunique other hother hname, if_neg hhas, hrows, UserRole.mk.injEq]
          exact ⟨fun hin => (hin.resolve_left fun hold => hold.2 rfl).2, fun hsame => .inr ⟨rfl, hsame⟩⟩

theorem SameGrants.trans {u : AccessTables} (h : SameGrants t u) (h' : SameGrants u t') : SameGrants t t' :=
  ⟨h'.permissions.trans h.permissions, h'.roles.trans h.roles, h'.grants.trans h.grants⟩

/-- Every demo user has a role of his own, and nobody else is touched. -/
theorem seedDemoUsers_meaning {entries : List (String × Option String)} (hdistinct : (entries.map (·.1)).Nodup)
    (hvalid : Valid t) (hknown : KnownRoles t roles)
    (h : entries.foldlM (seedDemoUser hashPassword roles) t = .ok t') :
    SameGrants t t' ∧ Valid t' ∧ (∀ user ∈ t.users, user ∈ t'.users) ∧ ∀ user ∈ t'.users,
      (user.username ∉ entries.map (·.1) → user ∈ t.users ∧ RolesKept user.id t.userRoles t'.userRoles) ∧
        (user.username ∈ entries.map (·.1) → ∃ roleId, roles.lookup user.username = some roleId ∧
          RolesGiven roleId user.id t.userRoles t'.userRoles) := by
  induction entries generalizing t with
  | nil =>
    cases h
    exact ⟨⟨rfl, rfl, rfl⟩, hvalid, fun _ h => h, fun user huser => ⟨fun _ => ⟨huser, fun _ => Iff.rfl⟩,
      fun hin => by cases hin⟩⟩
  | cons entry rest ih =>
    obtain ⟨middle, hstep, hrest⟩ := foldlM_cons_ok.mp h
    obtain ⟨roleId, hlookup, hdemo⟩ := seedDemoUser_step hvalid hknown hstep
    rw [List.map_cons, List.nodup_cons] at hdistinct
    have hroles : KnownRoles middle roles := by
      intro known hmem
      rw [hdemo.same.roles]
      exact hknown known hmem
    obtain ⟨hsame, hvalid', hgrow, hall⟩ := ih hdistinct.2 hdemo.valid hroles hrest
    refine ⟨hdemo.same.trans hsame, hvalid', fun user huser => hgrow user (hdemo.users user huser),
      fun user huser => ?_⟩
    obtain ⟨hkept, hgiven⟩ := hall user huser
    have hbefore : user.username ≠ entry.1 → RolesKept user.id t.userRoles middle.userRoles := by
      intro hname
      refine hdemo.others user.id fun other hother hid => ?_
      rwa [eq_of_nodup_map hvalid'.user_ids (hgrow other hother) huser hid]
    rw [List.map_cons, List.mem_cons, not_or]
    constructor
    · rintro ⟨hname, hlater⟩
      obtain ⟨hmiddle, hrows⟩ := hkept hlater
      exact ⟨hdemo.known user hmiddle hname, fun other => (hrows other).trans (hbefore hname other)⟩
    · rintro (hname | hlater)
      · obtain ⟨hmiddle, hrows⟩ := hkept (hname ▸ hdistinct.1)
        refine ⟨roleId, hname ▸ hlookup, fun other => (hrows other).trans ?_⟩
        exact hdemo.given user hmiddle hname other
      · have hname : user.username ≠ entry.1 := fun heq => hdistinct.1 (heq ▸ hlater)
        obtain ⟨roleId', hlookup', hrows⟩ := hgiven hlater
        refine ⟨roleId', hlookup', fun other => (hrows other).trans ?_⟩
        simp only [hbefore hname roleId', hbefore hname other]

end Demo

end TraceQ.Seeding
