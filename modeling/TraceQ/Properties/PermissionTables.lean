import TraceQ.Persistence.SeedingMeaning

/-! # Permissions in the tables and in the constant

Whatever was in the tables, after seeding every permission that `list_users` shows is one of the user's. The
converse needs that no earlier grant is left that `ROLE_PERMISSIONS` does not list: seeding takes none away.
-/
namespace TraceQ.Properties
open Seeding Results Tables
set_option autoImplicit false
set_option maxHeartbeats 250000

/-- The roles that seeding leaves a user: his own, unless he is a demo user without his role. -/
def rolesLeft (settings : SeedSettings) (t : AccessTables) (user : Seeding.User) : List String :=
  if settings.demoMode = true ∧ user.username ∈ (passwordFields settings).map (·.1) ∧
      user.username ∉ roleNames t user.id then [user.username]
  else roleNames t user.id

/-- Every grant to a role left to the user is of a permission that `ROLE_PERMISSIONS` lists for one of his roles. -/
def NoStaleGrant (settings : SeedSettings) (t : AccessTables) (user : Seeding.User) : Prop :=
  ∀ role ∈ t.roles, role.name ∈ rolesLeft settings t user → ∀ permission ∈ t.permissions,
    ⟨role.id, permission.id⟩ ∈ t.rolePermissions →
      ∃ name ∈ rolesLeft settings t user, permission.name ∈ basePermissions name

section Seeded
variable {hashPassword : String → String} {settings : SeedSettings} {t t' : AccessTables}

/-- What the tables are like after seeding. -/
structure Seeded (settings : SeedSettings) (t t' : AccessTables) : Prop where
  valid : Valid t'
  permissions : ∀ row ∈ t.permissions, row ∈ t'.permissions
  roles : ∀ row ∈ t.roles, row ∈ t'.roles
  users : ∀ user ∈ t.users, user ∈ t'.users
  grants : ∀ row ∈ t.rolePermissions, row ∈ t'.rolePermissions
  listed : ∀ row ∈ t'.rolePermissions, row ∈ t.rolePermissions ∨ Listed t' row
  granted : ∀ entry ∈ rolePermissions, Granted t' entry
  roleNames : ∀ user ∈ t'.users, ∀ name, name ∈ roleNames t' user.id ↔ name ∈ rolesLeft settings t user

theorem roleNames_congr {u : AccessTables} (hvalid : Valid t) (hvalid' : Valid u)
    (hroles : ∀ row ∈ t.roles, row ∈ u.roles) {userId : Uuid}
    (hkept : RolesKept userId t.userRoles u.userRoles) (name : String) :
    name ∈ roleNames u userId ↔ name ∈ roleNames t userId := by
  rw [mem_roleNames, mem_roleNames]
  constructor
  · rintro ⟨role, hrole, hown, rfl⟩
    have hbefore := (hkept role.id).mp hown
    obtain ⟨-, old, hold, hid⟩ := hvalid.user_roles _ hbefore
    have hsame := eq_of_nodup_map hvalid'.role_ids (hroles old hold) hrole hid
    exact ⟨old, hold, hsame ▸ hbefore, congrArg Role.name hsame⟩
  · rintro ⟨role, hrole, hown, rfl⟩
    exact ⟨role, hroles role hrole, (hkept role.id).mpr hown, rfl⟩

/-- A user who is given a role has it, with his others if he had it before. -/
theorem roleNames_given {u : AccessTables} (hvalid : Valid u) (hsame : u.roles = t.roles) {role : Role}
    (hrole : role ∈ u.roles) {userId : Uuid} (hgiven : RolesGiven role.id userId t.userRoles u.userRoles)
    (name : String) : name ∈ roleNames u userId ↔
      name ∈ if role.name ∈ roleNames t userId then roleNames t userId else [role.name] := by
  have hhas : role.name ∈ roleNames t userId ↔ ⟨userId, role.id⟩ ∈ t.userRoles := by
    rw [mem_roleNames, ← hsame]
    constructor
    · rintro ⟨own, hown, hrow, hname⟩
      rwa [← eq_of_nodup_map hvalid.role_names hown hrole hname]
    · exact fun hrow => ⟨role, hrole, hrow, rfl⟩
  by_cases hhad : (⟨userId, role.id⟩ : UserRole) ∈ t.userRoles
  · rw [if_pos (hhas.mpr hhad), mem_roleNames, mem_roleNames, hsame]
    refine exists_congr fun other => and_congr_right fun _ => and_congr_left fun _ => ?_
    rw [hgiven other.id, if_pos hhad]
  · rw [if_neg (mt hhas.mp hhad), mem_roleNames, List.mem_singleton]
    constructor
    · rintro ⟨other, hother, hrow, rfl⟩
      have hid := (hgiven other.id).mp hrow
      rw [if_neg hhad] at hid
      rw [eq_of_nodup_map hvalid.role_ids hother hrole hid]
    · rintro rfl
      refine ⟨role, hrole, (hgiven role.id).mpr ?_, rfl⟩
      rw [if_neg hhad]

theorem demo_names_distinct (settings : SeedSettings) : ((passwordFields settings).map (·.1)).Nodup := by
  show ["controller", "master", "technologist", "manager", "admin"].Nodup
  decide

/-- Before the demo users. -/
theorem seed_ok (h : seed hashPassword settings t = .ok t') : ∃ u roles, Grows t u ∧ KnownRoles u roles ∧
    (∀ entry ∈ rolePermissions, Granted u entry) ∧
      (if settings.demoMode then seedDemoUsers hashPassword settings roles u else pure u) = .ok t' := by
  have hnone : KnownPermissions (t, ([] : Rows)).1 (t, ([] : Rows)).2 := fun entry hentry => by cases hentry
  obtain ⟨hfirst, hknown⟩ := seedPermissions_grows hnone permissionNames
  have hlisted := base_listed
  unfold seed at h
  generalize permissionNames.foldl seedPermission (t, []) = seeded at h hfirst hknown
  revert h hlisted
  generalize rolePermissions = entries
  intro hlisted h
  obtain ⟨⟨u, roles⟩, hroles, hdemo⟩ := bind_ok.mp h
  have hnoRoles : KnownRoles (seeded.1, ([] : Rows)).1 (seeded.1, ([] : Rows)).2 :=
    fun entry hentry => by cases hentry
  have hknown' : KnownPermissions (seeded.1, ([] : Rows)).1 seeded.2 := hknown
  obtain ⟨hsecond, hknownRoles, hgranted⟩ := seedRoles_grows hlisted hknown' hnoRoles hroles
  exact ⟨u, roles, hfirst.trans hsecond, hknownRoles, hgranted, hdemo⟩

theorem seeded_of_demo {u : AccessTables} {roles : Rows} (hvalid : Valid t) (hgrows : Grows t u)
    (hknown : KnownRoles u roles) (hgranted : ∀ entry ∈ rolePermissions, Granted u entry)
    (hmode : settings.demoMode = true) (h : seedDemoUsers hashPassword settings roles u = .ok t') :
    Seeded settings t t' := by
  have hvalid' := hgrows.valid hvalid
  unfold seedDemoUsers at h
  dsimp only at h
  split at h
  · cases h
  · obtain ⟨hsame, hvalidEnd, husers, hall⟩ :=
      seedDemoUsers_meaning (demo_names_distinct settings) hvalid' hknown h
    have hroles : ∀ row ∈ t.roles, row ∈ t'.roles := by
      rw [hsame.roles]
      exact hgrows.roles
    have hpermissions : ∀ row ∈ t.permissions, row ∈ t'.permissions := by
      rw [hsame.permissions]
      exact hgrows.permissions
    refine ⟨hvalidEnd, hpermissions, hroles, fun user huser => husers user (hgrows.users.symm ▸ huser), ?_, ?_, ?_,
      fun user huser name => ?_⟩
    · rw [hsame.grants]
      exact hgrows.grants
    · rw [hsame.grants]
      intro row hrow
      refine (hgrows.listed row hrow).imp_right fun hlisted => hlisted.mono ?_ ?_
      · rw [hsame.roles]
        exact fun _ h => h
      · rw [hsame.permissions]
        exact fun _ h => h
    · unfold Granted
      rw [hsame.roles, hsame.permissions, hsame.grants]
      exact hgranted
    · obtain ⟨hkept, hgiven⟩ := hall user huser
      have hrolesKept : RolesKept user.id t.userRoles u.userRoles := fun other => by rw [hgrows.userRoles]
      have hbefore := roleNames_congr hvalid hvalid' hgrows.roles hrolesKept
      rw [rolesLeft]
      by_cases hdemoUser : user.username ∈ (passwordFields settings).map (·.1)
      · obtain ⟨roleId, hlookup, hrows⟩ := hgiven hdemoUser
        obtain ⟨role, hrole, hname, rfl⟩ := hknown _ (mem_of_lookup hlookup)
        rw [roleNames_given hvalidEnd hsame.roles (hsame.roles ▸ hrole) hrows name, hname]
        simp only [hbefore user.username]
        by_cases hhad : user.username ∈ roleNames t user.id
        · rw [if_pos hhad, if_neg fun hcase => hcase.2.2 hhad, hbefore]
        · rw [if_neg hhad, if_pos ⟨hmode, hdemoUser, hhad⟩]
      · rw [if_neg fun hcase => hdemoUser hcase.2.1, ← hbefore name]
        exact roleNames_congr hvalid' hvalidEnd (fun row hrow => hsame.roles ▸ hrow) (hkept hdemoUser).2 name

theorem seeded_of_seed (hvalid : Valid t) (h : seed hashPassword settings t = .ok t') :
    Seeded settings t t' := by
  obtain ⟨u, roles, hgrows, hknown, hgranted, hdemo⟩ := seed_ok h
  split at hdemo
  · rename_i hmode
    exact seeded_of_demo hvalid hgrows hknown hgranted hmode hdemo
  · rename_i hmode
    cases hdemo
    have hvalid' := hgrows.valid hvalid
    refine ⟨hvalid', hgrows.permissions, hgrows.roles, fun user huser => hgrows.users.symm ▸ huser, hgrows.grants,
      hgrows.listed, hgranted, fun user _ name => ?_⟩
    rw [rolesLeft, if_neg fun hcase => hmode hcase.1]
    exact roleNames_congr hvalid hvalid' hgrows.roles (fun other => by rw [hgrows.userRoles]) name

/-- What the administration shows is effective. -/
theorem effective_of_shown (h : Seeded settings t t') {userId : Uuid} {name : String}
    (hname : name ∈ effectivePermissions t' userId) : name ∈ permissionsForUser t' userId := by
  obtain ⟨role, hrole, hown, hlisted⟩ := mem_effectivePermissions.mp hname
  cases hlookup : rolePermissions.lookup role.name with
  | none =>
    rw [basePermissions, hlookup] at hlisted
    cases hlisted
  | some names =>
    rw [basePermissions, hlookup] at hlisted
    obtain ⟨base, hbase, hsame, hall⟩ := h.granted _ (mem_of_lookup hlookup)
    obtain ⟨permission, hpermission, rfl, hgrant⟩ := hall name hlisted
    have hrow : base = role := eq_of_nodup_map h.valid.role_names hbase hrole hsame
    exact mem_permissionsForUser.mpr ⟨role.id, hown, permission.id, hrow ▸ hgrant, hpermission⟩

/-- What is effective and not shown was granted before. -/
theorem shown_of_effective (hvalid : Valid t) (h : Seeded settings t t') {user : Seeding.User}
    (huser : user ∈ t'.users) (hstale : NoStaleGrant settings t user) {name : String}
    (hname : name ∈ permissionsForUser t' user.id) : name ∈ effectivePermissions t' user.id := by
  obtain ⟨roleId, hown, permissionId, hgrant, hpermission⟩ := mem_permissionsForUser.mp hname
  rcases h.listed _ hgrant with hold | hlisted
  · obtain ⟨⟨role, hrole, hid⟩, permission, hrow, hid'⟩ := hvalid.role_permissions _ hold
    simp only at hid hid'
    subst hid
    subst hid'
    have hsame := eq_of_nodup_map h.valid.permission_ids (h.permissions permission hrow) hpermission rfl
    have hleft := (h.roleNames user huser role.name).mp
      (mem_roleNames.mpr ⟨role, h.roles role hrole, hown, rfl⟩)
    obtain ⟨name, hname, hbase⟩ := hstale role hrole hleft permission hrow hold
    obtain ⟨base, hin, hrows, rfl⟩ := mem_roleNames.mp ((h.roleNames user huser name).mpr hname)
    rw [hsame] at hbase
    exact mem_effectivePermissions.mpr ⟨base, hin, hrows, hbase⟩
  · obtain ⟨role, hrole, hid, permission, hrow, hid', hbase⟩ := hlisted
    have hsame := eq_of_nodup_map h.valid.permission_ids hrow hpermission hid'
    rw [hsame] at hbase
    exact mem_effectivePermissions.mpr ⟨role, hrole, hid ▸ hown, hbase⟩

theorem no_stale_of_agree (h : Seeded settings t t') {user : Seeding.User} (huser : user ∈ t'.users)
    (hagree : ∀ name ∈ permissionsForUser t' user.id, name ∈ effectivePermissions t' user.id) :
    NoStaleGrant settings t user := by
  intro role hrole hleft permission hpermission hgrant
  obtain ⟨own, hin, hown, hname⟩ := mem_roleNames.mp ((h.roleNames user huser role.name).mpr hleft)
  have hrow := eq_of_nodup_map h.valid.role_names hin (h.roles role hrole) hname
  have heffective := mem_permissionsForUser.mpr ⟨role.id, hrow ▸ hown, permission.id,
    h.grants _ hgrant, h.permissions permission hpermission⟩
  obtain ⟨base, hbase, hown', hlisted⟩ := mem_effectivePermissions.mp (hagree _ heffective)
  exact ⟨base.name, (h.roleNames user huser base.name).mp (mem_roleNames.mpr ⟨base, hbase, hown', rfl⟩),
    hlisted⟩

end Seeded

/-- After seeding, the permissions of a user by the tables are those `list_users` shows exactly when no earlier
grant to one of the roles left to him is missing from `ROLE_PERMISSIONS`. -/
theorem permission_tables_agree_iff {hashPassword : String → String} {settings : SeedSettings}
    {t t' : AccessTables} (hvalid : Valid t) (h : seed hashPassword settings t = .ok t') {user : Seeding.User}
    (huser : user ∈ t'.users) :
    (∀ name, name ∈ permissionsForUser t' user.id ↔ name ∈ effectivePermissions t' user.id) ↔
      NoStaleGrant settings t user := by
  have hseeded := seeded_of_seed hvalid h
  constructor
  · intro hagree
    exact no_stale_of_agree hseeded huser fun name hname => (hagree name).mp hname
  · intro hstale name
    exact ⟨shown_of_effective hvalid hseeded huser hstale, effective_of_shown hseeded⟩

/-! ## Tables of an older version -/

def administrator : Seeding.User := ⟨2, "anna", "Anna", "hash", true⟩

/-- An administrator, in tables whose grants come from an older `ROLE_PERMISSIONS`. -/
def olderTables (granted : String) : AccessTables where
  permissions := [⟨0, granted⟩]
  roles := [⟨1, "admin", none⟩]
  rolePermissions := [⟨1, 0⟩]
  users := [administrator]
  userRoles := [⟨2, 1⟩]
  nextId := 3

theorem olderTables_valid (granted : String) : Valid (olderTables granted) := by
  refine ⟨?_, ?_, ?_, ?_, ?_, ?_, ?_, ?_, ?_, ?_, ?_⟩ <;> simp [olderTables, administrator]

theorem exists_of_isSome {ε α : Type} {result : Except ε α} (h : result.toOption.isSome = true) :
    ∃ value, result = .ok value := by
  cases result with
  | error e => cases h
  | ok value => exact ⟨value, rfl⟩

/-- The older version listed a permission that is listed still. -/
theorem permission_tables_agree_iff_kept : ∃ t', seed id {} (olderTables "VIEW_AUDIT") = .ok t' ∧
    ∀ name, name ∈ permissionsForUser t' 2 ↔ name ∈ effectivePermissions t' 2 := by
  obtain ⟨t', hseed⟩ := exists_of_isSome (show (seed id {} (olderTables "VIEW_AUDIT")).toOption.isSome = true by
    decide +kernel)
  have hvalid := olderTables_valid "VIEW_AUDIT"
  have huser := (seeded_of_seed hvalid hseed).users administrator List.mem_cons_self
  refine ⟨t', hseed, (permission_tables_agree_iff hvalid hseed huser).mpr ?_⟩
  intro role hrole hleft permission hpermission _
  cases List.mem_singleton.mp hrole
  cases List.mem_singleton.mp hpermission
  exact ⟨"admin", hleft, by decide⟩

/-- A permission that is listed no more stays effective. -/
theorem removed_permission_effective : ¬ ∀ (hashPassword : String → String) (settings : SeedSettings)
    (t t' : AccessTables) (user : Seeding.User), Valid t → seed hashPassword settings t = .ok t' →
    user ∈ t'.users → ∀ name, name ∈ permissionsForUser t' user.id ↔ name ∈ effectivePermissions t' user.id := by
  intro h
  obtain ⟨t', hseed⟩ := exists_of_isSome
    (show (seed id {} (olderTables "ISSUE_QC_DECISION")).toOption.isSome = true by decide +kernel)
  have hvalid := olderTables_valid "ISSUE_QC_DECISION"
  have hseeded := seeded_of_seed hvalid hseed
  have huser := hseeded.users administrator List.mem_cons_self
  have hstale := no_stale_of_agree hseeded huser
    fun name hname => (h id {} _ t' administrator hvalid hseed huser name).mp hname
  obtain ⟨name, hname, hlisted⟩ := hstale ⟨1, "admin", none⟩ List.mem_cons_self (by decide)
    ⟨0, "ISSUE_QC_DECISION"⟩ List.mem_cons_self List.mem_cons_self
  have hadmin : name = "admin" := by simpa [rolesLeft, roleNames, olderTables, administrator] using hname
  subst hadmin
  revert hlisted
  decide

end TraceQ.Properties
