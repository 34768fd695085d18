import TraceQ.Api.Admin
import TraceQ.Library.Results

/-! # Administrator lockout

The caller of a user endpoint is an administrator itself, and the only call that takes this from it is a patch of
its own roles: the guard against locking oneself out looks at `enabled` alone.
-/
namespace TraceQ.Properties
open Api Quality Tables Results
set_option autoImplicit false
set_option maxHeartbeats 250000

/-- An enabled user with a role that grants `MANAGE_USERS`. -/
def Manages (t : UserTables) (user : Account) : Prop :=
  user.enabled = true ∧ "MANAGE_USERS" ∈ permissionsOf t user.roles

def Administered (t : UserTables) : Prop := ∃ user ∈ t.users, Manages t user

/-- An administrator replaces its own roles by known ones without `MANAGE_USERS`, and there is no other one. -/
def LocksOut (t : UserTables) : UserCall → Prop
  | .createUser _ _ => False
  | .patchUser callerId userId body =>
      (∃ principal, managingPrincipal t callerId = .ok principal) ∧ userId = callerId ∧
        body.enabled ≠ some false ∧
        (∃ names known, body.roles = some names ∧ knownRoles t names = .ok known ∧
          "MANAGE_USERS" ∉ permissionsOf t names) ∧
        ∀ other ∈ t.users, Manages t other → other.id = callerId

theorem mem_of_findAccount {t : UserTables} {userId : Uuid} {user : Account}
    (h : findAccount t userId = some user) : user ∈ t.users ∧ user.id = userId := by
  rw [findAccount] at h
  exact ⟨List.mem_of_find?_eq_some h, by simpa using List.find?_some h⟩

theorem managingPrincipal_ok {t : UserTables} {callerId : Uuid} {principal : Account}
    (h : managingPrincipal t callerId = .ok principal) :
    findAccount t callerId = some principal ∧ Manages t principal := by
  unfold managingPrincipal at h
  cases hfind : findAccount t callerId with
  | none =>
    rw [hfind] at h
    cases h
  | some user =>
    simp only [hfind] at h
    split_ifs at h with henabled hmanages
    obtain rfl := Except.ok.inj h
    exact ⟨rfl, by simpa using henabled, hmanages⟩

theorem userOr404_ok {t : UserTables} {userId : Uuid} {user : Account} :
    userOr404 t userId = .ok user ↔ findAccount t userId = some user := by
  unfold userOr404
  cases findAccount t userId <;> simp

theorem knownRoles_ok {t : UserTables} {names roles : List String} (h : knownRoles t names = .ok roles) :
    ∀ name, name ∈ roles ↔ name ∈ names ∧ ∃ role ∈ t.roles, role.name = name := by
  unfold knownRoles at h
  split_ifs at h
  obtain rfl := Except.ok.inj h
  intro name
  simp only [selectRoles, List.mem_map, List.mem_filter, decide_eq_true_eq]
  constructor
  · rintro ⟨role, ⟨hrole, hnamed⟩, rfl⟩
    exact ⟨hnamed, role, hrole, rfl⟩
  · rintro ⟨hnamed, role, hrole, rfl⟩
    exact ⟨role, ⟨hrole, hnamed⟩, rfl⟩

/-- The stored roles grant what the requested ones do. -/
theorem manageUsers_knownRoles {t : UserTables} {names roles : List String} (h : knownRoles t names = .ok roles) :
    "MANAGE_USERS" ∈ permissionsOf t roles ↔ "MANAGE_USERS" ∈ permissionsOf t names := by
  have hnames := knownRoles_ok h
  simp only [permissionsOf, selectRoles, List.mem_flatMap, List.mem_filter, decide_eq_true_eq]
  constructor
  · rintro ⟨role, ⟨hrole, hnamed⟩, hgrants⟩
    exact ⟨role, ⟨hrole, ((hnames role.name).mp hnamed).1⟩, hgrants⟩
  · rintro ⟨role, ⟨hrole, hnamed⟩, hgrants⟩
    exact ⟨role, ⟨hrole, (hnames role.name).mpr ⟨hnamed, role, hrole, rfl⟩⟩, hgrants⟩

/-! ## What the endpoints commit -/

theorem createUser_ok {hashPassword : String → String} {t t' : UserTables} {callerId : Uuid} {body : UserCreate}
    {user : Account} (h : createUser hashPassword t callerId body = .ok (t', user)) :
    ∃ nextId, t' = { t with users := t.users ++ [user], nextId := nextId } := by
  obtain ⟨principal, -, h⟩ := bind_ok.mp h
  split_ifs at h
  obtain ⟨roles, -, h⟩ := bind_ok.mp h
  obtain ⟨rfl, rfl⟩ := Prod.mk.inj (pure_ok.mp h)
  exact ⟨_, rfl⟩

theorem patchUser_ok {t t' : UserTables} {callerId userId : Uuid} {body : UserPatch} {user : Account}
    (h : patchUser t callerId userId body = .ok (t', user)) :
    ∃ principal roles, managingPrincipal t callerId = .ok principal ∧
      ¬ (userId = callerId ∧ body.enabled = some false) ∧ body.roles.mapM (knownRoles t) = .ok roles ∧
      t' = { t with
        users := modifyWhere (fun row => decide (row.id = userId)) (patchedUser body roles) t.users } := by
  obtain ⟨principal, hprincipal, hrest⟩ := bind_ok.mp h
  obtain ⟨found, hfound, hrest⟩ := bind_ok.mp hrest
  have hid := (mem_of_findAccount (userOr404_ok.mp hfound)).2
  have hcaller := (mem_of_findAccount (managingPrincipal_ok hprincipal).1).2
  split_ifs at hrest with hself
  obtain ⟨roles, hroles, hrest⟩ := bind_ok.mp hrest
  obtain ⟨rfl, -⟩ := Prod.mk.inj (pure_ok.mp hrest)
  rw [hid, hcaller] at hself
  exact ⟨principal, roles, hprincipal, hself, hroles, by rw [hid]⟩

/-- An administrator that does not disable itself may patch its own row. -/
theorem patchUser_self {t : UserTables} {callerId : Uuid} {body : UserPatch} {principal : Account}
    {roles : Option (List String)} (hprincipal : managingPrincipal t callerId = .ok principal)
    (henabled : body.enabled ≠ some false) (hroles : body.roles.mapM (knownRoles t) = .ok roles) :
    patchUser t callerId callerId body = .ok
      ({ t with
          users := modifyWhere (fun row => decide (row.id = principal.id)) (patchedUser body roles) t.users },
        patchedUser body roles principal) := by
  have hfound := userOr404_ok.mpr (managingPrincipal_ok hprincipal).1
  have hself : ¬ (principal.id = principal.id ∧ body.enabled = some false) := fun hboth => henabled hboth.2
  refine bind_ok.mpr ⟨principal, hprincipal, bind_ok.mpr ⟨principal, hfound, ?_⟩⟩
  rw [if_neg hself]
  exact bind_ok.mpr ⟨roles, hroles, rfl⟩

/-- A patch writes the row of its user alone. -/
theorem mem_patched_other {t : UserTables} {userId : Uuid} {body : UserPatch} {roles : Option (List String)}
    {user : Account} (hother : user.id ≠ userId) :
    (user ∈ modifyWhere (fun row => decide (row.id = userId)) (patchedUser body roles) t.users ↔
      user ∈ t.users) := by
  rw [mem_modifyWhere]
  constructor
  · rintro ⟨old, hold, rfl⟩
    by_cases hid : old.id = userId
    · simp [hid, patchedUser] at hother
    · simpa [hid] using hold
  · exact fun hmem => ⟨user, hmem, by simp [hother]⟩

/-! ## One call -/

/-- A row of the caller that the patch leaves an administrator. -/
theorem manages_self {t : UserTables} {callerId : Uuid} {body : UserPatch} {principal : Account}
    {roles : Option (List String)} (hprincipal : managingPrincipal t callerId = .ok principal)
    (henabled : body.enabled ≠ some false)
    (hgrants : "MANAGE_USERS" ∈ permissionsOf t (roles.getD principal.roles)) :
    Administered { t with
      users := modifyWhere (fun row => decide (row.id = callerId)) (patchedUser body roles) t.users } := by
  obtain ⟨hfound, hmanages, -⟩ := managingPrincipal_ok hprincipal
  obtain ⟨hmem, hid⟩ := mem_of_findAccount hfound
  refine ⟨patchedUser body roles principal, mem_modifyWhere.mpr ⟨principal, hmem, by simp [hid]⟩, ?_, hgrants⟩
  cases hbody : body.enabled with
  | none => simpa [patchedUser, hbody] using hmanages
  | some value =>
    cases value with
    | true => simp [patchedUser, hbody]
    | false => exact absurd hbody henabled

/-- Patching its own row, an administrator locks everybody out or leaves one. -/
theorem patch_self_iff {t : UserTables} {callerId : Uuid} {body : UserPatch} {principal : Account}
    {roles : Option (List String)} (hprincipal : managingPrincipal t callerId = .ok principal)
    (henabled : body.enabled ≠ some false) (hroles : body.roles.mapM (knownRoles t) = .ok roles) :
    Administered { t with
        users := modifyWhere (fun row => decide (row.id = callerId)) (patchedUser body roles) t.users } ↔
      ¬ LocksOut t (.patchUser callerId callerId body) := by
  cases hnames : body.roles with
  | none =>
    rw [hnames] at hroles
    obtain rfl : none = roles := pure_ok.mp hroles
    refine iff_of_true (manages_self hprincipal henabled (managingPrincipal_ok hprincipal).2.2) ?_
    rintro ⟨-, -, -, ⟨names, known, hsome, -⟩, -⟩
    rw [hnames] at hsome
    cases hsome
  | some names =>
    rw [hnames] at hroles
    obtain ⟨known, hknown, hrest⟩ := bind_ok.mp hroles
    obtain rfl : some known = roles := pure_ok.mp hrest
    have hgrants := manageUsers_knownRoles hknown
    by_cases hnone : "MANAGE_USERS" ∈ permissionsOf t names
    · refine iff_of_true (manages_self hprincipal henabled (hgrants.mpr hnone)) ?_
      rintro ⟨-, -, -, ⟨names', known', hsome, -, hmissing⟩, -⟩
      obtain rfl := Option.some.inj (hnames.symm.trans hsome)
      exact hmissing hnone
    · constructor
      · rintro ⟨user, hmem, hmanages⟩ ⟨-, -, -, -, honly⟩
        by_cases hid : user.id = callerId
        · obtain ⟨old, -, rfl⟩ := mem_modifyWhere.mp hmem
          by_cases hold : old.id = callerId
          · simp only [hold, decide_true, if_true] at hmanages
            exact hnone (hgrants.mp hmanages.2)
          · simp only [hold, decide_false, Bool.false_eq_true, if_false] at hid
        · exact hid (honly user ((mem_patched_other hid).mp hmem) hmanages)
      · intro hspared
        by_contra hlocked
        refine hspared ⟨⟨principal, hprincipal⟩, rfl, henabled, ⟨names, known, hnames, hknown, hnone⟩, ?_⟩
        intro other hother hmanages
        by_contra hid
        exact hlocked ⟨other, (mem_patched_other hid).mpr hother, hmanages⟩

section Call
variable {hashPassword : String → String} {t : UserTables}

/-- A call keeps an administrator exactly if it does not lock everybody out. -/
theorem execUser_administered_iff (h : Administered t) (call : UserCall) :
    Administered (execUser hashPassword t call).1 ↔ ¬ LocksOut t call := by
  cases call with
  | createUser callerId body =>
    refine iff_of_true ?_ id
    simp only [execUser]
    cases hcreate : createUser hashPassword t callerId body with
    | error e => exact h
    | ok result =>
      obtain ⟨committed, user⟩ := result
      obtain ⟨nextId, rfl⟩ := createUser_ok hcreate
      obtain ⟨admin, hmem, hmanages⟩ := h
      exact ⟨admin, List.mem_append_left _ hmem, hmanages⟩
  | patchUser callerId userId body =>
    simp only [execUser]
    cases hpatch : patchUser t callerId userId body with
    | ok result =>
      obtain ⟨committed, user⟩ := result
      obtain ⟨principal, roles, hprincipal, hself, hroles, rfl⟩ := patchUser_ok hpatch
      by_cases hown : userId = callerId
      · subst hown
        exact patch_self_iff hprincipal (fun hdisable => hself ⟨rfl, hdisable⟩) hroles
      · -- the caller keeps its row
        obtain ⟨hfound, hmanages⟩ := managingPrincipal_ok hprincipal
        obtain ⟨hmem, hid⟩ := mem_of_findAccount hfound
        have hkept : principal.id ≠ userId := fun heq => hown (heq.symm.trans hid)
        exact iff_of_true ⟨principal, (mem_patched_other hkept).mpr hmem, hmanages⟩ fun hlocks => hown hlocks.2.1
    | error e =>
      refine iff_of_true h ?_
      rintro ⟨⟨principal, hprincipal⟩, rfl, henabled, ⟨names, known, hnames, hknown, -⟩, -⟩
      have hroles : body.roles.mapM (knownRoles t) = .ok (some known) := by
        rw [hnames]
        exact bind_ok.mpr ⟨known, hknown, rfl⟩
      rw [patchUser_self hprincipal henabled hroles] at hpatch
      cases hpatch

end Call

/-! ## Runs -/

/-- As long as no administrator, being the only one, takes the permission from its own roles, there is one. -/
theorem no_admin_lockout (hashPassword : String → String) {t : UserTables} (h : Administered t)
    {calls : List UserCall}
    (hspares : Machine.Meets (execUser hashPassword) (fun t call => ¬ LocksOut t call) t calls) :
    Administered (Machine.run (execUser hashPassword) t calls) := by
  have hstep : ∀ s call, Administered s → ¬ LocksOut s call →
      Administered (execUser hashPassword s call).1 :=
    fun _ call hadmin hspared => (execUser_administered_iff hadmin call).mpr hspared
  exact Machine.meets_invariant hstep h hspares

/-! ### The only administrator -/

def oneAdministrator : UserTables where
  roles := [⟨"administrator", ["MANAGE_USERS"]⟩, ⟨"operator", []⟩]
  users :=
    [{ id := 1, username := "admin", passwordHash := "", displayName := "Admin", roles := ["administrator"] }]
  nextId := 2

theorem oneAdministrator_administered : Administered oneAdministrator :=
  ⟨_, List.mem_cons_self, rfl, by decide⟩

def deputy : UserCreate where
  username := "deputy"
  displayName := "Deputy"
  password := "correct horse"
  roles := ["administrator"]

/-- The administrator creates a second one and becomes an operator. -/
theorem no_admin_lockout_handed_over : Administered (Machine.run (execUser id) oneAdministrator
    [.createUser 1 deputy, .patchUser 1 1 { roles := some ["operator"] }]) := by
  refine no_admin_lockout id oneAdministrator_administered ?_
  rw [Machine.Meets, Machine.Meets, Machine.Meets]
  refine ⟨id, ?_, trivial⟩
  rintro ⟨-, -, -, -, honly⟩
  obtain ⟨other, hother, hmanages, hid⟩ :
      ∃ user ∈ (execUser id oneAdministrator (.createUser 1 deputy)).1.users,
        (user.enabled = true ∧ "MANAGE_USERS" ∈
          permissionsOf (execUser id oneAdministrator (.createUser 1 deputy)).1 user.roles) ∧ user.id = 2 := by
    decide +kernel
  have hone := honly other hother hmanages
  rw [hid] at hone
  cases hone

/-- One call without any role for the caller. -/
theorem admin_lockout : ¬ ∀ (hashPassword : String → String) (t : UserTables) (calls : List UserCall),
    Administered t → Administered (Machine.run (execUser hashPassword) t calls) := by
  intro h
  obtain ⟨user, hmem, hmanages⟩ := h id oneAdministrator [.patchUser 1 1 { roles := some [] }]
    oneAdministrator_administered
  have hnone : ∀ user ∈ (Machine.run (execUser id) oneAdministrator
      [.patchUser 1 1 { roles := some [] }]).users, user.roles = [] := by decide +kernel
  have hgrants := hmanages.2
  rw [hnone user hmem] at hgrants
  exact absurd hgrants (by simp [permissionsOf, selectRoles])

end TraceQ.Properties
