import TraceQ.Api.UserAdministration

/-! # What is left to a user whose account is disabled

Every login, refresh and request reads the row of the user again. Once the account is disabled, whatever tokens
the user has, only the calls that had read the row before may still succeed, each once. The same holds of a
permission that is taken away.
-/
namespace TraceQ.Properties
open Api Security Tables Transactions Protocol
set_option autoImplicit false
set_option maxHeartbeats 250000

/-! ## Statement -/

/-- The answer lets the user in. -/
def grantsUser (userId : Uuid) : AuthEvent → Bool
  | .loggedIn user _ _ => decide (user = userId)
  | .refreshed _ _ response => decide (response.accessToken.userId = userId)
  | .admitted principal _ _ => decide (principal.userId = userId)
  | _ => false

/-- The call has read the row of the user and may still let it in. -/
def readUser (userId : Uuid) : AuthTransaction → Prop
  | .loginRead _ (some user) => user.id = userId ∧ user.enabled = true
  | .loginPassed user _ => user.id = userId
  | .loginResponded user _ _ => user.id = userId
  | .refreshChecked _ _ _ user => user.id = userId
  | .refreshResponded _ _ _ user _ _ => user.id = userId
  | .criticalRead _ principal _ => principal.userId = userId
  | _ => False

def holdsUser (userId : Uuid) : Managing → Prop
  | .auth l => readUser userId l
  | _ => False

/-- How often the user was let in. -/
def grants (userId : Uuid) (m : Managed) : ℕ := m.auth.answers.countP (grantsUser userId)

/-- The user exists, and no row of it is enabled. -/
structure Disabled (userId : Uuid) (m : Managed) : Prop where
  present : userId ∈ m.auth.users.map (·.id)
  disabled : ∀ row ∈ m.auth.users, row.id = userId → row.enabled = false

/-- The patch does not enable the user again. -/
def NotEnabling (userId : Uuid) (_ : ManagedWorld) (_ : ℕ) : Managing → Prop
  | .patching id changes => id = userId → changes.enabled ≠ some true
  | _ => True

variable {settings : AuthSettings} {hashPassword : String → String} {userId : Uuid}

/-! ## Rows of users -/

/-- What of a user the endpoints of `api/auth.py` leave as it is. -/
def standing (row : User) : Uuid × Bool := (row.id, row.enabled)

theorem standing_flushUser (read changed : User) (rows : List User) :
    (flushUser read changed rows).map standing = rows.map standing := by
  apply map_modifyWhere
  intro row
  rfl

theorem authCommits_standing {w : AuthWorld} {i : ℕ} {l : AuthTransaction} {t : AuthTables}
    {next : Option AuthTransaction} (h : AuthCommits settings w i l t next) :
    t.users.map standing = w.committed.users.map standing ∧ t.permissions = w.committed.permissions := by
  cases h with
  | denied user now => exact ⟨standing_flushUser user _ _, rfl⟩
  | loggedIn user now issue htime hsession htoken => exact ⟨standing_flushUser user _ _, rfl⟩
  | _ => exact ⟨rfl, rfl⟩

theorem disabled_iff {m : Managed} : Disabled userId m ↔
    userId ∈ (m.auth.users.map standing).map Prod.fst ∧
      ∀ row ∈ m.auth.users.map standing, row.1 = userId → row.2 = false := by
  constructor
  · intro h
    refine ⟨by simpa [standing] using h.present, ?_⟩
    simpa [standing] using h.disabled
  · rintro ⟨hpresent, hdisabled⟩
    exact ⟨by simpa [standing] using hpresent, by simpa [standing] using hdisabled⟩

/-- The commit of a patch that disables the user. -/
theorem disabled_patched {m : Managed} {changes : UserChanges} (hpresent : userId ∈ m.auth.users.map (·.id))
    (hdisables : changes.enabled = some false) : Disabled userId (m.patched userId changes) := by
  refine ⟨by rwa [patched_ids], fun row hrow hid => ?_⟩
  · obtain ⟨old, -, rfl⟩ := mem_modifyWhere.mp hrow
    by_cases hold : old.id = userId
    · simp [hold, UserChanges.apply, hdisables]
    · simp only [hold, decide_false, Bool.false_eq_true, if_false] at hid

theorem disabled_commits {w : ManagedWorld} {i : ℕ} {l : Managing} {m : Managed} {next : Option Managing}
    (h : Disabled userId w.committed) (hcommit : ManagingCommits settings w i l m next)
    (hnot : NotEnabling userId w i l) : Disabled userId m := by
  cases hcommit with
  | auth l tables next hauth =>
    have hstanding := (authCommits_standing hauth).1
    rw [disabled_iff] at h ⊢
    rw [hstanding]
    exact h
  | patches id changes hfits =>
    refine ⟨by rw [patched_ids]; exact h.present, fun row hrow hid => ?_⟩
    · obtain ⟨old, hold, rfl⟩ := mem_modifyWhere.mp hrow
      by_cases hpatched : old.id = id
      · simp only [hpatched, decide_true, if_true, UserChanges.apply] at hid ⊢
        have hwas := h.disabled old hold (hpatched.trans hid)
        have hleft := hnot hid
        cases henabled : changes.enabled with
        | none => exact hwas
        | some enabled =>
          rw [henabled] at hleft
          cases enabled with
          | false => rfl
          | true => exact absurd rfl hleft
      · simp only [hpatched, decide_false, Bool.false_eq_true, if_false] at hid ⊢
        exact h.disabled old hold hid
  | creates user names hkeys =>
    refine ⟨?_, fun row hrow hid => ?_⟩
    · rw [created_users, List.map_append]
      exact List.mem_append_left _ h.present
    · rcases List.mem_append.mp hrow with hold | hnew
      · exact h.disabled row hold hid
      · obtain ⟨other, hother, hsame⟩ := List.mem_map.mp h.present
        rw [List.mem_singleton.mp hnew] at hid
        exact absurd (hsame.trans hid.symm) (hkeys other hother).1

/-! ## Reads and answers -/

theorem currentPrincipal_user {tables : AuthTables} {credentials : Option (String × String)} {now : Instant}
    {principal : Principal} {session : AuthSession}
    (h : currentPrincipal settings tables credentials now = .ok (principal, session)) :
    ∃ user ∈ tables.users, user.id = principal.userId ∧ user.enabled = true ∧
      principal.permissions = tables.permissions user.id := by
  unfold currentPrincipal at h
  split at h
  · cases h
  · split at h
    · cases h
    · split at h
      · cases h
      · split at h
        · rename_i user session' huser hsession
          split at h
          · cases h
          · rename_i hchecked
            obtain ⟨rfl, -⟩ := Prod.mk.inj (Except.ok.inj h)
            refine ⟨user, List.mem_of_find?_eq_some huser, rfl, ?_, rfl⟩
            simp only [Bool.or_eq_true, not_or] at hchecked
            simpa using hchecked.1.1.1
        · cases h

/-- Nobody comes to hold the row of a disabled user. -/
theorem authMoves_readUser {w : AuthWorld} {i : ℕ} {l l' : AuthTransaction}
    (hdisabled : ∀ row ∈ w.committed.users, row.id = userId → row.enabled = false)
    (h : AuthMoves settings w i l l') (hread : readUser userId l') : readUser userId l := by
  cases h with
  | loginReads body =>
    cases hfind : w.committed.users.find? fun row => decide (row.username = body.username) with
    | none => rw [hfind] at hread; exact hread
    | some user =>
      rw [hfind] at hread
      have hoff := hdisabled user (List.mem_of_find?_eq_some hfind) hread.1
      rw [hread.2] at hoff
      cases hoff
  | loginLocked body user hlocked => exact hread.elim
  | loginDenied body user hopen hfails => exact hread.elim
  | loginPassed body user hopen hpasses =>
    refine ⟨hread, ?_⟩
    have henabled : user.enabled = true ∧
        settings.verifyPassword user.passwordHash body.password = true := by
      simpa [loginFails] using hpasses
    exact henabled.1
  | loginResponds user now issue htimes hfresh => exact hread
  | refreshLocks presented hfree => exact hread.elim
  | refreshMissing presented => exact hread.elim
  | refreshInvalid presented record hinvalid => exact hread.elim
  | refreshDisabled presented record hoff => exact hread.elim
  | refreshChecks presented record user hrevoked hexpires huser henabled =>
    have hoff := hdisabled user (List.mem_of_find?_eq_some huser) hread
    rw [henabled] at hoff
    cases hoff
  | refreshResponds presented record now user issue htimes hsession => exact hread
  | logoutLocks presented hfree => exact hread.elim
  | logoutReads presented record hlive => exact hread.elim
  | logoutLists presented record now found => exact hread.elim
  | criticalReads request principal session hprincipal =>
    obtain ⟨user, hmem, hid, henabled, -⟩ := currentPrincipal_user hprincipal
    have hoff := hdisabled user hmem (hid.trans hread)
    rw [henabled] at hoff
    cases hoff
  | criticalRefuses request error herror => exact hread.elim

/-- A commit of `api/auth.py` gives at most one more answer, and lets in only a user it has read. -/
theorem authCommits_answers {w : AuthWorld} {i : ℕ} {l : AuthTransaction} {t : AuthTables}
    {next : Option AuthTransaction} (h : AuthCommits settings w i l t next) :
    next = none ∧ (t.answers = w.committed.answers ∨ ∃ event, t.answers = w.committed.answers ++ [event] ∧
      ∀ id, grantsUser id event = true → readUser id l) := by
  cases h with
  | waits time htime => exact ⟨rfl, .inl rfl⟩
  | loggedIn user now issue htime hsession htoken =>
    exact ⟨rfl, .inr ⟨_, rfl, fun id hid => show user.id = id by simpa [grantsUser] using hid⟩⟩
  | refreshed presented record now user found issue htime hsession htoken =>
    refine ⟨rfl, .inr ⟨_, rfl, fun id hid => ?_⟩⟩
    have hcreated : decide (user.id = id) = true := hid
    have hsame : user.id = id := of_decide_eq_true hcreated
    exact hsame
  | critical request principal session =>
    refine ⟨rfl, .inr ⟨_, rfl, fun id hid => ?_⟩⟩
    unfold requireCriticalPermission at hid
    split at hid
    · simp [grantsUser] at hid
    · split at hid
      · simp [grantsUser] at hid
      · split at hid
        · simp [grantsUser] at hid
        · simpa [grantsUser, readUser] using hid
  | _ => exact ⟨rfl, .inr ⟨_, rfl, fun id hid => by simp [grantsUser] at hid⟩⟩

/-! ## Every run -/

theorem disabled_withdrawn : Withdrawn ((managing settings hashPassword).restrict (NotEnabling userId))
    (Disabled userId) (holdsUser userId) (grants userId) where
  begins l hl := by
    cases hl with
    | auth l hbegins => cases hbegins <;> exact not_false
    | patch credentials id body => exact not_false
    | create credentials body => exact not_false
  moves w i l l' hP hmove hholds := by
    cases hmove with
    | auth l l' hauth => exact authMoves_readUser hP.disabled hauth hholds
    | _ => exact hholds.elim
  commits w i l m next hP hcommit := by
    obtain ⟨hcommit, hnot⟩ := hcommit
    have hstill := disabled_commits hP hcommit hnot
    cases hcommit with
    | auth l tables next hauth =>
      obtain ⟨rfl, hanswers⟩ := authCommits_answers hauth
      refine ⟨hstill, by simp, ?_⟩
      rcases hanswers with hsame | ⟨event, hmore, hread⟩
      · exact .inl (congrArg (List.countP (grantsUser userId)) hsame)
      · simp only [grants, hmore, List.countP_append, List.countP_singleton]
        by_cases hgrants : grantsUser userId event = true
        · exact .inr ⟨hread userId hgrants, by simp only [hgrants, if_true]; rfl⟩
        · exact .inl (by simp only [hgrants]; rfl)
    | patches id changes hfits => exact ⟨hstill, by simp, .inl rfl⟩
    | creates user names hkeys => exact ⟨hstill, by simp, .inl rfl⟩

/-- From any state in which the account is disabled, and as long as no patch enables it again, the user is let in
at most once for each call in flight that had read its row; with none in flight, not at all. -/
theorem disabled_user_shut_out {w w' : ManagedWorld} (hdisabled : Disabled userId w.committed) {old : Finset ℕ}
    (hold : ∀ i, Holder (holdsUser userId) w i → i ∈ old)
    (hrun : ((managing settings hashPassword).restrict (NotEnabling userId)).Reachable w w') :
    grants userId w'.committed ≤ grants userId w.committed + old.card :=
  uses_le disabled_withdrawn hdisabled hold hrun

section Tests

/-- User 7 signs passports; an access token names it and session 1. -/
def signing : Managed where
  auth :=
    { clock := 5
      users := [⟨7, "inspector", "secret", true, 0, none⟩]
      permissions := fun _ => ["SIGN_PASSPORT"]
      sessions := [⟨1, 7, 0, 100, none⟩] }
  roles := [⟨"INSPECTOR", ["SIGN_PASSPORT"]⟩]
  userRoles := fun _ => ["INSPECTOR"]

def signingRequest : CriticalRequest := ⟨some ("Bearer", "token"), "SIGN_PASSPORT", 30⟩

def signingPrincipal : Principal := ⟨7, "inspector", 1, ["SIGN_PASSPORT"]⟩

def signingSettings : AuthSettings where
  verifyPassword hash password := decide (hash = password)
  tokenHash := id
  decode _ _ := some (7, 1)

/-- The request has read the user before the patch commits. -/
def signingWorld (changes : UserChanges) : ManagedWorld :=
  alone (signing.patched 7 changes) (.auth (.criticalRead signingRequest signingPrincipal ⟨1, 7, 0, 100, none⟩))

def signingAdmitted (changes : UserChanges) : Managed :=
  { signing.patched 7 changes with
    auth := (signing.patched 7 changes).auth.answer (.admitted signingPrincipal 30 5) }

theorem signing_holders {holds : Managing → Prop} {changes : UserChanges} :
    ∀ i, Holder holds (signingWorld changes) i → i ∈ ({0} : Finset ℕ) := by
  intro i hholder
  obtain ⟨l, hrunning, -⟩ := hholder
  by_contra hother
  rw [Finset.mem_singleton] at hother
  simp [signingWorld, alone, World.quiet, World.set, hother] at hrunning

/-- It is admitted all the same. -/
theorem signing_admitted {changes : UserChanges} {C : ManagedWorld → ℕ → Managing → Prop}
    (hfree : ∀ w i l, C w i (.auth l)) :
    ((managing signingSettings id).restrict C).Reachable (signingWorld changes)
      (World.quiet (signingAdmitted changes)) := by
  refine alone_commits Relation.ReflTransGen.refl ⟨?_, hfree _ _ _⟩
  exact ManagingCommits.auth _ _ none (.critical signingRequest signingPrincipal ⟨1, 7, 0, 100, none⟩)

theorem disabled_user_shut_out_but_once :
    Disabled 7 (signingWorld { enabled := some false }).committed ∧
    grants 7 (signingAdmitted { enabled := some false }) = 1 ∧
    grants 7 (signingAdmitted { enabled := some false }) ≤
      grants 7 (signingWorld { enabled := some false }).committed + ({0} : Finset ℕ).card := by
  have hdisabled : Disabled 7 (signing.patched 7 { enabled := some false }) :=
    disabled_patched (by decide) rfl
  exact ⟨hdisabled, by decide,
    disabled_user_shut_out hdisabled signing_holders (signing_admitted fun _ _ _ => trivial)⟩

end Tests

/-! ## A permission taken away -/

/-- The answer admits a request of the user that had the permission. -/
def admitsWith (userId : Uuid) (permission : String) : AuthEvent → Bool
  | .admitted principal _ _ => decide (principal.userId = userId ∧ permission ∈ principal.permissions)
  | _ => false

/-- The request has read that the user has the permission. -/
def holdsPermission (userId : Uuid) (permission : String) : Managing → Prop
  | .auth (.criticalRead _ principal _) => principal.userId = userId ∧ permission ∈ principal.permissions
  | _ => False

def admissions (userId : Uuid) (permission : String) (m : Managed) : ℕ :=
  m.auth.answers.countP (admitsWith userId permission)

/-- The user exists and no role of it grants the permission. -/
structure Deprived (userId : Uuid) (permission : String) (m : Managed) : Prop where
  present : userId ∈ m.auth.users.map (·.id)
  granted : m.auth.permissions = grantsOf m.roles m.userRoles
  deprived : permission ∉ grantsOf m.roles m.userRoles userId

/-- The patch gives the user no role that grants the permission. -/
def NotGranting (userId : Uuid) (permission : String) (w : ManagedWorld) (_ : ℕ) : Managing → Prop
  | .patching id changes => id = userId → ∀ role ∈ w.committed.roles, role.name ∈ changes.added →
      permission ∉ role.permissions
  | _ => True

variable {permission : String}

theorem mem_grantsOf {roles : List Role} {userRoles : Uuid → List String} : permission ∈ grantsOf roles userRoles userId ↔
    ∃ role ∈ roles, role.name ∈ userRoles userId ∧ permission ∈ role.permissions := by
  simp [grantsOf, permissionsOf, selectRoles, and_assoc]

theorem deprived_commits {w : ManagedWorld} {i : ℕ} {l : Managing} {m : Managed} {next : Option Managing}
    (h : Deprived userId permission w.committed) (hcommit : ManagingCommits settings w i l m next)
    (hnot : NotGranting userId permission w i l) : Deprived userId permission m := by
  cases hcommit with
  | auth l tables next hauth =>
    obtain ⟨hstanding, hpermissions⟩ := authCommits_standing hauth
    have hids := congrArg (List.map Prod.fst) hstanding
    rw [List.map_map, List.map_map] at hids
    exact ⟨by rw [show tables.users.map (·.id) = _ from hids]; exact h.present,
      hpermissions.trans h.granted, h.deprived⟩
  | patches id changes hfits =>
    refine ⟨by rw [patched_ids]; exact h.present, rfl, ?_⟩
    have hwas := h.deprived
    rw [mem_grantsOf] at hwas ⊢
    rintro ⟨role, hrole, hname, hgrants⟩
    by_cases hid : id = userId
    · subst hid
      rw [patched_userRoles, Function.update_self, UserChanges.roles, List.mem_append] at hname
      rcases hname with hkept | hadded
      · exact hwas ⟨role, hrole, (List.mem_filter.mp hkept).1, hgrants⟩
      · exact hnot rfl role hrole hadded hgrants
    · rw [patched_userRoles, Function.update_of_ne (Ne.symm hid)] at hname
      exact hwas ⟨role, hrole, hname, hgrants⟩
  | creates user names hkeys =>
    refine ⟨by rw [created_users, List.map_append]; exact List.mem_append_left _ h.present, rfl, ?_⟩
    obtain ⟨other, hother, hsame⟩ := List.mem_map.mp h.present
    have hne : userId ≠ user.id := fun heq => (hkeys other hother).1 (hsame.trans heq)
    have hwas := h.deprived
    rw [grantsOf] at hwas ⊢
    rwa [created_roles, created_userRoles, Function.update_of_ne hne]

variable (userId permission) in
/-- A commit of `api/auth.py` admits with a permission only what has read it. -/
theorem authCommits_admits {w : AuthWorld} {i : ℕ} {l : AuthTransaction} {t : AuthTables}
    {next : Option AuthTransaction} (h : AuthCommits settings w i l t next) :
    t.answers = w.committed.answers ∨ ∃ event, t.answers = w.committed.answers ++ [event] ∧
      (admitsWith userId permission event = true → holdsPermission userId permission (.auth l)) := by
  cases h with
  | waits time htime => exact .inl rfl
  | critical request principal session =>
    refine .inr ⟨_, rfl, fun hadmits => ?_⟩
    unfold requireCriticalPermission at hadmits
    split at hadmits
    · simp [admitsWith] at hadmits
    · split at hadmits
      · simp [admitsWith] at hadmits
      · split at hadmits
        · simp [admitsWith] at hadmits
        · simpa [admitsWith, holdsPermission] using hadmits
  | _ => exact .inr ⟨_, rfl, fun hadmits => by simp [admitsWith] at hadmits⟩

theorem deprived_withdrawn :
    Withdrawn ((managing settings hashPassword).restrict (NotGranting userId permission))
      (Deprived userId permission) (holdsPermission userId permission) (admissions userId permission) where
  begins l hl := by
    cases hl with
    | auth l hbegins => cases hbegins <;> exact not_false
    | patch credentials id body => exact not_false
    | create credentials body => exact not_false
  moves w i l l' hP hmove hholds := by
    cases hmove with
    | auth l l' hauth =>
      cases hauth with
      | criticalReads request principal session hprincipal =>
        -- the permissions are read in the statement that finds them gone
        obtain ⟨user, -, hid, -, hpermissions⟩ := currentPrincipal_user hprincipal
        obtain ⟨huser, hmem⟩ := hholds
        rw [hpermissions, hid, huser] at hmem
        have hgranted : w.committed.auth.permissions userId =
            grantsOf w.committed.roles w.committed.userRoles userId := congrFun hP.granted userId
        exact absurd (hgranted ▸ hmem) hP.deprived
      | _ => exact hholds.elim
    | _ => exact hholds.elim
  commits w i l m next hP hcommit := by
    obtain ⟨hcommit, hnot⟩ := hcommit
    have hstill := deprived_commits hP hcommit hnot
    cases hcommit with
    | auth l tables next hauth =>
      obtain ⟨rfl, -⟩ := authCommits_answers hauth
      refine ⟨hstill, by simp, ?_⟩
      rcases authCommits_admits userId permission hauth with hsame | ⟨event, hmore, hread⟩
      · exact .inl (congrArg (List.countP (admitsWith userId permission)) hsame)
      · simp only [admissions, hmore, List.countP_append, List.countP_singleton]
        by_cases hadmits : admitsWith userId permission event = true
        · exact .inr ⟨hread hadmits, by simp only [hadmits, if_true]; rfl⟩
        · exact .inl (by simp only [hadmits]; rfl)
    | patches id changes hfits => exact ⟨hstill, by simp, .inl rfl⟩
    | creates user names hkeys => exact ⟨hstill, by simp, .inl rfl⟩

/-- From any state in which no role of the user grants the permission, and as long as no patch gives it one that
does, requests of the user are admitted with the permission at most once for each in flight that had read it. -/
theorem revoked_permission_unused {w w' : ManagedWorld} (hdeprived : Deprived userId permission w.committed)
    {old : Finset ℕ} (hold : ∀ i, Holder (holdsPermission userId permission) w i → i ∈ old)
    (hrun : ((managing settings hashPassword).restrict (NotGranting userId permission)).Reachable w w') :
    admissions userId permission w'.committed ≤ admissions userId permission w.committed + old.card :=
  uses_le deprived_withdrawn hdeprived hold hrun

theorem revoked_permission_unused_but_once :
    Deprived 7 "SIGN_PASSPORT" (signingWorld { removed := ["INSPECTOR"] }).committed ∧
    admissions 7 "SIGN_PASSPORT" (signingAdmitted { removed := ["INSPECTOR"] }) = 1 ∧
    admissions 7 "SIGN_PASSPORT" (signingAdmitted { removed := ["INSPECTOR"] }) ≤
      admissions 7 "SIGN_PASSPORT" (signingWorld { removed := ["INSPECTOR"] }).committed + ({0} : Finset ℕ).card := by
  have hdeprived : Deprived 7 "SIGN_PASSPORT" (signing.patched 7 { removed := ["INSPECTOR"] }) :=
    ⟨by decide, rfl, by decide⟩
  exact ⟨hdeprived, by decide,
    revoked_permission_unused hdeprived signing_holders (signing_admitted fun _ _ _ => trivial)⟩

end TraceQ.Properties
