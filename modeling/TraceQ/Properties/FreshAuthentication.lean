import TraceQ.Properties.TokenRotation

/-! # When a critical request had a fresh login

`_token_response` writes `last_authenticated_at` for a login and for a refresh alike. As long as no
refresh moves it, it is the time of the login, and an admitted request had a login within the
freshness window.
-/
namespace TraceQ.Properties
open Security Tables Transactions Relation Protocol
set_option autoImplicit false
set_option maxHeartbeats 250000

/-- The user presented the password of the session at the time. -/
def LoggedInAt (answers : List AuthEvent) (userId sessionId : Uuid) (time : Instant) : Prop :=
  ∃ response, .loggedIn userId time response ∈ answers ∧ response.accessToken.sessionId = sessionId

structure FreshlyAuthenticated (tables : AuthTables) : Prop where
  sessions : ∀ session ∈ tables.sessions,
    LoggedInAt tables.answers session.userId session.id session.lastAuthenticatedAt
  admissions : ∀ principal freshness time, .admitted principal freshness time ∈ tables.answers →
    ∃ login, LoggedInAt tables.answers principal.userId principal.sessionId login ∧
      time - minutes freshness ≤ login ∧ login ≤ time

/-- A refresh leaves the time of the last login as it is. -/
def KeepsLoginTime (_ : AuthWorld) (_ : ℕ) : AuthTransaction → Prop
  | .refreshResponded _ _ _ _ (some found) issue => issue.authenticated = found.lastAuthenticatedAt
  | _ => True

/-! ## One step -/

theorem LoggedInAt.mono {answers : List AuthEvent} {userId sessionId : Uuid} {time : Instant}
    (h : LoggedInAt answers userId sessionId time) (more : List AuthEvent) :
    LoggedInAt (answers ++ more) userId sessionId time := by
  obtain ⟨response, hmem, hid⟩ := h
  exact ⟨response, List.mem_append_left _ hmem, hid⟩

/-- The last authentication of a session is that of a login, which is over. -/
def LoginSession (tables : AuthTables) (session : AuthSession) : Prop :=
  LoggedInAt tables.answers session.userId session.id session.lastAuthenticatedAt ∧
    session.lastAuthenticatedAt ≤ tables.clock

structure FreshTables (tables : AuthTables) : Prop where
  sessions : ∀ session ∈ tables.sessions, LoginSession tables session
  admissions : ∀ principal freshness time, .admitted principal freshness time ∈ tables.answers →
    ∃ login, LoggedInAt tables.answers principal.userId principal.sessionId login ∧
      time - minutes freshness ≤ login ∧ login ≤ time

/-- A request has read a session with its login, and a login reads the clock in order. -/
def ReadsLogin (tables : AuthTables) : AuthTransaction → Prop
  | .loginResponded _ _ issue => issue.authenticated ≤ issue.finished
  | .criticalRead _ principal session => LoginSession tables session ∧
      session.id = principal.sessionId ∧ session.userId = principal.userId
  | _ => True

/-- What a commit may do without touching what was true. -/
structure Later (t u : AuthTables) : Prop where
  clock : t.clock ≤ u.clock
  answers : ∃ more, u.answers = t.answers ++ more

theorem LoggedInAt.later {t u : AuthTables} (hlater : Later t u) {userId sessionId : Uuid}
    {time : Instant} (h : LoggedInAt t.answers userId sessionId time) :
    LoggedInAt u.answers userId sessionId time := by
  obtain ⟨more, hmore⟩ := hlater.answers
  rw [hmore]
  exact h.mono more

theorem LoginSession.later {t u : AuthTables} (hlater : Later t u) {session : AuthSession}
    (h : LoginSession t session) : LoginSession u session :=
  ⟨h.1.later hlater, h.2.trans hlater.clock⟩

theorem ReadsLogin.later {t u : AuthTables} (hlater : Later t u) {l : AuthTransaction}
    (h : ReadsLogin t l) : ReadsLogin u l := by
  cases l with
  | criticalRead request principal session => exact ⟨h.1.later hlater, h.2⟩
  | loginResponded user now issue => exact h
  | _ => trivial

theorem later_commits {settings : AuthSettings} {w : AuthWorld} {i : ℕ} {l : AuthTransaction}
    {t : AuthTables} (h : AuthCommits settings w i l t none) : Later w.committed t := by
  cases h with
  | waits time htime => exact ⟨htime, [], (List.append_nil _).symm⟩
  | _ => exact ⟨le_rfl, _, rfl⟩

/-- One more answer, that admits nobody. -/
theorem FreshTables.answers {t u : AuthTables} (h : FreshTables t) (hlater : Later t u)
    {e : AuthEvent} (hanswers : u.answers = t.answers ++ [e])
    (hsessions : ∀ session ∈ u.sessions, session ∈ t.sessions ∨ LoginSession u session)
    (hadmits : ∀ principal freshness time, e = .admitted principal freshness time →
      ∃ login, LoggedInAt u.answers principal.userId principal.sessionId login ∧
        time - minutes freshness ≤ login ∧ login ≤ time) : FreshTables u := by
  refine ⟨fun session hmem => ?_, fun principal freshness time hmem => ?_⟩
  · rcases hsessions session hmem with hold | hnew
    · exact (h.sessions session hold).later hlater
    · exact hnew
  · rw [hanswers] at hmem
    rcases List.mem_append.mp hmem with hold | hlast
    · obtain ⟨login, hlogin, hwindow⟩ := h.admissions principal freshness time hold
      exact ⟨login, hlogin.later hlater, hwindow⟩
    · exact hadmits principal freshness time (List.mem_singleton.mp hlast).symm

/-- A refresh at the time of the login changes only when the session expires. -/
theorem renewed_login {settings : AuthSettings} {t u : AuthTables} {issue : Issue} (user : User)
    {read row : AuthSession} (hlater : Later t u) (h : FreshTables t)
    (hkeeps : issue.authenticated = read.lastAuthenticatedAt)
    (hrow : row ∈ issue.sessions settings user (some read) t.sessions) : LoginSession u row := by
  obtain ⟨old, hold, heq⟩ := mem_modifyWhere.mp hrow
  have hlogin := (h.sessions old hold).later hlater
  have hsame : row.lastAuthenticatedAt = old.lastAuthenticatedAt ∧ row.id = old.id ∧
      row.userId = old.userId := by
    rw [heq]
    split
    · exact ⟨by simp [Issue.renews, Projections.written, hkeeps], rfl, rfl⟩
    · exact ⟨rfl, rfl, rfl⟩
  rw [LoginSession, hsame.1, hsame.2.1, hsame.2.2]
  exact hlogin

theorem fresh_commits {settings : AuthSettings} {w : AuthWorld} {i : ℕ} {l : AuthTransaction}
    {t : AuthTables} (hfits : Fits settings w.committed l) (h : FreshTables w.committed)
    (hreads : ReadsLogin w.committed l) (hkeeps : KeepsLoginTime w i l)
    (hcommit : AuthCommits settings w i l t none) : FreshTables t := by
  have hlater := later_commits hcommit
  cases hcommit with
  | waits time htime =>
    exact ⟨fun session hmem => (h.sessions session hmem).later hlater, h.admissions⟩
  | loggedIn user now issue htime hsession htoken =>
    refine h.answers hlater rfl (fun session hmem => ?_) fun _ _ _ heq => by cases heq
    rcases List.mem_append.mp hmem with hold | hlast
    · exact .inl hold
    · obtain rfl : session = issue.session settings user := by simpa using hlast
      refine .inr ⟨⟨issue.response settings user, ?_, rfl⟩, ?_⟩
      · exact List.mem_append_right _ (List.mem_singleton.mpr rfl)
      · exact hreads.trans htime
  | refreshed presented record now user found issue htime hsession htoken =>
    obtain ⟨-, -, -, -, read, rfl, -⟩ := hfits
    exact h.answers hlater rfl (fun session hmem => .inr (renewed_login user hlater h hkeeps hmem)) fun _ _ _ heq => by cases heq
  | loggedOut presented record now found siblings hfree =>
    refine h.answers hlater rfl (fun session hmem => ?_) fun _ _ _ heq => by cases heq
    obtain ⟨-, -, -, ⟨read, rfl, -, hopen⟩, -⟩ := hfits
    have hmem' : session ∈ revokeSession (some read) now w.committed.sessions := hmem
    simp only [revokeSession, hopen, if_true] at hmem'
    obtain ⟨old, hold, heq⟩ := mem_modifyWhere.mp hmem'
    have hlogin := (h.sessions old hold).later hlater
    refine .inr ?_
    rw [heq]
    split
    · exact hlogin
    · exact hlogin
  | critical request principal session =>
    refine h.answers hlater rfl (fun session hmem => .inl hmem) fun p freshness time heq => ?_
    rcases requireCriticalPermission_cases request principal session w.committed.clock with
      ⟨error, hcase⟩ | ⟨hcase, hfresh⟩
    · rw [hcase] at heq
      cases heq
    · rw [hcase] at heq
      cases heq
      obtain ⟨⟨hlogin, htime⟩, hid, huser⟩ := hreads
      rw [hid, huser] at hlogin
      exact ⟨session.lastAuthenticatedAt, hlogin.later hlater, hfresh, htime⟩
  | _ => exact h.answers hlater rfl (fun session hmem => .inl hmem) fun _ _ _ heq => by cases heq

theorem reads_moves {settings : AuthSettings} {w : AuthWorld} {i : ℕ} {l l' : AuthTransaction}
    (h : FreshTables w.committed) (hmove : AuthMoves settings w i l l') :
    ReadsLogin w.committed l' := by
  cases hmove with
  | loginResponds user now issue htimes hfresh => exact htimes.2.2.1.trans htimes.2.2.2
  | criticalReads request principal session hprincipal =>
    obtain ⟨hmem, hid, huser, -⟩ := session_of_currentPrincipal hprincipal
    exact ⟨h.sessions session hmem, hid, huser⟩
  | _ => trivial

/-! ## Every run -/

/-- The sessions invariant with the logins. -/
abbrev LoginsHeld (settings : AuthSettings) : AuthWorld → Prop :=
  Held (fun t => TokensSound settings t ∧ FreshTables t)
    (fun t l => Fits settings t l ∧ ReadsLogin t l) Security.Apart

theorem loginsHeld_step {settings : AuthSettings} {w w' : AuthWorld} (h : LoginsHeld settings w)
    (hstep : ((sessionProtocol settings).restrict KeepsLoginTime).Step w w') :
    LoginsHeld settings w' := by
  refine held_step Security.apart_symm (fun t l _ hl => ?_) ?_ ?_ h hstep
  · have hbegins : l.Begins := hl
    obtain ⟨hfits, hapart⟩ : Fits settings t l ∧ ∀ m, Security.Apart l m := fits_begins hbegins
    refine ⟨⟨hfits, ?_⟩, hapart⟩
    cases hbegins <;> trivial
  · intro w i l l' hw running hmove
    have hmoves : AuthMoves settings w i l l' := hmove
    exact ⟨⟨fits_moves hw.shared.1 (hw.each i l running).1 hmoves, reads_moves hw.shared.2 hmoves⟩,
      apart_moves (hw.pairs i l running) hmoves⟩
  · intro w i l t l' hw running hcommit
    have hcommits : AuthCommits settings w i l t l' := hcommit.1
    have heach := hw.each i l running
    cases l' with
    | none =>
      have hsound := sound_commits hw.shared.1 heach.1 hcommits
      have hfresh := fresh_commits heach.1 hw.shared.2 heach.2 hcommit.2 hcommits
      have hfits := fits_commits (hw.pairs i l running) (fun j m hm => (hw.each j m hm).1) hcommits
      refine ⟨⟨hsound, hfresh⟩, fun j m hj hm => ⟨hfits j m hj hm, ?_⟩, fun m hm => ?_⟩
      · exact (hw.each j m hm).2.later (later_commits hcommits)
      · cases hm
    | some l' => exact (ends_commits hcommits).elim

/-- In every run in which no refresh moves the time of the last login, `last_authenticated_at` is the
time of a login of the session, and every admitted critical request had one in its window. -/
theorem admissions_fresh (settings : AuthSettings) {start : AuthTables} (hstart : start.Fresh)
    {w : AuthWorld}
    (h : ((sessionProtocol settings).restrict KeepsLoginTime).Reachable (World.quiet start) w) :
    FreshlyAuthenticated w.committed := by
  have hempty : FreshTables start := by
    constructor
    · simp [hstart.sessions]
    · simp [hstart.answers]
  have hheld := invariant (P := LoginsHeld settings) (fun _ _ hw hstep => loginsHeld_step hw hstep)
    (held_quiet ⟨tokensSound_fresh settings hstart, hempty⟩) h
  exact ⟨fun session hmem => (hheld.shared.2.sessions session hmem).1, hheld.shared.2.admissions⟩

/-! ## A decision after a login -/

def decisionRequest : CriticalRequest := ⟨some ("Bearer", "access"), "ISSUE_QC_DECISION", 30⟩

def operatorPrincipal : Principal := ⟨7, "operator", 1, ["ISSUE_QC_DECISION"]⟩

/-- The access token of the session is accepted while the session lasts. -/
theorem operator_principal {t : AuthTables} {session : AuthSession} (husers : t.users = [operator])
    (hsessions : t.sessions = [session]) (hid : session.id = 1) (huser : session.userId = 7)
    (hopen : session.revokedAt = none) (hlasts : t.clock < session.expiresAt)
    (hpermissions : t.permissions 7 = ["ISSUE_QC_DECISION"]) :
    currentPrincipal plainAuth t decisionRequest.credentials t.clock = .ok (operatorPrincipal, session) := by
  have hscheme : ¬ "Bearer".toLower ≠ "bearer" := by decide +kernel
  have hfound : findUser t.users 7 = some operator := by rw [husers]; rfl
  have hsession : findSession t.sessions 1 = some session := by simp [findSession, hsessions, hid]
  have hvalid : (!operator.enabled || decide (session.userId ≠ 7) || session.revokedAt.isSome ||
      decide (session.expiresAt ≤ t.clock)) = false := by
    simp [operator, huser, hopen, hlasts]
  unfold currentPrincipal decisionRequest
  simp only [if_neg hscheme, plainAuth, hfound, hsession, hvalid, Bool.false_eq_true, if_false]
  rw [show t.permissions operator.id = ["ISSUE_QC_DECISION"] from hpermissions]
  rfl

def tenMinutes : Instant := minutes 10

/-- Ten minutes after the login and a refresh a decision is admitted. -/
def decidedTables : AuthTables :=
  { refreshedTables with
    clock := tenMinutes
    answers := refreshedTables.answers ++ [.admitted operatorPrincipal 30 tenMinutes] }

theorem admissions_fresh_decided : FreshlyAuthenticated decidedTables := by
  have hrefreshed : ((sessionProtocol plainAuth).restrict KeepsLoginTime).Reachable (World.quiet plainTables)
      (World.quiet refreshedTables) :=
    refreshed_reachable (fun _ _ => trivial) fun _ _ _ _ _ hsame => hsame.symm
  have hwaits := waits_alone hrefreshed (show (0 : Instant) ≤ tenMinutes by decide) trivial
  have hrun := critical_alone hwaits decisionRequest
    (operator_principal rfl rfl rfl rfl rfl (by decide) rfl) trivial
  have hdecided : ({ refreshedTables with clock := tenMinutes } : AuthTables).answer
      (requireCriticalPermission decisionRequest operatorPrincipal ⟨1, 7, 0, hours 8, none⟩ tenMinutes) =
        decidedTables := by
    rw [requireCriticalPermission, if_neg (by decide), if_neg (by decide), if_neg (by decide)]
    rfl
  rw [← hdecided]
  exact admissions_fresh plainAuth ⟨rfl, rfl, rfl⟩ hrun

/-! ## A refreshed session -/

/-- An hour after the login. -/
def anHour : Instant := hours 1

def lateRefresh : String := "third-0123456789-0123456789-0123456789-0123456789-0123456789-abc"

def lateIssue : Issue := ⟨1, lateRefresh, anHour, anHour, anHour, anHour⟩

/-- The operator has refreshed the session an hour after the login. -/
def renewedTables : AuthTables :=
  { loggedInTables with
    clock := anHour
    sessions := [⟨1, 7, anHour, anHour + hours 8, none⟩]
    tokens := [(firstIssue.record plainAuth operator).rotate anHour lateRefresh,
      lateIssue.record plainAuth operator]
    answers := loggedInTables.answers ++
      [.refreshed firstRefresh anHour (lateIssue.response plainAuth operator)] }

theorem renewed_reachable : ((sessionProtocol plainAuth).restrict fun _ _ _ => True).Reachable
    (World.quiet plainTables) (World.quiet renewedTables) := by
  have hwaits := waits_alone (loggedIn_reachable (C := fun _ _ _ => True) fun _ _ => trivial)
    (show (0 : Instant) ≤ anHour by decide) trivial
  have hrefresh := refresh_alone hwaits firstRefresh lateIssue rfl rfl (by decide) rfl rfl
    ⟨le_rfl, le_rfl, le_rfl, le_rfl⟩ le_rfl rfl rfl rfl trivial
  exact hrefresh

/-- A critical request an hour after the only login is admitted. -/
theorem refresh_counts_as_login : ¬ ∀ (settings : AuthSettings) (start : AuthTables), start.Fresh →
    ∀ w, (sessionProtocol settings).Reachable (World.quiet start) w →
      FreshlyAuthenticated w.committed := by
  intro hall
  have hrun := critical_alone renewed_reachable decisionRequest
    (operator_principal rfl rfl rfl rfl rfl (by decide) rfl) trivial
  have hfresh := hall plainAuth plainTables ⟨rfl, rfl, rfl⟩ _ (reachable_of_restrict hrun)
  obtain ⟨login, ⟨response, hmem, -⟩, hwindow, -⟩ := hfresh.admissions operatorPrincipal 30 anHour
    (List.mem_append_right _ (List.mem_singleton.mpr rfl))
  have hlogin : login = 0 := by
    rcases List.mem_append.mp hmem with hold | hnew
    · rcases List.mem_cons.mp hold with heq | hrefresh
      · cases heq
        rfl
      · cases List.mem_singleton.mp hrefresh
    · cases List.mem_singleton.mp hnew
  rw [hlogin] at hwindow
  exact absurd hwindow (by decide)

end TraceQ.Properties
