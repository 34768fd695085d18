import TraceQ.Properties.TokenRotation

/-! # When a logout ends the session

`logout` revokes the session only if the presented token is unrevoked. A token that was rotated is
answered with `logged_out` as well, and its session goes on.
-/
namespace TraceQ.Properties
open Security Tables Transactions Relation Protocol
set_option autoImplicit false
set_option maxHeartbeats 250000

def SessionRevoked (tables : AuthTables) (sessionId : Uuid) : Prop :=
  ∃ session ∈ tables.sessions, session.id = sessionId ∧ session.revokedAt ≠ none

/-- The session is revoked, and no token of it will be accepted. -/
structure Ended (settings : AuthSettings) (tables : AuthTables) (sessionId : Uuid) : Prop where
  session : SessionRevoked tables sessionId
  refresh : ∀ token ∈ tables.tokens, token.sessionId = sessionId → token.revokedAt ≠ none
  access : ∀ credentials now principal session,
    currentPrincipal settings tables credentials now = .ok (principal, session) →
      principal.sessionId ≠ sessionId

/-- A refresh of the session that was logged out. -/
def RefreshesAfter (a b : AuthEvent) : Prop :=
  ∃ presented sessionId raw time response, a = .loggedOut presented (some sessionId) ∧
    b = .refreshed raw time response ∧ response.accessToken.sessionId = sessionId

/-- Every logout with a token that was issued has ended the session of the token. -/
structure LogoutsEnd (settings : AuthSettings) (tables : AuthTables) : Prop where
  ended : ∀ presented sessionId, .loggedOut presented (some sessionId) ∈ tables.answers →
    Ended settings tables sessionId
  never : tables.answers.Pairwise fun a b => ¬ RefreshesAfter a b

/-- The token that `logout` holds was not rotated, or its session is revoked anyway. -/
def EndsSession (w : AuthWorld) (_ : ℕ) (l : AuthTransaction) : Prop :=
  ∀ presented record, l = .logoutLocked presented (some record) →
    record.replacedByHash = none ∨ SessionRevoked w.committed record.sessionId

/-! ## Revoked sessions -/

section Revoked
variable {settings : AuthSettings} {t u : AuthTables} {sessionId : Uuid}

theorem ended_of_revoked (hsound : TokensSound settings t) (h : SessionRevoked t sessionId) :
    Ended settings t sessionId := by
  obtain ⟨session, hmem, hid, hrevoked⟩ := h
  refine ⟨⟨session, hmem, hid, hrevoked⟩, fun token htoken hsession => ?_, ?_⟩
  · have hsome := hsound.ended session hmem (Option.isSome_iff_ne_none.mpr hrevoked) token htoken
      (hsession.trans hid.symm)
    exact Option.isSome_iff_ne_none.mp hsome
  · intro credentials now principal found hprincipal heq
    obtain ⟨hfound, hfoundId, -, hopen⟩ := session_of_currentPrincipal hprincipal
    have hsame := eq_of_nodup_map hsound.ids hfound hmem (hfoundId.trans (heq.trans hid.symm))
    exact hrevoked (hsame ▸ hopen)

/-- A revoked session stays revoked. -/
theorem revoked_commits {w : AuthWorld} {i : ℕ} {l : AuthTransaction}
    (hfits : Fits settings w.committed l) (h : AuthCommits settings w i l t none)
    (hrevoked : SessionRevoked w.committed sessionId) : SessionRevoked t sessionId := by
  obtain ⟨session, hmem, hid, hsome⟩ := hrevoked
  cases h with
  | loggedIn user now issue htime hsession htoken =>
    exact ⟨session, List.mem_append_left _ hmem, hid, hsome⟩
  | refreshed presented record now user found issue htime hsession htoken =>
    obtain ⟨-, -, -, -, read, rfl, -⟩ := hfits
    obtain ⟨row, hrow, hrowId, hkept⟩ :=
      renewed_of_mem settings issue user read hmem
    exact ⟨row, hrow, hrowId.trans hid, by rw [hkept]; exact hsome⟩
  | loggedOut presented record now found siblings hfree =>
    show SessionRevoked { w.committed with sessions := revokeSession found now w.committed.sessions } _
    obtain ⟨-, -, -, ⟨read, rfl, -, hopen⟩, -⟩ := hfits
    simp only [revokeSession, hopen, if_true, SessionRevoked]
    refine ⟨_, mem_modifyWhere.mpr ⟨session, hmem, rfl⟩, ?_⟩
    split
    · exact ⟨hid, by simp [AuthSession.revoke]⟩
    · exact ⟨hid, hsome⟩
  | _ => exact ⟨session, hmem, hid, hsome⟩

end Revoked

/-! ## One step -/

/-- Every answered logout has its session revoked, and no refresh of the session follows. -/
structure LoggedOut (tables : AuthTables) : Prop where
  revoked : ∀ presented sessionId, .loggedOut presented (some sessionId) ∈ tables.answers →
    SessionRevoked tables sessionId
  never : tables.answers.Pairwise fun a b => ¬ RefreshesAfter a b

theorem LoggedOut.answers {t u : AuthTables} (h : LoggedOut t) {e : AuthEvent}
    (hanswers : u.answers = t.answers ++ [e])
    (hkeeps : ∀ sessionId, SessionRevoked t sessionId → SessionRevoked u sessionId)
    (hlogout : ∀ presented sessionId, e = .loggedOut presented (some sessionId) →
      SessionRevoked u sessionId)
    (hrefresh : ∀ raw time response, e = .refreshed raw time response →
      ¬ SessionRevoked t response.accessToken.sessionId) : LoggedOut u := by
  refine ⟨fun presented sessionId hmem => ?_, ?_⟩
  · rw [hanswers] at hmem
    rcases List.mem_append.mp hmem with hold | hlast
    · exact hkeeps sessionId (h.revoked presented sessionId hold)
    · exact hlogout presented sessionId (List.mem_singleton.mp hlast).symm
  · rw [hanswers, List.pairwise_append]
    refine ⟨h.never, List.pairwise_singleton _ _, ?_⟩
    rintro a ha b hb ⟨presented, sessionId, raw, time, response, rfl, rfl, hsession⟩
    refine hrefresh raw time response (List.mem_singleton.mp hb).symm ?_
    rw [hsession]
    exact h.revoked presented sessionId ha

theorem loggedOut_commits {settings : AuthSettings} {w : AuthWorld} {i : ℕ} {l : AuthTransaction}
    {t : AuthTables} (hsound : TokensSound settings w.committed) (hfits : Fits settings w.committed l)
    (h : LoggedOut w.committed) (hends : EndsSession w i l) (hcommit : AuthCommits settings w i l t none) :
    LoggedOut t := by
  have hkeeps : ∀ sessionId, SessionRevoked w.committed sessionId → SessionRevoked t sessionId :=
    fun sessionId hrevoked => revoked_commits hfits hcommit hrevoked
  cases hcommit with
  | waits time htime => exact ⟨h.revoked, h.never⟩
  | refreshed presented record now user found issue htime hsession htoken =>
    refine h.answers rfl hkeeps (fun _ _ heq => by cases heq) fun raw time response heq => ?_
    cases heq
    obtain ⟨hmem, -, hopen, hissue, -⟩ := hfits
    rintro ⟨session, hin, hid, hrevoked⟩
    exact hrevoked (hsound.alive hmem hopen hin (hid.trans hissue))
  | loggedOutRevoked presented record hrevoked =>
    refine h.answers rfl hkeeps (fun raw sessionId heq => ?_) fun _ _ _ heq => by cases heq
    cases heq
    rcases hends presented record rfl with hunrotated | hgone
    · obtain ⟨session, hin, hid, hsome⟩ := hsound.cut record hfits.1 hrevoked hunrotated
      exact ⟨session, hin, hid, Option.isSome_iff_ne_none.mp hsome⟩
    · exact hgone
  | loggedOut presented record now found siblings hfree =>
    refine h.answers rfl hkeeps (fun raw sessionId heq => ?_) fun _ _ _ heq => by cases heq
    cases heq
    obtain ⟨session, hin, hid, hsome⟩ := (hsound.revokes (e := .loggedOut presented none)
      (u := { w.committed with
        sessions := revokeSession found now w.committed.sessions
        tokens := revokeTokens (record.tokenHash :: siblings) now w.committed.tokens
        answers := w.committed.answers ++ [.loggedOut presented none] }) hfits rfl rfl rfl rfl).2
    exact ⟨session, hin, hid, Option.isSome_iff_ne_none.mp hsome⟩
  | critical request principal session =>
    rcases requireCriticalPermission_cases request principal session w.committed.clock with
      ⟨error, heq⟩ | ⟨heq, -⟩
    · rw [heq]
      exact h.answers rfl hkeeps (fun _ _ heq => by cases heq) fun _ _ _ heq => by cases heq
    · rw [heq]
      exact h.answers rfl hkeeps (fun _ _ heq => by cases heq) fun _ _ _ heq => by cases heq
  | _ => exact h.answers rfl hkeeps (fun _ _ heq => by cases heq) fun _ _ _ heq => by cases heq

/-! ## Every run -/

/-- In every run whose logouts present no rotated token of a session that goes on, each logout with a
token that was issued ends its session for good. -/
theorem logouts_end (settings : AuthSettings) {start : AuthTables} (hstart : start.Fresh)
    {w : AuthWorld}
    (h : ((sessionProtocol settings).restrict EndsSession).Reachable (World.quiet start) w) :
    LogoutsEnd settings w.committed := by
  have hempty : LoggedOut start := by
    constructor
    · simp [hstart.answers]
    · simp [hstart.answers]
  have hrun := committed_invariant (fun _ _ hw hstep => sessionsHeld_step hw hstep)
    (fun w i l t l' hw hlogged running hcommit hends => ?_)
    (held_quiet (tokensSound_fresh settings hstart)) hempty h
  · exact ⟨fun presented sessionId hmem =>
      ended_of_revoked hrun.1.shared (hrun.2.revoked presented sessionId hmem), hrun.2.never⟩
  · have hcommits : AuthCommits settings w i l t l' := hcommit
    cases l' with
    | none => exact loggedOut_commits hw.shared (hw.each i l running) hlogged hends hcommits
    | some l' => exact (ends_commits hcommits).elim

/-! ## The token of the session -/

/-- The operator has logged out with the token of the refresh. -/
def loggedOutTables : AuthTables :=
  { refreshedTables with
    sessions := [(firstIssue.session plainAuth operator).revoke 0]
    tokens := [(firstIssue.record plainAuth operator).rotate 0 secondRefresh,
      (secondIssue.record plainAuth operator).revoke 0]
    answers := refreshedTables.answers ++ [.loggedOut secondRefresh (some 1)] }

theorem logouts_end_refreshed : LogoutsEnd plainAuth loggedOutTables := by
  have hrefreshed : ((sessionProtocol plainAuth).restrict EndsSession).Reachable (World.quiet plainTables)
      (World.quiet refreshedTables) :=
    refreshed_reachable (fun _ _ => nofun) fun _ _ _ _ _ _ => nofun
  have hrun := logout_alone hrefreshed secondRefresh rfl rfl rfl rfl nofun
  exact logouts_end plainAuth (w := World.quiet loggedOutTables) ⟨rfl, rfl, rfl⟩ hrun

/-! ## A rotated token -/

/-- A logout with the token that was rotated is answered, and the session goes on. -/
theorem logout_keeps_session : ¬ ∀ (settings : AuthSettings) (start : AuthTables), start.Fresh →
    ∀ w, (sessionProtocol settings).Reachable (World.quiet start) w →
      LogoutsEnd settings w.committed := by
  intro hall
  have hrefreshed := refreshed_reachable (C := fun _ _ _ => True) (fun _ _ => trivial)
    fun _ _ _ _ _ _ => trivial
  have hrun := logout_revoked_alone hrefreshed firstRefresh rfl rfl trivial
  have hended := hall plainAuth plainTables ⟨rfl, rfl, rfl⟩ _ (reachable_of_restrict hrun)
  obtain ⟨session, hmem, -, hrevoked⟩ := (hended.ended firstRefresh 1 (by decide)).session
  have hopen : ∀ session ∈ refreshedTables.sessions, session.revokedAt = none := by decide
  exact hrevoked (hopen session hmem)

end TraceQ.Properties
