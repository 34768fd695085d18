import TraceQ.Security.SessionMeaning

/-! # Tokens form chains

However logins, refreshes and logouts interleave, the refresh tokens of a session are rotated one
into the next, and a token is accepted once.
-/
namespace TraceQ.Properties
open Security Tables Transactions Relation Protocol
set_option autoImplicit false
set_option maxHeartbeats 250000

/-- In every reachable state a session has at most one unrevoked token and none once it is revoked, a
token that `refresh` accepted names the token it was answered with, the tokens of a session form one
chain, and no token was accepted twice. -/
theorem tokens_rotate (settings : AuthSettings) {start : AuthTables} (hstart : start.Fresh)
    {w : AuthWorld} (h : (sessionProtocol settings).Reachable (World.quiet start) w) :
    (∀ sessionId, ((tokensOf w.committed.tokens sessionId).filter
        fun token => token.revokedAt.isNone).length ≤ 1) ∧
      (∀ session ∈ w.committed.sessions, session.revokedAt ≠ none →
        ∀ token ∈ tokensOf w.committed.tokens session.id, token.revokedAt ≠ none) ∧
      (∀ presented time response, .refreshed presented time response ∈ w.committed.answers →
        ∃ token ∈ tokensOf w.committed.tokens response.accessToken.sessionId,
          token.tokenHash = settings.tokenHash presented ∧ token.revokedAt ≠ none ∧
          token.replacedByHash = some (settings.tokenHash response.refreshToken)) ∧
      (∀ sessionId, RotationChain (tokensOf w.committed.tokens sessionId)) ∧
      (w.committed.answers.filterMap AuthEvent.rotated?).Nodup := by
  have hsound := (sessionsHeld hstart h).shared
  refine ⟨fun id => (hsound.chains id).atMostOne, ?_, ?_, hsound.chains, hsound.once⟩
  · intro session hsession hrevoked token htoken
    have hmem : token ∈ w.committed.tokens ∧ token.sessionId = session.id := by
      simpa [tokensOf] using htoken
    have hsome := hsound.ended session hsession (Option.isSome_iff_ne_none.mpr hrevoked) token
      hmem.1 hmem.2
    exact Option.isSome_iff_ne_none.mp hsome
  · intro presented time response hevent
    obtain ⟨token, hmem, hhash, hid, hsome, hlink⟩ :=
      hsound.rotated presented time response hevent
    exact ⟨token, by simp [tokensOf, hmem, hid], hhash, Option.isSome_iff_ne_none.mp hsome, hlink⟩

/-! ## A session -/

/-- Passwords and tokens are their own hashes; an access token names user and session 7 and 1. -/
def plainAuth : AuthSettings where
  verifyPassword hash password := decide (hash = password)
  tokenHash := id
  decode _ _ := some (7, 1)

def operator : User := ⟨7, "operator", "secret", true, 0, none⟩

def plainTables : AuthTables :=
  { clock := 0, users := [operator], permissions := fun _ => ["ISSUE_QC_DECISION"] }

def firstRefresh : String := "first-0123456789-0123456789-0123456789-0123456789-0123456789-abc"

def firstIssue : Issue := ⟨1, firstRefresh, 0, 0, 0, 0⟩

/-- The operator has logged in. -/
def loggedInTables : AuthTables :=
  { plainTables with
    sessions := [firstIssue.session plainAuth operator]
    tokens := [firstIssue.record plainAuth operator]
    answers := [.loggedIn 7 0 (firstIssue.response plainAuth operator)] }

def secondRefresh : String := "second-123456789-0123456789-0123456789-0123456789-0123456789-abc"

def secondIssue : Issue := ⟨1, secondRefresh, 0, 0, 0, 0⟩

/-- The operator has refreshed the session at once. -/
def refreshedTables : AuthTables :=
  { loggedInTables with
    tokens := [(firstIssue.record plainAuth operator).rotate 0 secondRefresh,
      secondIssue.record plainAuth operator]
    answers := loggedInTables.answers ++
      [.refreshed firstRefresh 0 (secondIssue.response plainAuth operator)] }

section Runs
variable {C : AuthWorld → ℕ → AuthTransaction → Prop} (hlogin : ∀ issue t,
  C (alone t (.loginResponded operator t.clock issue)) 0 (.loginResponded operator t.clock issue))
include hlogin

theorem loggedIn_reachable : ((sessionProtocol plainAuth).restrict C).Reachable (World.quiet plainTables)
    (World.quiet loggedInTables) := by
  have hstart : ((sessionProtocol plainAuth).restrict C).Reachable (World.quiet plainTables)
    (World.quiet plainTables) := .refl
  have hrun := login_alone hstart ⟨"operator", "secret"⟩ firstIssue rfl rfl rfl
    ⟨le_rfl, le_rfl, le_rfl, le_rfl⟩ le_rfl rfl rfl (hlogin _ _)
  exact hrun

/-- The refresh takes place at the time of the login. -/
theorem refreshed_reachable (hrefresh : ∀ presented record t user (found : AuthSession),
    found.lastAuthenticatedAt = secondIssue.authenticated →
      C (alone t (.refreshResponded presented record t.clock user (some found) secondIssue)) 0
        (.refreshResponded presented record t.clock user (some found) secondIssue)) :
    ((sessionProtocol plainAuth).restrict C).Reachable (World.quiet plainTables)
      (World.quiet refreshedTables) := by
  have hrun := refresh_alone (loggedIn_reachable hlogin) firstRefresh secondIssue rfl rfl (by decide) rfl rfl
    ⟨le_rfl, le_rfl, le_rfl, le_rfl⟩ le_rfl rfl rfl rfl (hrefresh _ _ _ _ _ rfl)
  exact hrun

end Runs

/-- The token of the login is rotated into the one of the refresh. -/
theorem tokens_rotate_refreshed :
    ((tokensOf refreshedTables.tokens 1).filter fun token => token.revokedAt.isNone).length ≤ 1 ∧
      (∃ token ∈ tokensOf refreshedTables.tokens 1, token.tokenHash = firstRefresh ∧
        token.revokedAt ≠ none ∧ token.replacedByHash = some secondRefresh) ∧
      RotationChain (tokensOf refreshedTables.tokens 1) := by
  have hrun : (sessionProtocol plainAuth).Reachable (World.quiet plainTables) (World.quiet refreshedTables) :=
    reachable_of_restrict (refreshed_reachable (C := fun _ _ _ => True) (fun _ _ => trivial)
      fun _ _ _ _ _ _ => trivial)
  obtain ⟨hone, -, hrotated, hchain, -⟩ := tokens_rotate plainAuth ⟨rfl, rfl, rfl⟩ hrun
  exact ⟨hone 1, hrotated firstRefresh 0 (secondIssue.response plainAuth operator)
    (List.mem_append_right _ (List.mem_singleton.mpr rfl)), hchain 1⟩

end TraceQ.Properties
