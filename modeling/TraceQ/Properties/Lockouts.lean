import TraceQ.Library.Lockout
import TraceQ.Properties.TokenRotation

/-! # What the lockout bounds

A failed login counts on the row it has read, and a success starts the count again. Where the logins of
a user come one after the other, the account is locked as the policy says, and a quarter of an hour
without a success sees at most five wrong passwords.
-/
namespace TraceQ.Properties
open Security Tables Transactions Relation Protocol Lockout Projections
set_option autoImplicit false
set_option maxHeartbeats 250000

/-! ## The attempts on an account -/

def AuthEvent.attempt? (userId : Uuid) : AuthEvent → Option Attempt
  | .loggedIn id time _ => if id = userId then some (.passed time) else none
  | .denied id time locks => if id = some userId then some (.failed time locks) else none
  | _ => none

/-- The evaluated logins of the user in the order they were answered. -/
def attemptsOf (answers : List AuthEvent) (userId : Uuid) : List Attempt :=
  answers.filterMap (AuthEvent.attempt? userId)

def User.account (user : User) : Account := ⟨user.failedLoginAttempts, user.lockedUntil⟩

/-- The attempts of each user lead to the columns of its row, and respect the window. -/
structure LockoutHolds (tables : AuthTables) (user : User) : Prop where
  window : ∀ start,
    (∀ time, .passed time ∈ attemptsOf tables.answers user.id →
      time < start ∨ start + minutes 15 ≤ time) →
    (attemptsOf tables.answers user.id).countP (Attempt.failsIn start (start + minutes 15)) ≤ 5
  fifth : ∀ front time locks rest,
    attemptsOf tables.answers user.id = front ++ .failed time locks :: rest →
    locks = if sinceReset front + 1 = 5 then some (time + minutes 15) else none
  row : Explains 5 (minutes 15) ⟨0, none⟩ (attemptsOf tables.answers user.id) (User.account user)

/-- Nobody has tried to log in yet. -/
structure Untried (tables : AuthTables) : Prop where
  ids : (tables.users.map User.id).Nodup
  accounts : ∀ user ∈ tables.users, User.account user = ⟨0, none⟩
  answers : tables.answers = []

/-- No other login has read the row of the user. -/
def OneLogin (w : AuthWorld) (i : ℕ) (l : AuthTransaction) : Prop :=
  ∀ user, l.loginUser = some user →
    w.Others i fun m => ∀ other, m.loginUser = some other → other.id ≠ user.id

/-! ## Rows of users -/

theorem account_fails (user : User) (now : Instant) :
    User.account (user.fails now) = (User.account user).after 5 (minutes 15) (.failed now (user.locks now)) := by
  unfold User.fails
  by_cases hreached : user.failedLoginAttempts + 1 ≥ 5
  · rw [if_pos hreached, after_reached hreached]
    rfl
  · rw [if_neg hreached, after_counts hreached]
    rfl

/-- The row that was read is replaced by the account that was computed. -/
theorem account_flushes (read changed : User) :
    User.account (read.flushes changed read) = User.account changed := by
  unfold User.account User.flushes
  simp only [written_self]

theorem mem_flushUser {read changed row : User} {rows : List User} (hids : (rows.map User.id).Nodup)
    (hread : read ∈ rows) (h : row ∈ flushUser read changed rows) :
    row = read.flushes changed read ∨ row ∈ rows ∧ row.id ≠ read.id := by
  obtain ⟨old, hold, rfl⟩ := mem_modifyWhere.mp h
  by_cases hsame : old.id = read.id
  · obtain rfl : old = read := eq_of_nodup_map hids hold hread hsame
    exact .inl (by simp)
  · simp only [hsame, decide_false, Bool.false_eq_true, if_false]
    exact .inr ⟨hold, hsame⟩

theorem mem_flushUser_other {read changed row : User} {rows : List User} (h : row ∈ rows)
    (hne : row.id ≠ read.id) : row ∈ flushUser read changed rows := by
  have hkeeps : ∀ old : User, old.id = read.id → (read.flushes changed old).id = read.id :=
    fun _ h => h
  exact (mem_modifyWhere_other hkeeps hne).mpr h

@[simp] theorem map_id_flushUser (read changed : User) (rows : List User) :
    (flushUser read changed rows).map User.id = rows.map User.id :=
  map_modifyWhere (f := read.flushes changed) (fun _ => rfl) rows

/-! ## The invariant -/

/-- The log of the user explains the row, in the order of the clock. -/
structure Logged (tables : AuthTables) (user : User) : Prop where
  row : Explains 5 (minutes 15) ⟨0, none⟩ (attemptsOf tables.answers user.id) (User.account user)
  sorted : (attemptsOf tables.answers user.id).Pairwise fun x y => x.time ≤ y.time
  clock : ∀ attempt ∈ attemptsOf tables.answers user.id, attempt.time ≤ tables.clock

structure Counted (tables : AuthTables) : Prop where
  ids : (tables.users.map User.id).Nodup
  logged : ∀ user ∈ tables.users, Logged tables user

/-- The row that a login has read is unchanged; a decided login comes after those in the log. -/
def Current (tables : AuthTables) : AuthTransaction → Prop
  | .loginRead _ (some user) => user ∈ tables.users
  | .loginDenied (some user) now => user ∈ tables.users ∧ (User.account user).open_ now ∧
      (∀ attempt ∈ attemptsOf tables.answers user.id, attempt.time ≤ now) ∧ now ≤ tables.clock
  | .loginPassed user now => user ∈ tables.users ∧ (User.account user).open_ now ∧
      (∀ attempt ∈ attemptsOf tables.answers user.id, attempt.time ≤ now) ∧ now ≤ tables.clock
  | .loginResponded user _ issue => user ∈ tables.users ∧
      (User.account user).open_ issue.authenticated ∧
      (∀ attempt ∈ attemptsOf tables.answers user.id, attempt.time ≤ issue.authenticated) ∧
      issue.authenticated ≤ issue.finished
  | _ => True

theorem open_of_not_locked {user : User} {now : Instant} (h : user.isLocked now = false) :
    (User.account user).open_ now := by
  intro stop hstop
  have hlocked : user.lockedUntil = some stop := hstop
  simpa [User.isLocked, hlocked] using h

/-! ## One step -/

section Steps
variable {settings : AuthSettings} {w : AuthWorld} {i : ℕ} {l l' : AuthTransaction}
  {t u : AuthTables}

theorem attemptsOf_answer {answers : List AuthEvent} {e : AuthEvent} (userId : Uuid) :
    attemptsOf (answers ++ [e]) userId =
      attemptsOf answers userId ++ (AuthEvent.attempt? userId e).toList := by
  rw [attemptsOf, List.filterMap_append]
  cases h : AuthEvent.attempt? userId e <;> simp [h, attemptsOf]

/-- A commit that touches no user and answers no login of one. -/
theorem Counted.keeps (h : Counted t) (hclock : t.clock ≤ u.clock) (husers : u.users = t.users)
    (hattempts : ∀ id, attemptsOf u.answers id = attemptsOf t.answers id) : Counted u := by
  refine ⟨husers ▸ h.ids, fun user hmem => ?_⟩
  have hlogged := h.logged user (husers ▸ hmem)
  constructor
  · rw [hattempts]
    exact hlogged.row
  · rw [hattempts]
    exact hlogged.sorted
  · rw [hattempts]
    exact fun attempt hin => (hlogged.clock attempt hin).trans hclock

/-- One more attempt on the row that was read. -/
theorem Counted.attempts (h : Counted t) {read : User} (changed : User) (attempt : Attempt)
    (hread : read ∈ t.users) (hallows : (User.account read).Allows 5 (minutes 15) attempt)
    (hlast : ∀ old ∈ attemptsOf t.answers read.id, old.time ≤ attempt.time)
    (htime : attempt.time ≤ t.clock)
    (hchanged : User.account changed = (User.account read).after 5 (minutes 15) attempt)
    (hclock : u.clock = t.clock) (husers : u.users = flushUser read changed t.users)
    (hown : attemptsOf u.answers read.id = attemptsOf t.answers read.id ++ [attempt])
    (hothers : ∀ id, id ≠ read.id → attemptsOf u.answers id = attemptsOf t.answers id) :
    Counted u := by
  refine ⟨by rw [husers, map_id_flushUser]; exact h.ids, fun user hmem => ?_⟩
  rw [husers] at hmem
  rcases mem_flushUser h.ids hread hmem with rfl | ⟨hold, hne⟩
  · have hlogged := h.logged read hread
    show Logged u (read.flushes changed read)
    have hid : (read.flushes changed read).id = read.id := rfl
    constructor
    · rw [hid, hown, account_flushes, hchanged]
      exact hlogged.row.concat hallows
    · rw [hid, hown, List.pairwise_append]
      refine ⟨hlogged.sorted, List.pairwise_singleton _ _, fun old hin new hnew => ?_⟩
      rw [List.mem_singleton.mp hnew]
      exact hlast old hin
    · rw [hid, hown, hclock]
      intro x hx
      rcases List.mem_append.mp hx with hin | hnew
      · exact hlogged.clock x hin
      · rw [List.mem_singleton.mp hnew]
        exact htime
  · have hlogged := h.logged user hold
    constructor
    · rw [hothers user.id hne]
      exact hlogged.row
    · rw [hothers user.id hne]
      exact hlogged.sorted
    · rw [hothers user.id hne, hclock]
      exact hlogged.clock

theorem counted_commits (h : Counted w.committed) (hcurrent : Current w.committed l)
    (hcommit : AuthCommits settings w i l t none) : Counted t := by
  cases hcommit with
  | waits time htime => exact h.keeps htime rfl fun _ => rfl
  | denied user now =>
    obtain ⟨hmem, hopen, hlast, htime⟩ := hcurrent
    refine h.attempts (user.fails now) (.failed now (user.locks now)) hmem
      ⟨hopen, rfl⟩ hlast htime (account_fails user now) rfl rfl ?_ ?_
    · show attemptsOf (w.committed.answers ++ [_]) _ = _
      simp [attemptsOf_answer, AuthEvent.attempt?]
    · intro id hne
      show attemptsOf (w.committed.answers ++ [_]) _ = _
      simp [attemptsOf_answer, AuthEvent.attempt?, hne.symm]
  | loggedIn user now issue htime hsession htoken =>
    obtain ⟨hmem, hopen, hlast, hfinished⟩ := hcurrent
    refine h.attempts user.passes (.passed issue.authenticated) hmem hopen
      hlast (hfinished.trans htime) rfl rfl rfl ?_ ?_
    · show attemptsOf (w.committed.answers ++ [_]) _ = _
      simp [attemptsOf_answer, AuthEvent.attempt?]
    · intro id hne
      show attemptsOf (w.committed.answers ++ [_]) _ = _
      simp [attemptsOf_answer, AuthEvent.attempt?, hne.symm]
  | critical request principal session =>
    refine h.keeps le_rfl rfl fun id => ?_
    show attemptsOf (w.committed.answers ++ [_]) _ = _
    rcases requireCriticalPermission_cases request principal session w.committed.clock with
      ⟨error, heq⟩ | ⟨heq, -⟩
    · simp [attemptsOf_answer, heq, AuthEvent.attempt?]
    · simp [attemptsOf_answer, heq, AuthEvent.attempt?]
  | _ =>
    refine h.keeps le_rfl rfl fun id => ?_
    show attemptsOf (w.committed.answers ++ [_]) _ = _
    simp [attemptsOf_answer, AuthEvent.attempt?]

theorem current_moves (h : Counted w.committed) (hcurrent : Current w.committed l)
    (hmove : AuthMoves settings w i l l') : Current w.committed l' := by
  cases hmove with
  | loginReads body =>
    cases hfind : w.committed.users.find? fun row => decide (row.username = body.username) with
    | none => trivial
    | some user => exact List.mem_of_find?_eq_some hfind
  | loginDenied body user hopen hfails =>
    cases user with
    | none => trivial
    | some user =>
      have hmem : user ∈ w.committed.users := hcurrent
      exact ⟨hmem, open_of_not_locked (hopen user rfl), (h.logged user hmem).clock, le_rfl⟩
  | loginPassed body user hopen hpasses =>
    have hmem : user ∈ w.committed.users := hcurrent
    exact ⟨hmem, open_of_not_locked hopen, (h.logged user hmem).clock, le_rfl⟩
  | loginResponds user now issue htimes hfresh =>
    obtain ⟨hmem, hopen, hlast, hclock⟩ := hcurrent
    have hlater : now ≤ issue.authenticated := hclock.trans (htimes.1.trans htimes.2.1)
    exact ⟨hmem, fun stop hstop => (hopen stop hstop).trans hlater,
      fun attempt hin => (hlast attempt hin).trans hlater, htimes.2.2.1.trans htimes.2.2.2⟩
  | _ => trivial

/-- What a login has read stays as long as no login of its user commits. -/
theorem Current.keeps {m : AuthTransaction} (h : Current t m) (hclock : t.clock ≤ u.clock)
    (hkeeps : ∀ user, m.loginUser = some user → user ∈ t.users → user ∈ u.users)
    (hattempts : ∀ user, m.loginUser = some user →
      attemptsOf u.answers user.id = attemptsOf t.answers user.id) : Current u m := by
  cases m with
  | loginRead body user =>
    cases user with
    | none => trivial
    | some user => exact hkeeps user rfl h
  | loginDenied user now =>
    cases user with
    | none => trivial
    | some user =>
      refine ⟨hkeeps user rfl h.1, h.2.1, ?_, h.2.2.2.trans hclock⟩
      rw [hattempts user rfl]
      exact h.2.2.1
  | loginPassed user now =>
    refine ⟨hkeeps user rfl h.1, h.2.1, ?_, h.2.2.2.trans hclock⟩
    rw [hattempts user rfl]
    exact h.2.2.1
  | loginResponded user now issue =>
    refine ⟨hkeeps user rfl h.1, h.2.1, ?_, h.2.2.2⟩
    rw [hattempts user rfl]
    exact h.2.2.1
  | _ => trivial

theorem current_commits (hcurrent : ∀ j m, w.flight j = some m → Current w.committed m)
    (hone : OneLogin w i l) (hcommit : AuthCommits settings w i l t none) :
    w.Others i (Current t) := by
  intro j m hj hm
  have hother : ∀ user, l.loginUser = some user → ∀ other, m.loginUser = some other →
      other.id ≠ user.id := fun user huser => hone user huser j m hj hm
  cases hcommit with
  | waits time htime => exact (hcurrent j m hm).keeps htime (fun _ _ h => h) fun _ _ => rfl
  | denied user now =>
    refine (hcurrent j m hm).keeps le_rfl (fun other hread hmem => ?_) fun other hread => ?_
    · exact mem_flushUser_other hmem (hother user rfl other hread)
    · show attemptsOf (w.committed.answers ++ [_]) _ = _
      simp [attemptsOf_answer, AuthEvent.attempt?, (hother user rfl other hread).symm]
  | loggedIn user now issue htime hsession htoken =>
    refine (hcurrent j m hm).keeps le_rfl (fun other hread hmem => ?_) fun other hread => ?_
    · exact mem_flushUser_other hmem (hother user rfl other hread)
    · show attemptsOf (w.committed.answers ++ [_]) _ = _
      simp [attemptsOf_answer, AuthEvent.attempt?, (hother user rfl other hread).symm]
  | critical request principal session =>
    refine (hcurrent j m hm).keeps le_rfl (fun _ _ h => h) fun other _ => ?_
    show attemptsOf (w.committed.answers ++ [_]) _ = _
    rcases requireCriticalPermission_cases request principal session w.committed.clock with
      ⟨error, heq⟩ | ⟨heq, -⟩
    · simp [attemptsOf_answer, heq, AuthEvent.attempt?]
    · simp [attemptsOf_answer, heq, AuthEvent.attempt?]
  | _ =>
    refine (hcurrent j m hm).keeps le_rfl (fun _ _ h => h) fun other _ => ?_
    show attemptsOf (w.committed.answers ++ [_]) _ = _
    simp [attemptsOf_answer, AuthEvent.attempt?]

end Steps

/-! ## Every run -/

abbrev AttemptsHeld : AuthWorld → Prop := Held Counted Current fun _ _ => True

theorem attemptsHeld_step {settings : AuthSettings} {w w' : AuthWorld} (h : AttemptsHeld w)
    (hstep : ((sessionProtocol settings).restrict OneLogin).Step w w') : AttemptsHeld w' := by
  refine held_step (fun _ _ _ => trivial) (fun t l _ hl => ⟨?_, fun _ => trivial⟩) ?_ ?_ h hstep
  · have hbegins : l.Begins := hl
    cases hbegins <;> trivial
  · intro w i l l' hw running hmove
    have hmoves : AuthMoves settings w i l l' := hmove
    exact ⟨current_moves hw.shared (hw.each i l running) hmoves, fun _ _ _ _ => trivial⟩
  · intro w i l t l' hw running hcommit
    have hcommits : AuthCommits settings w i l t l' := hcommit.1
    cases l' with
    | none =>
      have hcounted := counted_commits hw.shared (hw.each i l running) hcommits
      refine ⟨hcounted, current_commits hw.each hcommit.2 hcommits, fun m hm => ?_⟩
      cases hm
    | some l' => exact (ends_commits hcommits).elim

/-- In every run whose logins of one user come one after the other, the fifth evaluated failure since
the last success or lock sets `locked_until`, and at most five are evaluated in any quarter of an hour
in which the user does not log in. -/
theorem lockouts_hold (settings : AuthSettings) {start : AuthTables} (hstart : Untried start)
    {w : AuthWorld}
    (h : ((sessionProtocol settings).restrict OneLogin).Reachable (World.quiet start) w) :
    ∀ user ∈ w.committed.users, LockoutHolds w.committed user := by
  intro user hmem
  have hempty : Counted start := by
    refine ⟨hstart.ids, fun user hin => ?_⟩
    have hnone : attemptsOf start.answers user.id = [] := by rw [hstart.answers]; rfl
    constructor
    · rw [hnone]
      exact (hstart.accounts user hin).symm
    · simp [hnone]
    · simp [hnone]
  have hheld := invariant (P := AttemptsHeld) (fun _ _ hw hstep => attemptsHeld_step hw hstep)
    (held_quiet hempty) h
  have hlogged := hheld.shared.logged user hmem
  refine ⟨fun from_ hpassed => ?_, fun front time locks rest hlog => ?_, hlogged.row⟩
  · exact count_le (by decide) hlogged.row (by decide) hlogged.sorted hpassed
  · have hrow := hlogged.row
    rw [hlog] at hrow
    exact locks_iff (by decide) hrow

/-! ## Five failures -/

/-- The operator has failed `n` times since the last success. -/
def countedTables (t : AuthTables) (n : ℕ) (answers : List AuthEvent) : AuthTables :=
  { t with clock := 0, users := [{ operator with failedLoginAttempts := n }], answers := answers }

section Counted
variable {C : AuthWorld → ℕ → AuthTransaction → Prop} (hdenies : ∀ user t,
  C (alone t (.loginDenied (some user) t.clock)) 0 (.loginDenied (some user) t.clock))
include hdenies

theorem counted_alone {t : AuthTables} {n : ℕ} {answers : List AuthEvent} (hn : n + 1 < 5)
    (h : ((sessionProtocol plainAuth).restrict C).Reachable (World.quiet plainTables)
      (World.quiet (countedTables t n answers))) :
    ((sessionProtocol plainAuth).restrict C).Reachable (World.quiet plainTables)
      (World.quiet (countedTables t (n + 1) (answers ++ [.denied (some 7) 0 none]))) := by
  have hdenied := denied_alone h ⟨"operator", "guess"⟩ rfl rfl rfl (hdenies _ _)
  have hcount : ¬ n + 1 ≥ 5 := not_le.mpr hn
  simpa [countedTables, flushUser, modifyWhere, User.flushes, User.fails, User.locks, hcount, operator,
    AuthTables.answer, written] using hdenied

/-- Four wrong passwords in a row. -/
theorem four_failures : ((sessionProtocol plainAuth).restrict C).Reachable (World.quiet plainTables)
    (World.quiet (countedTables plainTables 4 (List.replicate 4 (.denied (some 7) 0 none)))) := by
  have hstart : ((sessionProtocol plainAuth).restrict C).Reachable (World.quiet plainTables)
    (World.quiet (countedTables plainTables 0 [])) := .refl
  exact counted_alone hdenies (by decide) (counted_alone hdenies (by decide) (counted_alone hdenies (by decide)
    (counted_alone hdenies (by decide) hstart)))

end Counted

/-- The operator after the fifth wrong password. -/
def lockedOperator : User := { operator with lockedUntil := some (minutes 15) }

def lockedTables : AuthTables :=
  { plainTables with
    users := [lockedOperator]
    answers := List.replicate 4 (.denied (some 7) 0 none) ++ [.denied (some 7) 0 (some (minutes 15))] }

theorem lockouts_hold_locked : LockoutHolds lockedTables lockedOperator := by
  have hfour : ((sessionProtocol plainAuth).restrict OneLogin).Reachable (World.quiet plainTables) _ :=
    four_failures fun _ _ _ _ => others_alone _ _ _
  have hrun := denied_alone hfour ⟨"operator", "guess"⟩ rfl rfl rfl fun _ _ => others_alone _ _ _
  exact lockouts_hold plainAuth (w := World.quiet lockedTables) ⟨by decide, by decide, rfl⟩ hrun
    lockedOperator (List.mem_singleton.mpr rfl)

/-! ## A success in between -/

/-- Four wrong passwords, a login, and two wrong passwords more, all at once. -/
theorem success_restarts_count : ¬ ∀ (settings : AuthSettings) (start : AuthTables), Untried start →
    ∀ w, (sessionProtocol settings).Reachable (World.quiet start) w → ∀ user ∈ w.committed.users,
      (∀ from_, (attemptsOf w.committed.answers user.id).countP
        (Attempt.failsIn from_ (from_ + minutes 15)) ≤ 5) ∧
      ∀ front time locks rest,
        attemptsOf w.committed.answers user.id = front ++ .failed time locks :: rest →
        sinceReset front + 1 = 5 → locks = some (time + minutes 15) := by
  intro hall
  have hfour := four_failures (C := fun _ _ _ => True) fun _ _ => trivial
  have hlogin := login_alone hfour ⟨"operator", "secret"⟩ firstIssue rfl rfl rfl
    ⟨le_rfl, le_rfl, le_rfl, le_rfl⟩ le_rfl rfl rfl trivial
  have hagain := counted_alone (fun _ _ => trivial) (t := { plainTables with
      sessions := [firstIssue.session plainAuth operator]
      tokens := [firstIssue.record plainAuth operator] }) (n := 0) (by decide) hlogin
  have hsix := reachable_of_restrict (counted_alone (fun _ _ => trivial) (by decide) hagain)
  have hbound := (hall plainAuth plainTables ⟨by decide, by decide, rfl⟩ _ hsix _
    (List.mem_singleton.mpr rfl)).1 0
  exact absurd hbound (by decide)

end TraceQ.Properties
