import Mathlib

/-! # Locking an account

An account counts failed attempts. The attempt that reaches the limit locks it for a period and starts
the count again, and so does a success. A log of attempts explains the account it leads to.
-/
namespace TraceQ.Lockout
set_option autoImplicit false
set_option maxHeartbeats 250000

structure Account where
  failures : ℕ
  lockedUntil : Option ℤ
deriving DecidableEq

inductive Attempt where
  /-- With the end of the lock that it sets. -/
  | failed (time : ℤ) (locks : Option ℤ)
  | passed (time : ℤ)

def Attempt.time : Attempt → ℤ
  | .failed time _ => time
  | .passed time => time

/-- A failure between `start` and `stop`. -/
def Attempt.failsIn (start stop : ℤ) : Attempt → Bool
  | .failed time _ => decide (start ≤ time) && decide (time < stop)
  | .passed _ => false

section Policy
variable (limit : ℕ) (period : ℤ)

def Account.open_ (a : Account) (time : ℤ) : Prop := ∀ stop, a.lockedUntil = some stop → stop ≤ time

def Account.locks (a : Account) (time : ℤ) : Option ℤ :=
  if limit ≤ a.failures + 1 then some (time + period) else none

def Account.after (a : Account) : Attempt → Account
  | .failed time _ =>
      if limit ≤ a.failures + 1 then ⟨0, some (time + period)⟩ else ⟨a.failures + 1, a.lockedUntil⟩
  | .passed _ => ⟨0, none⟩

/-- The attempt is evaluated on the open account, and says truly what it locks. -/
def Account.Allows (a : Account) : Attempt → Prop
  | .failed time locks => a.open_ time ∧ locks = a.locks limit period time
  | .passed time => a.open_ time

/-- From the account on, the attempts are evaluated one after the other. -/
def Explains (a : Account) : List Attempt → Account → Prop
  | [], b => a = b
  | attempt :: rest, b =>
      a.Allows limit period attempt ∧ Explains (a.after limit period attempt) rest b

variable {limit period}

theorem explains_append {a b : Account} {front rest : List Attempt} :
    Explains limit period a (front ++ rest) b ↔
      ∃ m, Explains limit period a front m ∧ Explains limit period m rest b := by
  induction front generalizing a with
  | nil => simp [Explains]
  | cons attempt front ih =>
    simp only [List.cons_append, Explains, ih]
    constructor
    · rintro ⟨hallows, m, hfront, hrest⟩
      exact ⟨m, ⟨hallows, hfront⟩, hrest⟩
    · rintro ⟨m, ⟨hallows, hfront⟩, hrest⟩
      exact ⟨hallows, m, hfront, hrest⟩

theorem Explains.concat {a b : Account} {log : List Attempt} {attempt : Attempt}
    (h : Explains limit period a log b) (hallows : b.Allows limit period attempt) :
    Explains limit period a (log ++ [attempt]) (b.after limit period attempt) :=
  explains_append.mpr ⟨b, h, hallows, rfl⟩

/-! ## The count -/

theorem after_reached {a : Account} {time : ℤ} {locks : Option ℤ} (h : limit ≤ a.failures + 1) :
    a.after limit period (.failed time locks) = ⟨0, some (time + period)⟩ := if_pos h

theorem after_counts {a : Account} {time : ℤ} {locks : Option ℤ} (h : ¬ limit ≤ a.failures + 1) :
    a.after limit period (.failed time locks) = ⟨a.failures + 1, a.lockedUntil⟩ := if_neg h

theorem after_failures (hlimit : 0 < limit) (a : Account) (attempt : Attempt) :
    (a.after limit period attempt).failures < limit := by
  cases attempt with
  | passed time => exact hlimit
  | failed time locks =>
    by_cases hreached : limit ≤ a.failures + 1
    · rw [after_reached hreached]
      exact hlimit
    · rw [after_counts hreached]
      exact not_le.mp hreached

/-- The failures since the last success or lock. -/
def sinceReset (log : List Attempt) : ℕ :=
  log.foldl (fun n attempt => match attempt with
    | .failed _ none => n + 1
    | _ => 0) 0

theorem sinceReset_concat (log : List Attempt) (attempt : Attempt) :
    sinceReset (log ++ [attempt]) = match attempt with
      | .failed _ none => sinceReset log + 1
      | _ => 0 := by
  rw [sinceReset, List.foldl_append]
  rfl

/-- The account counts the failures since the last success or lock, fewer than the limit. -/
theorem failures_eq (hlimit : 0 < limit) {b : Account} {log : List Attempt}
    (h : Explains limit period ⟨0, none⟩ log b) :
    b.failures = sinceReset log ∧ b.failures < limit := by
  induction log using List.reverseRecOn generalizing b with
  | nil =>
    obtain rfl : (⟨0, none⟩ : Account) = b := h
    exact ⟨rfl, hlimit⟩
  | append_singleton log attempt ih =>
    obtain ⟨m, hlog, hallows, rfl⟩ := explains_append.mp h
    obtain ⟨hcount, hlt⟩ := ih hlog
    refine ⟨?_, after_failures hlimit m attempt⟩
    rw [sinceReset_concat]
    cases attempt with
    | passed time => rfl
    | failed time locks =>
      obtain ⟨-, rfl⟩ := hallows
      unfold Account.locks
      by_cases hreached : limit ≤ m.failures + 1
      · rw [after_reached hreached, if_pos hreached]
      · rw [after_counts hreached, if_neg hreached]
        exact congrArg (· + 1) hcount

/-- The failure that makes the count reach the limit, and no other, sets the lock. -/
theorem locks_iff (hlimit : 0 < limit) {b : Account} {front rest : List Attempt} {time : ℤ}
    {locks : Option ℤ}
    (h : Explains limit period ⟨0, none⟩ (front ++ .failed time locks :: rest) b) :
    locks = if sinceReset front + 1 = limit then some (time + period) else none := by
  obtain ⟨m, hfront, ⟨-, rfl⟩, -⟩ := explains_append.mp h
  obtain ⟨hcount, hlt⟩ := failures_eq hlimit hfront
  unfold Account.locks
  by_cases hreached : sinceReset front + 1 = limit
  · rw [if_pos hreached, if_pos (by omega)]
  · rw [if_neg hreached, if_neg (by omega)]

/-! ## The window -/

theorem failsIn_late {start stop : ℤ} {attempt : Attempt} (h : stop ≤ attempt.time) :
    ¬ Attempt.failsIn start stop attempt = true := by
  cases attempt with
  | passed time => exact Bool.false_ne_true
  | failed time locks =>
    simp only [Attempt.failsIn, Bool.and_eq_true, decide_eq_true_eq, not_and, not_lt]
    exact fun _ => h

/-- Once attempts are in the window, the lock that the last of them sets outlasts it. -/
theorem count_le_of_from (hlimit : 0 < limit) {start : ℤ} {log : List Attempt} {a b : Account}
    (h : Explains limit period a log b) (hcount : a.failures < limit)
    (hfrom : ∀ attempt ∈ log, start ≤ attempt.time)
    (hsorted : log.Pairwise fun x y => x.time ≤ y.time)
    (hpassed : ∀ time, .passed time ∈ log → start + period ≤ time) :
    log.countP (Attempt.failsIn start (start + period)) ≤ limit - a.failures := by
  induction log generalizing a with
  | nil => simp
  | cons attempt rest ih =>
    rw [List.pairwise_cons] at hsorted
    have hstart := hfrom attempt List.mem_cons_self
    by_cases hin : attempt.time < start + period
    · cases attempt with
      | passed time => exact absurd (hpassed time List.mem_cons_self) (not_le.mpr hin)
      | failed time locks =>
        have hone : Attempt.failsIn start (start + period) (.failed time locks) = true := by
          simp only [Attempt.failsIn, Bool.and_eq_true, decide_eq_true_eq]
          exact ⟨hstart, hin⟩
        rw [List.countP_cons_of_pos hone]
        obtain ⟨-, hrest⟩ := h
        have htail := ih hrest (after_failures hlimit a _)
          (fun x hx => hfrom x (List.mem_cons_of_mem _ hx)) hsorted.2
          (fun t ht => hpassed t (List.mem_cons_of_mem _ ht))
        by_cases hreached : limit ≤ a.failures + 1
        · -- the account is locked beyond the window, and nothing more is evaluated in it
          have hnone : rest.countP (Attempt.failsIn start (start + period)) = 0 := by
            cases rest with
            | nil => rfl
            | cons next rest =>
              have hlocked : start + period ≤ next.time := by
                have hopen : (a.after limit period (.failed time locks)).open_ next.time := by
                  cases next with
                  | passed t => exact hrest.1
                  | failed t l => exact hrest.1.1
                rw [after_reached hreached] at hopen
                have hstop := hopen (time + period) rfl
                have htime : start ≤ time := hstart
                omega
              rw [List.countP_eq_zero]
              intro x hx
              have hlate : start + period ≤ x.time := by
                rcases List.mem_cons.mp hx with rfl | hmem
                · exact hlocked
                · exact hlocked.trans ((List.pairwise_cons.mp hsorted.2).1 x hmem)
              exact failsIn_late hlate
          omega
        · rw [after_counts hreached] at htail
          change _ ≤ limit - (a.failures + 1) at htail
          omega
    · have hnone : (attempt :: rest).countP (Attempt.failsIn start (start + period)) = 0 := by
        rw [List.countP_eq_zero]
        intro x hx
        have hlate : start + period ≤ x.time := by
          rcases List.mem_cons.mp hx with rfl | hmem
          · exact not_lt.mp hin
          · exact (not_lt.mp hin).trans (hsorted.1 x hmem)
        exact failsIn_late hlate
      omega

/-- In a window without a success at most `limit` failures are evaluated. -/
theorem count_le (hlimit : 0 < limit) {start : ℤ} {log : List Attempt} {a b : Account}
    (h : Explains limit period a log b) (hcount : a.failures < limit)
    (hsorted : log.Pairwise fun x y => x.time ≤ y.time)
    (hpassed : ∀ time, .passed time ∈ log → time < start ∨ start + period ≤ time) :
    log.countP (Attempt.failsIn start (start + period)) ≤ limit := by
  induction log generalizing a with
  | nil => simp
  | cons attempt rest ih =>
    by_cases hfrom : start ≤ attempt.time
    · have hall : ∀ x ∈ attempt :: rest, start ≤ x.time := by
        intro x hx
        rcases List.mem_cons.mp hx with rfl | hmem
        · exact hfrom
        · exact hfrom.trans ((List.pairwise_cons.mp hsorted).1 x hmem)
      have hbound := count_le_of_from hlimit h hcount hall hsorted fun time hmem =>
        (hpassed time hmem).resolve_left (not_lt.mpr (hall _ hmem))
      omega
    · have hbefore : ¬ Attempt.failsIn start (start + period) attempt = true := by
        cases attempt with
        | passed t => simp [Attempt.failsIn]
        | failed t l =>
          intro hin
          simp only [Attempt.failsIn, Bool.and_eq_true, decide_eq_true_eq] at hin
          exact hfrom hin.1
      rw [List.countP_cons_of_neg hbefore]
      exact ih h.2 (after_failures hlimit a attempt) (List.pairwise_cons.mp hsorted).2
        fun time hmem => hpassed time (List.mem_cons_of_mem _ hmem)

end Policy

end TraceQ.Lockout
