import Mathlib

/-! # Machines that answer calls

A deterministic machine executes one call at a time and answers it. The rules reduce what holds of
every reachable state, what every run keeps, and what persists until some call ends it, to one
call.
-/
namespace TraceQ.Machine
set_option autoImplicit false
set_option maxHeartbeats 250000

variable {σ ι ω : Type} (exec : σ → ι → σ × ω)

/-- The state after a list of calls. -/
def run (start : σ) (calls : List ι) : σ := calls.foldl (fun s call => (exec s call).1) start

/-- The states some run leads to from an initial state. -/
def Reachable (initial : σ → Prop) (s : σ) : Prop :=
  ∃ start calls, initial start ∧ run exec start calls = s

variable {exec}

@[simp] theorem run_nil (s : σ) : run exec s [] = s := rfl

@[simp] theorem run_cons (s : σ) (call : ι) (rest : List ι) :
    run exec s (call :: rest) = run exec (exec s call).1 rest := rfl

theorem run_append (s : σ) (front rest : List ι) :
    run exec s (front ++ rest) = run exec (run exec s front) rest := List.foldl_append

/-! ## Invariants -/

theorem run_invariant {P : σ → Prop} (step : ∀ s call, P s → P (exec s call).1) {s : σ}
    (h : P s) (calls : List ι) : P (run exec s calls) := by
  induction calls generalizing s with
  | nil => exact h
  | cons call rest ih => exact ih (step s call h)

theorem reachable_invariant {initial P : σ → Prop} (start : ∀ s, initial s → P s)
    (step : ∀ s call, P s → P (exec s call).1) {s : σ} (h : Reachable exec initial s) :
    P s := by
  obtain ⟨s₀, calls, h₀, rfl⟩ := h
  exact run_invariant step (start s₀ h₀) calls

theorem reachable_run {initial : σ → Prop} {s : σ} (h : Reachable exec initial s)
    (calls : List ι) : Reachable exec initial (run exec s calls) := by
  obtain ⟨s₀, front, h₀, rfl⟩ := h
  exact ⟨s₀, front ++ calls, h₀, run_append s₀ front calls⟩

theorem reachable_step {initial : σ → Prop} {s : σ} (h : Reachable exec initial s) (call : ι) :
    Reachable exec initial (exec s call).1 := reachable_run h [call]

/-- A relation that every call from a good state respects relates the ends of a run. -/
theorem run_related {P : σ → Prop} {r : σ → σ → Prop} (refl : ∀ s, r s s)
    (trans : ∀ {a b c}, r a b → r b c → r a c)
    (step : ∀ s call, P s → P (exec s call).1 ∧ r s (exec s call).1) {s : σ} (h : P s)
    (calls : List ι) : r s (run exec s calls) := by
  induction calls generalizing s with
  | nil => exact refl s
  | cons call rest ih => exact trans (step s call h).2 (ih (step s call h).1)

/-! ## Runs whose calls all meet a condition -/

/-- Each call meets `C` in the state it is executed in. -/
def Meets (exec : σ → ι → σ × ω) (C : σ → ι → Prop) : σ → List ι → Prop
  | _, [] => True
  | s, call :: rest => C s call ∧ Meets exec C (exec s call).1 rest

theorem meets_append {C : σ → ι → Prop} {s : σ} {front rest : List ι} :
    Meets exec C s (front ++ rest) ↔ Meets exec C s front ∧ Meets exec C (run exec s front) rest := by
  induction front generalizing s with
  | nil => simp [Meets]
  | cons call front ih => rw [List.cons_append, Meets, Meets, ih, run_cons, and_assoc]

/-- What every call that meets `C` keeps holds at the end of a run of such calls. -/
theorem meets_invariant {C : σ → ι → Prop} {P : σ → Prop}
    (step : ∀ s call, P s → C s call → P (exec s call).1) {s : σ} (h : P s) {calls : List ι}
    (hmeets : Meets exec C s calls) : P (run exec s calls) := by
  induction calls generalizing s with
  | nil => exact h
  | cons call rest ih => exact ih (step s call h hmeets.1) hmeets.2

/-! ## Until some call -/

/-- What every call keeps unless it is an `E` holds at the end of a run without one. -/
theorem holds_or_ending {P Q : σ → Prop} {E : σ → ι → Prop}
    (step : ∀ s call, P s → P (exec s call).1)
    (keep : ∀ s call, P s → Q s → ¬ E s call → Q (exec s call).1) {s : σ}
    (hgood : P s) (h : Q s) (calls : List ι) :
    Q (run exec s calls) ∨
      ∃ front call rest, calls = front ++ call :: rest ∧ E (run exec s front) call := by
  induction calls generalizing s with
  | nil => exact .inl h
  | cons call rest ih =>
    by_cases hend : E s call
    · exact .inr ⟨[], call, rest, rfl, hend⟩
    · rcases ih (step s call hgood) (keep s call hgood h hend) with hrun | ⟨front, c, tail, hr, hc⟩
      · exact .inl hrun
      · exact .inr ⟨call :: front, c, tail, by rw [hr, List.cons_append], hc⟩

end TraceQ.Machine
