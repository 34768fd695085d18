import Mathlib

/-! # Logs of changes

A log that records a value only when it differs from the last one recorded. Recording a whole list
twice adds nothing the second time exactly when all its values are equal. Of any log it can be asked that
every entry fits the entries before it.
-/
namespace TraceQ.ChangeLog
set_option autoImplicit false
set_option maxHeartbeats 250000

variable {α : Type} [DecidableEq α]

/-- Record `x` unless it is the last value already. -/
def push (log : List α) (x : α) : List α := if log.getLast? = some x then log else log ++ [x]

def pushAll (log xs : List α) : List α := xs.foldl push log

/-! ## One value -/

theorem push_of_last {log : List α} {x : α} (h : log.getLast? = some x) : push log x = log :=
  if_pos h

theorem push_of_new {log : List α} {x : α} (h : log.getLast? ≠ some x) :
    push log x = log ++ [x] := if_neg h

@[simp] theorem getLast?_push (log : List α) (x : α) : (push log x).getLast? = some x := by
  by_cases h : log.getLast? = some x
  · rw [push_of_last h, h]
  · rw [push_of_new h, List.getLast?_concat]

theorem prefix_push (log : List α) (x : α) : log <+: push log x := by
  by_cases h : log.getLast? = some x
  · rw [push_of_last h]
  · rw [push_of_new h]; exact List.prefix_append log [x]

theorem isChain_push {log : List α} (h : log.IsChain (· ≠ ·)) (x : α) :
    (push log x).IsChain (· ≠ ·) := by
  by_cases hlast : log.getLast? = some x
  · rw [push_of_last hlast]
    exact h
  · rw [push_of_new hlast, List.isChain_append]
    refine ⟨h, List.isChain_singleton x, fun y hy z hz => ?_⟩
    rw [Option.mem_def, List.head?_cons, Option.some.injEq] at hz
    rintro rfl
    exact hlast (hz ▸ hy)

/-! ## Many values -/

@[simp] theorem pushAll_nil (log : List α) : pushAll log [] = log := rfl

@[simp] theorem pushAll_cons (log : List α) (x : α) (xs : List α) :
    pushAll log (x :: xs) = pushAll (push log x) xs := rfl

theorem getLast?_pushAll (log xs : List α) :
    (pushAll log xs).getLast? = xs.getLast?.or log.getLast? := by
  induction xs generalizing log with
  | nil => simp
  | cons x xs ih =>
    rw [pushAll_cons, ih, getLast?_push]
    cases xs with
    | nil => rfl
    | cons y ys => simp [List.getLast?_cons]

theorem prefix_pushAll (log xs : List α) : log <+: pushAll log xs := by
  induction xs generalizing log with
  | nil => rw [pushAll_nil]
  | cons x xs ih => exact (prefix_push log x).trans (ih (push log x))

/-- A list of values adds nothing exactly when each of them is the last value of the log. -/
theorem pushAll_eq_self_iff {log xs : List α} :
    pushAll log xs = log ↔ ∀ x ∈ xs, log.getLast? = some x := by
  induction xs generalizing log with
  | nil => simp
  | cons x xs ih =>
    constructor
    · intro h
      have hpush : push log x = log := by
        have hlen := (prefix_pushAll (push log x) xs).length_le
        rw [← pushAll_cons, h] at hlen
        exact ((prefix_push log x).eq_of_length_le hlen).symm
      have hlast : log.getLast? = some x := by rw [← hpush, getLast?_push]
      rw [pushAll_cons, hpush] at h
      intro y hy
      rcases List.mem_cons.mp hy with rfl | hmem
      · exact hlast
      · exact ih.mp h y hmem
    · intro h
      rw [pushAll_cons, push_of_last (h x (by simp))]
      exact ih.mpr fun y hy => h y (by simp [hy])

/-- Recording the same values again adds nothing exactly when they are all equal. -/
theorem pushAll_again_iff {log xs : List α} :
    pushAll (pushAll log xs) xs = pushAll log xs ↔ ∀ x ∈ xs, ∀ y ∈ xs, x = y := by
  rw [pushAll_eq_self_iff]
  constructor
  · intro h x hx y hy
    exact Option.some.inj ((h x hx).symm.trans (h y hy))
  · intro h x hx
    rw [getLast?_pushAll]
    obtain ⟨last, hlast⟩ : ∃ last, xs.getLast? = some last := by
      cases hxs : xs.getLast? with
      | none => rw [List.getLast?_eq_none_iff.mp hxs] at hx; cases hx
      | some last => exact ⟨last, rfl⟩
    rw [hlast, Option.some_or, h x hx last (List.mem_of_getLast? hlast)]

/-! ## Values that may be absent -/

/-- Record `x` if there is one. -/
def pushSome (log : List α) (x : Option α) : List α := x.elim log (push log)

/-! ## Entries and what comes before them -/

section Along
variable {β : Type}

/-- Every entry fits those before it. -/
def Along (fits : List β → β → Prop) (log : List β) : Prop :=
  ∀ before entry later, log = before ++ entry :: later → fits before entry

theorem along_nil (fits : List β → β → Prop) : Along fits [] := by
  intro before entry later h
  simp at h

theorem along_of_append {fits : List β → β → Prop} {log more : List β} (h : Along fits (log ++ more)) :
    Along fits log := by
  rintro before entry later rfl
  exact h before entry (later ++ more) (by simp)

theorem along_concat {fits : List β → β → Prop} {log : List β} {last : β} :
    Along fits (log ++ [last]) ↔ Along fits log ∧ fits log last := by
  constructor
  · intro h
    refine ⟨fun before entry later hlog => h before entry (later ++ [last]) (by simp [hlog]), ?_⟩
    exact h log last [] rfl
  · rintro ⟨hlog, hlast⟩ before entry later h
    rcases List.eq_nil_or_concat' later with rfl | ⟨front, x, rfl⟩
    · obtain ⟨rfl, hentry⟩ := List.append_inj' h rfl
      exact (List.cons.inj hentry).1 ▸ hlast
    · rw [← List.cons_append, ← List.append_assoc] at h
      exact hlog before entry front (List.append_inj' h rfl).1

end Along

end TraceQ.ChangeLog
