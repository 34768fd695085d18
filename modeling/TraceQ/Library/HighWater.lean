import Mathlib

/-! # High-water marks

A log of entries under keys, some of them numbered. The mark of a key is the highest number it had so far; an
entry is late when its number is not above the mark of its key.
-/
namespace TraceQ.HighWater
set_option autoImplicit false
set_option maxHeartbeats 250000

/-! ## What is said of each entry -/

section EachAfter
variable {ε γ : Type} (say : List ε → ε → Option γ)

/-- What is said of the entries of a log behind `before`, each seen with all entries before it. -/
def eachAfter : List ε → List ε → List γ
  | _, [] => []
  | before, entry :: later => (say before entry).toList ++ eachAfter (before ++ [entry]) later

theorem eachAfter_concat (before log : List ε) (last : ε) :
    eachAfter say before (log ++ [last]) =
      eachAfter say before log ++ (say (before ++ log) last).toList := by
  induction log generalizing before with
  | nil => simp [eachAfter]
  | cons entry later ih => simp [eachAfter, ih]

end EachAfter

/-! ## Marks -/

section Marks
variable {κ ε α : Type} [DecidableEq κ] [LinearOrder α] (key : ε → κ) (number : ε → Option α)

def numbersOf (log : List ε) (k : κ) : List α :=
  (log.filter fun entry => decide (key entry = k)).filterMap number

/-- The highest number of the key. -/
def mark (log : List ε) (k : κ) : Option α := (numbersOf key number log k).max?

/-- The mark the entry is not above. -/
def lateAfter (before : List ε) (entry : ε) : Option α :=
  (mark key number before (key entry)).filter fun m => (number entry).any fun n => decide (n ≤ m)

/-- The late entries, each with the mark it is not above. -/
def late (log : List ε) : List (ε × α) :=
  eachAfter (fun before entry => (lateAfter key number before entry).map (entry, ·)) [] log

variable {key number}

theorem max?_concat (xs : List α) (x : α) : (xs ++ [x]).max? = some (xs.max?.elim x (max · x)) := by
  cases xs with
  | nil => rfl
  | cons first rest => simp only [List.cons_append, List.max?_cons', List.foldl_append]; rfl

omit [LinearOrder α] in
theorem numbersOf_concat (log : List ε) (entry : ε) (k : κ) : numbersOf key number (log ++ [entry]) k =
    numbersOf key number log k ++ if key entry = k then (number entry).toList else [] := by
  rw [numbersOf, numbersOf, List.filter_append, List.filterMap_append]
  by_cases hkey : key entry = k
  · cases hnumber : number entry <;> simp [hkey, hnumber]
  · simp [hkey]

theorem mark_concat (log : List ε) (entry : ε) (k : κ) : mark key number (log ++ [entry]) k =
    if key entry = k then
      (number entry).elim (mark key number log k) fun n => some ((mark key number log k).elim n (max · n))
    else mark key number log k := by
  rw [mark, numbersOf_concat]
  by_cases hkey : key entry = k
  · cases hnumber : number entry with
    | none => simp [hkey, mark]
    | some n => simp only [hkey, if_true, Option.toList_some, max?_concat]; rfl
  · simp [hkey, mark]

theorem late_concat (log : List ε) (entry : ε) : late key number (log ++ [entry]) =
    late key number log ++ ((lateAfter key number log entry).map (entry, ·)).toList := by
  rw [late, eachAfter_concat, List.nil_append]
  rfl

/-- The next number is above the mark. -/
theorem lateAfter_eq_none {before : List ε} {entry : ε} : lateAfter key number before entry = none ↔
    ∀ n, number entry = some n → ∀ m ∈ numbersOf key number before (key entry), m < n := by
  rw [lateAfter, mark, Option.filter_eq_none_iff]
  constructor
  · intro h n hn m hm
    have hne : numbersOf key number before (key entry) ≠ [] := List.ne_nil_of_mem hm
    obtain ⟨top, htop⟩ := Option.isSome_iff_exists.mp (List.isSome_max?_iff.mpr hne)
    have hlate := h top htop
    rw [hn] at hlate
    have hbelow : m ≤ top := (List.max?_eq_some_iff.mp htop).2 m hm
    exact lt_of_le_of_lt hbelow (by simpa using hlate)
  · intro h top htop
    cases hn : number entry with
    | none => simp
    | some n => simpa using h n hn top (List.max?_eq_some_iff.mp htop).1

/-- No entry of a key is late exactly when its numbers increase. -/
theorem none_late_iff {log : List ε} {k : κ} :
    (∀ entry ∈ late key number log, key entry.1 ≠ k) ↔ (numbersOf key number log k).Pairwise (· < ·) := by
  induction log using List.reverseRecOn with
  | nil => simp [late, eachAfter, numbersOf]
  | append_singleton log last ih =>
    rw [late_concat, List.forall_mem_append, ih, numbersOf_concat, List.pairwise_append]
    by_cases hkey : key last = k
    · have hnone : (∀ entry ∈ ((lateAfter key number log last).map (last, ·)).toList, key entry.1 ≠ k) ↔
          lateAfter key number log last = none := by
        cases lateAfter key number log last with
        | none => simp
        | some m => simp [hkey]
      rw [hnone, lateAfter_eq_none, hkey]
      cases hn : number last with
      | none => simp
      | some n => simp
    · simp only [hkey, if_false]
      cases lateAfter key number log last <;> simp [hkey]

end Marks

end TraceQ.HighWater
