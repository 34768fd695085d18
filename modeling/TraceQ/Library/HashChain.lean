import Mathlib

/-! # Hash chains

Rows that carry a number, the MAC of the row before and their own, over any row type. An audit
walks the rows and reports what breaks the chain; among the sublists of a chain it passes exactly the
initial segments.
-/
namespace TraceQ.HashChain
set_option autoImplicit false
set_option maxHeartbeats 250000

/-- The columns a chain is made of; `intact` says that the MAC is that of the row. -/
structure Columns (α μ : Type) where
  seq : α → ℕ
  prev : α → μ
  mac : α → μ
  intact : α → Prop

variable {α β μ : Type} (c : Columns α μ)

/-- The rows continue a chain whose last MAC is `p` and whose next number is `n`. -/
def Linked : μ → ℕ → List α → Prop
  | _, _, [] => True
  | p, n, row :: rest => c.seq row = n ∧ c.prev row = p ∧ c.intact row ∧ Linked (c.mac row) (n + 1) rest

/-- The last MAC of the chain, `p` before the first row. -/
def endMac (p : μ) (rows : List α) : μ := rows.foldl (fun _ row => c.mac row) p

@[simp] theorem endMac_nil (p : μ) : endMac c p [] = p := rfl

@[simp] theorem endMac_concat (p : μ) (rows : List α) (row : α) :
    endMac c p (rows ++ [row]) = c.mac row := by
  rw [endMac, List.foldl_append]
  rfl

theorem endMac_eq (p : μ) (rows : List α) : endMac c p rows = (rows.map c.mac).getLast?.getD p := by
  induction rows using List.reverseRecOn with
  | nil => rfl
  | append_singleton rest last _ => simp

variable {c}

theorem linked_append {rows more : List α} {p : μ} {n : ℕ} :
    Linked c p n (rows ++ more) ↔
      Linked c p n rows ∧ Linked c (endMac c p rows) (n + rows.length) more := by
  induction rows generalizing p n with
  | nil => simp [Linked]
  | cons row rest ih =>
    have hlen : n + 1 + rest.length = n + (row :: rest).length := by
      simp only [List.length_cons]
      omega
    simp only [List.cons_append, Linked, ih, hlen, and_assoc]
    rfl

theorem linked_concat {rows : List α} {row : α} {p : μ} {n : ℕ} (h : Linked c p n rows)
    (hseq : c.seq row = n + rows.length) (hprev : c.prev row = endMac c p rows)
    (hintact : c.intact row) : Linked c p n (rows ++ [row]) :=
  linked_append.mpr ⟨h, hseq, hprev, hintact, trivial⟩

theorem linked_seqs {rows : List α} {p : μ} {n : ℕ} (h : Linked c p n rows) :
    rows.map c.seq = List.range' n rows.length := by
  induction rows generalizing p n with
  | nil => rfl
  | cons row rest ih =>
    obtain ⟨hseq, -, -, hrest⟩ := h
    rw [List.map_cons, hseq, ih hrest, List.length_cons, List.range'_succ]

/-- Every row names the MAC of the row before it. -/
theorem linked_prevs {rows : List α} {p : μ} {n : ℕ} (h : Linked c p n rows) :
    rows.map c.prev = (p :: rows.map c.mac).take rows.length := by
  induction rows generalizing p n with
  | nil => rfl
  | cons row rest ih =>
    obtain ⟨-, hprev, -, hrest⟩ := h
    rw [List.map_cons, hprev, ih hrest, List.length_cons, List.take_succ_cons, List.map_cons]

theorem intact_of_linked {rows : List α} {p : μ} {n : ℕ} (h : Linked c p n rows) {row : α}
    (hrow : row ∈ rows) : c.intact row := by
  induction rows generalizing p n with
  | nil => cases hrow
  | cons first rest ih =>
    obtain ⟨-, -, hintact, hrest⟩ := h
    rcases List.mem_cons.mp hrow with rfl | hlater
    · exact hintact
    · exact ih hrest hlater

theorem le_seq_of_linked {rows : List α} {p : μ} {n : ℕ} (h : Linked c p n rows) {row : α}
    (hrow : row ∈ rows) : n ≤ c.seq row ∧ c.seq row < n + rows.length := by
  have hmem : c.seq row ∈ List.range' n rows.length :=
    linked_seqs h ▸ List.mem_map_of_mem hrow
  simpa [List.mem_range'_1] using hmem

/-- A chain is in the order of its numbers. -/
theorem sorted_of_linked {rows : List α} {p : μ} {n : ℕ} (h : Linked c p n rows) :
    rows.Pairwise fun a b => c.seq a < c.seq b := by
  have hseqs : (rows.map c.seq).Pairwise (· < ·) := by
    rw [linked_seqs h]
    exact List.pairwise_lt_range'
  exact List.pairwise_map.mp hseqs

theorem insertionSort_of_linked {rows : List α} {p : μ} {n : ℕ} (h : Linked c p n rows) :
    (rows.insertionSort fun a b => c.seq a ≤ c.seq b) = rows :=
  List.Pairwise.insertionSort_eq ((sorted_of_linked h).imp fun hlt => hlt.le)

/-! ## What is left of a chain -/

/-- A sublist of a chain is a chain from the same start only if nothing before its end is missing. -/
theorem linked_sublist_iff {rows kept : List α} {p : μ} {n : ℕ} (h : Linked c p n rows)
    (hkept : kept.Sublist rows) : Linked c p n kept ↔ kept <+: rows := by
  constructor
  · intro hlinked
    induction rows generalizing kept p n with
    | nil => rw [List.sublist_nil.mp hkept]
    | cons row rest ih =>
      obtain ⟨hseq, hprev, hintact, hrest⟩ := h
      cases kept with
      | nil => exact List.nil_prefix
      | cons first others =>
        obtain ⟨hfirst, -, -, hothers⟩ := hlinked
        cases hkept with
        | cons _ hsub =>
          -- the first row left is further down, so its number is too large
          have hle := (le_seq_of_linked hrest (hsub.subset List.mem_cons_self)).1
          omega
        | cons_cons _ hsub => exact List.cons_prefix_cons.mpr ⟨rfl, ih hrest hsub hothers⟩
  · rintro ⟨more, rfl⟩
    exact (linked_append.mp h).1

/-! ## What the end of a chain says -/

/-- Where a MAC is that of one content behind one MAC, chains of one length with one end have the same
contents. -/
theorem map_eq_of_endMac {bound : α → β} {rows others : List α} {p : μ} {n : ℕ} (h : Linked c p n rows)
    (h' : Linked c p n others) (hbinds : ∀ a ∈ rows, ∀ b ∈ others, c.mac a = c.mac b →
      c.prev a = c.prev b ∧ bound a = bound b)
    (hlength : rows.length = others.length) (hend : endMac c p rows = endMac c p others) :
    rows.map bound = others.map bound := by
  induction rows using List.reverseRecOn generalizing others with
  | nil => rw [List.length_eq_zero_iff.mp hlength.symm]
  | append_singleton front a ih =>
    obtain ⟨front', b, rfl⟩ : ∃ front' b, others = front' ++ [b] := by
      refine (List.eq_nil_or_concat' others).resolve_left ?_
      rintro rfl
      simp at hlength
    rw [linked_append] at h h'
    rw [endMac_concat, endMac_concat] at hend
    obtain ⟨hprev, hbound⟩ := hbinds a (by simp) b (by simp) hend
    have hfront : endMac c p front = endMac c p front' := by
      rw [← h.2.2.1, ← h'.2.2.1, hprev]
    have hrest := ih h.1 h'.1 (fun x hx y hy => hbinds x (by simp [hx]) y (by simp [hy]))
      (by simpa using hlength) hfront
    rw [List.map_append, List.map_append, hrest, List.map_singleton, List.map_singleton, hbound]

theorem linked_take {rows : List α} {p : μ} {n : ℕ} (h : Linked c p n rows) (k : ℕ) :
    Linked c p n (rows.take k) := by
  rw [← List.take_append_drop k rows, linked_append] at h
  exact h.1

/-- The row of a number ends the rows up to it. -/
theorem endMac_take_of_seq {rows : List α} {p : μ} {n : ℕ} (h : Linked c p n rows) {row : α} (hrow : row ∈ rows)
    {k : ℕ} (hseq : c.seq row + 1 = n + k) : (rows.take k).length = k ∧ endMac c p (rows.take k) = c.mac row := by
  obtain ⟨front, rest, rfl⟩ := List.append_of_mem hrow
  have hplace : c.seq row = n + front.length := (linked_append.mp h).2.1
  have hk : k = (front ++ [row]).length := by
    rw [List.length_append, List.length_singleton]
    omega
  have htake : (front ++ row :: rest).take k = front ++ [row] := by
    rw [List.append_cons front row rest, hk, List.take_left']
    rfl
  rw [htake]
  exact ⟨hk.symm, endMac_concat c p front row⟩

/-! ## Audits -/

section Audit
variable (c)

/-- Walk the rows with the MAC and the number expected next. -/
def audit (problems : μ → ℕ → α → List β) : μ → ℕ → List α → List β
  | _, _, [] => []
  | p, n, row :: rest => problems p n row ++ audit problems (c.mac row) (n + 1) rest

variable {c}

/-- An audit whose problems are the ways a row breaks the chain reports none on chains alone. -/
theorem audit_eq_nil_iff {problems : μ → ℕ → α → List β}
    (hproblems : ∀ p n row, problems p n row = [] ↔
      c.seq row = n ∧ c.prev row = p ∧ c.intact row) {rows : List α} {p : μ} {n : ℕ} :
    audit c problems p n rows = [] ↔ Linked c p n rows := by
  induction rows generalizing p n with
  | nil => simp [audit, Linked]
  | cons row rest ih => simp only [audit, List.append_eq_nil_iff, hproblems, ih, Linked, and_assoc]

/-- An audit of rewritten rows reports what one of the rows does if the rewriting keeps what it reads. -/
theorem audit_map {problems : μ → ℕ → α → List β} {f : α → α} (hmac : ∀ row, c.mac (f row) = c.mac row)
    (hproblems : ∀ p n row, problems p n (f row) = problems p n row) (p : μ) (n : ℕ) (rows : List α) :
    audit c problems p n (rows.map f) = audit c problems p n rows := by
  induction rows generalizing p n with
  | nil => rfl
  | cons row rest ih =>
    simp only [List.map_cons, audit]
    rw [hproblems, hmac, ih]

/-- An audit of a rewritten chain reports row by row what the rewriting does to an intact one. -/
theorem audit_of_linked {problems : μ → ℕ → α → List β} {f : α → α} {report : α → List β}
    {rows : List α} {p : μ} {n : ℕ} (h : Linked c p n rows) (hmac : ∀ row, c.mac (f row) = c.mac row)
    (hreport : ∀ row ∈ rows, c.intact row → problems (c.prev row) (c.seq row) (f row) = report row) :
    audit c problems p n (rows.map f) = rows.flatMap report := by
  induction rows generalizing p n with
  | nil => rfl
  | cons row rest ih =>
    obtain ⟨hseq, hprev, hintact, hrest⟩ := h
    rw [List.map_cons, audit, List.flatMap_cons, hmac,
      ih hrest fun later hlater => hreport later (List.mem_cons_of_mem _ hlater), ← hseq, ← hprev,
      hreport row List.mem_cons_self hintact]

end Audit

end TraceQ.HashChain
