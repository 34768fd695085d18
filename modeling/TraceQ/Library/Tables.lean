import Mathlib

/-! # Tables as lists of rows

Queries and updates of a table kept as a list in insertion order, over any row type: the row with
the largest key (`ORDER BY key DESC LIMIT 1`, Python's `max`), updating the rows that satisfy a
condition, replacing the rows of one owner, and a row keyed dict in insertion order.
-/
namespace TraceQ.Tables
set_option autoImplicit false
set_option maxHeartbeats 250000

variable {α β κ : Type}

/-! ## The latest row -/

/-- The first of the rows with the largest key. -/
def latestBy [LinearOrder κ] (key : α → κ) (rows : List α) : Option α := rows.argmax key

theorem latestBy_mem [LinearOrder κ] {key : α → κ} {rows : List α} {row : α}
    (h : latestBy key rows = some row) : row ∈ rows :=
  List.argmax_mem (f := key) (Option.mem_def.mpr h)

theorem latestBy_le [LinearOrder κ] {key : α → κ} {rows : List α} {row other : α}
    (h : latestBy key rows = some row) (hother : other ∈ rows) : key other ≤ key row :=
  List.le_of_mem_argmax hother (Option.mem_def.mpr h)

@[simp] theorem latestBy_nil [LinearOrder κ] (key : α → κ) : latestBy key [] = none := rfl

theorem latestBy_eq_none [LinearOrder κ] {key : α → κ} {rows : List α} :
    latestBy key rows = none ↔ rows = [] := List.argmax_eq_none

/-- In a table appended in increasing key order the latest row is the last one. -/
theorem latestBy_eq_getLast? [LinearOrder κ] {key : α → κ} {rows : List α}
    (h : (rows.map key).Pairwise (· < ·)) : latestBy key rows = rows.getLast? := by
  rcases List.eq_nil_or_concat rows with rfl | ⟨init, last, rfl⟩
  · rfl
  · rw [List.concat_eq_append] at h ⊢
    rw [List.map_append, List.pairwise_append] at h
    rw [latestBy, List.argmax_concat, List.getLast?_concat]
    cases hmax : List.argmax key init with
    | none => rfl
    | some row =>
      have hmem : row ∈ init := List.argmax_mem (Option.mem_def.mpr hmax)
      have hlt : key row < key last :=
        h.2.2 _ (List.mem_map_of_mem hmem) _ (by simp)
      simp [hlt]

/-- The largest key does not depend on the order of the rows. -/
theorem map_latestBy_perm [LinearOrder κ] {key : α → κ} {rows rows' : List α} (h : rows.Perm rows') :
    (latestBy key rows).map key = (latestBy key rows').map key := by
  cases hlatest : latestBy key rows with
  | none =>
    obtain rfl := latestBy_eq_none.mp hlatest
    rw [← h.nil_eq, latestBy_nil]
  | some row =>
    cases hlatest' : latestBy key rows' with
    | none =>
      obtain rfl := latestBy_eq_none.mp hlatest'
      rw [h.eq_nil, latestBy_nil] at hlatest
      cases hlatest
    | some row' =>
      rw [Option.map_some, Option.map_some, Option.some.injEq]
      exact le_antisymm (latestBy_le hlatest' (h.mem_iff.mp (latestBy_mem hlatest)))
        (latestBy_le hlatest (h.mem_iff.mpr (latestBy_mem hlatest')))

/-- Reading a partial column whose values are given by a condition. -/
theorem filterMap_eq_map_filter {f : α → Option β} {g : α → β} {p : α → Prop} [DecidablePred p]
    (h : ∀ row, f row = if p row then some (g row) else none) (rows : List α) :
    rows.filterMap f = (rows.filter fun row => decide (p row)).map g := by
  induction rows with
  | nil => rfl
  | cons row rest ih =>
    rw [List.filterMap_cons, List.filter_cons, h row, ih]
    by_cases hrow : p row <;> simp [hrow]

/-- The last value of a partial column is that of the last row that has one. -/
theorem getLast?_filterMap_of_isSome {f : α → Option β} {p : α → Bool} {rows : List α}
    (h : ∀ row ∈ rows, (f row).isSome = p row) :
    (rows.filterMap f).getLast? = ((rows.filter p).getLast?).bind f := by
  induction rows using List.reverseRecOn with
  | nil => rfl
  | append_singleton rest last ih =>
    have hlast := h last (by simp)
    rw [List.filterMap_append, List.filter_append, List.filter_singleton]
    cases hf : f last with
    | none =>
      rw [hf] at hlast
      simpa [hf, ← hlast] using ih fun row hrow => h row (by simp [hrow])
    | some value =>
      rw [hf] at hlast
      simp [hf, ← hlast]

/-- The last value of a partial column after one more row. -/
theorem getLast?_filterMap_concat (f : α → Option β) (rows : List α) (row : α) :
    ((rows ++ [row]).filterMap f).getLast? = (f row).or (rows.filterMap f).getLast? := by
  rw [List.filterMap_append, List.getLast?_append]
  cases hrow : f row <;> simp [hrow]

/-- Sorting two tables gives the same view of them if the view is the same up to order and the keys
sort the rows as some order of the views does. -/
theorem map_insertionSort_congr [LinearOrder κ] {key : α → κ} {f : α → β} {r : β → β → Prop}
    {rows rows' : List α}
    (hrows : ∀ a ∈ rows, ∀ b ∈ rows, key a ≤ key b → r (f a) (f b))
    (hrows' : ∀ a ∈ rows', ∀ b ∈ rows', key a ≤ key b → r (f a) (f b))
    (hanti : ∀ a ∈ rows, ∀ b ∈ rows', r (f a) (f b) → r (f b) (f a) → f a = f b)
    (hperm : (rows.map f).Perm (rows'.map f)) :
    (rows.insertionSort fun a b => key a ≤ key b).map f =
      (rows'.insertionSort fun a b => key a ≤ key b).map f := by
  have hsorted : ∀ (table : List α), (∀ a ∈ table, ∀ b ∈ table, key a ≤ key b → r (f a) (f b)) →
      ((table.insertionSort fun a b => key a ≤ key b).map f).Pairwise r := by
    intro table htable
    rw [List.pairwise_map]
    refine (List.pairwise_insertionSort (fun a b => key a ≤ key b) table).imp_of_mem ?_
    intro a b ha hb hle
    rw [List.mem_insertionSort] at ha hb
    exact htable a ha b hb hle
  refine List.Perm.eq_of_pairwise ?_ (hsorted rows hrows) (hsorted rows' hrows') ?_
  · intro x y hx hy hxy hyx
    obtain ⟨a, ha, rfl⟩ := List.mem_map.mp hx
    obtain ⟨b, hb, rfl⟩ := List.mem_map.mp hy
    rw [List.mem_insertionSort] at ha hb
    exact hanti a ha b hb hxy hyx
  · exact ((List.perm_insertionSort _ rows).map f).trans
      (hperm.trans ((List.perm_insertionSort _ rows').map f).symm)

/-! ## Updating rows -/

/-- `UPDATE`: apply `f` to the rows that satisfy `p`. -/
def modifyWhere (p : α → Bool) (f : α → α) (rows : List α) : List α :=
  rows.map fun row => if p row then f row else row

theorem mem_modifyWhere {p : α → Bool} {f : α → α} {rows : List α} {row : α} :
    row ∈ modifyWhere p f rows ↔ ∃ old ∈ rows, row = if p old then f old else old := by
  simp only [modifyWhere, List.mem_map, eq_comm]

/-- A column that the update keeps reads the same in every row. -/
theorem map_modifyWhere {p : α → Bool} {f : α → α} {column : α → β}
    (h : ∀ row, column (f row) = column row) (rows : List α) :
    (modifyWhere p f rows).map column = rows.map column := by
  simp only [modifyWhere, List.map_map]
  refine List.map_congr_left fun row _ => ?_
  by_cases hp : p row = true <;> simp [hp, h]

/-- Rewriting the row of one key leaves every other row. -/
theorem mem_modifyWhere_other [DecidableEq κ] {keyOf : α → κ} {key : κ} {f : α → α}
    (hf : ∀ row, keyOf row = key → keyOf (f row) = key) {rows : List α} {row : α}
    (hrow : keyOf row ≠ key) :
    row ∈ modifyWhere (fun row => decide (keyOf row = key)) f rows ↔ row ∈ rows := by
  rw [mem_modifyWhere]
  constructor
  · rintro ⟨old, hold, rfl⟩
    by_cases hid : keyOf old = key
    · simp only [hid, decide_true, if_true] at hrow
      exact absurd (hf old hid) hrow
    · simpa only [hid, decide_false, Bool.false_eq_true, if_false] using hold
  · exact fun hmem => ⟨row, hmem, by simp [hrow]⟩

theorem find?_modifyWhere {p q : α → Bool} {f : α → α} (h : ∀ row, q (f row) = q row)
    (rows : List α) :
    (modifyWhere p f rows).find? q =
      (rows.find? q).map fun row => if p row then f row else row := by
  induction rows with
  | nil => rfl
  | cons row rest ih =>
    have hq : q (if p row then f row else row) = q row := by
      by_cases hp : p row = true <;> simp [hp, h]
    simp only [modifyWhere, List.map_cons, List.find?_cons, hq] at ih ⊢
    cases q row with
    | true => rfl
    | false => exact ih

theorem filter_modifyWhere {p q : α → Bool} {f : α → α} (h : ∀ row, q (f row) = q row)
    (rows : List α) :
    (modifyWhere p f rows).filter q = modifyWhere p f (rows.filter q) := by
  induction rows with
  | nil => rfl
  | cons row rest ih =>
    have hq : q (if p row then f row else row) = q row := by
      by_cases hp : p row = true <;> simp [hp, h]
    simp only [modifyWhere, List.map_cons, List.filter_cons, hq] at ih ⊢
    cases q row with
    | true => simp [ih]
    | false => simpa using ih

/-- A sequence of updates changes every row by its own sequence of changes. -/
theorem foldl_modifyWhere (p : β → α → Bool) (f : β → α → α) (updates : List β) (rows : List α) :
    updates.foldl (fun rows u => modifyWhere (p u) (f u) rows) rows =
      rows.map fun row => updates.foldl (fun row u => if p u row then f u row else row) row := by
  induction updates generalizing rows with
  | nil => simp
  | cons u rest ih =>
    rw [List.foldl_cons, ih, modifyWhere, List.map_map]
    rfl

/-- An update that changes no row it selects does nothing. -/
theorem modifyWhere_eq_self {p : α → Bool} {f : α → α} {rows : List α}
    (h : ∀ row ∈ rows, p row = true → f row = row) : modifyWhere p f rows = rows := by
  simp only [modifyWhere]
  refine (List.map_congr_left fun row hrow => ?_).trans (List.map_id rows)
  by_cases hp : p row = true <;> simp [hp]
  exact h row hrow hp

/-! ## Unique columns -/

/-- Two rows of a table with the same value in a unique column are the same row. -/
theorem eq_of_nodup_map {key : α → κ} {rows : List α} (h : (rows.map key).Nodup) {a b : α}
    (ha : a ∈ rows) (hb : b ∈ rows) (hkey : key a = key b) : a = b :=
  List.inj_on_of_nodup_map h ha hb hkey

/-- Appending a row with a fresh key keeps the column unique. -/
theorem nodup_map_append {key : α → κ} {rows : List α} {row : α} (h : (rows.map key).Nodup)
    (hfresh : ∀ old ∈ rows, key old ≠ key row) : ((rows ++ [row]).map key).Nodup := by
  rw [List.map_append, List.nodup_append]
  refine ⟨h, by simp, ?_⟩
  intro a ha b hb
  obtain ⟨old, hold, rfl⟩ := List.mem_map.mp ha
  have hb' : b = key row := by simpa using hb
  rw [hb']
  exact hfresh old hold

/-- A lookup by a condition at most one row satisfies finds that row. -/
theorem find?_eq_some_iff {p : α → Bool} {rows : List α} {row : α}
    (h : ∀ a ∈ rows, ∀ b ∈ rows, p a = true → p b = true → a = b) :
    rows.find? p = some row ↔ row ∈ rows ∧ p row = true := by
  constructor
  · intro hfind
    exact ⟨List.mem_of_find?_eq_some hfind, List.find?_some hfind⟩
  · rintro ⟨hmem, hp⟩
    cases hfind : rows.find? p with
    | none => exact absurd hp (by simpa using List.find?_eq_none.mp hfind row hmem)
    | some found =>
      have hfound : p found = true := List.find?_some hfind
      rw [h found (List.mem_of_find?_eq_some hfind) row hmem hfound hp]

/-- What an association list finds is one of its entries. -/
theorem mem_of_lookup [DecidableEq κ] {entries : List (κ × β)} {key : κ} {value : β}
    (h : entries.lookup key = some value) : (key, value) ∈ entries := by
  obtain ⟨front, back, heq, -⟩ := List.lookup_eq_some_iff.mp h
  rw [heq]
  exact List.mem_append_right _ List.mem_cons_self

/-- The lookup of a row by a unique column. -/
theorem find?_key_eq_some_iff [DecidableEq κ] {key : α → κ} {rows : List α}
    (h : (rows.map key).Nodup) {k : κ} {row : α} :
    (rows.find? fun r => decide (key r = k)) = some row ↔ row ∈ rows ∧ key row = k := by
  rw [find?_eq_some_iff]
  · simp
  · intro a ha b hb hpa hpb
    simp only [decide_eq_true_eq] at hpa hpb
    exact eq_of_nodup_map h ha hb (hpa.trans hpb.symm)

/-- Replacing one row of a unique column changes a sum over the table by the weights of the two. -/
theorem sum_replace [DecidableEq κ] {key : α → κ} (weight : α → ℕ) {rows : List α}
    (h : (rows.map key).Nodup) {row : α} (hrow : row ∈ rows) (row' : α) :
    ((modifyWhere (fun old => decide (key old = key row)) (fun _ => row') rows).map weight).sum +
      weight row = (rows.map weight).sum + weight row' := by
  induction rows with
  | nil => cases hrow
  | cons head rest ih =>
    rw [List.map_cons, List.nodup_cons] at h
    simp only [modifyWhere, List.map_cons, List.sum_cons] at ih ⊢
    rcases List.mem_cons.mp hrow with rfl | hmem
    · have hrest : (rest.map fun old => if decide (key old = key row) then row' else old) = rest := by
        refine (List.map_congr_left fun old hold => ?_).trans (List.map_id rest)
        have hne : key old ≠ key row := fun heq => h.1 (heq ▸ List.mem_map_of_mem hold)
        simp [hne]
      rw [hrest]
      simp only [decide_true, if_true]
      omega
    · have hne : key head ≠ key row := fun heq => h.1 (heq ▸ List.mem_map_of_mem hmem)
      have hih := ih h.2 hmem
      simp only [hne, decide_false, Bool.false_eq_true, if_false]
      omega

/-! ## Replacing the rows of one owner -/

/-- `DELETE` the rows of `owner`, then append new ones. -/
def replaceOwned [DecidableEq κ] (ownerOf : α → κ) (owner : κ) (rows fresh : List α) : List α :=
  rows.filter (fun row => decide (ownerOf row ≠ owner)) ++ fresh

/-- The rows of one owner. -/
def ownedBy [DecidableEq κ] (ownerOf : α → κ) (owner : κ) (rows : List α) : List α :=
  rows.filter fun row => decide (ownerOf row = owner)

theorem ownedBy_replaceOwned_self [DecidableEq κ] {ownerOf : α → κ} {owner : κ} {fresh : List α}
    (h : ∀ row ∈ fresh, ownerOf row = owner) (rows : List α) :
    ownedBy ownerOf owner (replaceOwned ownerOf owner rows fresh) = fresh := by
  have hold : ownedBy ownerOf owner (rows.filter fun row => decide (ownerOf row ≠ owner)) = [] := by
    rw [ownedBy, List.filter_filter, List.filter_eq_nil_iff]
    intro row _
    simp
  have hnew : ownedBy ownerOf owner fresh = fresh :=
    List.filter_eq_self.mpr fun row hrow => by simp [h row hrow]
  rw [replaceOwned, ownedBy, List.filter_append]
  rw [ownedBy] at hold hnew
  rw [hold, hnew, List.nil_append]

theorem ownedBy_replaceOwned_other [DecidableEq κ] {ownerOf : α → κ} {owner other : κ}
    {fresh : List α} (hne : other ≠ owner) (h : ∀ row ∈ fresh, ownerOf row = owner)
    (rows : List α) :
    ownedBy ownerOf other (replaceOwned ownerOf owner rows fresh) = ownedBy ownerOf other rows := by
  have hnew : fresh.filter (fun row => decide (ownerOf row = other)) = [] := by
    rw [List.filter_eq_nil_iff]
    intro row hrow
    simpa [h row hrow] using Ne.symm hne
  simp only [ownedBy, replaceOwned]
  rw [List.filter_append, hnew, List.append_nil, List.filter_filter]
  refine List.filter_congr fun row _ => ?_
  by_cases ho : ownerOf row = other
  · simp [ho, hne]
  · simp [ho]

/-- Replacing the rows of an owner by the rows it has does nothing. -/
theorem replaceOwned_again [DecidableEq κ] {ownerOf : α → κ} {owner : κ} {fresh : List α}
    (h : ∀ row ∈ fresh, ownerOf row = owner) (rows : List α) :
    replaceOwned ownerOf owner (replaceOwned ownerOf owner rows fresh) fresh =
      replaceOwned ownerOf owner rows fresh := by
  have hnew : fresh.filter (fun row => decide (ownerOf row ≠ owner)) = [] := by
    rw [List.filter_eq_nil_iff]
    intro row hrow
    simp [h row hrow]
  rw [replaceOwned, replaceOwned, List.filter_append, hnew, List.append_nil, List.filter_filter]
  simp only [Bool.and_self]

theorem mem_ownedBy [DecidableEq κ] {ownerOf : α → κ} {owner : κ} {rows : List α} {row : α} :
    row ∈ ownedBy ownerOf owner rows ↔ row ∈ rows ∧ ownerOf row = owner := by
  simp [ownedBy]

/-! ## Dicts in insertion order -/

/-- `d.setdefault(key, blank)` followed by an update of that entry. -/
def upsert [DecidableEq κ] (keyOf : α → κ) (key : κ) (blank : α) (f : α → α) : List α → List α
  | [] => [f blank]
  | row :: rest =>
      if keyOf row = key then f row :: rest else row :: upsert keyOf key blank f rest

/-- The entry of the key is there afterwards. -/
theorem exists_mem_upsert [DecidableEq κ] {keyOf : α → κ} {key : κ} {blank : α} {f : α → α}
    (hblank : keyOf blank = key) (rows : List α) :
    ∃ old, keyOf old = key ∧ f old ∈ upsert keyOf key blank f rows := by
  induction rows with
  | nil => exact ⟨blank, hblank, by simp [upsert]⟩
  | cons head rest ih =>
    by_cases hkey : keyOf head = key
    · exact ⟨head, hkey, by simp [upsert, hkey]⟩
    · obtain ⟨old, hold, hmem⟩ := ih
      exact ⟨old, hold, by simp [upsert, hkey, hmem]⟩

/-- The row found under the key is the updated one, or the updated blank. -/
theorem find?_upsert_self [DecidableEq κ] {keyOf : α → κ} {key : κ} {blank : α} {f : α → α}
    (hblank : keyOf blank = key) (hf : ∀ row, keyOf (f row) = keyOf row) (rows : List α) :
    (upsert keyOf key blank f rows).find? (fun row => decide (keyOf row = key)) =
      some (f ((rows.find? fun row => decide (keyOf row = key)).getD blank)) := by
  induction rows with
  | nil => simp [upsert, hf, hblank]
  | cons head rest ih =>
    by_cases hkey : keyOf head = key
    · simp [upsert, hkey, hf]
    · simpa [upsert, hkey] using ih

/-- The entries of other keys stay. -/
theorem mem_upsert_other [DecidableEq κ] {keyOf : α → κ} {key : κ} {blank : α} {f : α → α}
    (hblank : keyOf blank = key) (hf : ∀ row, keyOf (f row) = keyOf row) {rows : List α} {row : α}
    (hrow : keyOf row ≠ key) : row ∈ upsert keyOf key blank f rows ↔ row ∈ rows := by
  have hne : ∀ old, keyOf old = key → row ≠ f old := by
    intro old hold heq
    exact hrow (by rw [heq, hf, hold])
  induction rows with
  | nil => simp [upsert, hne blank hblank]
  | cons head rest ih =>
    by_cases hkey : keyOf head = key
    · have hhead : row ≠ head := fun heq => hrow (heq ▸ hkey)
      simp [upsert, hkey, hne head hkey, hhead]
    · simp [upsert, hkey, ih]

/-- The keys of a dict after an update. -/
theorem map_upsert [DecidableEq κ] {keyOf : α → κ} {key : κ} {blank : α} {f : α → α}
    (hblank : keyOf blank = key) (hf : ∀ row, keyOf (f row) = keyOf row) (rows : List α) :
    (upsert keyOf key blank f rows).map keyOf =
      if key ∈ rows.map keyOf then rows.map keyOf else rows.map keyOf ++ [key] := by
  induction rows with
  | nil => simp [upsert, hf, hblank]
  | cons head rest ih =>
    by_cases hkey : keyOf head = key
    · simp [upsert, hkey, hf]
    · have hne : key ≠ keyOf head := fun h => hkey h.symm
      simp only [upsert, hkey, if_false, List.map_cons, ih, List.mem_cons, hne, false_or]
      split <;> simp

theorem nodup_upsert [DecidableEq κ] {keyOf : α → κ} {key : κ} {blank : α} {f : α → α}
    (hblank : keyOf blank = key) (hf : ∀ row, keyOf (f row) = keyOf row) {rows : List α}
    (h : (rows.map keyOf).Nodup) : ((upsert keyOf key blank f rows).map keyOf).Nodup := by
  rw [map_upsert hblank hf]
  split
  · exact h
  · rename_i hkey
    rw [List.nodup_append]
    exact ⟨h, by simp, fun a ha b hb => by
      rw [List.mem_singleton.mp hb]
      exact fun heq => hkey (heq ▸ ha)⟩

/-- The entry of the key is the updated one. -/
theorem mem_upsert_self [DecidableEq κ] {keyOf : α → κ} {key : κ} {blank : α} {f : α → α}
    {rows : List α} (h : (rows.map keyOf).Nodup) {row : α}
    (hrow : row ∈ upsert keyOf key blank f rows) (hkey : keyOf row = key) :
    ∃ old, (old = blank ∨ old ∈ rows ∧ keyOf old = key) ∧ row = f old := by
  induction rows with
  | nil => exact ⟨blank, .inl rfl, by simpa [upsert] using hrow⟩
  | cons head rest ih =>
    rw [List.map_cons, List.nodup_cons] at h
    by_cases hhead : keyOf head = key
    · rw [upsert, if_pos hhead] at hrow
      rcases List.mem_cons.mp hrow with rfl | hmem
      · exact ⟨head, .inr ⟨List.mem_cons_self, hhead⟩, rfl⟩
      · have hsame : keyOf head ∈ rest.map keyOf :=
          List.mem_map.mpr ⟨row, hmem, hkey.trans hhead.symm⟩
        exact absurd hsame h.1
    · rw [upsert, if_neg hhead] at hrow
      rcases List.mem_cons.mp hrow with rfl | hmem
      · exact absurd hkey hhead
      · obtain ⟨old, hold | ⟨hold, hid⟩, heq⟩ := ih h.2 hmem
        · exact ⟨old, .inl hold, heq⟩
        · exact ⟨old, .inr ⟨List.mem_cons_of_mem _ hold, hid⟩, heq⟩

/-! ## Files by key -/

section Files
variable {V : Type} [DecidableEq κ]

/-- Change the file of the entry's key and no other. -/
def fileAt (key : α → κ) (change : V → α → V) (files : κ → V) (entry : α) : κ → V :=
  Function.update files (key entry) (change (files (key entry)) entry)

theorem fileAt_self {key : α → κ} {change : V → α → V} {files : κ → V} {entry : α} :
    fileAt key change files entry (key entry) = change (files (key entry)) entry :=
  Function.update_self _ _ _

theorem fileAt_other {key : α → κ} {change : V → α → V} {files : κ → V} {entry : α} {k : κ}
    (h : k ≠ key entry) : fileAt key change files entry k = files k :=
  Function.update_of_ne h _ _

/-- The file of a key collects the entries of that key in order. -/
theorem foldl_fileAt (key : α → κ) (change : V → α → V) (files : κ → V) (entries : List α) (k : κ) :
    entries.foldl (fileAt key change) files k =
      (entries.filter fun entry => decide (key entry = k)).foldl change (files k) := by
  induction entries generalizing files with
  | nil => rfl
  | cons entry rest ih =>
    rw [List.foldl_cons, ih, List.filter_cons]
    by_cases h : key entry = k
    · subst h
      simp [fileAt_self]
    · simp [h, fileAt_other (Ne.symm h)]

end Files

end TraceQ.Tables
