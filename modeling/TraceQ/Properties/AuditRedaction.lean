import TraceQ.Security.Audit

/-! # Redacted audit details

Values that differ below sensitive keys alone are recorded alike, and recording what was recorded changes
nothing.
-/
namespace TraceQ.Properties
open Audit Tables
set_option autoImplicit false
set_option maxHeartbeats 250000

variable {lower : String → String}

/-! ## Dicts -/

/-- Entries of the same keys with equal values. -/
def SameEntries {κ : Type} : List (κ × PyValue) → List (κ × PyValue) → Prop :=
  List.Forall₂ fun a b => a.1 = b.1 ∧ Same a.2 b.2

theorem agreeEntries_of_same {entries others : List (PyKey × PyValue)} (h : SameEntries entries others) :
    AgreeEntries (fun _ => False) entries others := by
  induction h with
  | nil => rfl
  | @cons a b _ _ hfirst _ ih => exact ⟨b.2, _, by rw [hfirst.1], .inr hfirst.2, ih⟩

theorem setEntry_same {entries others : List (PyKey × PyValue)} {a b : String × PyValue}
    (h : SameEntries entries others) (hkey : a.1 = b.1) (hvalue : Same a.2 b.2) :
    SameEntries (setEntry entries a) (setEntry others b) := by
  unfold setEntry
  induction h with
  | nil => exact .cons ⟨congrArg PyKey.str hkey, hvalue⟩ .nil
  | @cons c d rest more hfirst hrest ih =>
    simp only [upsert, hfirst.1, hkey]
    split
    · exact .cons ⟨rfl, hvalue⟩ hrest
    · rw [hkey] at ih
      exact .cons hfirst ih

theorem dictOf_same {entries others : List (String × PyValue)} (h : SameEntries entries others) :
    SameEntries (dictOf entries) (dictOf others) := by
  have hfold : ∀ start start' : List (PyKey × PyValue), SameEntries start start' →
      SameEntries (entries.foldl setEntry start) (others.foldl setEntry start') := by
    induction h with
    | nil => exact fun _ _ hstart => hstart
    | cons hfirst _ ih => exact fun _ _ hstart => ih _ _ (setEntry_same hstart hfirst.1 hfirst.2)
  exact hfold [] [] .nil

theorem setEntry_keys (entries : List (PyKey × PyValue)) (entry : String × PyValue) :
    (setEntry entries entry).map (·.1) = if PyKey.str entry.1 ∈ entries.map (·.1)
      then entries.map (·.1) else entries.map (·.1) ++ [.str entry.1] := by
  unfold setEntry
  induction entries with
  | nil => rfl
  | cons first rest ih =>
    by_cases hkey : first.1 = PyKey.str entry.1
    · simp [upsert, hkey]
    · have hne : ¬ PyKey.str entry.1 = first.1 := fun h => hkey h.symm
      simp only [upsert, hkey, if_false, List.map_cons, ih, List.mem_cons, hne, false_or]
      split <;> simp

theorem setEntry_absent {entries : List (PyKey × PyValue)} {entry : String × PyValue}
    (h : PyKey.str entry.1 ∉ entries.map (·.1)) : setEntry entries entry = entries ++ [(.str entry.1, entry.2)] := by
  unfold setEntry
  induction entries with
  | nil => rfl
  | cons first rest ih =>
    rw [List.map_cons, List.mem_cons, not_or] at h
    rw [upsert, if_neg fun hkey => h.1 hkey.symm, ih h.2, List.cons_append]

/-- Entries of different keys all stay, in their order. -/
theorem dictOf_distinct {entries : List (String × PyValue)} (h : (entries.map (·.1)).Nodup) :
    dictOf entries = entries.map fun entry => (.str entry.1, entry.2) := by
  have hfold : ∀ start : List (PyKey × PyValue), (∀ entry ∈ entries, PyKey.str entry.1 ∉ start.map (·.1)) →
      entries.foldl setEntry start = start ++ entries.map fun entry => (.str entry.1, entry.2) := by
    induction entries with
    | nil => exact fun start _ => (List.append_nil start).symm
    | cons first rest ih =>
      intro start hstart
      rw [List.map_cons, List.nodup_cons] at h
      rw [List.foldl_cons, setEntry_absent (hstart first List.mem_cons_self), ih h.2, List.map_cons,
        List.append_assoc, List.singleton_append]
      intro entry hentry hin
      rw [List.map_append, List.mem_append] at hin
      rcases hin with hold | hnew
      · exact hstart entry (List.mem_cons_of_mem _ hentry) hold
      · have hsame : entry.1 = first.1 := by simpa using hnew
        exact h.1 (hsame ▸ List.mem_map_of_mem hentry)
  exact (hfold [] fun entry _ => List.not_mem_nil).trans (List.nil_append _)

/-! ## Two values -/

theorem sanitizeEntries_eq_map (entries : List (PyKey × PyValue)) : sanitizeEntries lower entries =
    entries.map fun entry => (entry.1.text,
      if Sensitive lower entry.1.text then .str "[REDACTED]" else sanitize lower entry.2) := by
  induction entries with
  | nil => rfl
  | cons entry rest ih => rw [List.map_cons, ← ih, sanitizeEntries]

/-- The order of entries of different texts only orders the entries of the result. -/
theorem sanitize_reordered {entries others : List (PyKey × PyValue)} (h : Reordered entries others) :
    Reordered (dictOf (sanitizeEntries lower entries)) (dictOf (sanitizeEntries lower others)) := by
  rcases h with rfl | ⟨hdistinct, hperm⟩
  · exact .inl rfl
  · have htexts : ∀ list : List (PyKey × PyValue),
        (sanitizeEntries lower list).map (·.1) = list.map (·.1.text) := by
      intro list
      rw [sanitizeEntries_eq_map, List.map_map]
      rfl
    have hfirst : ((sanitizeEntries lower entries).map (·.1)).Nodup := by rwa [htexts]
    have hsecond : ((sanitizeEntries lower others).map (·.1)).Nodup := by
      rw [htexts]
      exact (hperm.map _).nodup_iff.mp hdistinct
    rw [dictOf_distinct hfirst, dictOf_distinct hsecond]
    refine .inr ⟨?_, ?_⟩
    · rw [List.map_map]
      exact hfirst
    · rw [sanitizeEntries_eq_map, sanitizeEntries_eq_map]
      exact (hperm.map _).map _

mutual
theorem sanitize_same : ∀ a b : PyValue, Agree (Sensitive lower) a b →
    Same (sanitize lower a) (sanitize lower b)
  | .dict entries, b, h => by
      obtain ⟨others, sorted, rfl, horder, hentries⟩ := h
      exact ⟨_, _, rfl, sanitize_reordered horder,
        agreeEntries_of_same (dictOf_same (sanitizeEntries_same entries sorted hentries))⟩
  | .list values, b, h => by
      obtain ⟨others, rfl, hvalues⟩ := h
      exact ⟨_, rfl, sanitizeList_same values others hvalues⟩
  | .str text, b, h => by
      cases h
      rfl
  | .other text, b, h => by
      cases h
      rfl
  | .int value, b, h => by
      cases h
      rfl
  | .float token, b, h => by
      cases h
      rfl
  | .bool value, b, h => by
      cases h
      rfl
  | .none, b, h => by
      cases h
      rfl
theorem sanitizeList_same : ∀ values others : List PyValue, AgreeList (Sensitive lower) values others →
    AgreeList (fun _ => False) (sanitizeList lower values) (sanitizeList lower others)
  | [], others, h => by
      cases h
      rfl
  | value :: rest, others, h => by
      obtain ⟨other, more, rfl, hfirst, hrest⟩ := h
      exact ⟨_, _, rfl, sanitize_same value other hfirst, sanitizeList_same rest more hrest⟩
theorem sanitizeEntries_same : ∀ entries others : List (PyKey × PyValue),
    AgreeEntries (Sensitive lower) entries others →
      SameEntries (sanitizeEntries lower entries) (sanitizeEntries lower others)
  | [], others, h => by
      cases h
      exact .nil
  | (key, value) :: rest, others, h => by
      obtain ⟨other, more, rfl, hvalue, hrest⟩ := h
      refine .cons ⟨rfl, ?_⟩ (sanitizeEntries_same rest more hrest)
      by_cases hsecret : Sensitive lower key.text
      · simp only [if_pos hsecret]
        rfl
      · simp only [if_neg hsecret]
        exact sanitize_same value other (hvalue.resolve_left hsecret)
end

/-! ## Twice -/

theorem truncated_twice (text : String) : truncated (truncated text) = truncated text := by
  by_cases hlong : 1000 < text.length
  · have hfirst : truncated text = String.ofList (text.toList.take 1000) ++ "…" := if_pos hlong
    have hlength : (text.toList.take 1000).length = 1000 := by
      rw [List.length_take, String.length_toList]
      omega
    rw [hfirst, truncated, if_pos]
    · rw [String.toList_append, String.toList_ofList, List.take_left' hlength]
    · rw [String.length_append, String.length_ofList, hlength]
      decide
  · have hfirst : truncated text = text := if_neg hlong
    rw [hfirst, hfirst]

mutual
/-- What `_sanitize` returns. -/
def Redacted (lower : String → String) : PyValue → Prop
  | .dict entries => (entries.map (·.1)).Nodup ∧ RedactedEntries lower entries
  | .list values => RedactedList lower values
  | .str text => truncated text = text
  | .other _ => False
  | _ => True
def RedactedList (lower : String → String) : List PyValue → Prop
  | [] => True
  | value :: rest => Redacted lower value ∧ RedactedList lower rest
def RedactedEntries (lower : String → String) : List (PyKey × PyValue) → Prop
  | [] => True
  | (key, value) :: rest => key = .str key.text ∧
      (if Sensitive lower key.text then value = .str "[REDACTED]" else Redacted lower value) ∧ RedactedEntries lower rest
end

/-- The condition on one entry. -/
def RedactedEntry (lower : String → String) (entry : PyKey × PyValue) : Prop :=
  entry.1 = .str entry.1.text ∧
    if Sensitive lower entry.1.text then entry.2 = .str "[REDACTED]" else Redacted lower entry.2

theorem redactedEntries_iff {entries : List (PyKey × PyValue)} :
    RedactedEntries lower entries ↔ ∀ entry ∈ entries, RedactedEntry lower entry := by
  induction entries with
  | nil => exact ⟨fun _ entry hentry => (by cases hentry), fun _ => trivial⟩
  | cons entry rest ih => rw [List.forall_mem_cons, RedactedEntries, ih, RedactedEntry, and_assoc]

theorem setEntry_redacted {entries : List (PyKey × PyValue)} {entry : String × PyValue}
    (hdistinct : (entries.map (·.1)).Nodup) (hall : ∀ old ∈ entries, RedactedEntry lower old)
    (hentry : RedactedEntry lower (.str entry.1, entry.2)) : ((setEntry entries entry).map (·.1)).Nodup ∧
      ∀ row ∈ setEntry entries entry, RedactedEntry lower row := by
  constructor
  · rw [setEntry_keys]
    split
    · exact hdistinct
    · rename_i habsent
      rw [List.nodup_append]
      refine ⟨hdistinct, List.nodup_singleton _, fun a ha b hb => ?_⟩
      rw [List.mem_singleton.mp hb]
      exact fun heq => habsent (heq ▸ ha)
  · unfold setEntry
    clear hdistinct
    induction entries with
    | nil =>
      intro row hrow
      rw [List.mem_singleton.mp hrow]
      exact hentry
    | cons first rest ih =>
      obtain ⟨hfirst, hrest⟩ := List.forall_mem_cons.mp hall
      rw [upsert]
      split
      · exact List.forall_mem_cons.mpr ⟨hentry, hrest⟩
      · exact List.forall_mem_cons.mpr ⟨hfirst, ih hrest⟩

theorem dictOf_redacted {entries : List (String × PyValue)}
    (h : ∀ entry ∈ entries, RedactedEntry lower (.str entry.1, entry.2)) :
    ((dictOf entries).map (·.1)).Nodup ∧ ∀ row ∈ dictOf entries, RedactedEntry lower row := by
  have hfold : ∀ start : List (PyKey × PyValue), (start.map (·.1)).Nodup → (∀ row ∈ start, RedactedEntry lower row) →
      ((entries.foldl setEntry start).map (·.1)).Nodup ∧
        ∀ row ∈ entries.foldl setEntry start, RedactedEntry lower row := by
    induction entries with
    | nil => exact fun _ hdistinct hall => ⟨hdistinct, hall⟩
    | cons first rest ih =>
      obtain ⟨hfirst, hrest⟩ := List.forall_mem_cons.mp h
      intro start hdistinct hall
      obtain ⟨hdistinct', hall'⟩ := setEntry_redacted hdistinct hall hfirst
      exact ih hrest _ hdistinct' hall'
  exact hfold [] List.nodup_nil fun row hrow => by cases hrow

mutual
theorem redacted_sanitize : ∀ value : PyValue, Redacted lower (sanitize lower value)
  | .dict entries => by
      obtain ⟨hdistinct, hall⟩ := dictOf_redacted (redacted_sanitizeEntries entries)
      exact ⟨hdistinct, redactedEntries_iff.mpr hall⟩
  | .list values => redacted_sanitizeList values
  | .str text => truncated_twice text
  | .other text => truncated_twice text
  | .int _ => trivial
  | .float _ => trivial
  | .bool _ => trivial
  | .none => trivial
theorem redacted_sanitizeList : ∀ values : List PyValue, RedactedList lower (sanitizeList lower values)
  | [] => trivial
  | value :: rest => ⟨redacted_sanitize value, redacted_sanitizeList rest⟩
theorem redacted_sanitizeEntries : ∀ entries : List (PyKey × PyValue),
    ∀ entry ∈ sanitizeEntries lower entries, RedactedEntry lower (.str entry.1, entry.2)
  | [], entry, h => by cases h
  | (key, value) :: rest, entry, h => by
      rcases List.mem_cons.mp h with rfl | hrest
      · refine ⟨rfl, ?_⟩
        by_cases hsecret : Sensitive lower key.text
        · exact (if_pos hsecret).mpr (if_pos hsecret)
        · refine (if_neg hsecret).mpr ?_
          show Redacted lower (if Sensitive lower key.text then .str "[REDACTED]" else sanitize lower value)
          rw [if_neg hsecret]
          exact redacted_sanitize value
      · exact redacted_sanitizeEntries rest entry hrest
end

theorem dictOf_strings {entries : List (PyKey × PyValue)} (hdistinct : (entries.map (·.1)).Nodup)
    (hstrings : ∀ entry ∈ entries, entry.1 = .str entry.1.text) :
    dictOf (entries.map fun entry => (entry.1.text, entry.2)) = entries := by
  have htexts : ((entries.map fun entry => (entry.1.text, entry.2)).map (·.1)).Nodup := by
    rw [List.map_map]
    refine List.Nodup.map_on ?_ hdistinct.of_map
    intro a ha b hb hsame
    have hkey : a.1 = b.1 := by
      rw [hstrings a ha, hstrings b hb]
      exact congrArg PyKey.str hsame
    exact eq_of_nodup_map hdistinct ha hb hkey
  rw [dictOf_distinct htexts, List.map_map]
  refine (List.map_congr_left fun entry hentry => ?_).trans (List.map_id entries)
  exact Prod.ext (hstrings entry hentry).symm rfl

mutual
theorem sanitize_redacted : ∀ value : PyValue, Redacted lower value → sanitize lower value = value
  | .dict entries, h => by
      have hentries := sanitizeEntries_redacted entries h.2
      have hstrings := fun entry hentry => (redactedEntries_iff.mp h.2 entry hentry).1
      rw [sanitize, hentries, dictOf_strings h.1 hstrings]
  | .list values, h => by rw [sanitize, sanitizeList_redacted values h]
  | .str text, h => by
      have htext : truncated text = text := h
      rw [sanitize, htext]
  | .other _, h => h.elim
  | .int _, _ => rfl
  | .float _, _ => rfl
  | .bool _, _ => rfl
  | .none, _ => rfl
theorem sanitizeList_redacted : ∀ values : List PyValue, RedactedList lower values → sanitizeList lower values = values
  | [], _ => rfl
  | value :: rest, h => by rw [sanitizeList, sanitize_redacted value h.1, sanitizeList_redacted rest h.2]
theorem sanitizeEntries_redacted : ∀ entries : List (PyKey × PyValue), RedactedEntries lower entries →
    sanitizeEntries lower entries = entries.map fun entry => (entry.1.text, entry.2)
  | [], _ => rfl
  | (key, value) :: rest, h => by
      rw [sanitizeEntries, sanitizeEntries_redacted rest h.2.2, List.map_cons]
      have hvalue := h.2.1
      by_cases hsecret : Sensitive lower key.text
      · rw [if_pos hsecret] at hvalue ⊢
        rw [hvalue]
      · rw [if_neg hsecret] at hvalue ⊢
        rw [sanitize_redacted value hvalue]
end

/-- Whatever differs below sensitive keys alone is recorded as equal values, and what is recorded is recorded
as it is. -/
theorem redaction_hides_and_repeats (lower : String → String) :
    (∀ a b : PyValue, Agree (Sensitive lower) a b → Same (sanitize lower a) (sanitize lower b)) ∧
      ∀ value : PyValue, sanitize lower (sanitize lower value) = sanitize lower value :=
  ⟨sanitize_same, fun value => sanitize_redacted _ (redacted_sanitize value)⟩

/-- The details of a login. -/
def loginDetails (password : String) : PyValue :=
  .dict [(.str "user", .dict [(.str "name", .str "anna"), (.str "Password", .str password)]), (.int 3, .none)]

/-- The same login with another password, its entries the other way round. -/
def loginReordered (password : String) : PyValue :=
  .dict [(.int 3, .none), (.str "user", .dict [(.str "Password", .str password), (.str "name", .str "anna")])]

theorem loginDetails_agree (password other : String) :
    Agree (Sensitive String.toLower) (loginDetails password) (loginReordered other) := by
  have hsecret : Sensitive String.toLower "Password" := by decide +kernel
  have hkeys : ["Password", "name"].Nodup := by decide
  have houter : [PyKey.text (.int 3), "user"].Nodup := by decide
  have huser : Agree (Sensitive String.toLower)
      (.dict [(.str "name", .str "anna"), (.str "Password", .str password)])
      (.dict [(.str "Password", .str other), (.str "name", .str "anna")]) :=
    ⟨_, [(.str "name", .str "anna"), (.str "Password", .str other)], rfl, .inr ⟨hkeys, List.Perm.swap _ _ _⟩,
      _, _, rfl, .inr rfl, _, _, rfl, .inl hsecret, rfl⟩
  exact ⟨_, _, rfl, .inr ⟨houter, List.Perm.swap _ _ _⟩, _, _, rfl, .inr huser, _, _, rfl, .inr rfl, rfl⟩

theorem redaction_hides_and_repeats_passwords :
    Same (sanitize String.toLower (loginDetails "secret"))
        (sanitize String.toLower (loginReordered "another secret")) ∧
      sanitize String.toLower (sanitize String.toLower (loginDetails "secret")) =
        sanitize String.toLower (loginDetails "secret") := by
  obtain ⟨hhides, hrepeats⟩ := redaction_hides_and_repeats String.toLower
  exact ⟨hhides _ _ (loginDetails_agree "secret" "another secret"), hrepeats _⟩

end TraceQ.Properties
