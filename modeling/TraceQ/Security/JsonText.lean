import TraceQ.Domain.JsonValue
import TraceQ.Security.Framing
import TraceQ.Security.JsonReader

/-! # What canonical JSON determines

The reader inverts `json.dumps`: a text, an array or an object ends where its closing character stands, and a number
where no character of a number follows. So the text of a JSON tree determines the tree.
-/
namespace TraceQ.Security
open Projections (hexDigit)
set_option autoImplicit false
set_option maxHeartbeats 250000

/-! ## Numbers -/

def NumberChar (c : Char) : Prop :=
  c.isDigit = true ∨ c = '-' ∨ c = '+' ∨ c = '.' ∨ c = 'e' ∨ c = 'E'

instance (c : Char) : Decidable (NumberChar c) := inferInstanceAs (Decidable (_ ∨ _ ∨ _ ∨ _ ∨ _ ∨ _))

/-- No character of a number comes first. -/
def Stops (text : List Char) : Prop := ∀ c ∈ text.head?, ¬ NumberChar c

/-- No digit comes first. -/
def NoDigit (text : List Char) : Prop := ∀ c ∈ text.head?, c.isDigit = false

theorem Stops.noDigit {text : List Char} (h : Stops text) : NoDigit text := by
  intro c hc
  rw [← Bool.not_eq_true]
  exact fun hdigit => h c hc (.inl hdigit)

theorem noDigit_cons {c : Char} {rest : List Char} (h : c.isDigit = false) : NoDigit (c :: rest) := by
  intro d hd
  rw [← Option.some.inj hd]
  exact h

theorem scanDigits_append {digits rest : List Char} (hdigits : ∀ c ∈ digits, c.isDigit = true)
    (hrest : NoDigit rest) : scanDigits (digits ++ rest) = (digits, rest) := by
  rw [scanDigits, List.takeWhile_append_of_pos hdigits, List.dropWhile_append_of_pos hdigits]
  cases rest with
  | nil => simp
  | cons c rest => simp [hrest c rfl]

theorem isDigits_cons {digits : List Char} (h : Json.IsDigits digits) :
    ∃ d rest, digits = d :: rest ∧ d.isDigit = true := by
  obtain ⟨d, rest, rfl⟩ := List.exists_cons_of_ne_nil h.1
  exact ⟨d, rest, rfl, h.2 d List.mem_cons_self⟩

theorem isWhole_digits {whole : List Char} (h : Json.IsWhole whole) : Json.IsDigits whole := by
  rcases h with rfl | h
  · exact ⟨by simp, by simp [Char.isDigit]⟩
  · exact h.1

theorem scanWhole_append {whole rest : List Char} (h : Json.IsWhole whole) (hrest : NoDigit rest) :
    scanWhole (whole ++ rest) = (whole, rest) := by
  rcases h with rfl | ⟨hdigits, hzero⟩
  · rfl
  · obtain ⟨d, more, rfl, -⟩ := isDigits_cons hdigits
    have hne : d ≠ '0' := fun heq => hzero (by rw [heq]; rfl)
    rw [List.cons_append, scanWhole, ← List.cons_append]
    · exact scanDigits_append hdigits.2 hrest
    · simpa using hne

theorem scanSign_append {sign whole rest : List Char} (hsign : sign = [] ∨ sign = ['-'])
    (hwhole : Json.IsDigits whole) : scanSign (sign ++ (whole ++ rest)) = (sign, whole ++ rest) := by
  rcases hsign with rfl | rfl
  · obtain ⟨d, more, rfl, hdigit⟩ := isDigits_cons hwhole
    have hne : d ≠ '-' := by
      rintro rfl
      cases hdigit
    rw [List.nil_append, List.cons_append, scanSign]
    simpa using hne
  · rfl

theorem scanFraction_append {fraction rest : List Char} (h : Json.IsFraction fraction) (hrest : NoDigit rest)
    (hpoint : ∀ c ∈ rest.head?, c ≠ '.') : scanFraction (fraction ++ rest) = (fraction, rest) := by
  rcases h with rfl | ⟨digits, rfl, hdigits⟩
  · cases rest with
    | nil => rfl
    | cons c rest =>
      rw [List.nil_append, scanFraction]
      simpa using hpoint c rfl
  · rw [List.cons_append, scanFraction, scanDigits_append hdigits.2 hrest]
    simp [hdigits.1]

theorem scanExponent_append {exponent rest : List Char} (h : Json.IsExponent exponent) (hrest : Stops rest) :
    scanExponent (exponent ++ rest) = (exponent, rest) := by
  rcases h with rfl | ⟨mark, sign, digits, rfl, hmark, hsign, hdigits⟩
  · cases rest with
    | nil => rfl
    | cons c rest =>
      have hnot : ¬ (c = 'e' ∨ c = 'E') := fun hmark => hrest c rfl (by
        rcases hmark with rfl | rfl <;> decide)
      rw [List.nil_append, scanExponent, if_neg hnot]
  · have hscan : scanExponentSign (sign ++ (digits ++ rest)) = (sign, digits ++ rest) := by
      rcases hsign with rfl | rfl | rfl
      · obtain ⟨d, more, rfl, hdigit⟩ := isDigits_cons hdigits
        have hplus : d ≠ '+' := by
          rintro rfl
          cases hdigit
        have hminus : d ≠ '-' := by
          rintro rfl
          cases hdigit
        rw [List.nil_append, List.cons_append, scanExponentSign]
        · simpa using hplus
        · simpa using hminus
      · rfl
      · rfl
    rw [List.cons_append, List.append_assoc, scanExponent, if_pos hmark, hscan]
    simp [scanDigits_append hdigits.2 hrest.noDigit, hdigits.1]

/-- A number ends before the first character that is none of a number. -/
theorem scanNumber_append {sign whole fraction exponent rest : List Char} (hsign : sign = [] ∨ sign = ['-'])
    (hwhole : Json.IsWhole whole) (hfraction : Json.IsFraction fraction) (hexponent : Json.IsExponent exponent)
    (hrest : Stops rest) : scanNumber (sign ++ (whole ++ (fraction ++ exponent)) ++ rest) =
      if fraction.isEmpty && exponent.isEmpty then some (.int (intOf sign whole), rest)
      else some (.decimal (String.ofList (sign ++ (whole ++ (fraction ++ exponent)))), rest) := by
  have hhead : ∀ c ∈ (exponent ++ rest).head?, c.isDigit = false ∧ c ≠ '.' := by
    intro c hc
    rcases hexponent with rfl | ⟨mark, sign, digits, rfl, hmark, -, -⟩
    · refine ⟨hrest.noDigit c hc, ?_⟩
      rintro rfl
      exact hrest '.' hc (by decide)
    · obtain rfl : mark = c := Option.some.inj hc
      rcases hmark with rfl | rfl <;> decide
  have hafter : NoDigit (fraction ++ (exponent ++ rest)) := by
    rcases hfraction with rfl | ⟨digits, rfl, -⟩
    · exact fun c hc => (hhead c hc).1
    · exact noDigit_cons (by decide)
  have hwholeScan := scanWhole_append hwhole hafter
  have hfractionScan := scanFraction_append hfraction (fun c hc => (hhead c hc).1) fun c hc => (hhead c hc).2
  have hne : whole.isEmpty = false := by simpa using (isWhole_digits hwhole).1
  have htext : sign ++ (whole ++ (fraction ++ exponent)) ++ rest =
      sign ++ (whole ++ (fraction ++ (exponent ++ rest))) := by simp
  rw [htext, scanNumber, scanSign_append hsign (isWhole_digits hwhole)]
  simp only [hwholeScan, hfractionScan, scanExponent_append hexponent hrest, hne, Bool.false_eq_true, if_false]

/-! ## Integers -/

theorem toList_int (value : ℤ) : (toString value).toList =
    (if value < 0 then ['-'] else []) ++ Nat.toDigits 10 value.natAbs := by
  cases value with
  | ofNat n =>
    rw [if_neg (by simp), List.nil_append, ← Nat.toList_repr]
    rfl
  | negSucc n =>
    rw [if_pos (Int.negSucc_lt_zero n)]
    show ("-" ++ Nat.repr (n + 1)).toList = _
    rw [String.toList_append, Nat.toList_repr]
    rfl

theorem isDigit_toDigits {n : ℕ} {c : Char} (h : c ∈ Nat.toDigits 10 n) : c.isDigit = true :=
  Nat.isDigit_of_mem_toDigits (by decide) (by decide) h

/-- Only zero begins with a zero. -/
theorem head_toDigits {n : ℕ} (h : 0 < n) : (Nat.toDigits 10 n).head? ≠ some '0' := by
  induction n using Nat.strongRecOn with
  | ind n ih =>
    by_cases hsmall : n < 10
    · have hall : ∀ m < 10, 0 < m → Nat.digitChar m ≠ '0' := by decide
      rw [Nat.toDigits_of_lt_base hsmall]
      simpa using hall n hsmall h
    · have hlarge : 10 ≤ n := not_lt.mp hsmall
      rw [Nat.toDigits_of_base_le (by decide) hlarge, List.head?_append_of_ne_nil _ Nat.toDigits_ne_nil]
      exact ih (n / 10) (Nat.div_lt_self h (by decide)) (Nat.div_pos hlarge (by decide))

theorem isWhole_toDigits (n : ℕ) : Json.IsWhole (Nat.toDigits 10 n) := by
  rcases Nat.eq_zero_or_pos n with rfl | hpos
  · exact .inl rfl
  · exact .inr ⟨⟨Nat.toDigits_ne_nil, fun _ hc => isDigit_toDigits hc⟩, head_toDigits hpos⟩

theorem scanNumber_int (value : ℤ) {rest : List Char} (hrest : Stops rest) :
    scanNumber ((toString value).toList ++ rest) = some (.int value, rest) := by
  have hsign : (if value < 0 then ['-'] else []) = [] ∨ (if value < 0 then ['-'] else []) = ['-'] := by
    split <;> simp
  have hscan := scanNumber_append hsign (isWhole_toDigits value.natAbs) (.inl rfl) (.inl rfl) hrest
  rw [List.append_nil, List.append_nil] at hscan
  rw [toList_int, hscan]
  simp only [List.isEmpty_nil, Bool.and_self, if_true, intOf, Nat.ofDigitChars_ten_toDigits]
  by_cases hneg : value < 0
  · simp only [hneg, if_true]
    rw [if_neg (by simp)]
    congr 2
    congr 1
    omega
  · simp only [hneg, if_false]
    rw [if_pos trivial]
    congr 2
    congr 1
    omega

/-! ## Strings -/

theorem hexDigit_digitChar {n : ℕ} (h : n < 16) : hexDigit (Nat.digitChar n) = some n := by
  have hall : ∀ m < 16, hexDigit (Nat.digitChar m) = some m := by decide
  exact hall n h

/-- The escape of a control character. -/
theorem scanUnicode_control {c : Char} (h : c.toNat < 32) (rest : List Char) :
    scanUnicode ('0' :: '0' :: Nat.digitChar (c.toNat / 16) :: Nat.digitChar (c.toNat % 16) :: rest) =
      some (c, rest) := by
  have hhigh : c.toNat / 16 < 16 := by omega
  have hlow : c.toNat % 16 < 16 := Nat.mod_lt _ (by decide)
  have hzero : hexDigit '0' = some 0 := by decide
  have hunit : scanHex ('0' :: '0' :: Nat.digitChar (c.toNat / 16) :: Nat.digitChar (c.toNat % 16) :: rest) =
      some (c.toNat, rest) := by
    simp [scanHex, List.foldlM, hexDigit_digitChar hhigh, hexDigit_digitChar hlow, hzero, Nat.div_add_mod]
  rw [scanUnicode, hunit]
  simp only [Option.bind_eq_bind, Option.bind_some]
  rw [if_neg (by omega), if_neg (by omega), Char.ofNat_toNat]
  rfl

/-- One written character is read as it is. -/
theorem scanChars_escapedChar (c : Char) (fuel : ℕ) (rest : List Char) :
    scanChars (fuel + 1) ((escapedChar c).toList ++ rest) =
      (scanChars fuel rest).map fun found => (c :: found.1, found.2) := by
  have hescape : ∀ {escaped : Char} {more : List Char}, scanEscape (escaped :: more) = some (c, rest) →
      scanChars (fuel + 1) ('\\' :: escaped :: more) =
        (scanChars fuel rest).map fun found => (c :: found.1, found.2) := by
    intro escaped more hread
    rw [scanChars, if_neg (by decide), if_pos rfl, hread]
    show ((scanChars fuel rest).bind fun found => some (c :: found.1, found.2)) = _
    cases scanChars fuel rest <;> rfl
  unfold escapedChar
  split
  · rename_i h; subst h; exact hescape rfl
  split
  · rename_i h; subst h; exact hescape rfl
  split
  · rename_i h; subst h; exact hescape rfl
  split
  · rename_i h; subst h; exact hescape rfl
  split
  · rename_i h; subst h; exact hescape rfl
  split
  · rename_i h; subst h; exact hescape rfl
  split
  · rename_i h; subst h; exact hescape rfl
  split
  · rename_i h
    have hread : scanEscape ('u' :: '0' :: '0' :: Nat.digitChar (c.toNat / 16) ::
        Nat.digitChar (c.toNat % 16) :: rest) = some (c, rest) := scanUnicode_control h rest
    simp only [String.toList_append, String.toList_ofList]
    exact hescape hread
  · rename_i hquote hslash _ _ _ _ _ hcontrol
    rw [String.toList_singleton, List.singleton_append, scanChars, if_neg hquote, if_neg hslash, if_neg hcontrol]
    cases scanChars fuel rest <;> rfl

theorem scanChars_escaped (chars : List Char) {fuel : ℕ} (h : chars.length < fuel) (rest : List Char) :
    scanChars fuel (chars.flatMap (fun c => (escapedChar c).toList) ++ '"' :: rest) = some (chars, rest) := by
  induction chars generalizing fuel with
  | nil =>
    obtain ⟨fuel, rfl⟩ := Nat.exists_eq_succ_of_ne_zero (Nat.ne_of_gt h)
    rfl
  | cons c more ih =>
    obtain ⟨fuel, rfl⟩ := Nat.exists_eq_succ_of_ne_zero (Nat.ne_of_gt (Nat.zero_lt_of_lt h))
    rw [List.flatMap_cons, List.append_assoc, scanChars_escapedChar, ih (Nat.lt_of_succ_lt_succ h)]
    rfl

theorem length_escaped (chars : List Char) :
    chars.length ≤ (chars.flatMap fun c => (escapedChar c).toList).length := by
  induction chars with
  | nil => exact le_rfl
  | cons c more ih =>
    obtain ⟨x, rest, hx, -⟩ := escaped_head c
    rw [List.flatMap_cons, List.length_append, hx, List.length_cons, List.length_cons]
    omega

/-- A quoted text is read from its opening quote on. -/
theorem quoted_read (text : String) (rest : List Char) : ∃ more, (quoted text).toList ++ rest = '"' :: more ∧
    scanString more = some (text, rest) := by
  refine ⟨text.toList.flatMap (fun c => (escapedChar c).toList) ++ '"' :: rest, ?_, ?_⟩
  · rw [toList_quoted, List.cons_append, List.append_assoc]
    rfl
  · have hfuel : text.toList.length <
        (text.toList.flatMap (fun c => (escapedChar c).toList) ++ '"' :: rest).length + 1 := by
      have hlength := length_escaped text.toList
      rw [List.length_append]
      omega
    rw [scanString, scanChars_escaped text.toList hfuel rest]
    simp

/-! ## First characters -/

/-- A character with which a value begins. -/
def BeginsValue (c : Char) : Prop :=
  c ∈ ['n', 't', 'f', '"', '[', '\x7b', '-'] ∨ c.isDigit = true

theorem not_space_of_begins {c : Char} (h : BeginsValue c) : isSpace c = false ∧ c ≠ ']' ∧ c ≠ '\x7d' := by
  rcases h with hin | hdigit
  · fin_cases hin <;> decide
  · have hapart : ∀ d : Char, d.isDigit = false → c ≠ d := by
      rintro d hd rfl
      rw [hdigit] at hd
      cases hd
    refine ⟨?_, hapart _ (by decide), hapart _ (by decide)⟩
    simp [isSpace, hapart ' ' (by decide), hapart '\t' (by decide), hapart '\n' (by decide),
      hapart '\r' (by decide)]

theorem skipSpace_cons {c : Char} (h : isSpace c = false) (rest : List Char) :
    skipSpace (c :: rest) = c :: rest := by
  rw [skipSpace, List.dropWhile_cons_of_neg (by simp [h])]

/-- A number begins with a digit or a sign. -/
theorem number_head {sign whole : List Char} (rest : List Char) (hsign : sign = [] ∨ sign = ['-'])
    (hwhole : Json.IsWhole whole) :
    ∃ c more, sign ++ (whole ++ rest) = c :: more ∧ (c = '-' ∨ c.isDigit = true) := by
  rcases hsign with rfl | rfl
  · obtain ⟨d, more, rfl, hdigit⟩ := isDigits_cons (isWhole_digits hwhole)
    exact ⟨d, more ++ rest, rfl, .inr hdigit⟩
  · exact ⟨'-', whole ++ rest, rfl, .inl rfl⟩

theorem int_head (value : ℤ) : ∃ c more, (toString value).toList = c :: more ∧ (c = '-' ∨ c.isDigit = true) := by
  have hsign : (if value < 0 then ['-'] else []) = [] ∨ (if value < 0 then ['-'] else []) = ['-'] := by
    split <;> simp
  have hhead := number_head [] hsign (isWhole_toDigits value.natAbs)
  rwa [List.append_nil, ← toList_int] at hhead

theorem decimal_head {token : String} (h : Json.IsDecimal token) :
    ∃ c more, token.toList = c :: more ∧ (c = '-' ∨ c.isDigit = true) := by
  obtain ⟨sign, whole, fraction, exponent, htext, hsign, hwhole, -⟩ := h
  exact htext ▸ number_head _ hsign hwhole

theorem begins_of_number {c : Char} (h : c = '-' ∨ c.isDigit = true) : BeginsValue c := by
  rcases h with rfl | hdigit
  · exact .inl (by simp)
  · exact .inr hdigit

theorem toList_arr (values : List Json) (u : List Char) : (jsonText (.arr values)).toList ++ u =
    '[' :: ((",".intercalate (jsonTexts values)).toList ++ ']' :: u) := by
  simp [jsonText, String.toList_append]

theorem toList_obj (fields : List (String × Json)) (u : List Char) : (jsonText (.obj fields)).toList ++ u =
    '\x7b' :: ((",".intercalate (fieldTexts fields)).toList ++ '\x7d' :: u) := by
  simp [jsonText, String.toList_append]

theorem json_head (value : Json) (h : value.WellFormed) (u : List Char) :
    ∃ c rest, (jsonText value).toList ++ u = c :: rest ∧ BeginsValue c := by
  cases value with
  | null => exact ⟨'n', _, rfl, .inl (by simp)⟩
  | bool b =>
    cases b
    · exact ⟨'f', _, rfl, .inl (by simp)⟩
    · exact ⟨'t', _, rfl, .inl (by simp)⟩
  | int n =>
    obtain ⟨c, rest, htext, hnumber⟩ := int_head n
    exact ⟨c, rest ++ u, by rw [jsonText, htext, List.cons_append], begins_of_number hnumber⟩
  | decimal token =>
    obtain ⟨c, rest, htext, hnumber⟩ := decimal_head h
    exact ⟨c, rest ++ u, by rw [jsonText, htext, List.cons_append], begins_of_number hnumber⟩
  | str text =>
    obtain ⟨more, htext, -⟩ := quoted_read text u
    exact ⟨'"', more, htext, .inl (by simp)⟩
  | arr values => exact ⟨'[', _, toList_arr values u, .inl (by simp)⟩
  | obj fields => exact ⟨'\x7b', _, toList_obj fields u, .inl (by simp)⟩

/-- No space stands before a value. -/
theorem skipSpace_json {value : Json} (h : value.WellFormed) (u : List Char) :
    skipSpace ((jsonText value).toList ++ u) = (jsonText value).toList ++ u := by
  obtain ⟨c, rest, htext, hbegins⟩ := json_head value h u
  rw [htext, skipSpace_cons (not_space_of_begins hbegins).1]

/-! ## Texts between commas -/

/-- What follows the first of some texts between commas. -/
def moreTexts : List String → List Char
  | [] => []
  | texts => ',' :: (",".intercalate texts).toList

theorem texts_cons (text : String) (rest : List String) :
    (",".intercalate (text :: rest)).toList = text.toList ++ moreTexts rest := by
  cases rest with
  | nil => simp [moreTexts]
  | cons other more => simp [moreTexts, String.toList_append]

theorem stops_moreTexts (rest : List String) {close : Char} (hclose : ¬ NumberChar close) (u : List Char) :
    Stops (moreTexts rest ++ close :: u) := by
  intro c hc
  cases rest with
  | nil =>
    have hsame : close = c := by simpa [moreTexts] using hc
    exact hsame ▸ hclose
  | cons other more =>
    have hsame : ',' = c := by simpa [moreTexts] using hc
    rw [← hsame]
    decide

theorem not_numberChar_bracket : ¬ NumberChar ']' := by decide

theorem not_numberChar_brace : ¬ NumberChar '\x7d' := by decide

/-! ## Objects -/

/-- Pairs with different keys are the members of their dict. -/
theorem dictOfPairs_of_nodup {pairs : List (String × Json)} (h : (pairs.map (·.1)).Nodup) :
    dictOfPairs pairs = pairs := by
  have hnew : ∀ (fields : List (String × Json)) (key : String) (value : Json), key ∉ fields.map (·.1) →
      setField fields key value = fields ++ [(key, value)] := by
    intro fields key value hkey
    induction fields with
    | nil => rfl
    | cons field rest ih =>
      have hne : ¬ field.1 = key := fun heq => hkey (by simp [heq])
      have hrest : key ∉ rest.map (·.1) := fun hin => hkey (by simp [hin])
      have hstep := ih hrest
      rw [setField] at hstep ⊢
      rw [Tables.upsert, if_neg hne, hstep, List.cons_append]
  have hfold : ∀ (rest fields : List (String × Json)), ((fields ++ rest).map (·.1)).Nodup →
      rest.foldl (fun fields pair => setField fields pair.1 pair.2) fields = fields ++ rest := by
    intro rest
    induction rest with
    | nil =>
      intro fields _
      exact (List.append_nil fields).symm
    | cons pair more ih =>
      intro fields hnodup
      have hkey : pair.1 ∉ fields.map (·.1) := by
        rw [List.map_append, List.map_cons, List.nodup_append] at hnodup
        exact fun hin => hnodup.2.2 _ hin _ List.mem_cons_self rfl
      rw [List.foldl_cons, hnew fields pair.1 pair.2 hkey, ih _ (by simpa using hnodup), List.append_assoc]
      rfl
  exact hfold pairs [] h

/-! ## Reading what was written -/

theorem scanValue_number {c : Char} (h : c = '-' ∨ c.isDigit = true) (fuel : ℕ) {rest : List Char}
    {found : Json × List Char} (hread : scanNumber (c :: rest) = some found) :
    scanValue (fuel + 1) (c :: rest) = some found := by
  have hapart : ∀ d : Char, d.isDigit = false → d ≠ '-' → c ≠ d := by
    rintro d hd hminus rfl
    rcases h with hsign | hdigit
    · exact hminus hsign
    · rw [hdigit] at hd
      cases hd
  have hword : ∀ (d : Char) (word : List Char), d.isDigit = false → d ≠ '-' → ¬ d :: word <+: c :: rest :=
    fun d word hd hminus hprefix => hapart d hd hminus (List.cons_prefix_cons.mp hprefix).1.symm
  have hnull : ¬ "null".toList <+: c :: rest := hword 'n' _ (by decide) (by decide)
  have htrue : ¬ "true".toList <+: c :: rest := hword 't' _ (by decide) (by decide)
  have hfalse : ¬ "false".toList <+: c :: rest := hword 'f' _ (by decide) (by decide)
  rw [scanValue, if_neg (hapart '"' (by decide) (by decide)), if_neg (hapart '[' (by decide) (by decide)),
    if_neg (hapart '\x7b' (by decide) (by decide)), if_neg hnull, if_neg htrue, if_neg hfalse, hread, Option.some_or]

theorem scanValue_string (text : String) (fuel : ℕ) (u : List Char) :
    scanValue (fuel + 1) ((quoted text).toList ++ u) = some (.str text, u) := by
  obtain ⟨more, htext, hread⟩ := quoted_read text u
  rw [htext, scanValue, if_pos rfl, hread]
  rfl

theorem scanValue_int (value : ℤ) (fuel : ℕ) {u : List Char} (hu : Stops u) :
    scanValue (fuel + 1) ((toString value).toList ++ u) = some (.int value, u) := by
  obtain ⟨c, rest, htext, hnumber⟩ := int_head value
  have hread := scanNumber_int value hu
  rw [htext, List.cons_append] at hread ⊢
  exact scanValue_number hnumber fuel hread

theorem scanValue_decimal {token : String} (h : Json.IsDecimal token) (fuel : ℕ) {u : List Char} (hu : Stops u) :
    scanValue (fuel + 1) (token.toList ++ u) = some (.decimal token, u) := by
  obtain ⟨c, rest, htext, hnumber⟩ := decimal_head h
  obtain ⟨sign, whole, fraction, exponent, hparts, hsign, hwhole, hfraction, hexponent, hsome⟩ := h
  have hread := scanNumber_append hsign hwhole hfraction hexponent hu
  have hdecimal : (fraction.isEmpty && exponent.isEmpty) = false := by
    rcases hsome with hne | hne <;> simp [hne]
  rw [hdecimal, if_neg (by decide), ← hparts, String.ofList_toList] at hread
  rw [htext, List.cons_append] at hread ⊢
  exact scanValue_number hnumber fuel hread

/-- The commas and the closing character of a list of values. -/
theorem skipSpace_close {close : Char} (h : isSpace close = false) (u : List Char) :
    skipSpace (moreTexts [] ++ close :: u) = close :: u := skipSpace_cons h u

theorem skipSpace_comma (text : String) (rest : List String) (tail : List Char) :
    skipSpace (moreTexts (text :: rest) ++ tail) = ',' :: ((",".intercalate (text :: rest)).toList ++ tail) :=
  skipSpace_cons (by decide) _

/-- A member is read from the quote of its key on. -/
theorem member_read (key : String) (first : Json) (rest : List (String × Json)) (u : List Char) :
    ∃ more, (",".intercalate (fieldTexts ((key, first) :: rest))).toList ++ '\x7d' :: u = '"' :: more ∧
      scanString more = some (key, ':' :: ((jsonText first).toList ++
        (moreTexts (fieldTexts rest) ++ '\x7d' :: u))) := by
  obtain ⟨more, htext, hread⟩ := quoted_read key
    (':' :: ((jsonText first).toList ++ (moreTexts (fieldTexts rest) ++ '\x7d' :: u)))
  refine ⟨more, ?_, hread⟩
  rw [← htext, fieldTexts, texts_cons]
  simp [String.toList_append]

theorem length_member (key : String) (first : Json) (rest : List (String × Json)) :
    (",".intercalate (fieldTexts ((key, first) :: rest))).toList.length = (quoted key).toList.length + 1 +
      (jsonText first).toList.length + (moreTexts (fieldTexts rest)).length := by
  rw [fieldTexts, texts_cons]
  simp only [String.toList_append, List.length_append]
  rfl

mutual
/-- What is written for a value is read as the value, whatever stands behind it. -/
theorem scanValue_text : ∀ (value : Json) (u : List Char) (fuel : ℕ), value.WellFormed → Stops u →
    (jsonText value).toList.length ≤ fuel → scanValue fuel ((jsonText value).toList ++ u) = some (value, u)
  | value, u, 0, h, _, hfuel => by
      obtain ⟨c, rest, htext, -⟩ := json_head value h []
      rw [List.append_nil] at htext
      rw [htext] at hfuel
      cases hfuel
  | .null, u, fuel + 1, _, _, _ => rfl
  | .bool true, u, fuel + 1, _, _, _ => rfl
  | .bool false, u, fuel + 1, _, _, _ => rfl
  | .int value, u, fuel + 1, _, hu, _ => scanValue_int value fuel hu
  | .decimal token, u, fuel + 1, h, hu, _ => scanValue_decimal h fuel hu
  | .str text, u, fuel + 1, _, _, _ => scanValue_string text fuel u
  | .arr [], u, fuel + 1, _, _, _ => rfl
  | .arr (first :: rest), u, fuel + 1, h, _, hfuel => by
      have hlength : (",".intercalate (jsonTexts (first :: rest))).toList.length + 1 ≤ fuel := by
        have htext := congrArg List.length (toList_arr (first :: rest) [])
        simp only [List.append_nil, List.length_cons, List.length_append, List.length_nil] at htext
        omega
      have hread := scanItems_text first rest u fuel h hlength
      obtain ⟨c, more, htext, hbegins⟩ :
          ∃ c more, (",".intercalate (jsonTexts (first :: rest))).toList ++ ']' :: u = c :: more ∧ BeginsValue c := by
        rw [jsonTexts, texts_cons, List.append_assoc]
        exact json_head first h.1 _
      rw [toList_arr, scanValue, if_neg (by decide), if_pos rfl]
      rw [htext] at hread ⊢
      rw [skipSpace_cons (not_space_of_begins hbegins).1]
      split
      · rename_i heq
        exact absurd (List.cons.inj heq).1 (not_space_of_begins hbegins).2.1
      · rw [hread]
        rfl
  | .obj [], u, fuel + 1, _, _, _ => rfl
  | .obj ((key, first) :: rest), u, fuel + 1, h, _, hfuel => by
      have hlength : (",".intercalate (fieldTexts ((key, first) :: rest))).toList.length + 1 ≤ fuel := by
        have htext := congrArg List.length (toList_obj ((key, first) :: rest) [])
        simp only [List.append_nil, List.length_cons, List.length_append, List.length_nil] at htext
        omega
      have hread := scanMembers_text key first rest u fuel h.2 hlength
      obtain ⟨more, htext⟩ := fields_head key first rest ('\x7d' :: u)
      rw [toList_obj, scanValue, if_neg (by decide), if_neg (by decide), if_pos rfl]
      rw [htext] at hread ⊢
      rw [skipSpace_cons (by decide)]
      show ((scanMembers fuel ('"' :: more)).bind fun found => some (Json.obj (dictOfPairs found.1), found.2)) = _
      rw [hread, Option.bind_some, dictOfPairs_of_nodup h.1]
theorem scanItems_text : ∀ (first : Json) (rest : List Json) (u : List Char) (fuel : ℕ),
    Json.WellFormedList (first :: rest) → (",".intercalate (jsonTexts (first :: rest))).toList.length + 1 ≤ fuel →
    scanItems fuel ((",".intercalate (jsonTexts (first :: rest))).toList ++ ']' :: u) = some (first :: rest, u)
  | first, [], u, fuel + 1, h, hfuel => by
      rw [jsonTexts, texts_cons, List.length_append] at hfuel
      rw [jsonTexts, texts_cons, List.append_assoc, scanItems, scanValue_text first _ fuel h.1
        (stops_moreTexts _ not_numberChar_bracket u) (by omega)]
      have hclose : skipSpace (moreTexts [] ++ ']' :: u) = ']' :: u := skipSpace_close (by decide) u
      simp only [jsonTexts, Option.bind_eq_bind, Option.bind_some, hclose]
      rfl
  | first, second :: rest, u, fuel + 1, h, hfuel => by
      rw [jsonTexts, texts_cons, List.length_append] at hfuel
      have hmore : (moreTexts (jsonTexts (second :: rest))).length =
          (",".intercalate (jsonTexts (second :: rest))).toList.length + 1 := rfl
      have hread := scanItems_text second rest u fuel h.2 (by omega)
      have hskip : skipSpace ((",".intercalate (jsonTexts (second :: rest))).toList ++ ']' :: u) =
          (",".intercalate (jsonTexts (second :: rest))).toList ++ ']' :: u := by
        rw [jsonTexts, texts_cons, List.append_assoc]
        exact skipSpace_json h.2.1 _
      rw [jsonTexts, texts_cons, List.append_assoc, scanItems, scanValue_text first _ fuel h.1
        (stops_moreTexts _ not_numberChar_bracket u) (by omega)]
      have hcomma := skipSpace_comma (jsonText second) (jsonTexts rest) (']' :: u)
      rw [← jsonTexts] at hcomma
      simp only [Option.bind_eq_bind, Option.bind_some, hcomma, hskip, hread]
      rfl
/-- A key, its value and what follows them. -/
theorem scanMembers_text : ∀ (key : String) (first : Json) (rest : List (String × Json)) (u : List Char) (fuel : ℕ),
    Json.WellFormedFields ((key, first) :: rest) →
    (",".intercalate (fieldTexts ((key, first) :: rest))).toList.length + 1 ≤ fuel →
    scanMembers fuel ((",".intercalate (fieldTexts ((key, first) :: rest))).toList ++ '\x7d' :: u) =
      some ((key, first) :: rest, u)
  | key, first, [], u, fuel + 1, h, hfuel => by
      rw [length_member] at hfuel
      obtain ⟨more, htext, hread⟩ := member_read key first [] u
      rw [htext, scanMembers, hread]
      have hvalue := scanValue_text first _ fuel h.1 (stops_moreTexts (fieldTexts []) not_numberChar_brace u) (by omega)
      have hclose : skipSpace (moreTexts (fieldTexts []) ++ '\x7d' :: u) = '\x7d' :: u :=
        skipSpace_close (by decide) u
      simp only [Option.bind_eq_bind, Option.bind_some, skipSpace_cons (c := ':') (by decide), skipSpace_json h.1,
        hvalue, hclose]
      rfl
  | key, first, (name, second) :: rest, u, fuel + 1, h, hfuel => by
      rw [length_member] at hfuel
      have hmore : (moreTexts (fieldTexts ((name, second) :: rest))).length =
          (",".intercalate (fieldTexts ((name, second) :: rest))).toList.length + 1 := rfl
      have hnext := scanMembers_text name second rest u fuel h.2 (by omega)
      have hskip : skipSpace ((",".intercalate (fieldTexts ((name, second) :: rest))).toList ++ '\x7d' :: u) =
          (",".intercalate (fieldTexts ((name, second) :: rest))).toList ++ '\x7d' :: u := by
        obtain ⟨tail, htail⟩ := fields_head name second rest ('\x7d' :: u)
        rw [htail, skipSpace_cons (by decide)]
      obtain ⟨more, htext, hread⟩ := member_read key first ((name, second) :: rest) u
      rw [htext, scanMembers, hread]
      have hvalue := scanValue_text first _ fuel h.1
        (stops_moreTexts (fieldTexts ((name, second) :: rest)) not_numberChar_brace u) (by omega)
      have hcomma := skipSpace_comma (quoted name ++ ":" ++ jsonText second) (fieldTexts rest) ('\x7d' :: u)
      rw [← fieldTexts] at hcomma
      simp only [Option.bind_eq_bind, Option.bind_some, skipSpace_cons (c := ':') (by decide), skipSpace_json h.1,
        hvalue, hcomma, hskip, hnext]
      rfl
end

theorem fromUTF8_utf8 (text : String) : String.fromUTF8? ⟨(utf8 text).toArray⟩ = some text := by
  have hbytes : (⟨(utf8 text).toArray⟩ : ByteArray) = text.toUTF8 := rfl
  rw [hbytes, String.fromUTF8?]
  exact dif_pos text.isValidUTF8

/-- What `json.dumps` has written is read as it stands. -/
theorem scanDocument_dumps {json : Json} (h : json.WellFormed) :
    scanDocument (utf8 (jsonText json)) = some json := by
  have htext : String.fromUTF8? ⟨(utf8 (jsonText json)).toArray⟩ = some (jsonText json) := fromUTF8_utf8 _
  have hstops : Stops [] := fun c hc => by cases hc
  have hskip := skipSpace_json h []
  have hread := scanValue_text json [] ((jsonText json).toList.length + 1) h hstops (Nat.le_succ _)
  rw [List.append_nil] at hskip hread
  rw [scanDocument, htext]
  simp only [Option.bind_eq_bind, Option.bind_some, hskip, hread]
  rfl

/-! ## Floats -/

mutual
theorem withFloats_id : ∀ json : Json, withFloats id json = json
  | .null => rfl
  | .bool _ => rfl
  | .int _ => rfl
  | .decimal _ => rfl
  | .str _ => rfl
  | .arr values => congrArg Json.arr (withFloatsList_id values)
  | .obj fields => congrArg Json.obj (withFloatsFields_id fields)
theorem withFloatsList_id : ∀ values : List Json, withFloatsList id values = values
  | [] => rfl
  | value :: rest => by rw [withFloatsList, withFloats_id value, withFloatsList_id rest]
theorem withFloatsFields_id : ∀ fields : List (String × Json), withFloatsFields id fields = fields
  | [] => rfl
  | (key, value) :: rest => by rw [withFloatsFields, withFloats_id value, withFloatsFields_id rest]
end

/-- `json.loads` of what `json.dumps` has written, where floats are written as `repr` writes them. -/
theorem loads_dumps {json : Json} (h : json.WellFormed) : loads id (utf8 (jsonText json)) = some json := by
  rw [loads, scanDocument_dumps h, Option.map_some, withFloats_id]

/-! ## Canonical bytes -/

/-- Trees are written alike only if they are the same. -/
theorem jsonText_injective {a b : Json} (ha : a.WellFormed) (hb : b.WellFormed)
    (h : jsonText a = jsonText b) : a = b := by
  have hread := scanDocument_dumps ha
  rw [h, scanDocument_dumps hb] at hread
  exact (Option.some.inj hread).symm

/-- Canonical bytes are those of what the value says. -/
theorem canonicalJsonBytes_eq_iff {a b : Json} (ha : a.WellFormed) (hb : b.WellFormed) :
    canonicalJsonBytes a = canonicalJsonBytes b ↔ a.value = b.value := by
  constructor
  · intro h
    have hsorted := jsonText_injective (a.canonical_wellFormed ha) (b.canonical_wellFormed hb) (utf8_injective h)
    rw [← a.value_canonical ha, hsorted, b.value_canonical hb]
  · intro h
    exact congrArg (fun json => utf8 (jsonText json)) (Json.canonical_of_value a b ha hb h)

end TraceQ.Security
