import TraceQ.Security.Crypto

/-! # What framed bytes determine

Texts, timestamps, flat JSON objects and framed fields are read back from the bytes they are written to,
and a text without a line feed from the bytes before the first line feed.
-/
namespace TraceQ.Security
set_option autoImplicit false
set_option maxHeartbeats 250000

/-! ## Bytes of a text -/

theorem utf8_eq_flatMap (text : String) : utf8 text = text.toList.flatMap String.utf8EncodeChar := by
  have hencode := String.utf8Encode_toList (b := text)
  unfold utf8 String.toUTF8
  rw [← hencode, List.utf8Encode]
  simp

theorem utf8_injective : Function.Injective utf8 := by
  intro a b h
  have hbytes : a.toByteArray = b.toByteArray := by
    apply ByteArray.ext
    apply Array.ext'
    exact h
  exact String.toByteArray_inj.mp hbytes

theorem ofNat_toNat_ge {n : ℕ} (hlow : 128 ≤ n) (hhigh : n < 256) : 128 ≤ (UInt8.ofNat n).toNat := by
  rw [UInt8.toNat_ofNat', Nat.mod_eq_of_lt hhigh]
  exact hlow

/-- A byte below 128 is written for its own character only. -/
theorem ascii_of_mem {c : Char} {b : UInt8} (h : b ∈ String.utf8EncodeChar c) (hb : b.toNat < 128) :
    c.toNat = b.toNat := by
  have hlarge : ∀ n, b = UInt8.ofNat n → 128 ≤ n → n < 256 → False := by
    rintro n rfl hlow hhigh
    have hge := ofNat_toNat_ge hlow hhigh
    omega
  unfold String.utf8EncodeChar at h
  dsimp only at h
  split at h
  · rename_i hsmall
    rw [List.mem_singleton.mp h, UInt8.toNat_ofNat']
    exact (Nat.mod_eq_of_lt (hsmall.trans_lt (by decide))).symm
  · split at h
    · rcases List.mem_pair.mp h with heq | heq
      · exact (hlarge _ heq (by omega) (by omega)).elim
      · exact (hlarge _ heq (by omega) (by omega)).elim
    · split at h
      · simp only [List.mem_cons, List.not_mem_nil, or_false] at h
        rcases h with heq | heq | heq
        all_goals exact (hlarge _ heq (by omega) (by omega)).elim
      · simp only [List.mem_cons, List.not_mem_nil, or_false] at h
        rcases h with heq | heq | heq | heq
        all_goals exact (hlarge _ heq (by omega) (by omega)).elim

/-! ## Line feeds -/

/-- The text has no line feed. -/
def LineFree (text : String) : Prop := '\n' ∉ text.toList

theorem lineFree_utf8 {text : String} (h : LineFree text) : (10 : UInt8) ∉ utf8 text := by
  rw [utf8_eq_flatMap, List.mem_flatMap]
  rintro ⟨c, hmem, hbyte⟩
  have hcode : c.toNat = ('\n').toNat := ascii_of_mem hbyte (by decide)
  have hchar : c = '\n' := Char.ext (UInt32.toNat_inj.mp hcode)
  exact h (hchar ▸ hmem)

/-- Two lists that agree up to the first separator agree behind it. -/
theorem split_at_separator {α : Type} {x : α} {a b u v : List α} (ha : x ∉ a) (hb : x ∉ b)
    (h : a ++ x :: u = b ++ x :: v) : a = b ∧ u = v := by
  induction a generalizing b with
  | nil =>
    cases b with
    | nil => exact ⟨rfl, (List.cons.inj h).2⟩
    | cons y rest =>
      have hhead : x = y := (List.cons.inj h).1
      exact absurd (hhead ▸ List.mem_cons_self) hb
  | cons y rest ih =>
    cases b with
    | nil =>
      have hhead : y = x := (List.cons.inj h).1
      exact absurd (hhead ▸ List.mem_cons_self) ha
    | cons z others =>
      obtain ⟨hhead, htail⟩ := List.cons.inj h
      obtain ⟨hrest, hsuffix⟩ := ih (fun hmem => ha (List.mem_cons_of_mem _ hmem))
        (fun hmem => hb (List.mem_cons_of_mem _ hmem)) htail
      exact ⟨by rw [hhead, hrest], hsuffix⟩

/-! ## JSON strings -/

/-- The value of a hexadecimal digit. -/
def hexValue (c : Char) : ℕ := if c.toNat < 58 then c.toNat - 48 else c.toNat - 87

/-- The character an escape stands for, and what follows it. -/
def unescape : List Char → Char × List Char
  | '\\' :: 'n' :: rest => ('\n', rest)
  | '\\' :: 'r' :: rest => ('\r', rest)
  | '\\' :: 't' :: rest => ('\t', rest)
  | '\\' :: 'b' :: rest => (Char.ofNat 8, rest)
  | '\\' :: 'f' :: rest => (Char.ofNat 12, rest)
  | '\\' :: 'u' :: '0' :: '0' :: high :: low :: rest =>
      (Char.ofNat (16 * hexValue high + hexValue low), rest)
  | '\\' :: c :: rest => (c, rest)
  | c :: rest => (c, rest)
  | [] => (' ', [])

theorem hexValue_digitChar {n : ℕ} (h : n < 16) : hexValue (Nat.digitChar n) = n := by
  have hall : ∀ m < 16, hexValue (Nat.digitChar m) = m := by decide
  exact hall n h

theorem unescape_of_ne {c : Char} (h : c ≠ '\\') (rest : List Char) : unescape (c :: rest) = (c, rest) := by
  unfold unescape
  split <;> simp_all

theorem unescape_escaped (c : Char) (rest : List Char) :
    unescape ((escapedChar c).toList ++ rest) = (c, rest) := by
  unfold escapedChar
  split
  · rename_i h; subst h; rfl
  split
  · rename_i h; subst h; rfl
  split
  · rename_i h; subst h; rfl
  split
  · rename_i h; subst h; rfl
  split
  · rename_i h; subst h; rfl
  split
  · rename_i h; subst h; rfl
  split
  · rename_i h; subst h; rfl
  split
  · rename_i h
    have hlow : c.toNat % 16 < 16 := Nat.mod_lt _ (by decide)
    have hhigh : c.toNat / 16 < 16 := by omega
    simp only [String.toList_append, String.toList_ofList]
    show (Char.ofNat (16 * hexValue (Nat.digitChar (c.toNat / 16)) +
      hexValue (Nat.digitChar (c.toNat % 16))), rest) = _
    rw [hexValue_digitChar hhigh, hexValue_digitChar hlow, Nat.div_add_mod, Char.ofNat_toNat]
  · rename_i h _ _ _ _ _ _
    simp only [String.toList_singleton, List.singleton_append]
    exact unescape_of_ne h rest

theorem escaped_head (c : Char) : ∃ x rest, (escapedChar c).toList = x :: rest ∧ x ≠ '"' := by
  unfold escapedChar
  split
  · exact ⟨_, _, rfl, by decide⟩
  split
  · exact ⟨_, _, rfl, by decide⟩
  split
  · exact ⟨_, _, rfl, by decide⟩
  split
  · exact ⟨_, _, rfl, by decide⟩
  split
  · exact ⟨_, _, rfl, by decide⟩
  split
  · exact ⟨_, _, rfl, by decide⟩
  split
  · exact ⟨_, _, rfl, by decide⟩
  split
  · rw [String.toList_append]
    exact ⟨'\\', _, rfl, by decide⟩
  · rename_i h _ _ _ _ _ _ _
    exact ⟨c, [], by simp, h⟩

/-- A quoted text ends where its closing quote stands. -/
theorem escaped_split {a b u v : List Char}
    (h : a.flatMap (fun c => (escapedChar c).toList) ++ '"' :: u =
      b.flatMap (fun c => (escapedChar c).toList) ++ '"' :: v) : a = b ∧ u = v := by
  induction a generalizing b with
  | nil =>
    cases b with
    | nil => exact ⟨rfl, (List.cons.inj h).2⟩
    | cons d rest =>
      obtain ⟨x, more, hx, hne⟩ := escaped_head d
      rw [List.flatMap_cons, hx] at h
      exact absurd (List.cons.inj h).1.symm hne
  | cons c rest ih =>
    cases b with
    | nil =>
      obtain ⟨x, more, hx, hne⟩ := escaped_head c
      rw [List.flatMap_cons, hx] at h
      exact absurd (List.cons.inj h).1 hne
    | cons d others =>
      rw [List.flatMap_cons, List.flatMap_cons, List.append_assoc, List.append_assoc] at h
      have hread := congrArg unescape h
      rw [unescape_escaped, unescape_escaped] at hread
      obtain ⟨hchar, hmore⟩ := Prod.mk.inj hread
      obtain ⟨hrest, htail⟩ := ih hmore
      exact ⟨by rw [hchar, hrest], htail⟩

theorem toList_quoted (text : String) : (quoted text).toList =
    '"' :: (text.toList.flatMap (fun c => (escapedChar c).toList) ++ ['"']) := by
  unfold quoted
  simp [String.toList_append, List.flatMap_map]

theorem quoted_split {a b : String} {u v : List Char}
    (h : (quoted a).toList ++ u = (quoted b).toList ++ v) : a = b ∧ u = v := by
  rw [toList_quoted, toList_quoted, List.cons_append, List.cons_append, List.append_assoc,
    List.append_assoc] at h
  obtain ⟨htext, hrest⟩ := escaped_split (List.cons.inj h).2
  exact ⟨String.toList_inj.mp htext, hrest⟩

/-! ## Dates -/

/-- The day of a date, as `civil` counts. -/
def daysFromCivil (date : ℤ × ℤ × ℤ) : ℤ :=
  let year := if date.2.1 ≤ 2 then date.1 - 1 else date.1
  let march := if date.2.1 ≤ 2 then date.2.1 + 9 else date.2.1 - 3
  let dayOfYear := (153 * march + 2) / 5 + date.2.2 - 1
  let yearOfEra := year % 400
  year / 400 * 146097 + (365 * yearOfEra + yearOfEra / 4 - yearOfEra / 100 + dayOfYear) - 719468

section Era
variable {day year : ℤ} (h0 : 0 ≤ day) (h1 : day < 146097)
  (hyear : year = (day - day / 1460 + day / 36524 - day / 146096) / 365)
include h0 h1 hyear

theorem yearOfEra_bounds : 0 ≤ year ∧ year ≤ 399 := by omega

/-- The centuries counted in days are those counted in years. -/
theorem century_eq : year / 100 = day / 36524 - day / 146096 := by
  have hlast : day / 146096 = 0 ∨ day = 146096 := by omega
  have hcentury : day / 36524 = 0 ∨ day / 36524 = 1 ∨ day / 36524 = 2 ∨ day / 36524 = 3 ∨
      day / 36524 = 4 := by omega
  rcases hlast with hlast | rfl
  · rcases hcentury with hc | hc | hc | hc | hc
    all_goals
      rw [hlast, hc] at hyear
      rw [hlast, hc]
      omega
  · omega

theorem dayOfYear_bounds : 0 ≤ day - (365 * year + year / 4 - year / 100) ∧
    day - (365 * year + year / 4 - year / 100) ≤ 365 := by
  have hcentury := century_eq h0 h1 hyear
  have hlow : year / 4 ≤ day / 1460 := by omega
  have hhigh : day / 1460 ≤ year / 4 + 1 := by omega
  omega

end Era

theorem daysFromCivil_date {era day year doy march : ℤ} (h0 : 0 ≤ day) (h1 : day < 146097)
    (hyear : year = (day - day / 1460 + day / 36524 - day / 146096) / 365)
    (hdoy : doy = day - (365 * year + year / 4 - year / 100)) (hmarch : march = (5 * doy + 2) / 153) :
    daysFromCivil (year + era * 400 + (if (if march < 10 then march + 3 else march - 9) ≤ 2 then 1 else 0),
      (if march < 10 then march + 3 else march - 9), doy - (153 * march + 2) / 5 + 1) =
      146097 * era + day - 719468 := by
  obtain ⟨hy0, hy1⟩ := yearOfEra_bounds h0 h1 hyear
  obtain ⟨hd0, hd1⟩ := dayOfYear_bounds h0 h1 hyear
  rw [← hdoy] at hd0 hd1
  have hm0 : 0 ≤ march := by omega
  have hm1 : march ≤ 11 := by omega
  clear hmarch hyear
  simp only [daysFromCivil]
  by_cases hten : march < 10
  · have hmonth : ¬ march + 3 ≤ 2 := by omega
    simp only [if_pos hten, if_neg hmonth]
    have hera : (year + era * 400 + 0) / 400 = era := by omega
    have hyears : (year + era * 400 + 0) % 400 = year := by omega
    rw [hera, hyears]
    omega
  · have hmonth : march - 9 ≤ 2 := by omega
    simp only [if_neg hten, if_pos hmonth]
    have hera : (year + era * 400 + 1 - 1) / 400 = era := by omega
    have hyears : (year + era * 400 + 1 - 1) % 400 = year := by omega
    rw [hera, hyears]
    omega

theorem daysFromCivil_civil (days : ℤ) : daysFromCivil (civil days) = days := by
  have h0 : 0 ≤ (days + 719468) % 146097 := Int.emod_nonneg _ (by decide)
  have h1 : (days + 719468) % 146097 < 146097 := Int.emod_lt_of_pos _ (by decide)
  have hera := Int.mul_ediv_add_emod (days + 719468) 146097
  have hdate : daysFromCivil (civil days) = 146097 * ((days + 719468) / 146097) +
      (days + 719468) % 146097 - 719468 := daysFromCivil_date h0 h1 rfl rfl rfl
  omega

theorem civil_injective : Function.Injective civil :=
  Function.LeftInverse.injective daysFromCivil_civil

/-- From the year 1 on no part of a date is negative. -/
theorem civil_nonneg (days : ℤ) (h : -719162 ≤ days) :
    0 ≤ (civil days).1 ∧ 0 ≤ (civil days).2.1 ∧ 0 ≤ (civil days).2.2 := by
  have h0 : 0 ≤ (days + 719468) % 146097 := Int.emod_nonneg _ (by decide)
  have h1 : (days + 719468) % 146097 < 146097 := Int.emod_lt_of_pos _ (by decide)
  have hera : 0 ≤ (days + 719468) / 146097 := Int.ediv_nonneg (by omega) (by decide)
  obtain ⟨hy0, -⟩ := yearOfEra_bounds h0 h1 rfl
  obtain ⟨hd0, hd1⟩ := dayOfYear_bounds h0 h1 rfl
  simp only [civil]
  refine ⟨?_, ?_, ?_⟩
  · split
    · omega
    · omega
  · split
    · omega
    · omega
  · omega

/-! ## Digits -/

theorem toList_padded (width : ℕ) (value : ℤ) : (padded width value).toList =
    List.replicate (width - (toString value.toNat).length) '0' ++ Nat.toDigits 10 value.toNat := by
  simp only [padded, String.toList_append, String.toList_ofList]
  rw [← Nat.toList_repr]
  rfl

theorem isDigit_padded {width : ℕ} {value : ℤ} {c : Char} (h : c ∈ (padded width value).toList) :
    c.isDigit = true := by
  rw [toList_padded, List.mem_append] at h
  rcases h with hzero | hdigit
  · rw [(List.mem_replicate.mp hzero).2]
    rfl
  · exact Nat.isDigit_of_mem_toDigits (by decide) (by decide) hdigit

theorem padded_injective {width : ℕ} {a b : ℤ} (ha : 0 ≤ a) (hb : 0 ≤ b)
    (h : (padded width a).toList = (padded width b).toList) : a = b := by
  have hvalue := congrArg (fun digits => Nat.ofDigitChars 10 digits 0) h
  simp only [toList_padded, Nat.ofDigitChars_append, Nat.ofDigitChars_replicate_zero, Nat.mul_zero,
    Nat.ofDigitChars_ten_toDigits] at hvalue
  omega

/-- A number is read up to the next character that is no digit. -/
theorem padded_split {width : ℕ} {a b : ℤ} {separator : Char} {u v : List Char} (ha : 0 ≤ a)
    (hb : 0 ≤ b) (hseparator : separator.isDigit = false)
    (h : (padded width a).toList ++ separator :: u = (padded width b).toList ++ separator :: v) :
    a = b ∧ u = v := by
  have habsent : ∀ value, separator ∉ (padded width value).toList := by
    intro value hmem
    rw [isDigit_padded hmem] at hseparator
    cases hseparator
  obtain ⟨hdigits, hrest⟩ := split_at_separator (habsent a) (habsent b) h
  exact ⟨padded_injective ha hb hdigits, hrest⟩

/-! ## Timestamps -/

/-- The first instant a `datetime` can hold. -/
def firstInstant : ℤ := -62135596800000000

theorem clock_injective {x y : ℤ} (hhour : x / 3600 = y / 3600) (hminute : x / 60 % 60 = y / 60 % 60)
    (hsecond : x % 60 = y % 60) : x = y := by
  have hx : x / 3600 = x / 60 / 60 := by omega
  have hy : y / 3600 = y / 60 / 60 := by omega
  have hsixty : x / 60 = y / 60 := by omega
  omega

/-- A timestamp is written so that the instant can be read back. -/
theorem isoformatUtc_injective {a b : Datetime} (ha : firstInstant ≤ a.instant)
    (hb : firstInstant ≤ b.instant) (h : isoformatUtc a = isoformatUtc b) : a.instant = b.instant := by
  unfold firstInstant at ha hb
  obtain ⟨hay, ham, had⟩ := civil_nonneg (a.instant / 1000000 / 86400) (by omega)
  obtain ⟨hby, hbm, hbd⟩ := civil_nonneg (b.instant / 1000000 / 86400) (by omega)
  have hlist := congrArg String.toList h
  simp only [isoformatUtc, String.toList_append, List.append_assoc, String.reduceToList,
    List.cons_append, List.nil_append] at hlist
  obtain ⟨hyear, hlist⟩ := padded_split hay hby rfl hlist
  obtain ⟨hmonth, hlist⟩ := padded_split ham hbm rfl hlist
  obtain ⟨hday, hlist⟩ := padded_split had hbd rfl hlist
  obtain ⟨hhour, hlist⟩ := padded_split (by omega) (by omega) rfl hlist
  obtain ⟨hminute, hlist⟩ := padded_split (by omega) (by omega) rfl hlist
  obtain ⟨hsecond, hlist⟩ := padded_split (by omega) (by omega) rfl hlist
  obtain ⟨hmicro, -⟩ := padded_split (by omega) (by omega) rfl hlist
  have hdays : a.instant / 1000000 / 86400 = b.instant / 1000000 / 86400 :=
    civil_injective (Prod.ext hyear (Prod.ext hmonth hday))
  have htime := clock_injective hhour hminute hsecond
  have ha' := Int.mul_ediv_add_emod (a.instant / 1000000) 86400
  have hb' := Int.mul_ediv_add_emod (b.instant / 1000000) 86400
  rw [hdays, htime, hb'] at ha'
  have hsplit := Int.mul_ediv_add_emod a.instant 1000000
  rw [← ha', hmicro, Int.mul_ediv_add_emod] at hsplit
  exact hsplit.symm

/-! ## Framed fields -/

@[simp] theorem length_bigEndian (width value : ℕ) : (bigEndian width value).length = width := by
  induction width generalizing value with
  | zero => rfl
  | succ width ih => rw [bigEndian, List.length_append, ih, List.length_singleton]

theorem bigEndian_injective {width a b : ℕ} (ha : a < 256 ^ width) (hb : b < 256 ^ width)
    (h : bigEndian width a = bigEndian width b) : a = b := by
  induction width generalizing a b with
  | zero => omega
  | succ width ih =>
    rw [Nat.pow_succ] at ha hb
    obtain ⟨hhigh, hlow⟩ := List.append_inj' h rfl
    have hquotient : a / 256 = b / 256 :=
      ih (Nat.div_lt_of_lt_mul (by omega)) (Nat.div_lt_of_lt_mul (by omega)) hhigh
    have hbyte := congrArg UInt8.toNat (List.cons.inj hlow).1
    rw [UInt8.toNat_ofNat', UInt8.toNat_ofNat'] at hbyte
    omega

/-- A field behind its length is read back. -/
theorem framed_split {width : ℕ} {a b u v : Bytes} (ha : a.length < 256 ^ width)
    (hb : b.length < 256 ^ width) (h : framed width a ++ u = framed width b ++ v) : a = b ∧ u = v := by
  unfold framed at h
  rw [List.append_assoc, List.append_assoc] at h
  obtain ⟨hlength, hrest⟩ := List.append_inj h (by simp)
  exact List.append_inj hrest (bigEndian_injective ha hb hlength)

/-- `value.to_bytes(width, "big")`; `none` if it raises `OverflowError`. -/
def toBytes (width value : ℕ) : Option Bytes :=
  if value < 256 ^ width then some (bigEndian width value) else none

/-- What `compute_integrity_mac` authenticates. -/
structure MacInput where
  prevMac : Bytes
  immutableMetadata : Bytes
  ciphertext : Bytes
  nonce : Bytes
  keyId : String

/-- The bytes that `compute_integrity_mac` joins; `none` if a length does not fit. -/
def MacInput.frame (input : MacInput) : Option Bytes := do
  let prevLength ← toBytes 4 input.prevMac.length
  let metadataLength ← toBytes 4 input.immutableMetadata.length
  let ciphertextLength ← toBytes 8 input.ciphertext.length
  let nonceLength ← toBytes 4 input.nonce.length
  return prevLength ++ input.prevMac ++ (metadataLength ++ input.immutableMetadata) ++
    (ciphertextLength ++ input.ciphertext) ++ (nonceLength ++ input.nonce) ++ utf8 input.keyId

/-- The lengths that `to_bytes` can write. -/
structure MacInput.InRange (input : MacInput) : Prop where
  prevMac : input.prevMac.length < 2 ^ 32
  immutableMetadata : input.immutableMetadata.length < 2 ^ 32
  ciphertext : input.ciphertext.length < 2 ^ 64
  nonce : input.nonce.length < 2 ^ 32

theorem toBytes_eq_some {width value : ℕ} {bytes : Bytes} :
    toBytes width value = some bytes ↔ value < 256 ^ width ∧ bigEndian width value = bytes := by
  simp only [toBytes, Option.ite_none_right_eq_some, Option.some.injEq]

theorem MacInput.frame_eq_some {input : MacInput} {bytes : Bytes} :
    input.frame = some bytes ↔ input.InRange ∧ bytes = framed 4 input.prevMac ++
      framed 4 input.immutableMetadata ++ framed 8 input.ciphertext ++ framed 4 input.nonce ++
        utf8 input.keyId := by
  simp only [frame, Option.bind_eq_bind, Option.pure_def, Option.bind_eq_some_iff, toBytes_eq_some,
    Option.some.injEq]
  constructor
  · rintro ⟨_, ⟨hprev, rfl⟩, _, ⟨hmetadata, rfl⟩, _, ⟨hciphertext, rfl⟩, _, ⟨hnonce, rfl⟩, rfl⟩
    exact ⟨⟨hprev, hmetadata, hciphertext, hnonce⟩, rfl⟩
  · rintro ⟨⟨hprev, hmetadata, hciphertext, hnonce⟩, rfl⟩
    exact ⟨_, ⟨hprev, rfl⟩, _, ⟨hmetadata, rfl⟩, _, ⟨hciphertext, rfl⟩, _, ⟨hnonce, rfl⟩, rfl⟩

/-- What stands behind the previous MAC is taken apart in one way only. -/
theorem macFields_split {metadata metadata' ciphertext ciphertext' nonce nonce' : Bytes} {keyId keyId' : String}
    (hmetadata : metadata.length < 256 ^ 4) (hmetadata' : metadata'.length < 256 ^ 4)
    (hciphertext : ciphertext.length < 256 ^ 8) (hciphertext' : ciphertext'.length < 256 ^ 8)
    (hnonce : nonce.length < 256 ^ 4) (hnonce' : nonce'.length < 256 ^ 4)
    (h : framed 4 metadata ++ (framed 8 ciphertext ++ (framed 4 nonce ++ utf8 keyId)) =
      framed 4 metadata' ++ (framed 8 ciphertext' ++ (framed 4 nonce' ++ utf8 keyId'))) :
    metadata = metadata' ∧ ciphertext = ciphertext' ∧ nonce = nonce' ∧ keyId = keyId' := by
  obtain ⟨hsameMetadata, hrest⟩ := framed_split hmetadata hmetadata' h
  obtain ⟨hsameCiphertext, hrest⟩ := framed_split hciphertext hciphertext' hrest
  obtain ⟨hsameNonce, hkey⟩ := framed_split hnonce hnonce' hrest
  exact ⟨hsameMetadata, hsameCiphertext, hsameNonce, utf8_injective hkey⟩

/-- Behind the same previous MAC, a MAC says what it was computed for. -/
theorem computeIntegrityMac_determines {settings : CryptoSettings}
    (hcollisions : Function.Injective settings.hmacSha256)
    {prevMac metadata metadata' ciphertext ciphertext' nonce nonce' : Bytes} {keyId keyId' : String}
    (hmetadata : metadata.length < 256 ^ 4) (hmetadata' : metadata'.length < 256 ^ 4)
    (hciphertext : ciphertext.length < 256 ^ 8) (hciphertext' : ciphertext'.length < 256 ^ 8)
    (hnonce : nonce.length < 256 ^ 4) (hnonce' : nonce'.length < 256 ^ 4)
    (h : computeIntegrityMac settings prevMac metadata ciphertext nonce keyId =
      computeIntegrityMac settings prevMac metadata' ciphertext' nonce' keyId') :
    metadata = metadata' ∧ ciphertext = ciphertext' ∧ nonce = nonce' ∧ keyId = keyId' := by
  have hbytes := hcollisions h
  simp only [List.append_assoc] at hbytes
  exact macFields_split hmetadata hmetadata' hciphertext hciphertext' hnonce hnonce'
    (List.append_cancel_left hbytes)

/-! ## Flat objects -/

/-- A text or null. -/
def Flat : Json → Prop
  | .str _ | .null => True
  | _ => False

theorem jsonText_split {a b : Json} {u v : List Char} (ha : Flat a) (hb : Flat b)
    (h : (jsonText a).toList ++ u = (jsonText b).toList ++ v) : a = b ∧ u = v := by
  cases a with
  | str x =>
    cases b with
    | str y =>
      obtain ⟨htext, hrest⟩ := quoted_split h
      exact ⟨by rw [htext], hrest⟩
    | null =>
      simp only [jsonText, toList_quoted, List.cons_append] at h
      have hhead := (List.cons.inj h).1
      exact absurd hhead (by decide)
    | _ => exact hb.elim
  | null =>
    cases b with
    | str y =>
      simp only [jsonText, toList_quoted, List.cons_append] at h
      have hhead := (List.cons.inj h).1
      exact absurd hhead (by decide)
    | null => exact ⟨rfl, List.append_cancel_left h⟩
    | _ => exact hb.elim
  | _ => exact ha.elim

/-- The text of a field, its separator and what follows. -/
theorem field_split {k l : String} {a b : Json} {u v : List Char} (ha : Flat a) (hb : Flat b)
    (h : (quoted k ++ ":" ++ jsonText a).toList ++ u = (quoted l ++ ":" ++ jsonText b).toList ++ v) :
    k = l ∧ a = b ∧ u = v := by
  simp only [String.toList_append, List.append_assoc] at h
  obtain ⟨hkey, hrest⟩ := quoted_split h
  obtain ⟨hvalue, htail⟩ := jsonText_split ha hb (List.append_cancel_left hrest)
  exact ⟨hkey, hvalue, htail⟩

/-- What follows the first field. -/
def moreFields : List (String × Json) → List Char
  | [] => []
  | fields => ',' :: (",".intercalate (fieldTexts fields)).toList

theorem fields_cons (key : String) (value : Json) (rest : List (String × Json)) :
    (",".intercalate (fieldTexts ((key, value) :: rest))).toList =
      (quoted key ++ ":" ++ jsonText value).toList ++ moreFields rest := by
  cases rest with
  | nil => simp [fieldTexts, moreFields]
  | cons field others => simp [fieldTexts, moreFields, String.toList_append]

theorem fields_head (key : String) (value : Json) (rest : List (String × Json)) (u : List Char) :
    ∃ more, (",".intercalate (fieldTexts ((key, value) :: rest))).toList ++ u = '"' :: more := by
  rw [fields_cons]
  simp only [String.toList_append, toList_quoted, List.cons_append]
  exact ⟨_, rfl⟩

/-- The fields between braces are read back. -/
theorem fields_split {fields others : List (String × Json)} {u v : List Char}
    (hfields : ∀ field ∈ fields, Flat field.2) (hothers : ∀ field ∈ others, Flat field.2)
    (h : (",".intercalate (fieldTexts fields)).toList ++ '\x7d' :: u =
      (",".intercalate (fieldTexts others)).toList ++ '\x7d' :: v) : fields = others := by
  induction fields generalizing others with
  | nil =>
    cases others with
    | nil => rfl
    | cons field rest =>
      obtain ⟨more, hmore⟩ := fields_head field.1 field.2 rest ('\x7d' :: v)
      rw [hmore] at h
      have hhead : '\x7d' = '"' := by simpa [fieldTexts] using (List.cons.inj h).1
      exact absurd hhead (by decide)
  | cons field rest ih =>
    cases others with
    | nil =>
      obtain ⟨more, hmore⟩ := fields_head field.1 field.2 rest ('\x7d' :: u)
      rw [hmore] at h
      have hhead : '"' = '\x7d' := by simpa [fieldTexts] using (List.cons.inj h).1
      exact absurd hhead (by decide)
    | cons other more =>
      rw [fields_cons field.1 field.2, fields_cons other.1 other.2, List.append_assoc,
        List.append_assoc] at h
      obtain ⟨hkey, hvalue, htail⟩ := field_split (hfields field List.mem_cons_self)
        (hothers other List.mem_cons_self) h
      have hfirst : field = other := Prod.ext hkey hvalue
      have hrest : rest = more := by
        cases rest with
        | nil =>
          cases more with
          | nil => rfl
          | cons next last => exact absurd (List.cons.inj htail).1 (by decide)
        | cons next last =>
          cases more with
          | nil => exact absurd (List.cons.inj htail).1 (by decide)
          | cons _ _ =>
            exact ih (fun f hf => hfields f (List.mem_cons_of_mem _ hf))
              (fun f hf => hothers f (List.mem_cons_of_mem _ hf)) (List.cons.inj htail).2
      rw [hfirst, hrest]

theorem canonicalFields_flat {fields : List (String × Json)}
    (h : ∀ field ∈ fields, Flat field.2) : Json.canonicalFields fields = fields := by
  induction fields with
  | nil => rfl
  | cons field rest ih =>
    have hvalue : field.2.canonical = field.2 := by
      have hflat := h field List.mem_cons_self
      cases hkind : field.2 with
      | str _ => rfl
      | null => rfl
      | _ => rw [hkind] at hflat; exact hflat.elim
    show (field.1, field.2.canonical) :: Json.canonicalFields rest = field :: rest
    rw [hvalue, ih fun f hf => h f (List.mem_cons_of_mem _ hf)]

/-- The canonical bytes of flat objects have the same fields, in some order. -/
theorem canonical_flat_perm {fields others : List (String × Json)}
    (hfields : ∀ field ∈ fields, Flat field.2) (hothers : ∀ field ∈ others, Flat field.2)
    (h : canonicalJsonBytes (.obj fields) = canonicalJsonBytes (.obj others)) : fields.Perm others := by
  have htext := congrArg String.toList (utf8_injective h)
  simp only [Json.canonical, canonicalFields_flat hfields, canonicalFields_flat hothers, jsonText,
    String.toList_append, List.append_assoc] at htext
  have hsorted := fields_split (u := []) (v := []) (fun f hf => hfields f (by simpa using hf))
    (fun f hf => hothers f (by simpa using hf)) (List.append_cancel_left htext)
  have hleft := List.perm_insertionSort (fun a b : String × Json => a.1 ≤ b.1) fields
  have hright := List.perm_insertionSort (fun a b : String × Json => a.1 ≤ b.1) others
  rw [hsorted] at hleft
  exact hleft.symm.trans hright

end TraceQ.Security
