import TraceQ.Domain.Validation
import TraceQ.Projections.Store
import TraceQ.Security.Crypto

/-! # Reading JSON

`json.loads` on UTF-8 bytes without a byte order mark. A float is the token that `repr` writes for it, and how a
literal is rounded to a float is a parameter. Escapes of lone surrogates, which `json` also reads, are refused here: no
`String` holds them.
-/
namespace TraceQ.Security
open Projections (hexDigit)
set_option autoImplicit false
set_option maxHeartbeats 250000

def isSpace (c : Char) : Bool := [' ', '\t', '\n', '\r'].contains c

def skipSpace (text : List Char) : List Char := text.dropWhile isSpace

/-! ## Numbers -/

def scanSign : List Char → List Char × List Char
  | '-' :: rest => (['-'], rest)
  | text => ([], text)

/-- The digits a text begins with, and the rest. -/
def scanDigits (text : List Char) : List Char × List Char :=
  (text.takeWhile Char.isDigit, text.dropWhile Char.isDigit)

/-- No digit follows a leading zero. -/
def scanWhole : List Char → List Char × List Char
  | '0' :: rest => (['0'], rest)
  | text => scanDigits text

/-- A point counts if a digit follows. -/
def scanFraction : List Char → List Char × List Char
  | '.' :: rest =>
      let digits := scanDigits rest
      if digits.1.isEmpty then ([], '.' :: rest) else ('.' :: digits.1, digits.2)
  | text => ([], text)

def scanExponentSign : List Char → List Char × List Char
  | '+' :: rest => (['+'], rest)
  | '-' :: rest => (['-'], rest)
  | text => ([], text)

/-- A mark counts if digits follow, perhaps after a sign. -/
def scanExponent : List Char → List Char × List Char
  | [] => ([], [])
  | mark :: rest =>
      if mark = 'e' ∨ mark = 'E' then
        let sign := scanExponentSign rest
        let digits := scanDigits sign.2
        if digits.1.isEmpty then ([], mark :: rest) else (mark :: (sign.1 ++ digits.1), digits.2)
      else ([], mark :: rest)

/-- `int(token)` of a sign and digits. -/
def intOf (sign digits : List Char) : ℤ :=
  if sign = [] then Nat.ofDigitChars 10 digits 0 else -Nat.ofDigitChars 10 digits 0

/-- The longest number a text begins with. -/
def scanNumber (text : List Char) : Option (Json × List Char) :=
  let sign := scanSign text
  let whole := scanWhole sign.2
  if whole.1.isEmpty then none
  else
    let fraction := scanFraction whole.2
    let exponent := scanExponent fraction.2
    if fraction.1.isEmpty && exponent.1.isEmpty then some (.int (intOf sign.1 whole.1), exponent.2)
    else some (.decimal (String.ofList (sign.1 ++ (whole.1 ++ (fraction.1 ++ exponent.1)))), exponent.2)

/-- The constants that `json` reads and writes beside the numbers of JSON. -/
def constants : List String := ["NaN", "Infinity", "-Infinity"]

def scanConstant (text : List Char) : Option (Json × List Char) :=
  (constants.find? fun name => decide (name.toList <+: text)).map fun name =>
    (.decimal name, text.drop name.toList.length)

/-! ## Strings -/

def scanHex : List Char → Option (ℕ × List Char)
  | a :: b :: c :: d :: rest => do
      let value ← [a, b, c, d].foldlM (fun value digit => (hexDigit digit).map (16 * value + ·)) 0
      return (value, rest)
  | _ => none

/-- The character of `\uXXXX`, or of two such escapes for a surrogate pair. -/
def scanUnicode (text : List Char) : Option (Char × List Char) := do
  let (unit, rest) ← scanHex text
  if 0xD800 ≤ unit ∧ unit < 0xDC00 then
    match rest with
    | '\\' :: 'u' :: more => do
        let (low, rest) ← scanHex more
        if 0xDC00 ≤ low ∧ low < 0xE000 then
          return (Char.ofNat (0x10000 + (unit - 0xD800) * 1024 + (low - 0xDC00)), rest)
        else none
    | _ => none
  else if 0xDC00 ≤ unit ∧ unit < 0xE000 then none
  else return (Char.ofNat unit, rest)

/-- What stands after a backslash. -/
def scanEscape : List Char → Option (Char × List Char)
  | '"' :: rest => some ('"', rest)
  | '\\' :: rest => some ('\\', rest)
  | '/' :: rest => some ('/', rest)
  | 'b' :: rest => some (Char.ofNat 8, rest)
  | 'f' :: rest => some (Char.ofNat 12, rest)
  | 'n' :: rest => some ('\n', rest)
  | 'r' :: rest => some ('\r', rest)
  | 't' :: rest => some ('\t', rest)
  | 'u' :: rest => scanUnicode rest
  | _ => none

/-- The characters up to the closing quote. Each step reads at least one character. -/
def scanChars : ℕ → List Char → Option (List Char × List Char)
  | 0, _ => none
  | _ + 1, [] => none
  | fuel + 1, c :: rest =>
      if c = '"' then some ([], rest)
      else if c = '\\' then do
        let (char, rest) ← scanEscape rest
        let (chars, rest) ← scanChars fuel rest
        return (char :: chars, rest)
      else if c.toNat < 32 then none
      else do
        let (chars, rest) ← scanChars fuel rest
        return (c :: chars, rest)

def scanString (text : List Char) : Option (String × List Char) := do
  let (chars, rest) ← scanChars (text.length + 1) text
  return (String.ofList chars, rest)

/-! ## Values -/

/-- `dict(pairs)`. -/
def dictOfPairs (pairs : List (String × Json)) : List (String × Json) :=
  pairs.foldl (fun fields pair => setField fields pair.1 pair.2) []

mutual
/-- A value and what follows it. Every nested call is made after a character has been read, so that the length
of the text is enough. -/
def scanValue : ℕ → List Char → Option (Json × List Char)
  | 0, _ => none
  | _ + 1, [] => none
  | fuel + 1, c :: rest =>
      if c = '"' then do
        let (text, rest) ← scanString rest
        return (.str text, rest)
      else if c = '[' then
        match skipSpace rest with
        | ']' :: rest => some (.arr [], rest)
        | items => do
            let (values, rest) ← scanItems fuel items
            return (.arr values, rest)
      else if c = '\x7b' then
        match skipSpace rest with
        | '\x7d' :: rest => some (.obj [], rest)
        | members => do
            let (pairs, rest) ← scanMembers fuel members
            return (.obj (dictOfPairs pairs), rest)
      else if "null".toList <+: c :: rest then some (.null, rest.drop 3)
      else if "true".toList <+: c :: rest then some (.bool true, rest.drop 3)
      else if "false".toList <+: c :: rest then some (.bool false, rest.drop 4)
      else (scanNumber (c :: rest)).or (scanConstant (c :: rest))
/-- The values of an array up to its closing bracket. -/
def scanItems : ℕ → List Char → Option (List Json × List Char)
  | 0, _ => none
  | fuel + 1, text => do
      let (value, rest) ← scanValue fuel text
      match skipSpace rest with
      | ']' :: rest => return ([value], rest)
      | ',' :: rest => do
          let (values, rest) ← scanItems fuel (skipSpace rest)
          return (value :: values, rest)
      | _ => none
/-- The members of an object up to its closing brace. -/
def scanMembers : ℕ → List Char → Option (List (String × Json) × List Char)
  | 0, _ => none
  | fuel + 1, text =>
      match text with
      | '"' :: rest => do
          let (key, rest) ← scanString rest
          match skipSpace rest with
          | ':' :: rest => do
              let (value, rest) ← scanValue fuel (skipSpace rest)
              match skipSpace rest with
              | '\x7d' :: rest => return ([(key, value)], rest)
              | ',' :: rest => do
                  let (pairs, rest) ← scanMembers fuel (skipSpace rest)
                  return ((key, value) :: pairs, rest)
              | _ => none
          | _ => none
      | _ => none
end

/-- The document with its floats as they are written. -/
def scanDocument (bytes : Bytes) : Option Json := do
  let text ← String.fromUTF8? ⟨bytes.toArray⟩
  let (value, rest) ← scanValue (text.toList.length + 1) (skipSpace text.toList)
  if skipSpace rest = [] then return value else none

/-! ## Floats -/

section Floats
variable (floats : String → String)

mutual
/-- Every number with a fraction or an exponent, and every constant, read as a float. -/
def withFloats : Json → Json
  | .decimal literal => .decimal (floats literal)
  | .arr values => .arr (withFloatsList values)
  | .obj fields => .obj (withFloatsFields fields)
  | value => value
def withFloatsList : List Json → List Json
  | [] => []
  | value :: rest => withFloats value :: withFloatsList rest
def withFloatsFields : List (String × Json) → List (String × Json)
  | [] => []
  | (key, value) :: rest => (key, withFloats value) :: withFloatsFields rest
end

/-- `json.loads`, where `floats` is `repr(float(literal))`. -/
def loads (bytes : Bytes) : Option Json := (scanDocument bytes).map (withFloats floats)

end Floats

example : loads (fun literal => if literal = "-2.50E+3" then "-2500.0" else literal)
    (utf8 " [1, \"\\u00e9\\n\", \x7b\"a\": -2.50E+3, \"b\": NaN, \"a\": null\x7d, -2.50E+3] ") =
    some (.arr [.int 1, .str "é\n", .obj [("a", .null), ("b", .decimal "NaN")], .decimal "-2500.0"]) := by
  decide +kernel

end TraceQ.Security
