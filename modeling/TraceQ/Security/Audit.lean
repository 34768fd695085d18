import TraceQ.Library.Tables

/-! # What the audit trail keeps of its details

`_sanitize` of `backend/app/security/audit.py`, over the values it can be given. `str.lower` is a parameter.
-/
namespace TraceQ.Audit
open Tables
set_option autoImplicit false
set_option maxHeartbeats 250000

/-! ## Python values -/

/-- A key of a dict; a float by its `repr`. -/
inductive PyKey where
  | str (text : String)
  | int (value : ℤ)
  | float (token : String)
  | bool (value : Bool)
  | none
deriving DecidableEq

/-- `str(key)`. -/
def PyKey.text : PyKey → String
  | .str text => text
  | .int value => toString value
  | .float token => token
  | .bool value => if value then "True" else "False"
  | .none => "None"

/-- Dicts keep the order of their entries. -/
inductive PyValue where
  | dict (entries : List (PyKey × PyValue))
  | list (values : List PyValue)
  | str (text : String)
  | int (value : ℤ)
  | float (token : String)
  | bool (value : Bool)
  | none
  /-- Any other object, by its `str`. -/
  | other (text : String)

/-! ## `_sanitize` -/

/-- `SENSITIVE_KEYS`. -/
def sensitiveKeys : List String :=
  ["authorization", "password", "refresh_token", "source_token", "jwt", "aes_key", "hmac_key", "raw_payload"]

/-- `text[:1000] + "…"` of a longer text. -/
def truncated (text : String) : String :=
  if 1000 < text.length then String.ofList (text.toList.take 1000) ++ "…" else text

/-- `d[text] = value`. -/
def setEntry (entries : List (PyKey × PyValue)) (entry : String × PyValue) : List (PyKey × PyValue) :=
  upsert (·.1) (.str entry.1) (.str entry.1, entry.2) (fun _ => (.str entry.1, entry.2)) entries

/-- A dict comprehension: a later entry takes the place of an earlier one of the same key. -/
def dictOf (entries : List (String × PyValue)) : List (PyKey × PyValue) := entries.foldl setEntry []

section Sanitize
variable (lower : String → String)

def Sensitive (text : String) : Prop := lower text ∈ sensitiveKeys

instance (text : String) : Decidable (Sensitive lower text) := inferInstanceAs (Decidable (_ ∈ sensitiveKeys))

mutual
def sanitize : PyValue → PyValue
  | .dict entries => .dict (dictOf (sanitizeEntries entries))
  | .list values => .list (sanitizeList values)
  | .str text => .str (truncated text)
  | .other text => .str (truncated text)
  | .int value => .int value
  | .float token => .float token
  | .bool value => .bool value
  | .none => .none
def sanitizeList : List PyValue → List PyValue
  | [] => []
  | value :: rest => sanitize value :: sanitizeList rest
def sanitizeEntries : List (PyKey × PyValue) → List (String × PyValue)
  | [] => []
  | (key, value) :: rest =>
      (key.text, if Sensitive lower key.text then .str "[REDACTED]" else sanitize value) :: sanitizeEntries rest
end

end Sanitize

example : sanitize id (.dict [(.str "user", .dict [(.str "password", .str "secret"), (.none, .int 3)])]) =
    .dict [(.str "user", .dict [(.str "password", .str "[REDACTED]"), (.str "None", .int 3)])] := by rfl

/-! ## Values that agree -/

/-- Two orders of the entries of a dict. Where keys have the same text the order decides which one is kept. -/
def Reordered (entries others : List (PyKey × PyValue)) : Prop :=
  entries = others ∨ ((entries.map (·.1.text)).Nodup ∧ entries.Perm others)

section Agree
variable (secret : String → Prop)

mutual
/-- The values are the same, up to the order of dicts and to what is below secret keys. -/
def Agree : PyValue → PyValue → Prop
  | .dict entries, other =>
      ∃ others sorted, other = .dict others ∧ Reordered others sorted ∧ AgreeEntries entries sorted
  | .list values, other => ∃ others, other = .list others ∧ AgreeList values others
  | .str text, other => other = .str text
  | .other text, other => other = .other text
  | .int value, other => other = .int value
  | .float token, other => other = .float token
  | .bool value, other => other = .bool value
  | .none, other => other = .none
def AgreeList : List PyValue → List PyValue → Prop
  | [], others => others = []
  | value :: rest, others => ∃ other more, others = other :: more ∧ Agree value other ∧ AgreeList rest more
def AgreeEntries : List (PyKey × PyValue) → List (PyKey × PyValue) → Prop
  | [], others => others = []
  | (key, value) :: rest, others => ∃ other more, others = (key, other) :: more ∧
      (secret key.text ∨ Agree value other) ∧ AgreeEntries rest more
end

end Agree

/-- The values are equal, dicts up to their order. -/
abbrev Same : PyValue → PyValue → Prop := Agree fun _ => False

end TraceQ.Audit
