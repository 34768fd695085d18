import TraceQ.Security.JsonText

/-! # Canonical JSON

Two JSON values have the same canonical bytes exactly when they are the same value, however the keys of their
objects were ordered.
-/
namespace TraceQ.Properties
open Security
set_option autoImplicit false
set_option maxHeartbeats 250000

/-- The canonical bytes determine the value and do not depend on the order of keys. -/
theorem canonical_bytes_iff {a b : Json} (ha : a.WellFormed) (hb : b.WellFormed) :
    canonicalJsonBytes a = canonicalJsonBytes b ↔ a.value = b.value :=
  canonicalJsonBytes_eq_iff ha hb

/-- An array with a number, and an integer, under two keys. -/
theorem canonical_bytes_iff_reordered :
    canonicalJsonBytes (.obj [("b", .arr [.decimal "1.5", .str "n"]), ("a", .int (-1))]) =
      canonicalJsonBytes (.obj [("a", .int (-1)), ("b", .arr [.decimal "1.5", .str "n"])]) := by
  have hdecimal : Json.IsDecimal "1.5" :=
    ⟨[], ['1'], ['.', '5'], [], rfl, .inl rfl, .inr ⟨⟨by simp, by simp [Char.isDigit]⟩, by simp⟩,
      .inr ⟨['5'], rfl, by simp, by simp [Char.isDigit]⟩, .inl rfl, .inl (by simp)⟩
  have hfirst : Json.WellFormed (.obj [("b", .arr [.decimal "1.5", .str "n"]), ("a", .int (-1))]) :=
    ⟨by decide, ⟨hdecimal, trivial, trivial⟩, trivial, trivial⟩
  have hsecond : Json.WellFormed (.obj [("a", .int (-1)), ("b", .arr [.decimal "1.5", .str "n"])]) :=
    ⟨by decide, trivial, ⟨hdecimal, trivial, trivial⟩, trivial⟩
  refine (canonical_bytes_iff hfirst hsecond).mpr (congrArg JsonValue.obj (funext fun key => ?_))
  simp only [Json.valueAt]
  by_cases hb : "b" = key
  · subst hb
    simp
  · rw [if_neg hb, if_neg hb]

end TraceQ.Properties
