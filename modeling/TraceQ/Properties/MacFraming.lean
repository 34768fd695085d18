import TraceQ.Security.Framing

/-! # What a MAC is computed for

Four fields behind their lengths and a key id behind them all: the bytes can be taken apart in one way
only, and a field whose length does not fit stops the computation.
-/
namespace TraceQ.Properties
open Security
set_option autoImplicit false
set_option maxHeartbeats 250000

theorem frame_injective {a b : MacInput} {bytes : Bytes} (ha : a.frame = some bytes)
    (hb : b.frame = some bytes) : a = b := by
  obtain ⟨hrange, rfl⟩ := MacInput.frame_eq_some.mp ha
  obtain ⟨hrange', hbytes⟩ := MacInput.frame_eq_some.mp hb
  simp only [List.append_assoc] at hbytes
  obtain ⟨hprev, hrest⟩ := framed_split hrange.prevMac hrange'.prevMac hbytes
  obtain ⟨hmetadata, hciphertext, hnonce, hkey⟩ := macFields_split hrange.immutableMetadata
    hrange'.immutableMetadata hrange.ciphertext hrange'.ciphertext hrange.nonce hrange'.nonce hrest
  cases a
  cases b
  cases hprev
  cases hmetadata
  cases hciphertext
  cases hnonce
  cases hkey
  rfl

theorem frame_eq_none {input : MacInput} : input.frame = none ↔ ¬ input.InRange := by
  rw [Option.eq_none_iff_forall_ne_some]
  constructor
  · intro h hrange
    exact h _ (MacInput.frame_eq_some.mpr ⟨hrange, rfl⟩)
  · intro h bytes hframe
    exact h (MacInput.frame_eq_some.mp hframe).1

/-- The framed bytes determine what is framed. Within the lengths they are what the MAC is computed of;
outside of them `to_bytes` raises. -/
theorem mac_frame_determines :
    (∀ a b : MacInput, a.InRange → b.InRange → a.frame = b.frame → a = b) ∧
      (∀ (settings : CryptoSettings) (input : MacInput), input.InRange →
        input.frame.map settings.hmacSha256 = some (computeIntegrityMac settings input.prevMac
          input.immutableMetadata input.ciphertext input.nonce input.keyId)) ∧
      ∀ input : MacInput, input.frame = none ↔ ¬ input.InRange := by
  refine ⟨fun a b hrange _ hframe => ?_, fun settings input hrange => ?_, fun input => frame_eq_none⟩
  · have ha := MacInput.frame_eq_some.mpr ⟨hrange, rfl⟩
    exact frame_injective ha (hframe ▸ ha)
  · rw [MacInput.frame_eq_some.mpr ⟨hrange, rfl⟩]
    rfl

/-- The MAC input of an event of two bytes behind the MAC of another one. -/
def shortInput (keyId : String) : MacInput :=
  { prevMac := List.replicate 32 7, immutableMetadata := utf8 "\x7b\x7d", ciphertext := [1, 2]
    nonce := List.replicate 12 0, keyId := keyId }

theorem shortInput_inRange (keyId : String) : (shortInput keyId).InRange where
  prevMac := (by decide : 32 < 2 ^ 32)
  immutableMetadata := (by decide : 2 < 2 ^ 32)
  ciphertext := (by decide : 2 < 2 ^ 64)
  nonce := (by decide : 12 < 2 ^ 32)

theorem mac_frame_determines_keys : (shortInput "key-1").frame ≠ (shortInput "key-2").frame ∧
    ∀ settings : CryptoSettings, (shortInput "key-1").frame.map settings.hmacSha256 =
      some (computeIntegrityMac settings (List.replicate 32 7) (utf8 "\x7b\x7d") [1, 2]
        (List.replicate 12 0) "key-1") := by
  obtain ⟨hdetermines, hcomputed, -⟩ := mac_frame_determines
  refine ⟨fun hframe => ?_, fun settings => hcomputed settings _ (shortInput_inRange "key-1")⟩
  have hsame := hdetermines _ _ (shortInput_inRange "key-1") (shortInput_inRange "key-2") hframe
  exact absurd (congrArg MacInput.keyId hsame) (by decide)

end TraceQ.Properties
