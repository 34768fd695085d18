import Mathlib

/-! # Base64

The standard alphabet with padding: three bytes are four characters. Decoding gives back what was encoded.
-/
namespace TraceQ.Base64
set_option autoImplicit false
set_option maxHeartbeats 250000

/-! ## Characters -/

def alphabet : List Char := "ABCDEFGHIJKLMNOPQRSTUVWXYZabcdefghijklmnopqrstuvwxyz0123456789+/".toList

/-- The character of six bits. -/
def digit (n : ℕ) : Char := alphabet.getD n '='

def value (c : Char) : Option ℕ := alphabet.idxOf? c

theorem value_digit {n : ℕ} (h : n < 64) : value (digit n) = some n := by
  have hall : ∀ m < 64, value (digit m) = some m := by decide +kernel
  exact hall n h

theorem digit_ne_pad {n : ℕ} (h : n < 64) : digit n ≠ '=' := by
  have hall : ∀ m < 64, digit m ≠ '=' := by decide +kernel
  exact hall n h

/-! ## Encoding -/

def encode : List UInt8 → List Char
  | [] => []
  | [a] => [digit (a.toNat / 4), digit (a.toNat % 4 * 16), '=', '=']
  | [a, b] =>
      [digit (a.toNat / 4), digit (a.toNat % 4 * 16 + b.toNat / 16), digit (b.toNat % 16 * 4), '=']
  | a :: b :: c :: rest =>
      digit (a.toNat / 4) :: digit (a.toNat % 4 * 16 + b.toNat / 16) ::
        digit (b.toNat % 16 * 4 + c.toNat / 64) :: digit (c.toNat % 64) :: encode rest

/-- The bytes of the last four characters. -/
def decodeLast (w x y z : Char) : Option (List UInt8) := do
  let first ← value w
  let second ← value x
  let head := UInt8.ofNat (first * 4 + second / 16)
  if y = '=' then return [head]
  else
    let third ← value y
    let middle := UInt8.ofNat (second % 16 * 16 + third / 4)
    if z = '=' then return [head, middle]
    else
      let fourth ← value z
      return [head, middle, UInt8.ofNat (third % 4 * 64 + fourth)]

def decode : List Char → Option (List UInt8)
  | w :: x :: y :: z :: rest => do
      let bytes ← decodeLast w x y z
      let more ← decode rest
      return bytes ++ more
  | _ => some []

/-! ## Decoding what was encoded -/

theorem ofNat_bits {n : ℕ} {b : UInt8} (h : n = b.toNat) : UInt8.ofNat n = b := by
  rw [h, UInt8.ofNat_toNat]

theorem decodeLast_one (a : UInt8) :
    decodeLast (digit (a.toNat / 4)) (digit (a.toNat % 4 * 16)) '=' '=' = some [a] := by
  have ha := a.toNat_lt
  have hhead : UInt8.ofNat (a.toNat / 4 * 4 + a.toNat % 4 * 16 / 16) = a := ofNat_bits (by omega)
  rw [decodeLast, value_digit (by omega), value_digit (by omega)]
  simp only [Option.bind_eq_bind, Option.bind_some, hhead, if_true]
  rfl

theorem decodeLast_two (a b : UInt8) :
    decodeLast (digit (a.toNat / 4)) (digit (a.toNat % 4 * 16 + b.toNat / 16)) (digit (b.toNat % 16 * 4)) '=' =
      some [a, b] := by
  have ha := a.toNat_lt
  have hb := b.toNat_lt
  have hhead : UInt8.ofNat (a.toNat / 4 * 4 + (a.toNat % 4 * 16 + b.toNat / 16) / 16) = a := ofNat_bits (by omega)
  have hmiddle : UInt8.ofNat ((a.toNat % 4 * 16 + b.toNat / 16) % 16 * 16 + b.toNat % 16 * 4 / 4) = b :=
    ofNat_bits (by omega)
  rw [decodeLast, value_digit (by omega), value_digit (by omega), value_digit (by omega)]
  simp only [Option.bind_eq_bind, Option.bind_some, hhead, hmiddle,
    if_neg (digit_ne_pad (show b.toNat % 16 * 4 < 64 by omega)), if_true]
  rfl

theorem decodeLast_three (a b c : UInt8) :
    decodeLast (digit (a.toNat / 4)) (digit (a.toNat % 4 * 16 + b.toNat / 16))
      (digit (b.toNat % 16 * 4 + c.toNat / 64)) (digit (c.toNat % 64)) = some [a, b, c] := by
  have ha := a.toNat_lt
  have hb := b.toNat_lt
  have hc := c.toNat_lt
  have hhead : UInt8.ofNat (a.toNat / 4 * 4 + (a.toNat % 4 * 16 + b.toNat / 16) / 16) = a := ofNat_bits (by omega)
  have hmiddle : UInt8.ofNat ((a.toNat % 4 * 16 + b.toNat / 16) % 16 * 16 +
      (b.toNat % 16 * 4 + c.toNat / 64) / 4) = b := ofNat_bits (by omega)
  have hlast : UInt8.ofNat ((b.toNat % 16 * 4 + c.toNat / 64) % 4 * 64 + c.toNat % 64) = c := ofNat_bits (by omega)
  rw [decodeLast, value_digit (by omega), value_digit (by omega), value_digit (by omega), value_digit (by omega)]
  simp only [Option.bind_eq_bind, Option.bind_some, hhead, hmiddle, hlast,
    if_neg (digit_ne_pad (show b.toNat % 16 * 4 + c.toNat / 64 < 64 by omega)),
    if_neg (digit_ne_pad (show c.toNat % 64 < 64 by omega))]
  rfl

theorem decode_encode (bytes : List UInt8) : decode (encode bytes) = some bytes := by
  induction bytes using encode.induct with
  | case1 => rfl
  | case2 a => simp [encode, decode, decodeLast_one]
  | case3 a b => simp [encode, decode, decodeLast_two]
  | case4 a b c rest ih => simp [encode, decode, decodeLast_three, ih]

theorem encode_injective : Function.Injective encode := by
  intro a b h
  have hread := decode_encode a
  rw [h, decode_encode b] at hread
  exact (Option.some.inj hread).symm

end TraceQ.Base64
