import SchemaInstaller.Text.Basic

/-!
# Reading bytes that may not be text

Bytes are read as UTF-8. What is not well formed becomes the replacement character, once for each
longest part that could have started a character.
-/

namespace SchemaInstaller.Utf8

/-- A byte that goes on a character. -/
def isTail (b : UInt8) : Bool := b.toNat / 64 == 2

/-- How a character goes on behind its first byte: the bounds of its second byte, how many bytes
follow in all, and the value of the first byte's bits. -/
structure Lead where
  low : Nat
  high : Nat
  tails : Nat
  bits : Nat

/-- What the first byte of a character of several bytes says about it. -/
def lead? (b : UInt8) : Option Lead :=
  let n := b.toNat
  if 0xC2 ≤ n && n ≤ 0xDF then some ⟨0x80, 0xBF, 1, n - 0xC0⟩
  else if n == 0xE0 then some ⟨0xA0, 0xBF, 2, 0⟩
  else if n == 0xED then some ⟨0x80, 0x9F, 2, 0xD⟩
  else if 0xE1 ≤ n && n ≤ 0xEF then some ⟨0x80, 0xBF, 2, n - 0xE0⟩
  else if n == 0xF0 then some ⟨0x90, 0xBF, 3, 0⟩
  else if 0xF1 ≤ n && n ≤ 0xF3 then some ⟨0x80, 0xBF, 3, n - 0xF0⟩
  else if n == 0xF4 then some ⟨0x80, 0x8F, 3, 4⟩
  else none

/-- The bytes that a character may go on with, as many as fit, and the value of their bits. -/
def tails : Nat → Nat → List UInt8 → Nat × Nat
  | 0, bits, _ => (0, bits)
  | _ + 1, bits, [] => (0, bits)
  | n + 1, bits, b :: r =>
    if isTail b then
      let (count, bits) := tails n (64 * bits + b.toNat % 64) r
      (count + 1, bits)
    else (0, bits)

/-- The character that a first byte and what follows stand for, if they do, and how many bytes
behind the first one belong to it. -/
def character (b : UInt8) (r : List UInt8) : Option Char × Nat :=
  if b.toNat < 0x80 then (some (Char.ofNat b.toNat), 0)
  else match lead? b, r with
    | some l, c :: _ =>
      if l.low ≤ c.toNat && c.toNat ≤ l.high then
        let (count, bits) := tails l.tails l.bits r
        (if count == l.tails then some (Char.ofNat bits) else none, count)
      else (none, 0)
    | _, _ => (none, 0)

/-- The text of bytes, of which the first `skip` belong to a character that is done. -/
def decodeFrom : Nat → List UInt8 → Text
  | _, [] => []
  | skip + 1, _ :: r => decodeFrom skip r
  | 0, b :: r =>
    let (c, count) := character b r
    c.getD '\ufffd' :: decodeFrom count r

/-- The text of bytes. -/
def decode (bytes : List UInt8) : Text := decodeFrom 0 bytes

end SchemaInstaller.Utf8
