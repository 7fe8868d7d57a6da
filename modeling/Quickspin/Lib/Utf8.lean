import Quickspin.Lib.JsonText
import Mathlib.Data.List.Basic
import Mathlib.Tactic.SplitIfs

/-! Texts in UTF-8. The bytes of a text are its characters, some of which may be no UTF-8; a text of Unicode characters is
read back from its bytes. -/
namespace JsonText
set_option autoImplicit false

/-! ## Characters -/

/-- U+FFFD. -/
def replacement : List UInt8 := [0xEF, 0xBF, 0xBD]

/-- A code point in UTF-8; a surrogate, or what lies beyond the last code point, has none. -/
def encodeRune (r : ℕ) : List UInt8 :=
  if r < 0x80 then [r.toUInt8]
  else if r < 0x800 then [(0xC0 + r / 64).toUInt8, (0x80 + r % 64).toUInt8]
  else if (0xD800 ≤ r ∧ r < 0xE000) ∨ 0x110000 ≤ r then replacement
  else if r < 0x10000 then [(0xE0 + r / 4096).toUInt8, (0x80 + r / 64 % 64).toUInt8, (0x80 + r % 64).toUInt8]
  else [(0xF0 + r / 262144).toUInt8, (0x80 + r / 4096 % 64).toUInt8, (0x80 + r / 64 % 64).toUInt8, (0x80 + r % 64).toUInt8]

/-- What is left of a character of a text: a byte that is part of none is replaced. -/
def Rune.coerced : Rune → List UInt8
  | .single b => [b]
  | .multi bytes => bytes
  | .invalid _ => replacement

/-- The text with its bytes that are part of no character replaced. -/
def coerced (s : List UInt8) : List UInt8 := (runes s).flatMap Rune.coerced

def Rune.valid : Rune → Bool
  | .invalid _ => false
  | _ => true

/-- A character of several bytes is read again whatever follows it. -/
theorem decodeRune_append {b : UInt8} {rest bytes : List UInt8} (h : decodeRune b rest = .multi bytes) (more : List UInt8) :
    ∃ tail, bytes = b :: tail ∧ 0x80 ≤ b ∧ decodeRune b (tail ++ more) = .multi (b :: tail) := by
  unfold decodeRune at h
  split at h
  · cases h
  · next hb =>
    split at h
    · cases h
    · next size low high hlead =>
      split at h
      · next hf =>
        obtain rfl := Rune.multi.inj h
        refine ⟨_, rfl, UInt8.not_lt.mp hb, ?_⟩
        have htake : (rest.take (size - 1) ++ more).take (size - 1) = rest.take (size - 1) := by
          rw [List.take_append_of_le_length (by omega), List.take_of_length_le (by omega)]
        unfold decodeRune
        rw [if_neg hb, hlead]
        dsimp only
        rw [htake, if_pos hf]
      · cases h

/-! ## Texts of characters -/

/-- A text of Unicode characters as its bytes. -/
def utf8 (s : String) : List UInt8 := s.toList.flatMap fun c => encodeRune c.toNat

/-- The code point of a character by its bytes. -/
def Rune.codePoint : Rune → ℕ
  | .single b => b.toNat
  | .multi [b, c] => b.toNat % 32 * 64 + c.toNat % 64
  | .multi [b, c, d] => b.toNat % 16 * 4096 + c.toNat % 64 * 64 + d.toNat % 64
  | .multi [b, c, d, e] => b.toNat % 8 * 262144 + c.toNat % 64 * 4096 + d.toNat % 64 * 64 + e.toNat % 64
  | _ => 0xFFFD

/-- The bytes as a text of Unicode characters. -/
def text (s : List UInt8) : String := String.ofList ((runes s).map fun r => Char.ofNat r.codePoint)

end JsonText
