/-!
# Hexadecimal numbers

Numbers and code points as escapes spell them.
-/

namespace GrammarKit.Text

/-- The hexadecimal digits of a number, without leading zeros. -/
def hexDigits (n : Nat) : List Char :=
  Nat.toDigits 16 n

/-- The value of a hexadecimal digit, written small or large. -/
def hexValue (c : Char) : Option Nat :=
  if '0' ≤ c && c ≤ '9' then some (c.toNat - '0'.toNat)
  else if 'a' ≤ c && c ≤ 'f' then some (c.toNat - 'a'.toNat + 10)
  else if 'A' ≤ c && c ≤ 'F' then some (c.toNat - 'A'.toNat + 10)
  else none

/-- The number that hexadecimal digits spell, if there is at least one and nothing else. -/
def hexNumber : List Char → Option Nat
  | [] => none
  | digits => digits.foldlM (fun n c => (hexValue c).map (n * 16 + ·)) 0

/-- The character with the given code point, if there is one. -/
def codePoint (n : Nat) : Option Char :=
  if n.isValidChar then some (Char.ofNat n) else none

end GrammarKit.Text
