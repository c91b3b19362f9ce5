import PortalSearch.Text.Basic

/-!
# Hexadecimal digits

Writing numbers with hexadecimal digits, in lower and in upper case, and reading a digit in
either case. Each digit that is written is read as its value (`hexValue_digitChar` and
`hexValue_upperHexDigit`).
-/

namespace PortalSearch.Text

/-- A number in lower-case hexadecimal, filled up with zeros to `width` digits. -/
def ofHex (width n : Nat) : Text := padZeros width (Nat.toDigits 16 n)

/-- The digit of a value below sixteen, in upper case. -/
def upperHexDigit (n : Nat) : Char := if n < 10 then Nat.digitChar n else Char.ofNat (n + 55)

/-- The value of a hexadecimal digit. -/
def hexValue? (c : Char) : Option Nat :=
  if '0' ≤ c ∧ c ≤ '9' then some (c.toNat - '0'.toNat)
  else if 'a' ≤ c ∧ c ≤ 'f' then some (c.toNat - 'a'.toNat + 10)
  else if 'A' ≤ c ∧ c ≤ 'F' then some (c.toNat - 'A'.toNat + 10)
  else none

/-- Whether a character is a hexadecimal digit. -/
def isHexDigit (c : Char) : Bool := (hexValue? c).isSome

theorem hexValue_digitChar {n : Nat} (h : n < 16) : hexValue? (Nat.digitChar n) = some n := by
  have all : ∀ m ∈ List.range 16, hexValue? (Nat.digitChar m) = some m := by decide
  exact all n (List.mem_range.mpr h)

theorem hexValue_upperHexDigit {n : Nat} (h : n < 16) : hexValue? (upperHexDigit n) = some n := by
  have all : ∀ m ∈ List.range 16, hexValue? (upperHexDigit m) = some m := by decide
  exact all n (List.mem_range.mpr h)

end PortalSearch.Text
