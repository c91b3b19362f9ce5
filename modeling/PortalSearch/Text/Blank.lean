import PortalSearch.Text.Basic

/-!
# Blanks

The characters that separate words in a query: the white space of the character
standard together with the four information separators. The zero-width space and
the byte order mark are not among them.
-/

namespace PortalSearch.Text

/-- Whether a character is a blank. -/
def isBlank (c : Char) : Bool :=
  let n := c.toNat
  (0x09 ≤ n && n ≤ 0x0D) || (0x1C ≤ n && n ≤ 0x20) || n == 0x85 || n == 0xA0 ||
    n == 0x1680 || (0x2000 ≤ n && n ≤ 0x200A) || n == 0x2028 || n == 0x2029 || n == 0x202F ||
    n == 0x205F || n == 0x3000

/-- Whether there is nothing but blanks. -/
def allBlank (text : Text) : Bool := text.all isBlank

/-- Without the blanks at the end. -/
def trimEnd (text : Text) : Text := (text.reverse.dropWhile isBlank).reverse

end PortalSearch.Text
