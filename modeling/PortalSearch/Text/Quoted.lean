import PortalSearch.Text.Hex
import PortalSearch.Text.Ranges
import PortalSearch.Text.PrintableTable

/-!
# Quoted text

A text between quotes, as it is shown inside a list or in the reason why a host is
refused. Single quotes stand around it, double ones if it holds a single quote and no
double one. The quote in use and the backslash get a backslash in front; a line feed, a
carriage return and a tab have short forms; what is not shown is written by its number.
-/

namespace PortalSearch.Text

/-- Whether a character is shown as it is. -/
def isPrintable (c : Char) : Bool := !inRanges unprintableRanges c.toNat

/-- A character that is not shown, written by its number with as many digits as it needs. -/
def numbered (n : Nat) : Text :=
  if n < 0x100 then "\\x" ++ ofHex 2 n
  else if n < 0x10000 then "\\u" ++ ofHex 4 n
  else "\\U" ++ ofHex 8 n

/-- One character between quotes. -/
def quotedChar (quote c : Char) : Text :=
  if c = quote ∨ c = '\\' then ['\\', c]
  else if c = '\n' then "\\n"
  else if c = '\r' then "\\r"
  else if c = '\t' then "\\t"
  else if isPrintable c then [c]
  else numbered c.toNat

/-- The quote to put around a text. -/
def chooseQuote (text : Text) : Char :=
  if '\'' ∈ text ∧ '"' ∉ text then '"' else '\''

/-- A text between quotes. -/
def quoted (text : Text) : Text :=
  let quote := chooseQuote text
  quote :: text.flatMap (quotedChar quote) ++ [quote]

/-- Bytes between quotes: those that are not printable characters of the basic set are
written by their number. -/
def quotedBytes (bytes : List UInt8) : Text :=
  let text := bytes.map fun b => Char.ofNat b.toNat
  let quote := chooseQuote text
  'b' :: quote :: (text.flatMap fun c =>
    if c.toNat < 0x7F then quotedChar quote c else "\\x" ++ ofHex 2 c.toNat) ++ [quote]

end PortalSearch.Text
