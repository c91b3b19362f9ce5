import PortalSearch.Text.Hex

/-!
# Percent encoding

An identifier as one segment of an address: plain letters, digits and nine marks stand
for themselves, and every byte of any other character is written as a percent sign and two
upper-case hexadecimal digits. `decode` reads such a segment, and any other text of an
address, back.
-/

namespace PortalSearch.Url

/-! ## Writing -/

/-- Whether a character stands for itself. -/
def isUnreserved (c : Char) : Bool := c.isAlphanum || "!'()*-._~".toList.contains c

/-- A byte as a percent sign and two digits. -/
def escapeByte (b : UInt8) : Text :=
  ['%', Text.upperHexDigit (b.toNat / 16), Text.upperHexDigit (b.toNat % 16)]

/-- One character of a segment. -/
def encodeChar (c : Char) : Text :=
  if isUnreserved c then [c] else (String.utf8EncodeChar c).flatMap escapeByte

/-- A text as one segment of an address. -/
def encode (t : Text) : Text := t.flatMap encodeChar

/-! ## Reading -/

/-- The bytes that a text stands for, unless a percent sign lacks its two digits. -/
def bytes? : Text → Option (List UInt8)
  | [] => some []
  | '%' :: a :: b :: rest =>
    match Text.hexValue? a, Text.hexValue? b, bytes? rest with
    | some x, some y, some bs => some (UInt8.ofNat (x * 16 + y) :: bs)
    | _, _, _ => none
  | c :: rest =>
    if c = '%' then none else (bytes? rest).map (String.utf8EncodeChar c ++ ·)

/-- The text that a segment stands for, if its bytes are those of one. -/
def decode (t : Text) : Option Text :=
  (bytes? t).bind fun bs => (String.fromUTF8? ⟨bs.toArray⟩).map String.toList

end PortalSearch.Url
