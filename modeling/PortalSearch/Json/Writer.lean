import PortalSearch.Value

/-!
# Writing JSON

The JSON text of a value, in printable characters of the basic set only: all other
characters of a text are written by the numbers of their sixteen-bit units, in lower-case
hexadecimal. Parts are separated by a comma and a blank. Dates, moments and bytes have no
JSON text; undefined and infinite numbers are written by name. Writing goes on beyond the
limits of any machine, as `Limits` explains.
-/

namespace PortalSearch.Json

/-! ## Texts -/

/-- A sixteen-bit unit by its number. -/
def unitEscape (n : Nat) : Text := "\\u" ++ Text.ofHex 4 n

/-- The sixteen-bit units of a character: one, or two of the ranges set aside for pairs. -/
def units (c : Char) : List Nat :=
  let n := c.toNat
  if n < 0x10000 then [n]
  else [0xD800 + (n - 0x10000) / 0x400, 0xDC00 + (n - 0x10000) % 0x400]

/-- A character inside a JSON text. -/
def escapeChar (c : Char) : Text :=
  if c = '"' then "\\\""
  else if c = '\\' then "\\\\"
  else if c = '\n' then "\\n"
  else if c = '\r' then "\\r"
  else if c = '\t' then "\\t"
  else if c = '\x08' then "\\b"
  else if c = '\x0c' then "\\f"
  else if 0x20 ≤ c.toNat ∧ c.toNat ≤ 0x7E then [c]
  else (units c).flatMap unitEscape

/-- A text between double quotes. -/
def writeText (t : Text) : Text := '"' :: t.flatMap escapeChar ++ ['"']

/-! ## Values -/

/-- A number of the double format. -/
def writeFloat (x : Binary64) : Text :=
  if x.isNaN then "NaN"
  else if !x.isFinite then (if x.isNegative then "-Infinity" else "Infinity")
  else Value.layout.text x

mutual

/-- The JSON text of a value, if it has one. -/
def write : Value → Option Text
  | .null => some "null".toList
  | .bool b => some (if b then "true".toList else "false".toList)
  | .int n => some (Text.ofInt n)
  | .float x => some (writeFloat x)
  | .text t => some (writeText t)
  | .bytes _ | .date _ | .moment _ => none
  | .list vs => (writeAll vs).map fun parts => '[' :: List.intercalate ", " parts ++ [']']
  | .object fields =>
    (writeFields fields).map fun parts => '{' :: List.intercalate ", " parts ++ ['}']

/-- The JSON texts of several values, if all have one. -/
def writeAll : List Value → Option (List Text)
  | [] => some []
  | v :: vs =>
    match write v, writeAll vs with
    | some part, some parts => some (part :: parts)
    | _, _ => none

/-- The JSON texts of several values with their names, if all have one. -/
def writeFields : List (Text × Value) → Option (List Text)
  | [] => some []
  | f :: fields =>
    match write f.2, writeFields fields with
    | some part, some parts => some ((writeText f.1 ++ ": " ++ part) :: parts)
    | _, _ => none

end

end PortalSearch.Json
