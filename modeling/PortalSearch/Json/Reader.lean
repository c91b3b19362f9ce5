import PortalSearch.Limits
import PortalSearch.Value

/-!
# Reading JSON

Reads a text that holds one JSON value with blanks around it. Every reader takes the
value at the beginning of a text and returns it with the rest. Besides standard JSON the
names `NaN`, `Infinity` and `-Infinity` are numbers. Under a repeated name the last value
counts. Beyond the limits of the machine reading fails with an error that says so. A text
nests less deeply than it is long, and no number in it is longer, so its length is as good as
no limit.

Texts come back as characters, and half a surrogate pair is none. Where one stands alone in a
text or a name, the replacement character is read instead of it (`ofUnits`), so what differs
only in such halves is read alike, and of two names that do only the last counts. This is a
limit of `Text`, not of the machine.
-/

namespace PortalSearch.Json

/-- Why a text is not read. -/
inductive ReadError where
  /-- it is not JSON -/
  | malformed
  /-- it holds a whole number of so many digits, which are too many -/
  | tooManyDigits (count : Nat)
  /-- its lists and objects are nested too deeply -/
  | tooDeep
  deriving DecidableEq

/-- Without the blanks in front. -/
def skipBlanks (s : Text) : Text :=
  s.dropWhile fun c => c == ' ' || c == '\t' || c == '\n' || c == '\r'

/-! ## Texts -/

/-- The value of four hexadecimal digits. -/
def hexUnit? (a b c d : Char) : Option Nat :=
  match Text.hexValue? a, Text.hexValue? b, Text.hexValue? c, Text.hexValue? d with
  | some w, some x, some y, some z => some (((w * 16 + x) * 16 + y) * 16 + z)
  | _, _, _, _ => none

/-- What a letter behind a backslash stands for. -/
def shortEscape? (c : Char) : Option Char :=
  if c = '"' ∨ c = '\\' ∨ c = '/' then some c
  else if c = 'n' then some '\n'
  else if c = 'r' then some '\r'
  else if c = 't' then some '\t'
  else if c = 'b' then some '\x08'
  else if c = 'f' then some '\x0c'
  else none

/-- The numbers of the characters and units up to the closing quote, and the rest. -/
def readUnits : Text → Option (List Nat × Text)
  | [] => none
  | '"' :: rest => some ([], rest)
  | '\\' :: 'u' :: a :: b :: c :: d :: rest =>
    match hexUnit? a b c d, readUnits rest with
    | some n, some (ns, rest) => some (n :: ns, rest)
    | _, _ => none
  | '\\' :: c :: rest =>
    match shortEscape? c, readUnits rest with
    | some x, some (ns, rest) => some (x.toNat :: ns, rest)
    | _, _ => none
  | c :: rest =>
    if c.toNat < 0x20 ∨ c = '\\' then none
    else match readUnits rest with
      | some (ns, rest) => some (c.toNat :: ns, rest)
      | none => none

/-- Whether a unit is the first half of a pair. -/
def isHighHalf (n : Nat) : Bool := 0xD800 ≤ n && n < 0xDC00

/-- Whether a unit is the second half of a pair. -/
def isLowHalf (n : Nat) : Bool := 0xDC00 ≤ n && n < 0xE000

/-- The characters of a list of units: two halves in a row are one character. A half on its own,
which no character has for its number, becomes the replacement character, so lists that differ
only in such halves become the same text. -/
def ofUnits : List Nat → Text
  | [] => []
  | [n] => [if isHighHalf n || isLowHalf n then '\uFFFD' else Char.ofNat n]
  | n :: m :: rest =>
    if isHighHalf n && isLowHalf m then
      Char.ofNat (0x10000 + (n - 0xD800) * 0x400 + (m - 0xDC00)) :: ofUnits rest
    else (if isHighHalf n || isLowHalf n then '\uFFFD' else Char.ofNat n) :: ofUnits (m :: rest)

/-- A text, behind its opening quote. -/
def readText (s : Text) : Option (Text × Text) :=
  (readUnits s).map fun r => (ofUnits r.1, r.2)

/-! ## Numbers -/

/-- Digits behind a point, if there is one with a digit behind it. -/
def readFraction (s : Text) : Text × Text :=
  match s with
  | '.' :: rest =>
    let digits := rest.takeWhile Char.isDigit
    if digits = [] then ([], s) else (digits, rest.dropWhile Char.isDigit)
  | _ => ([], s)

/-- A sign in front of digits: whether it is a minus, and the rest. -/
def readSign : Text → Bool × Text
  | '-' :: rest => (true, rest)
  | '+' :: rest => (false, rest)
  | s => (false, s)

/-- An exponent part, if there is one with a digit in it. -/
def readExponent (s : Text) : Option Int × Text :=
  match s with
  | c :: rest =>
    if c = 'e' ∨ c = 'E' then
      let (negative, rest) := readSign rest
      let digits := rest.takeWhile Char.isDigit
      if digits = [] then (none, s)
      else
        let n : Int := Nat.ofDigitChars 10 digits 0
        (some (if negative then -n else n), rest.dropWhile Char.isDigit)
    else (none, s)
  | [] => (none, s)

/-- The digits of the whole part: a single zero, or digits that do not begin with one. -/
def readWhole (s : Text) : Option (Text × Text) :=
  match s with
  | '0' :: rest => some (['0'], rest)
  | c :: _ => if c.isDigit then some (s.takeWhile Char.isDigit, s.dropWhile Char.isDigit) else none
  | [] => none

/-- A number without its sign, with only so many digits if it is whole. -/
def readMagnitude (digits : Nat) (negative : Bool) (s : Text) : Except ReadError (Value × Text) :=
  match readWhole s with
  | none => .error .malformed
  | some (whole, afterWhole) =>
    let (fraction, afterFraction) := readFraction afterWhole
    match readExponent afterFraction with
    | (none, rest) =>
      if fraction = [] then
        if digits < whole.length then .error (.tooManyDigits whole.length)
        else
          let n : Int := Nat.ofDigitChars 10 whole 0
          .ok (.int (if negative then -n else n), rest)
      else
        .ok (.float (.ofDecimal negative (Nat.ofDigitChars 10 (whole ++ fraction) 0)
          (-fraction.length)), rest)
    | (some exponent, rest) =>
      .ok (.float (.ofDecimal negative (Nat.ofDigitChars 10 (whole ++ fraction) 0)
        (exponent - fraction.length)), rest)

/-- A number. -/
def readNumber (digits : Nat) : Text → Except ReadError (Value × Text)
  | '-' :: rest => readMagnitude digits true rest
  | s => readMagnitude digits false s

/-! ## Values -/

/-- The values that are written by a name. -/
def names : List (Text × Value) :=
  [("null", .null), ("true", .bool true), ("false", .bool false), ("NaN", .float .undefined),
    ("Infinity", .float (.infinity false)), ("-Infinity", .float (.infinity true))]

/-- A name or a number. -/
def readScalar (digits : Nat) (s : Text) : Except ReadError (Value × Text) :=
  match names.findSome? fun n => (n.1.isPrefixOf? s).map fun rest => (n.2, rest) with
  | some r => .ok r
  | none => readNumber digits s

/-- The name of a member and what follows its colon. -/
def readName : Text → Except ReadError (Text × Text)
  | '"' :: rest =>
    match readText rest with
    | none => .error .malformed
    | some (name, rest) =>
      match skipBlanks rest with
      | ':' :: rest => .ok (name, skipBlanks rest)
      | _ => .error .malformed
  | _ => .error .malformed

/-- A member of an object: its name and its value. -/
def readMember (value : Text → Except ReadError (Value × Text)) (s : Text) :
    Except ReadError ((Text × Value) × Text) :=
  match readName s with
  | .error e => .error e
  | .ok (name, rest) =>
    match value rest with
    | .error e => .error e
    | .ok (v, rest) => .ok ((name, v), rest)

/-- Parts with commas between them, one at least, and the closing bracket. Each part takes one
step of fuel. -/
def readParts {α : Type} (closing : Char) (part : Text → Except ReadError (α × Text)) :
    (fuel : Nat) → Text → Except ReadError (List α × Text)
  | 0, _ => .error .malformed
  | fuel + 1, s =>
    match part s with
    | .error e => .error e
    | .ok (a, rest) =>
      match skipBlanks rest with
      | [] => .error .malformed
      | c :: rest =>
        if c = closing then .ok ([a], rest)
        else if c = ',' then
          match readParts closing part fuel (skipBlanks rest) with
          | .error e => .error e
          | .ok (as, rest) => .ok (a :: as, rest)
        else .error .malformed

/-- What stands behind an opening bracket: the closing one, or parts up to it. No part is empty,
so there are no more of them than characters. -/
def readEnclosed {α : Type} (closing : Char) (whole : List α → Value)
    (part : Text → Except ReadError (α × Text)) (s : Text) : Except ReadError (Value × Text) :=
  match skipBlanks s with
  | [] => .error .malformed
  | c :: rest =>
    if c = closing then .ok (whole [], rest)
    else match readParts closing part s.length (c :: rest) with
      | .error e => .error e
      | .ok (as, rest) => .ok (whole as, rest)

/-- The object of some members: under a repeated name the last value counts. -/
def objectOf (fields : List (Text × Value)) : Value :=
  .object (fields.foldl (fun fs f => Value.putField f.1 f.2 fs) [])

/-- A value, with lists and objects nested in one another up to a depth. -/
def readValue (digits : Nat) : (depth : Nat) → Text → Except ReadError (Value × Text)
  | _, '"' :: rest =>
    match readText rest with
    | some (t, rest) => .ok (.text t, rest)
    | none => .error .malformed
  | 0, '[' :: _ | 0, '{' :: _ => .error .tooDeep
  | depth + 1, '[' :: rest => readEnclosed ']' .list (readValue digits depth) rest
  | depth + 1, '{' :: rest => readEnclosed '}' objectOf (readMember (readValue digits depth)) rest
  | _, s => readScalar digits s

/-- Reads a text that holds one value and nothing else but blanks, on a machine with limits. -/
def read (limits : Limits) (s : Text) : Except ReadError Value :=
  match readValue limits.digits limits.nesting (skipBlanks s) with
  | .error e => .error e
  | .ok (v, rest) => if skipBlanks rest = [] then .ok v else .error .malformed

end PortalSearch.Json
