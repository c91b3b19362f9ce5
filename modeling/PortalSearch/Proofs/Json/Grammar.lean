import PortalSearch.Json.Reader

/-!
# The grammar of JSON

What a text has to be to be JSON, told apart from how it is read. A rule says with which phrase a
text begins and what follows it: `BeginsWith digits depth s p rest` says that `s` begins with the
phrase `p`, behind which `rest` follows. A phrase is a value, the elements of a list with the
bracket that closes it, or the members of an object with the brace that closes it.

Two numbers go through all rules, as a reader may stop short of the full language: how many digits a
whole number has at most, and how deeply lists and objects are nested. A text is JSON if it is for
some such numbers (`IsJson`).
-/

namespace PortalSearch.Json

/-! ## Blanks -/

/-- The characters that may stand around values and marks. -/
def blanks : List Char := [' ', '\t', '\n', '\r']

/-- Whether there are only blanks in front of the rest of a text. -/
def BlankUpTo (s rest : Text) : Prop :=
  ∃ front : Text, (∀ c ∈ front, c ∈ blanks) ∧ s = front ++ rest

/-! ## Texts -/

/-- What stands between quotes, as the numbers of its characters and units: behind the opening
quote, up to the closing one and with it. -/
inductive Quotes : Text → List Nat → Text → Prop where
  /-- the closing quote -/
  | close (rest : Text) : Quotes ('"' :: rest) [] rest
  /-- a character that stands for itself -/
  | plain {c : Char} {s rest : Text} {ns : List Nat} (hquote : c ≠ '"') (hescape : c ≠ '\\')
      (hcontrol : 0x20 ≤ c.toNat) (h : Quotes s ns rest) : Quotes (c :: s) (c.toNat :: ns) rest
  /-- a character by a letter behind a backslash -/
  | short {c x : Char} {s rest : Text} {ns : List Nat} (hc : shortEscape? c = some x)
      (h : Quotes s ns rest) : Quotes ('\\' :: c :: s) (x.toNat :: ns) rest
  /-- a unit by its four digits -/
  | unit {a b c d : Char} {n : Nat} {s rest : Text} {ns : List Nat} (hn : hexUnit? a b c d = some n)
      (h : Quotes s ns rest) : Quotes ('\\' :: 'u' :: a :: b :: c :: d :: s) (n :: ns) rest

/-! ## Numbers -/

/-- Whether there are only digits. -/
def AllDigits (t : Text) : Prop := ∀ c ∈ t, c.isDigit = true

/-- Whether a text is the whole part of a number: one zero, or digits that do not begin with one. -/
def IsWholePart (w : Text) : Prop := w = ['0'] ∨ w ≠ [] ∧ w.head? ≠ some '0' ∧ AllDigits w

/-- The number that digits stand for. -/
def ofDigits (digits : Text) : Nat := Nat.ofDigitChars 10 digits 0

/-- A number with its sign. -/
def signed (negative : Bool) (n : Nat) : Int := if negative then -n else n

/-- A sign in front of a number. -/
def signText (negative : Bool) : Text := if negative then ['-'] else []

/-- The digits behind a point, if there are any, with the point. -/
def fractionText (f : Text) : Text := if f = [] then [] else '.' :: f

/-- The signs in front of an exponent: whether it is lowered by them. -/
def exponentSigns : List (Text × Bool) := [([], false), (['+'], false), (['-'], true)]

/-- A number without its sign: whole if it has neither a fraction nor an exponent. -/
inductive Magnitude (digits : Nat) (negative : Bool) : Text → Value → Prop where
  /-- a whole number -/
  | whole {w : Text} (hw : IsWholePart w) (hdigits : w.length ≤ digits) :
      Magnitude digits negative w (.int (signed negative (ofDigits w)))
  /-- a number with a fraction -/
  | fraction {w f : Text} (hw : IsWholePart w) (hne : f ≠ []) (hf : AllDigits f) :
      Magnitude digits negative (w ++ fractionText f)
        (.float (.ofDecimal negative (ofDigits (w ++ f)) (-f.length)))
  /-- a number with an exponent, and perhaps a fraction -/
  | exponent {w f sign e : Text} {mark : Char} {lowers : Bool} (hw : IsWholePart w)
      (hf : AllDigits f) (hmark : mark = 'e' ∨ mark = 'E') (hsign : (sign, lowers) ∈ exponentSigns)
      (hne : e ≠ []) (he : AllDigits e) :
      Magnitude digits negative (w ++ (fractionText f ++ mark :: (sign ++ e)))
        (.float (.ofDecimal negative (ofDigits (w ++ f)) (signed lowers (ofDigits e) - f.length)))

/-! ## Values -/

/-- What a part of a text stands for. -/
inductive Phrase where
  /-- a value -/
  | value (v : Value)
  /-- the elements of a list, one at least, with the closing bracket -/
  | elements (vs : List Value)
  /-- the members of an object, one at least, with the closing brace -/
  | members (fields : List (Text × Value))

/-- Whether a text begins with the name of a member and its colon, behind which the rest follows. -/
inductive Names : Text → Text → Text → Prop where
  /-- the name between quotes, and blanks on both sides of the colon -/
  | name {s t u rest : Text} {ns : List Nat} (hquotes : Quotes s ns t)
      (hcolon : BlankUpTo t (':' :: u)) (hrest : BlankUpTo u rest) :
      Names ('"' :: s) (ofUnits ns) rest

/-- Whether a text begins with a phrase, behind which the rest follows. Whole numbers have only so
many digits, and lists and objects are nested only so deeply. -/
inductive BeginsWith (digits : Nat) : (depth : Nat) → Text → Phrase → Text → Prop where
  /-- a value that is written by name -/
  | name {depth : Nat} {t : Text} {v : Value} (h : (t, v) ∈ names) (rest : Text) :
      BeginsWith digits depth (t ++ rest) (.value v) rest
  /-- a number -/
  | number {depth : Nat} {t : Text} {v : Value} (negative : Bool)
      (h : Magnitude digits negative t v) (rest : Text) :
      BeginsWith digits depth (signText negative ++ (t ++ rest)) (.value v) rest
  /-- a text -/
  | text {depth : Nat} {s rest : Text} {ns : List Nat} (h : Quotes s ns rest) :
      BeginsWith digits depth ('"' :: s) (.value (.text (ofUnits ns))) rest
  /-- a list without elements -/
  | emptyList {depth : Nat} {s rest : Text} (h : BlankUpTo s (']' :: rest)) :
      BeginsWith digits (depth + 1) ('[' :: s) (.value (.list [])) rest
  /-- a list with elements -/
  | list {depth : Nat} {s t rest : Text} {vs : List Value} (hs : BlankUpTo s t)
      (h : BeginsWith digits depth t (.elements vs) rest) :
      BeginsWith digits (depth + 1) ('[' :: s) (.value (.list vs)) rest
  /-- an object without members -/
  | emptyObject {depth : Nat} {s rest : Text} (h : BlankUpTo s ('}' :: rest)) :
      BeginsWith digits (depth + 1) ('{' :: s) (.value (.object [])) rest
  /-- an object with members -/
  | object {depth : Nat} {s t rest : Text} {fields : List (Text × Value)} (hs : BlankUpTo s t)
      (h : BeginsWith digits depth t (.members fields) rest) :
      BeginsWith digits (depth + 1) ('{' :: s) (.value (objectOf fields)) rest
  /-- the last element -/
  | lastElement {depth : Nat} {s t rest : Text} {v : Value}
      (hv : BeginsWith digits depth s (.value v) t) (ht : BlankUpTo t (']' :: rest)) :
      BeginsWith digits depth s (.elements [v]) rest
  /-- an element with others behind it -/
  | element {depth : Nat} {s t u w rest : Text} {v : Value} {vs : List Value}
      (hv : BeginsWith digits depth s (.value v) t) (ht : BlankUpTo t (',' :: u))
      (hu : BlankUpTo u w) (h : BeginsWith digits depth w (.elements vs) rest) :
      BeginsWith digits depth s (.elements (v :: vs)) rest
  /-- the last member -/
  | lastMember {depth : Nat} {s t u rest name : Text} {v : Value} (hs : Names s name t)
      (hv : BeginsWith digits depth t (.value v) u) (hu : BlankUpTo u ('}' :: rest)) :
      BeginsWith digits depth s (.members [(name, v)]) rest
  /-- a member with others behind it -/
  | member {depth : Nat} {s t u w x rest name : Text} {v : Value} {fields : List (Text × Value)}
      (hs : Names s name t) (hv : BeginsWith digits depth t (.value v) u)
      (hu : BlankUpTo u (',' :: w)) (hw : BlankUpTo w x)
      (h : BeginsWith digits depth x (.members fields) rest) :
      BeginsWith digits depth s (.members ((name, v) :: fields)) rest

/-- Whether a text is one value with blanks around it, within limits. -/
def Denotes (digits depth : Nat) (s : Text) (v : Value) : Prop :=
  ∃ t rest, BlankUpTo s t ∧ BeginsWith digits depth t (.value v) rest ∧ BlankUpTo rest []

/-- Whether a text is JSON for a value. -/
def IsJsonOf (s : Text) (v : Value) : Prop := ∃ digits depth, Denotes digits depth s v

/-- Whether a text is JSON. -/
def IsJson (s : Text) : Prop := ∃ v, IsJsonOf s v

end PortalSearch.Json
