/-!
# Text

Queries, addresses and messages are lists of characters, so that a statement
about how a text begins, how it ends or which words it holds is a statement
about a list. String literals are read as such lists wherever one is expected.

Besides the type, this module has the few operations the rest of the library
shares and lists do not have already: cutting in two at a separator, looking for
a part, and writing whole numbers.
-/

namespace PortalSearch

/-- A text: its characters in order. -/
abbrev Text := List Char

instance : Coe String Text := ⟨String.toList⟩

namespace Text

/-! ## Parts -/

/-- What stands before the first `c`, and what stands after it if there is one. -/
def splitFirst (c : Char) : Text → Text × Option Text
  | [] => ([], none)
  | x :: xs =>
    if x = c then ([], some xs)
    else ((x :: (splitFirst c xs).1), (splitFirst c xs).2)

/-- Whether `part` occurs somewhere. -/
def hasPart (part : Text) : Text → Bool
  | [] => part.isEmpty
  | x :: xs => part.isPrefixOf (x :: xs) || hasPart part xs

/-- What holds of a separator and of every part holds of the parts with the separator between
them. -/
theorem forall_mem_intercalate {p : Char → Prop} {separator : Text} {parts : List Text}
    (hseparator : ∀ c ∈ separator, p c) (h : ∀ part ∈ parts, ∀ c ∈ part, p c) :
    ∀ c ∈ List.intercalate separator parts, p c := by
  induction parts with
  | nil => nofun
  | cons part parts ih =>
    obtain ⟨hpart, hparts⟩ := List.forall_mem_cons.mp h
    cases parts with
    | nil => rwa [List.intercalate_singleton]
    | cons next parts =>
      rw [List.intercalate_cons_cons, List.forall_mem_append, List.forall_mem_append]
      exact ⟨⟨hpart, hseparator⟩, ih hparts⟩

/-! ## Numbers -/

/-- A natural number in decimal digits. -/
def ofNat (n : Nat) : Text := Nat.toDigits 10 n

/-- An integer in decimal digits, however many, a minus sign in front if it is negative. -/
def ofInt : Int → Text
  | .ofNat n => ofNat n
  | .negSucc n => '-' :: ofNat (n + 1)

/-- Filled up with zeros in front to `width` characters. -/
def padZeros (width : Nat) (digits : Text) : Text :=
  List.replicate (width - digits.length) '0' ++ digits

end Text

end PortalSearch
