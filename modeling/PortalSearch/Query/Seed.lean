import PortalSearch.Text.Blank
import PortalSearch.Query.Token

/-!
# Seeds

The text that a query starts from was not written by a builder and may end in words that
join nothing. When the query holds nothing else, the words AND, OR and NOT at its end are
cut off, with the blanks around them. Words are what stands between blanks, so a word
that merely ends in AND, OR or NOT is left alone.
-/

namespace PortalSearch.Seed

theorem ofWord_nil : Connective.ofWord? [] = none := by decide

theorem length_afterWord {back : Text} {c : Connective}
    (h : Connective.ofWord?
      ((back.dropWhile Text.isBlank).takeWhile fun x => !Text.isBlank x).reverse = some c) :
    ((back.dropWhile Text.isBlank).dropWhile fun x => !Text.isBlank x).length < back.length := by
  have hle : (back.dropWhile Text.isBlank).length ≤ back.length :=
    (List.dropWhile_suffix _).length_le
  have hsplit := congrArg List.length
    (List.takeWhile_append_dropWhile (p := fun x => !Text.isBlank x)
      (l := back.dropWhile Text.isBlank))
  rw [List.length_append] at hsplit
  have hpos : 0 < ((back.dropWhile Text.isBlank).takeWhile fun x => !Text.isBlank x).length := by
    rcases Nat.eq_zero_or_pos
      ((back.dropWhile Text.isBlank).takeWhile fun x => !Text.isBlank x).length with h0 | h0
    · rw [List.length_eq_zero_iff.mp h0, List.reverse_nil, ofWord_nil] at h
      cases h
    · exact h0
  omega

/-- Cuts trailing connectives off a text that is read from its end: what is left, read from
its end too, and the connectives in the order of the text. -/
def trimBack (back : Text) : Text × List Connective :=
  let shown := back.dropWhile Text.isBlank
  match _h : Connective.ofWord? (shown.takeWhile fun x => !Text.isBlank x).reverse with
  | none => (shown, [])
  | some c =>
    let earlier := trimBack (shown.dropWhile fun x => !Text.isBlank x)
    (earlier.1, earlier.2 ++ [c])
termination_by back.length
decreasing_by exact length_afterWord _h

/-- Cuts the connectives off the end of a text, with the blanks around them. -/
def trim (seed : Text) : Text × List Connective :=
  let r := trimBack seed.reverse
  (r.1.reverse, r.2)

end PortalSearch.Seed
