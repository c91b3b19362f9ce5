import PortalSearch.Text.Blank
import PortalSearch.Query.Token

/-!
# Reading a query

Cuts a query text into tokens. Blanks between tokens are skipped. A parenthesis is a token;
`^` begins a boost, and anything else begins a word; both go on up to the next blank, the
next parenthesis or the next `^`. Blanks inside double quotes or square brackets belong to
the word. The words AND, OR and NOT are connectives, all other words are clauses.
-/

namespace PortalSearch.Lexer

/-- Whether a character ends a boost, or a word outside of quotes and brackets. -/
def isStop (c : Char) : Bool := Text.isBlank c || c == '(' || c == ')' || c == '^'

/-- The rest of a word and what follows it, `quoted` and `bracketed` telling whether it goes on
inside quotes or brackets. -/
def word (quoted bracketed : Bool) : Text → Text × Text
  | [] => ([], [])
  | c :: rest =>
    if isStop c && !(Text.isBlank c && (quoted || bracketed)) then ([], c :: rest)
    else
      let r := word (quoted != (c == '"')) ((bracketed || c == '[') && c != ']') rest
      (c :: r.1, r.2)

theorem length_word (quoted bracketed : Bool) (s : Text) :
    (word quoted bracketed s).2.length ≤ s.length := by
  induction s generalizing quoted bracketed with
  | nil => exact Nat.le_refl _
  | cons c rest ih =>
    unfold word
    split
    · exact Nat.le_refl _
    · exact Nat.le_succ_of_le (ih _ _)

/-- The token that a word is. -/
def ofWord (w : Text) : Token :=
  match Connective.ofWord? w with
  | some c => .connective c
  | none => .clause w

/-- The tokens of a text. -/
def tokens : Text → List Token
  | [] => []
  | '(' :: rest => .opening :: tokens rest
  | ')' :: rest => .closing :: tokens rest
  | '^' :: rest =>
    .boost (rest.takeWhile fun c => !isStop c) :: tokens (rest.dropWhile fun c => !isStop c)
  | c :: rest =>
    if Text.isBlank c then tokens rest
    else
      let r := word (c == '"') (c == '[') rest
      ofWord (c :: r.1) :: tokens r.2
termination_by s => s.length
decreasing_by
  · exact Nat.lt_succ_self _
  · exact Nat.lt_succ_self _
  · exact Nat.lt_succ_of_le (List.dropWhile_suffix _).length_le
  · exact Nat.lt_succ_self _
  · exact Nat.lt_succ_of_le (length_word ..)

end PortalSearch.Lexer
