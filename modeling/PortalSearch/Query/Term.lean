import PortalSearch.Text.Blank
import PortalSearch.Value

/-!
# Terms

How a value is written in the search grammar. A text that holds a blank or a colon stands
between double quotes, any other text as it is. A day or a moment is its number of
milliseconds since the epoch, a truth value is `true` or `false`, a double that is a whole
number is written without a fraction, and every other value is its plain text.
-/

namespace PortalSearch.Term

/-- Whether a text has to stand between quotes. -/
def needsQuotes (t : Text) : Bool := t.any fun c => Text.isBlank c || c == ':'

/-- A value as a term. -/
def text : Value → Text
  | .date d => Text.ofInt (Moment.startOf d).epochMilliseconds
  | .moment t => Text.ofInt t.epochMilliseconds
  | .text t => if needsQuotes t then '"' :: t ++ ['"'] else t
  | .bool b => if b then "true" else "false"
  | .float x =>
    match x.whole? with
    | some n => Text.ofInt n
    | none => (Value.float x).toText
  | v => v.toText

/-- A range from one term to another, both included. -/
def range (lower upper : Value) : Text :=
  '[' :: text lower ++ " TO " ++ text upper ++ [']']

/-- Terms with a blank between every two neighbours. -/
def series (terms : List Value) : Text := List.intercalate [' '] (terms.map text)

@[simp] theorem series_nil : series [] = [] := rfl

@[simp] theorem series_singleton (v : Value) : series [v] = text v :=
  List.intercalate_singleton

theorem series_cons_cons (v w : Value) (vs : List Value) :
    series (v :: w :: vs) = text v ++ [' '] ++ series (w :: vs) :=
  List.intercalate_cons_cons

end PortalSearch.Term
