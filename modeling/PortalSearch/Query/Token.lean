import PortalSearch.Text.Basic

/-!
# Tokens of a query

A query is a list of tokens: what it started from, clauses, connectives, the two ends of
groups, and boosts. Its text is written token by token (`Draft.write`). Only two kinds of
token bring a blank of their own: a connective has one behind it, and one in front unless
the text so far is empty or ends in a blank or an opening parenthesis; the opening of an
inner group has one in front unless the text ends in a blank.
-/

namespace PortalSearch

/-- The words that join clauses. -/
inductive Connective where
  /-- both sides hold -/
  | and
  /-- one side holds at least -/
  | or
  /-- what follows does not hold -/
  | not
  deriving DecidableEq

/-- The word of a connective. -/
def Connective.word : Connective → Text
  | .and => "AND"
  | .or => "OR"
  | .not => "NOT"

/-- The connective that a word stands for. Only the upper-case words are connectives. -/
def Connective.ofWord? (w : Text) : Option Connective :=
  [Connective.and, .or, .not].find? fun c => c.word == w

/-- A token of a query. -/
inductive Token where
  /-- the query text that building started from -/
  | seed (text : Text)
  /-- terms or a range, with their field -/
  | clause (text : Text)
  /-- a factor for the rank of what stands in front -/
  | boost (factor : Text)
  /-- a connective -/
  | connective (c : Connective)
  /-- the start of a group -/
  | opening
  /-- the end of a group -/
  | closing
  deriving DecidableEq

namespace Token

/-- Whether a token is a connective. -/
def isConnective : Token → Bool
  | connective _ => true
  | _ => false

end Token

/-- A query as far as it is written. -/
structure Draft where
  /-- the text so far -/
  text : Text
  /-- how many groups are open at its end -/
  depth : Nat
  deriving DecidableEq

namespace Draft

/-- Nothing is written yet. -/
def empty : Draft := ⟨[], 0⟩

/-- The text as a connective is put behind it. -/
def spaced (text : Text) : Text :=
  match text.getLast? with
  | none | some '(' | some ' ' => text
  | some _ => text ++ [' ']

/-- Writes one token. -/
def write (d : Draft) : Token → Draft
  | .seed t | .clause t => { d with text := d.text ++ t }
  | .boost factor => { d with text := d.text ++ '^' :: factor }
  | .connective c => { d with text := spaced d.text ++ c.word ++ [' '] }
  | .opening =>
    ⟨(if 0 < d.depth ∧ d.text.getLast? ≠ some ' ' then d.text ++ [' '] else d.text) ++ ['('],
      d.depth + 1⟩
  | .closing => ⟨d.text ++ [')'], d.depth - 1⟩

/-- Writes tokens in order. -/
def writeAll (d : Draft) (ts : List Token) : Draft := ts.foldl write d

/-- The text of a query. -/
def render (ts : List Token) : Text := (empty.writeAll ts).text

@[simp] theorem writeAll_nil (d : Draft) : d.writeAll [] = d := rfl

@[simp] theorem writeAll_cons (d : Draft) (t : Token) (ts : List Token) :
    d.writeAll (t :: ts) = (d.write t).writeAll ts := rfl

theorem writeAll_append (d : Draft) (ts us : List Token) :
    d.writeAll (ts ++ us) = (d.writeAll ts).writeAll us := List.foldl_append

end Draft

end PortalSearch
