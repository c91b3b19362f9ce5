import PortalSearch.Query.Builder.Basic

/-!
# Query expressions

A query seen as a whole: operands joined by connectives, each operand a clause or a group
with an expression inside, perhaps boosted. An expression has a text of its own
(`Expression.text`), given by its structure alone, and a list of edits that build it
(`Expression.edits`), one after the other on a new builder.

The two agree where no clause ends in a way that a builder would take for the end of
something else (`Expression.IsSolid`).
-/

namespace PortalSearch

/-- What a clause searches for. -/
inductive Subject where
  /-- terms, one at least -/
  | terms (first : Value) (more : List Value)
  /-- a range -/
  | range (lower upper : Value)

/-- The text of what a clause searches for. -/
def Subject.text : Subject → Text
  | terms first more => Term.series (first :: more)
  | range lower upper => Term.range lower upper

/-- The edits that make it pending. -/
def Subject.edits : Subject → List Edit
  | terms first more => [.terms (first :: more)]
  | range lower upper => [.bound .lower lower, .bound .upper upper]

/-- A clause: what it searches for and in which field. -/
structure Clause where
  /-- what it searches for -/
  subject : Subject
  /-- where it searches -/
  field : Option Text

namespace Clause

/-- The text of a clause. -/
def text (c : Clause) : Text := Builder.fieldLead c.field ++ c.subject.text

/-- The edits that write a clause. -/
def edits (c : Clause) : List Edit := c.subject.edits ++ [.field c.field]

/-- Whether a clause is written, and its last character is neither a blank nor an opening
parenthesis. A clause that searches for nothing is not written, nor is its field. -/
def IsSolid (c : Clause) : Prop :=
  c.subject.text ≠ [] ∧ ∀ x ∈ c.text.getLast?, Text.isBlank x = false ∧ x ≠ '('

end Clause

mutual

/-- A clause or a group, perhaps with a boost. -/
inductive Operand where
  /-- a clause -/
  | clause (c : Clause) (boost : Option Value)
  /-- a group -/
  | group (q : Expression) (boost : Option Value)

/-- Operands joined by connectives. -/
inductive Expression where
  /-- one operand, perhaps negated -/
  | single (negated : Bool) (u : Operand)
  /-- an expression with an operand joined to it -/
  | joined (q : Expression) (c : Connective) (u : Operand)

end

/-! ## Text -/

/-- The text of a boost. -/
def boostText : Option Value → Text
  | some factor => '^' :: factor.toText
  | none => []

mutual

/-- The text of an operand. A group that stands right behind the start of another one has a
blank in front. -/
def Operand.text (behindOpening : Bool) : Operand → Text
  | .clause c boost => c.text ++ boostText boost
  | .group q boost =>
    (if behindOpening then [' '] else []) ++ '(' :: q.text true ++ ')' :: boostText boost

/-- The text of an expression, which stands right behind the start of a group or at the start
of a query. -/
def Expression.text (behindOpening : Bool) : Expression → Text
  | .single true u => Connective.not.word ++ ' ' :: u.text false
  | .single false u => u.text behindOpening
  | .joined q c u => q.text behindOpening ++ ' ' :: c.word ++ ' ' :: u.text false

end

/-! ## Edits -/

/-- The edit that adds a boost. -/
def boostEdits : Option Value → List Edit
  | some factor => [.boost factor]
  | none => []

mutual

/-- The edits that write an operand. -/
def Operand.edits : Operand → List Edit
  | .clause c boost => c.edits ++ boostEdits boost
  | .group q boost => .startGroup :: q.edits ++ .endGroup :: boostEdits boost

/-- The edits that write an expression. -/
def Expression.edits : Expression → List Edit
  | .single negated u => (if negated then [.connect .not] else []) ++ u.edits
  | .joined q c u => q.edits ++ .connect c :: u.edits

end

/-! ## Solid expressions -/

/-- Whether a value is a number. -/
def Value.IsNumber : Value → Prop
  | .int _ | .float _ => True
  | _ => False

/-- Whether the ends of a range are given. -/
def Subject.IsComplete : Subject → Prop
  | terms _ _ => True
  | range lower upper => (Builder.boundOf lower).isSome ∧ (Builder.boundOf upper).isSome

mutual

/-- Whether all clauses of an operand are solid, its ranges complete and its boosts numbers. -/
def Operand.IsSolid : Operand → Prop
  | .clause c boost => c.IsSolid ∧ c.subject.IsComplete ∧ ∀ factor ∈ boost, factor.IsNumber
  | .group q boost => q.IsSolid ∧ ∀ factor ∈ boost, factor.IsNumber

/-- Whether all operands of an expression are solid. -/
def Expression.IsSolid : Expression → Prop
  | .single _ u => u.IsSolid
  | .joined q _ u => q.IsSolid ∧ u.IsSolid

end

end PortalSearch
