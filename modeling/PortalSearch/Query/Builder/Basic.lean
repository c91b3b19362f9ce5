import PortalSearch.Query.Warning

/-!
# Building a query

A builder holds the tokens written so far, the text they were written to, and a clause
that is still pending: terms, or one or both ends of a range. A pending clause is written
(`commit`) by naming its field, by the next connective, group end or boost, and at the
end.

An edit that is out of place is refused (`edit` gives the `Misuse`) and leaves the builder as it
is; every other edit succeeds.
-/

namespace PortalSearch

/-- A query under construction. -/
structure Builder where
  /-- the text so far, and how many groups are open -/
  draft : Draft
  /-- the tokens so far -/
  tokens : List Token
  /-- pending terms -/
  terms : List Value
  /-- pending lower end of a range -/
  lower : Option Value
  /-- pending upper end of a range -/
  upper : Option Value
  /-- the connective that still waits for the clause behind it -/
  pending : Option Connective

/-- A change to a query. -/
inductive Edit where
  /-- terms to search for -/
  | terms (vs : List Value)
  /-- the field that the pending clause is searched in -/
  | field (name : Option Text)
  /-- an end of a range; nothing takes it back -/
  | bound (side : RangeEnd) (v : Value)
  /-- the start of a group -/
  | startGroup
  /-- the end of the innermost group -/
  | endGroup
  /-- a connective -/
  | connect (c : Connective)
  /-- a factor for the rank of the clause in front -/
  | boost (factor : Value)

/-- What a builder is in the middle of. -/
inductive Phase where
  /-- nothing is written -/
  | empty
  /-- terms are pending -/
  | termPending
  /-- one or both ends of a range are pending -/
  | rangePending
  /-- a connective waits for a clause -/
  | modifierPending
  /-- everything is written -/
  | committed
  deriving DecidableEq

/-- The name of a phase. -/
def Phase.name : Phase → Text
  | .empty => "empty"
  | .termPending => "term_pending"
  | .rangePending => "range_pending"
  | .modifierPending => "modifier_pending"
  | .committed => "committed"

/-- All phases, from the first to the last. -/
def Phase.all : List Phase :=
  [.empty, .termPending, .rangePending, .modifierPending, .committed]

namespace Builder

/-- A builder that starts from a query text, which may be empty. -/
def ofSeed (seed : Text) : Builder where
  draft := ⟨seed, 0⟩
  tokens := if seed = [] then [] else [.seed seed]
  terms := []
  lower := none
  upper := none
  pending := none

/-- The query text as far as it is written. -/
def text (b : Builder) : Text := b.draft.text

/-- How many groups were started and not ended. -/
def openGroups (b : Builder) : Nat := b.draft.depth

/-- How a builder is shown. -/
def describe (b : Builder) : Text := "< SearchQueryBuilder @ " ++ b.text ++ " >"

/-! ## The pending clause -/

/-- Whether terms are pending. -/
def hasTerms (b : Builder) : Bool := !b.terms.isEmpty

/-- Whether an end of a range is pending. -/
def hasBound (b : Builder) : Bool := b.lower.isSome || b.upper.isSome

/-- Whether both ends of a range are pending. -/
def hasRange (b : Builder) : Bool := b.lower.isSome && b.upper.isSome

/-- Whether a complete clause is pending. -/
def hasClause (b : Builder) : Bool := b.hasTerms || b.hasRange

/-- What the builder is in the middle of. -/
def phase (b : Builder) : Phase :=
  if b.hasTerms then .termPending
  else if b.hasBound then .rangePending
  else if b.pending.isSome then .modifierPending
  else if b.text.isEmpty then .empty
  else .committed

/-- The text of the pending range, if it is complete. -/
def rangeText (b : Builder) : Text :=
  match b.lower, b.upper with
  | some lo, some hi => Term.range lo hi
  | _, _ => []

/-- The text of the pending clause; nothing if none is complete. -/
def clauseText (b : Builder) : Text := b.rangeText ++ Term.series b.terms

/-- Writes a token. -/
def append (b : Builder) (t : Token) : Builder :=
  { b with draft := b.draft.write t, tokens := b.tokens ++ [t] }

/-- The builder with no clause and no connective pending. Half a range stays. -/
def settled (b : Builder) : Builder where
  draft := b.draft
  tokens := b.tokens
  terms := []
  lower := if b.hasRange then none else b.lower
  upper := if b.hasRange then none else b.upper
  pending := none

/-- Writes the pending clause behind `lead`. A clause without text is dropped, and its lead
with it. -/
def commit (b : Builder) (lead : Text) : Builder :=
  if b.clauseText = [] then b.settled else b.settled.append (.clause (lead ++ b.clauseText))

/-! ## Edits -/

/-- What names the field in front of a clause. No field and `*` stand for the default ones. -/
def fieldLead : Option Text → Text
  | none | some [] => []
  | some field => if field = "*".toList then [] else field ++ [':']

/-- Whether nothing that could be joined or boosted is written at the end. -/
def endsBlank (b : Builder) : Bool :=
  Text.allBlank b.text || b.text.getLast? == some '('

/-- The bound that a value stands for. -/
def boundOf : Value → Option Value
  | .null => none
  | v => some v

/-- Carries an edit out, or says why it is out of place. -/
def edit (b : Builder) : Edit → Except Misuse Builder
  | .terms vs =>
    if b.hasBound then .error .termsDuringRange
    else .ok { b with terms := b.terms ++ vs }
  | .field name =>
    if b.hasClause then .ok (b.commit (fieldLead name))
    else if b.hasBound then .error (.incompleteRange name)
    else .error (.nothingToSearch name)
  | .bound .lower v =>
    if b.hasTerms then .error (.boundAfterTerms .lower)
    else .ok { b with lower := boundOf v }
  | .bound .upper v =>
    if b.hasTerms then .error (.boundAfterTerms .upper)
    else .ok { b with upper := boundOf v }
  | .startGroup => .ok ((b.commit []).append .opening)
  | .endGroup =>
    if b.openGroups = 0 then .error .noOpenGroup
    else .ok ((b.commit []).append .closing)
  | .connect c =>
    match b.pending with
    | some previous => .error (.connectiveAfter c previous)
    | none =>
      if c ≠ .not ∧ b.endsBlank ∧ !b.hasClause then .error (.nothingToJoin c)
      else .ok { (b.commit []).append (.connective c) with pending := some c }
  | .boost factor =>
    if !b.hasClause ∧ (b.pending.isSome ∨ b.endsBlank) then .error (.nothingToBoost factor)
    else .ok ((b.commit []).append (.boost factor.toText))

/-- Carries an edit out, or warns and leaves the builder as it is. -/
def step (b : Builder) (e : Edit) : Builder × List Warning :=
  match b.edit e with
  | .ok next => (next, [])
  | .error m => (b, [.misuse m])

end Builder

end PortalSearch
