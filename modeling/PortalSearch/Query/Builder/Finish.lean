import PortalSearch.Query.Builder.Basic
import PortalSearch.Query.Prune
import PortalSearch.Query.Seed

/-!
# Finishing a query

Finishing writes what is pending, gives up half a range, closes the groups that are still
open, and takes out what joins nothing. The finished builder holds the tokens that are
left, their text without blanks at its end, and nothing pending; building can go on
from it.
-/

namespace PortalSearch.Builder

/-- Takes out what joins nothing. If only the text is left that building started from, its
trailing connectives go too. Each token that is left is marked with its place in the query. -/
def clean (ts : List Token) : Pruned Nat :=
  let pruned := prune ts.zipIdx
  match pruned.kept with
  | [(.seed seed, place)] =>
    let cut := Seed.trim seed
    ⟨if cut.1 = [] then [] else [(.seed cut.1, place)], pruned.dropped ++ cut.2, pruned.groups⟩
  | _ => pruned

/-- The tokens to finish: the pending clause written and the open groups closed. -/
def closedTokens (b : Builder) : List Token :=
  (b.commit []).tokens ++ List.replicate b.openGroups .closing

/-- The builder that holds finished tokens and nothing else. -/
def ofTokens (ts : List Token) : Builder where
  draft := ⟨Text.trimEnd (Draft.render ts), 0⟩
  tokens := ts
  terms := []
  lower := none
  upper := none
  pending := none

/-- What finishing warns about. -/
def finishWarnings (b : Builder) : List Warning :=
  let cleaned := clean b.closedTokens
  (if b.hasBound && !b.hasRange then [.rangeDiscarded] else []) ++
    (if b.openGroups = 0 then [] else [.groupsClosed b.openGroups]) ++
    if cleaned.groups = 0 ∧ cleaned.dropped = [] then []
    else [.removed cleaned.groups cleaned.dropped]

/-- Finishes the query: the finished builder, whose text is the query, and the warnings. -/
def finish (b : Builder) : Builder × List Warning :=
  (ofTokens (clean b.closedTokens).tokens, b.finishWarnings)

/-- Finishes the query and starts a new builder from its text. -/
def clone (b : Builder) : Builder := ofSeed b.finish.1.text

end PortalSearch.Builder
