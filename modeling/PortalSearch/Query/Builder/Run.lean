import PortalSearch.Journal
import PortalSearch.Query.Builder.Finish

/-!
# Runs of a builder

What can be asked of a builder are edits and finishing. A run answers such calls in order
and collects the warnings; the journal hands each warning on to a receiver.
-/

namespace PortalSearch.Builder

/-- What can be asked of a builder. -/
inductive Call where
  /-- to change the query -/
  | edit (e : Edit)
  /-- to finish it -/
  | finish

/-- Answers one call. -/
def call (b : Builder) : Call → Builder × List Warning
  | .edit e => b.step e
  | .finish => b.finish

/-- Answers calls in order and collects the warnings. -/
def run (b : Builder) : List Call → Builder × List Warning
  | [] => (b, [])
  | c :: cs =>
    let first := b.call c
    let later := first.1.run cs
    (later.1, first.2 ++ later.2)

/-! ## Journal -/

/-- Warnings handed to a receiver, or logged. -/
def journalOf (receiver : Option Receiver) (ws : List Warning) : Journal :=
  Journal.concat (ws.map fun w => Journal.warn receiver w.message)

/-- What an edit tells. -/
def stepJournal (receiver : Option Receiver) (b : Builder) (e : Edit) : Journal :=
  journalOf receiver (b.step e).2

/-- What finishing tells: its warnings, then the query. -/
def finishJournal (receiver : Option Receiver) (b : Builder) : Journal :=
  journalOf receiver b.finish.2 ++
    .record ⟨.query, .debug, "Finalized search query: " ++ b.finish.1.text⟩

end PortalSearch.Builder
