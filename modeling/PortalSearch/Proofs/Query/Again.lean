import PortalSearch.Proofs.Query.Commit
import PortalSearch.Proofs.Query.Finished

/-!
# Finishing again

What finishing leaves is finished, so finishing it once more finds nothing to take out. Nothing is
pending then and no group is open, so there is nothing to write, to give up or to close either.

Main result: finishing again changes nothing about a builder and warns of nothing
(`finish_finish`).
-/

namespace PortalSearch.Builder

variable {ts : List Token}

theorem tokens_clean_of_finished (h : Finished ts) : (clean ts).tokens = ts := by
  rw [clean_of_finished h]
  exact List.zipIdx_map_fst ..

theorem isIdle_ofTokens (ts : List Token) : (ofTokens ts).IsIdle := ⟨rfl, rfl, rfl⟩

theorem closedTokens_ofTokens (ts : List Token) : (ofTokens ts).closedTokens = ts :=
  (isIdle_ofTokens ts).closedTokens rfl

/-- Finished tokens are finished again as they are. -/
theorem fst_finish_ofTokens (h : Finished ts) : (ofTokens ts).finish.1 = ofTokens ts := by
  rw [finish, closedTokens_ofTokens]
  exact congrArg ofTokens (tokens_clean_of_finished h)

/-- About finished tokens there is nothing to warn of. -/
theorem snd_finish_ofTokens (h : Finished ts) : (ofTokens ts).finish.2 = [] := by
  have hclean := clean_of_finished h
  rw [finish, finishWarnings, closedTokens_ofTokens, hclean]
  rfl

/-- **Finishing again changes nothing** about a builder, whatever led to it, and warns of nothing:
all that is told is the query once more. -/
theorem finish_finish (b : Builder) (receiver : Option Receiver) :
    b.finish.1.finish = (b.finish.1, []) ∧
      finishJournal receiver b.finish.1 =
        .record ⟨.query, .debug, "Finalized search query: " ++ b.finish.1.text⟩ := by
  have hf : Finished b.finish.1.tokens := finished_clean b.closedTokens
  have hfst : b.finish.1.finish.1 = b.finish.1 := fst_finish_ofTokens hf
  have hsnd : b.finish.1.finish.2 = [] := snd_finish_ofTokens hf
  refine ⟨Prod.ext hfst hsnd, ?_⟩
  rw [finishJournal, hfst, hsnd]
  rfl

end PortalSearch.Builder
