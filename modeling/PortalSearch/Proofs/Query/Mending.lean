import PortalSearch.Proofs.Query.Pending

/-!
# Mending by hand

Finishing gives up half a range and closes the groups that are open. A caller may do so before, call
by call: take back the end of the range that is pending alone, and end one group after the other.
The first of these ends writes the clause that is pending, and behind it nothing is left to write,
so the ends of the groups come to stand where finishing puts them.

Main result: mending a builder by hand warns of nothing and leads to what finishing alone leads to;
all that finishing alone says besides is that it discarded the range and closed the groups
(`finish_mended`).
-/

namespace PortalSearch.Builder

variable {b : Builder}

/-- Whether one end of a range is pending without the other. -/
def hasHalf (b : Builder) : Bool := b.lower.isSome != b.upper.isSome

/-- The calls that take back an end of a range that is pending without the other. -/
def takeBack (b : Builder) : List Call :=
  match b.lower, b.upper with
  | some _, none => [.edit (.bound .lower .null)]
  | none, some _ => [.edit (.bound .upper .null)]
  | _, _ => []

/-- The calls that leave nothing half done. -/
def mending (b : Builder) : List Call :=
  b.takeBack ++ List.replicate b.openGroups (.edit .endGroup)

/-! ## Half a range -/

theorem hasHalf_eq (b : Builder) : b.hasHalf = (b.hasBound && !b.hasRange) := by
  rw [hasHalf, hasBound, hasRange]
  cases b.lower.isSome <;> cases b.upper.isSome <;> rfl

/-- The builder without the end of a range that is pending without the other. -/
def whole (b : Builder) : Builder where
  draft := b.draft
  tokens := b.tokens
  terms := b.terms
  lower := if b.hasHalf then none else b.lower
  upper := if b.hasHalf then none else b.upper
  pending := b.pending

theorem hasHalf_whole (b : Builder) : b.whole.hasHalf = false := by
  cases h : b.hasHalf with
  | true => rw [whole, h]; rfl
  | false => rw [whole, h]; exact h

/-- Taking half a range back is not refused, as no terms are pending with it. -/
theorem run_takeBack (h : b.hasTerms = true → b.hasBound = false) :
    b.run b.takeBack = (b.whole, []) := by
  have hterms (hbound : b.hasBound = true) : b.hasTerms = false := by
    rw [← Bool.not_eq_true]
    intro ht
    exact Bool.noConfusion ((h ht).symm.trans hbound)
  rw [takeBack]
  split
  · next v hl hu =>
    have he : b.edit (.bound .lower .null) = .ok b.whole := by
      rw [edit, hterms (by rw [hasBound, hl]; rfl), whole, hasHalf, hl, hu]
      rfl
    rw [run_edit, step_of_ok he]
  · next v hl hu =>
    have he : b.edit (.bound .upper .null) = .ok b.whole := by
      rw [edit, hterms (by rw [hasBound, hl, hu]; rfl), whole, hasHalf, hl, hu]
      rfl
    rw [run_edit, step_of_ok he]
  · next hlower hupper =>
    have hnone : b.hasHalf = false := by
      rw [hasHalf]
      cases hl : b.lower with
      | none =>
        cases hu : b.upper with
        | none => rfl
        | some v => exact (hupper v hl hu).elim
      | some v =>
        cases hu : b.upper with
        | none => exact (hlower v hl hu).elim
        | some w => rfl
    rw [whole, hnone]
    rfl

/-- Half a range is not written, so it makes no difference to what is finished. -/
theorem closedTokens_whole (b : Builder) : b.whole.closedTokens = b.closedTokens := by
  have hrange : b.whole.rangeText = b.rangeText := by
    cases h : b.hasHalf with
    | false => rw [whole, h]; rfl
    | true =>
      have hnone : b.rangeText = [] := by
        rw [hasHalf] at h
        rw [rangeText]
        split
        · next hl hu => rw [hl, hu] at h; cases h
        · rfl
      rw [hnone, rangeText, whole, h]
      rfl
  have hclause : b.whole.clauseText = b.clauseText := by rw [clauseText, hrange]; rfl
  rw [closedTokens, closedTokens, commit, commit, hclause]
  split <;> rfl

/-! ## Ends of groups -/

theorem hasHalf_commit (b : Builder) (lead : Text) : (b.commit lead).hasHalf = b.hasHalf := by
  have hclause := commit_hasClause b lead
  rw [hasClause, Bool.or_eq_false_iff] at hclause
  rw [hasHalf_eq, hasHalf_eq, commit_hasBound, hclause.2, Bool.not_false, Bool.and_true]

theorem openGroups_endGroup {n : Nat} (h : b.openGroups = n + 1) :
    ((b.commit []).append .closing).openGroups = n := by
  change (b.commit []).openGroups - 1 = n
  rw [commit_openGroups, h, Nat.add_sub_cancel]

/-- The end of a group that is written is one that finishing does not write. -/
theorem closedTokens_endGroup {n : Nat} (h : b.openGroups = n + 1) :
    ((b.commit []).append .closing).closedTokens = b.closedTokens := by
  have hincomplete : ((b.commit []).append .closing).hasClause = false := commit_hasClause b []
  have hsettled : (b.commit []).settled = b.commit [] := by
    rw [← commit_of_incomplete (commit_hasClause b []) [], commit_commit]
  rw [closedTokens, openGroups_endGroup h, commit_of_incomplete hincomplete, append_settled,
    hsettled, closedTokens, h, List.replicate_succ]
  simp [append]

/-- Ending all open groups leaves none to close, and the tokens to finish as they are. -/
theorem run_endGroups {n : Nat} (h : b.openGroups = n) :
    let ended := b.run (List.replicate n (.edit .endGroup))
    ended.2 = [] ∧ ended.1.closedTokens = b.closedTokens ∧ ended.1.openGroups = 0 ∧
      ended.1.hasHalf = b.hasHalf := by
  induction n generalizing b with
  | zero => exact ⟨rfl, rfl, h, rfl⟩
  | succ n ih =>
    have hcall : b.call (.edit .endGroup) = ((b.commit []).append .closing, []) := by
      rw [call, step_of_ok (edit_endGroup (by omega))]
    obtain ⟨hwarn, htokens, hopen, hhalf⟩ := ih (openGroups_endGroup h)
    rw [List.replicate_succ, run_cons, hcall]
    exact ⟨hwarn, htokens.trans (closedTokens_endGroup h), hopen,
      hhalf.trans (hasHalf_commit b [])⟩

/-! ## Both -/

/-- What finishing says about what it took out. -/
def removalWarnings (ts : List Token) : List Warning :=
  if (clean ts).groups = 0 ∧ (clean ts).dropped = [] then []
  else [.removed (clean ts).groups (clean ts).dropped]

theorem snd_finish (b : Builder) :
    b.finish.2 = (if b.hasHalf then [.rangeDiscarded] else []) ++
      (if b.openGroups = 0 then [] else [.groupsClosed b.openGroups]) ++
      removalWarnings b.closedTokens := by
  rw [hasHalf_eq]
  rfl

/-- **Mending by hand** before finishing warns of nothing and leads to what finishing alone leads
to, with the same text and the same tokens. It says the same about what is taken out; finishing
alone says besides that a range is discarded, exactly if one end of it is pending alone, and that
groups are closed and how many, exactly if there are any. -/
theorem finish_mended (seed : Text) (ks : List Call) :
    let b := ((ofSeed seed).run ks).1
    let mended := b.run b.mending
    mended.2 = [] ∧ mended.1.finish.1 = b.finish.1 ∧
      mended.1.finish.2 = removalWarnings b.closedTokens ∧
      b.finish.2 = (if b.hasHalf then [.rangeDiscarded] else []) ++
        (if b.openGroups = 0 then [] else [.groupsClosed b.openGroups]) ++ mended.1.finish.2 := by
  intro b mended
  have hpoised : b.IsPoised :=
    run_preserves (P := IsPoised) (fun _ k h => h.call k) (isPoised_ofSeed seed) ks
  have hmended : mended = b.whole.run (List.replicate b.openGroups (.edit .endGroup)) := by
    change b.run (b.takeBack ++ _) = _
    rw [run_append, run_takeBack hpoised.alone]
    rfl
  obtain ⟨hwarn, htokens, hopen, hhalf⟩ := run_endGroups (b := b.whole) (n := b.openGroups) rfl
  rw [← hmended] at hwarn htokens hopen hhalf
  have hclosed : mended.1.closedTokens = b.closedTokens := htokens.trans (closedTokens_whole b)
  have hremoval : mended.1.finish.2 = removalWarnings b.closedTokens := by
    rw [snd_finish, hclosed, hhalf, hasHalf_whole, hopen]
    rfl
  refine ⟨hwarn, ?_, hremoval, ?_⟩
  · change ofTokens (clean mended.1.closedTokens).tokens = _
    rw [hclosed]
    rfl
  · rw [hremoval]
    exact snd_finish b

end PortalSearch.Builder
