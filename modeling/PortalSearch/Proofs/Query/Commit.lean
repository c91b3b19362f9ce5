import PortalSearch.Proofs.Query.Run

/-!
# Writing a pending clause

A pending clause is written by naming its field, or by the next call that needs it out of
the way. The two are meant to be the same thing: naming no field and then making the call
should do what the call does alone. They are, up to the guards of the calls. Starting and
ending a group and finishing have none that looks at what `commit` changes. A connective is
refused while one is pending, although `commit` would have cleared that one, and AND, OR and
boosts look for text that can be joined or boosted only if no clause is pending, although
the pending clause may come to no such text.

Main result: the two ways agree exactly where neither happens (`sameOutcome_field_none_iff`).
-/

namespace PortalSearch.Builder

variable {b : Builder} {lead : Text}

/-! ## What is left pending -/

theorem boundOf_eq_some {v : Value} (h : (boundOf v).isSome = true) : boundOf v = some v := by
  cases v with
  | null => cases h
  | bool _ | int _ | float _ | text _ | bytes _ | date _ | moment _ | list _ | object _ => rfl

@[simp] theorem settled_hasRange (b : Builder) : b.settled.hasRange = false := by
  cases h : b.hasRange with
  | true => rw [settled, h]; rfl
  | false => rw [settled, h]; exact h

theorem settled_hasBound (b : Builder) : b.settled.hasBound = (b.hasBound && !b.hasRange) := by
  cases h : b.hasRange with
  | true => rw [settled, h, Bool.not_true, Bool.and_false]; rfl
  | false => rw [settled, h, Bool.not_false, Bool.and_true]; rfl

/-- Nothing is written of an incomplete clause. -/
theorem clauseText_of_incomplete (h : b.hasClause = false) : b.clauseText = [] := by
  obtain ⟨ht, hr⟩ := Bool.or_eq_false_iff.mp h
  have hterms : b.terms = [] := by simpa [hasTerms] using ht
  have hrange : b.rangeText = [] := by
    rw [rangeText]
    split
    · next hl hu => simp [hasRange, hl, hu] at hr
    · rfl
  rw [clauseText, hterms, hrange]
  rfl

@[simp] theorem settled_clauseText (b : Builder) : b.settled.clauseText = [] :=
  clauseText_of_incomplete (settled_hasRange b)

theorem commit_of_incomplete (h : b.hasClause = false) (lead : Text) :
    b.commit lead = b.settled := if_pos (clauseText_of_incomplete h)

theorem settled_settled (b : Builder) : b.settled.settled = b.settled := by
  rw [settled, settled_hasRange]
  rfl

theorem append_settled (b : Builder) (t : Token) : (b.append t).settled = b.settled.append t := rfl

/-- Writing the pending clause writes one token, or none. -/
theorem commit_eq (b : Builder) (lead : Text) :
    b.commit lead = b.settled ∨ ∃ t ≠ [], b.commit lead = b.settled.append (.clause t) := by
  by_cases ht : b.clauseText = []
  · exact .inl (if_pos ht)
  · refine .inr ⟨lead ++ b.clauseText, ?_, if_neg ht⟩
    intro h
    exact ht (List.append_eq_nil_iff.mp h).2

/-- Committing twice is committing once. -/
theorem commit_commit (b : Builder) (lead lead' : Text) :
    (b.commit lead).commit lead' = b.commit lead := by
  have h : (b.commit lead).settled = b.commit lead := by
    rcases commit_eq b lead with hc | ⟨t, -, hc⟩
    · rw [hc, settled_settled]
    · rw [hc, append_settled, settled_settled]
  have ht : (b.commit lead).clauseText = [] := by
    rw [← h]
    exact settled_clauseText _
  rw [commit, if_pos ht, h]

@[simp] theorem commit_pending (b : Builder) (lead : Text) : (b.commit lead).pending = none := by
  rcases commit_eq b lead with hc | ⟨t, -, hc⟩ <;> rw [hc] <;> rfl

@[simp] theorem commit_terms (b : Builder) (lead : Text) : (b.commit lead).terms = [] := by
  rcases commit_eq b lead with hc | ⟨t, -, hc⟩ <;> rw [hc] <;> rfl

@[simp] theorem commit_openGroups (b : Builder) (lead : Text) :
    (b.commit lead).openGroups = b.openGroups := by
  rcases commit_eq b lead with hc | ⟨t, -, hc⟩ <;> rw [hc] <;> rfl

@[simp] theorem commit_hasClause (b : Builder) (lead : Text) :
    (b.commit lead).hasClause = false := by
  rcases commit_eq b lead with hc | ⟨t, -, hc⟩ <;> rw [hc] <;> exact settled_hasRange b

theorem commit_hasBound (b : Builder) (lead : Text) :
    (b.commit lead).hasBound = (b.hasBound && !b.hasRange) := by
  rcases commit_eq b lead with hc | ⟨t, -, hc⟩ <;> rw [hc] <;> exact settled_hasBound b

/-! ## Nothing pending -/

/-- Whether no clause is pending, and no part of one. -/
def IsIdle (b : Builder) : Prop := b.terms = [] ∧ b.lower = none ∧ b.upper = none

/-- With more tokens written and nothing pending behind them. -/
def extended (b : Builder) (ts : List Token) : Builder :=
  { b with draft := b.draft.writeAll ts, tokens := b.tokens ++ ts, pending := none }

theorem extended_extended (b : Builder) (ts us : List Token) :
    (b.extended ts).extended us = b.extended (ts ++ us) := by
  simp [extended, Draft.writeAll_append]

theorem append_extended (b : Builder) (ts : List Token) (t : Token) :
    (b.extended ts).append t = b.extended (ts ++ [t]) := by
  simp [append, extended, Draft.writeAll_append]

theorem extended_nil (hp : b.pending = none) : b.extended [] = b := by
  rw [extended, List.append_nil, ← hp]
  rfl

theorem IsIdle.extend (h : b.IsIdle) (ts : List Token) : (b.extended ts).IsIdle := h

theorem IsIdle.hasClause (h : b.IsIdle) : b.hasClause = false := by
  simp [Builder.hasClause, hasTerms, hasRange, h.1, h.2.1]

/-- With no clause pending, writing it changes nothing but the pending connective. -/
theorem IsIdle.commit (h : b.IsIdle) (lead : Text) : b.commit lead = b.extended [] := by
  have ht : b.clauseText = [] := by simp [clauseText, rangeText, h.1, h.2.1]
  rw [Builder.commit, if_pos ht]
  simp [settled, extended, h.2.1, h.2.2, h.1]

theorem IsIdle.closedTokens (h : b.IsIdle) (ho : b.openGroups = 0) : b.closedTokens = b.tokens := by
  rw [Builder.closedTokens, h.commit, ho, extended, List.append_nil]
  exact List.append_nil _

/-! ## Calls that write the pending clause -/

/-- The calls that write a pending clause before they do their own work. -/
def Commits (b : Builder) : Call → Prop
  | .edit (.connect _) | .edit .startGroup | .edit (.boost _) | .finish => True
  | .edit .endGroup => b.openGroups ≠ 0
  | .edit (.terms _) | .edit (.field _) | .edit (.bound _ _) => False

/-- Whether a call that writes the pending clause finds nothing to refuse, whether the clause is
pending still or written. -/
def Welcomes (b : Builder) : Call → Prop
  | .edit (.connect c) => b.pending = none ∧ (c = .not ∨ (b.commit []).endsBlank = false)
  | .edit (.boost _) => (b.commit []).endsBlank = false
  | _ => True

/-- The same tokens, the same text and the same warnings. -/
def SameOutcome (x y : Builder × List Warning) : Prop :=
  x.1.tokens = y.1.tokens ∧ x.1.text = y.1.text ∧ x.2 = y.2

/-- Naming no field writes the pending clause as any other call would. -/
theorem run_field_none (h : b.hasClause = true) (k : Call) :
    b.run [.edit (.field none), k] = (b.commit []).run [k] := by
  have he : b.edit (.field none) = .ok (b.commit []) := by
    rw [edit, if_pos h]
    rfl
  simp [run, call, step, he]

theorem edit_startGroup_commit (b : Builder) :
    (b.commit []).edit .startGroup = .ok ((b.commit []).append .opening) := by
  rw [edit, commit_commit]

theorem edit_endGroup (h : b.openGroups ≠ 0) :
    b.edit .endGroup = .ok ((b.commit []).append .closing) := by
  rw [edit, if_neg h]

theorem edit_endGroup_commit (h : b.openGroups ≠ 0) :
    (b.commit []).edit .endGroup = .ok ((b.commit []).append .closing) := by
  rw [edit_endGroup (by rwa [commit_openGroups]), commit_commit]

theorem finish_commit (b : Builder) : (b.commit []).finish = b.finish := by
  have hb : ((b.commit []).hasBound && !(b.commit []).hasRange) = (b.hasBound && !b.hasRange) := by
    have hr := commit_hasClause b []
    simp only [hasClause, Bool.or_eq_false_iff] at hr
    rw [hr.2, commit_hasBound, Bool.not_false, Bool.and_true]
  have ht : (b.commit []).closedTokens = b.closedTokens := by
    rw [closedTokens, commit_commit, commit_openGroups, closedTokens]
  simp only [finish, finishWarnings, ht, hb, commit_openGroups]

theorem edit_connect_of_pending {previous : Connective} (hp : b.pending = some previous)
    (c : Connective) : b.edit (.connect c) = .error (.connectiveAfter c previous) := by
  rw [edit, hp]

theorem edit_connect (h : b.hasClause = true) (hp : b.pending = none) (c : Connective) :
    b.edit (.connect c) =
      .ok { (b.commit []).append (.connective c) with pending := some c } := by
  rw [edit, hp, h]
  simp

theorem edit_connect_commit (b : Builder) (c : Connective) :
    (b.commit []).edit (.connect c) =
      if c ≠ .not ∧ (b.commit []).endsBlank = true then .error (.nothingToJoin c)
      else .ok { (b.commit []).append (.connective c) with pending := some c } := by
  rw [edit, commit_commit, commit_hasClause]
  simp

theorem edit_boost (h : b.hasClause = true) (factor : Value) :
    b.edit (.boost factor) = .ok ((b.commit []).append (.boost factor.toText)) := by
  rw [edit, if_neg (by simp [h])]

theorem edit_boost_commit (b : Builder) (factor : Value) :
    (b.commit []).edit (.boost factor) =
      if (b.commit []).endsBlank = true then .error (.nothingToBoost factor)
      else .ok ((b.commit []).append (.boost factor.toText)) := by
  rw [edit, commit_commit, commit_hasClause]
  simp

/-! ## The two ways -/

theorem sameOutcome_connect_iff (h : b.hasClause = true) (c : Connective) :
    SameOutcome ((b.commit []).step (.connect c)) (b.step (.connect c)) ↔
      b.Welcomes (.edit (.connect c)) := by
  cases hp : b.pending with
  | some previous =>
    -- refused alone: with another reason behind the written clause, or not at all
    rw [step_of_error (edit_connect_of_pending hp c)]
    refine ⟨?_, fun hw => absurd (hp.symm.trans hw.1) (by simp)⟩
    intro hs
    have hwarn := hs.2.2
    have he := edit_connect_commit b c
    split at he
    · rw [step_of_error he] at hwarn
      cases hwarn
    · rw [step_of_ok he] at hwarn
      cases hwarn
  | none =>
    rw [step_of_ok (edit_connect h hp c)]
    have he := edit_connect_commit b c
    split at he
    · next hr =>
      rw [step_of_error he]
      refine ⟨fun hs => absurd hs.2.2 (by simp), ?_⟩
      intro hw
      rcases hw.2 with hc | hb
      · exact absurd hc hr.1
      · rw [hr.2] at hb
        cases hb
    · next hr =>
      rw [step_of_ok he]
      refine ⟨fun _ => ⟨hp, ?_⟩, fun _ => ⟨rfl, rfl, rfl⟩⟩
      simpa [Classical.or_iff_not_imp_left] using hr

theorem sameOutcome_boost_iff (h : b.hasClause = true) (factor : Value) :
    SameOutcome ((b.commit []).step (.boost factor)) (b.step (.boost factor)) ↔
      b.Welcomes (.edit (.boost factor)) := by
  rw [step_of_ok (edit_boost h factor)]
  have he := edit_boost_commit b factor
  split at he
  · next hr =>
    rw [step_of_error he]
    exact ⟨fun hs => absurd hs.2.2 (by simp), fun hw => Bool.noConfusion (hr.symm.trans hw)⟩
  · next hr =>
    rw [step_of_ok he]
    exact ⟨fun _ => Bool.eq_false_iff.mpr hr, fun _ => ⟨rfl, rfl, rfl⟩⟩

/-- **Implicit and explicit commits**: with a complete clause pending, naming no field and then
making a call that writes the clause comes to the same as the call alone, exactly where the
call is welcome both before the clause is written and behind it. -/
theorem sameOutcome_field_none_iff (h : b.hasClause = true) {k : Call} (hk : b.Commits k) :
    SameOutcome (b.run [.edit (.field none), k]) (b.run [k]) ↔ b.Welcomes k := by
  rw [run_field_none h]
  cases k with
  | finish =>
    rw [show (b.commit []).run [.finish] = b.run [.finish] by simp [run, call, finish_commit]]
    exact ⟨fun _ => trivial, fun _ => ⟨rfl, rfl, rfl⟩⟩
  | edit e =>
    rw [run_edit, run_edit]
    cases e with
    | connect c => exact sameOutcome_connect_iff h c
    | boost factor => exact sameOutcome_boost_iff h factor
    | startGroup =>
      rw [step_of_ok (edit_startGroup_commit b), step_of_ok (e := .startGroup) rfl]
      exact ⟨fun _ => trivial, fun _ => ⟨rfl, rfl, rfl⟩⟩
    | endGroup =>
      rw [step_of_ok (edit_endGroup_commit hk), step_of_ok (edit_endGroup hk)]
      exact ⟨fun _ => trivial, fun _ => ⟨rfl, rfl, rfl⟩⟩
    | terms _ | field _ | bound _ _ => exact hk.elim

/-- A connective right behind a first clause is such a call. -/
theorem sameOutcome_or_behind_first_clause :
    let b := ((ofSeed []).run [.edit (.terms [.text ['a']])]).1
    b.hasClause = true ∧ b.Commits (.edit (.connect .or)) ∧
      SameOutcome (b.run [.edit (.field none), .edit (.connect .or)])
        (b.run [.edit (.connect .or)]) :=
  ⟨rfl, trivial, (sameOutcome_field_none_iff (k := .edit (.connect .or)) rfl trivial).mpr
    ⟨rfl, .inr (by decide +kernel)⟩⟩

/-- Behind a second clause it is refused unless that clause was written before, and then the
clauses on both its sides run into one. -/
theorem or_behind_second_clause_refused :
    let terms (c : Char) : Call := .edit (.terms [.text [c]])
    let b := ((ofSeed []).run [terms 'a', .edit (.connect .and), terms 'b']).1
    b.hasClause = true ∧ b.Commits (.edit (.connect .or)) ∧
      ¬ SameOutcome (b.run [.edit (.field none), .edit (.connect .or)])
        (b.run [.edit (.connect .or)]) ∧
      (b.run [.edit (.connect .or), terms 'c']).1.finish.1.text = "a AND b c".toList ∧
      (b.run [.edit (.field none), .edit (.connect .or), terms 'c']).1.finish.1.text =
        "a AND b OR c".toList := by
  refine ⟨rfl, trivial, ?_, by decide +kernel, by decide +kernel⟩
  intro h
  exact absurd (congrArg List.length h.2.2) (by decide +kernel)

end PortalSearch.Builder
