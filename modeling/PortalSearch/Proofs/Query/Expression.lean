import PortalSearch.Proofs.Query.Commit
import PortalSearch.Proofs.Query.Ending
import PortalSearch.Proofs.Query.Finished

/-!
# Building an expression

The edits of an expression are a program, and its text says what the program is meant to
write. Between the two stand the tokens of the expression. The edits write exactly these
and are all accepted, the tokens are written as the text says, and finishing finds nothing
to take out of them: they are orderly and do not end in a connective.

Each of the three is an induction over the operands and groups. What carries them is that
an operand ends in a token that makes the text end solid, so that the next connective or
boost finds something in front, and the end of a group something inside.

Main result: a solid expression is built without a warning and comes out as its text
(`run_edits`).
-/

namespace PortalSearch

open Text

/-! ## Tokens -/

/-- The token of a boost. -/
def boostTokens : Option Value → List Token
  | some factor => [.boost factor.toText]
  | none => []

mutual

/-- The tokens of an operand. -/
def Operand.tokens : Operand → List Token
  | .clause c boost => .clause c.text :: boostTokens boost
  | .group q boost => .opening :: q.tokens ++ .closing :: boostTokens boost

/-- The tokens of an expression. -/
def Expression.tokens : Expression → List Token
  | .single negated u => (if negated then [.connective .not] else []) ++ u.tokens
  | .joined q c u => q.tokens ++ .connective c :: u.tokens

end

theorem Clause.IsSolid.endsSolid {c : Clause} (h : c.IsSolid) : EndsSolid c.text := by
  obtain ⟨hn, hl⟩ := h
  have hc : c.text ≠ [] := fun h0 => hn (List.append_eq_nil_iff.mp h0).2
  exact ⟨_, List.getLast?_eq_some_getLast hc, hl _ (List.getLast?_eq_some_getLast hc)⟩

theorem Clause.isSolid_of_endsSolid {c : Clause} (hn : c.subject.text ≠ []) (h : EndsSolid c.text) :
    c.IsSolid := by
  obtain ⟨x, hx, hs⟩ := h
  refine ⟨hn, ?_⟩
  intro y hy
  obtain rfl : x = y := Option.some.inj (hx.symm.trans hy)
  exact hs

/-! ## Ends -/

theorem lastSolid_boost {t : Token} {boost : Option Value} (ht : t.IsSolid)
    (h : ∀ factor ∈ boost, factor.IsNumber) : LastSolid (t :: boostTokens boost) := by
  cases boost with
  | none => exact ⟨t, rfl, ht⟩
  | some factor => exact ⟨_, rfl, (h factor rfl).endsSolid⟩

theorem Operand.lastSolid_tokens {u : Operand} (h : u.IsSolid) : LastSolid u.tokens := by
  cases u with
  | clause c boost => exact lastSolid_boost (t := .clause c.text) h.1.endsSolid h.2.2
  | group q boost => exact (lastSolid_boost (t := .closing) trivial h.2).append _

theorem Expression.lastSolid_tokens {q : Expression} (h : q.IsSolid) : LastSolid q.tokens := by
  cases q with
  | single negated u => exact (Operand.lastSolid_tokens h).append _
  | joined q c u =>
    exact ((Operand.lastSolid_tokens h.2).append [.connective c]).append q.tokens

/-! ## Order -/

/-- The end of a group and a connective may follow a solid token. -/
theorem Token.mayFollow_solid {t u : Token} (ht : t.IsSolid) : u.mayFollow (some t) = true := by
  cases t with
  | seed _ | connective _ | opening => exact ht.elim
  | clause _ | boost _ | closing =>
    cases u with
    | connective c => cases c <;> rfl
    | seed _ | clause _ | boost _ | opening | closing => rfl

/-- Orderly tokens go on being orderly behind others that end in a solid one. -/
theorem Orderly.cons_of_lastSolid {ts before : List Token} (hs : LastSolid ts)
    (h : Orderly (ts.reverse ++ before)) (u : Token) :
    Orderly (u :: (ts.reverse ++ before)) := by
  obtain ⟨t, ht, hsolid⟩ := hs
  refine ⟨?_, h⟩
  rw [List.head?_append, List.head?_reverse, ht]
  exact Token.mayFollow_solid hsolid

theorem orderly_boost {before : List Token} (h : Orderly before) (boost : Option Value) :
    Orderly ((boostTokens boost).reverse ++ before) := by
  cases boost with
  | none => exact h
  | some factor => exact ⟨rfl, h⟩

mutual

/-- The tokens of an operand may stand anywhere. -/
theorem Operand.orderly_tokens : ∀ (u : Operand) {before : List Token}, u.IsSolid →
    Orderly before → Orderly (u.tokens.reverse ++ before)
  | .clause c boost, before, _, ho => by
    have h : Orderly (.clause c.text :: before) := ⟨rfl, ho⟩
    simpa [Operand.tokens] using orderly_boost h boost
  | .group q boost, before, hu, ho => by
    have h : Orderly (.opening :: before) := ⟨rfl, ho⟩
    have hq := q.orderly_tokens hu.1 h (.inr rfl)
    have hc := hq.cons_of_lastSolid (Expression.lastSolid_tokens hu.1) .closing
    simpa [Operand.tokens] using orderly_boost hc boost

/-- The tokens of an expression may begin a query or a group. -/
theorem Expression.orderly_tokens : ∀ (q : Expression) {before : List Token}, q.IsSolid →
    Orderly before → (before = [] ∨ before.head? = some .opening) →
    Orderly (q.tokens.reverse ++ before)
  | .single true u, before, hu, ho, hb => by
    have h : Orderly (.connective .not :: before) := by
      refine ⟨?_, ho⟩
      rcases hb with rfl | hb
      · rfl
      · rw [hb]
        rfl
    simpa [Expression.tokens] using u.orderly_tokens hu h
  | .single false u, before, hu, ho, _ => by
    simpa [Expression.tokens] using u.orderly_tokens hu ho
  | .joined q c u, before, hu, ho, hb => by
    have hq := q.orderly_tokens hu.1 ho hb
    have hc := hq.cons_of_lastSolid (Expression.lastSolid_tokens hu.1) (.connective c)
    simpa [Expression.tokens] using u.orderly_tokens hu.2 hc

end

/-! ## Text -/

namespace Draft

/-- Whether an expression may begin here: at the start of the query, or of a group. -/
def Begins (d : Draft) (behindOpening : Bool) : Prop :=
  if behindOpening then 0 < d.depth ∧ d.text.getLast? = some '(' else d = empty

/-- A connective that begins an expression has no blank in front. -/
theorem Begins.write_connective {d : Draft} {behindOpening : Bool} (h : d.Begins behindOpening)
    (c : Connective) : d.write (.connective c) = ⟨d.text ++ c.word ++ [' '], d.depth⟩ := by
  have hs : spaced d.text = d.text := by
    cases behindOpening with
    | false =>
      obtain rfl : d = empty := h
      rfl
    | true => simp only [spaced, h.2]
  rw [write, hs]

/-- A connective behind a solid end has one. -/
theorem write_connective_of_endsSolid {d : Draft} (h : EndsSolid d.text) (c : Connective) :
    d.write (.connective c) = ⟨d.text ++ ' ' :: c.word ++ [' '], d.depth⟩ := by
  rw [write, spaced_of_endsSolid h]
  simp

/-- Where an expression begins, a group has a blank in front exactly behind an opening. -/
theorem Begins.blank_iff {d : Draft} {behindOpening : Bool} (h : d.Begins behindOpening) :
    (0 < d.depth ∧ d.text.getLast? ≠ some ' ') ↔ behindOpening = true := by
  cases behindOpening with
  | false =>
    obtain rfl : d = empty := h
    decide
  | true =>
    refine ⟨fun _ => rfl, fun _ => ⟨h.1, ?_⟩⟩
    rw [h.2]
    decide

/-- Behind a connective a group brings no blank. -/
theorem blank_iff_of_blank (depth : Nat) (t : Text) :
    (0 < depth ∧ (t ++ [' ']).getLast? ≠ some ' ') ↔ false = true := by
  simp

theorem begins_opening (d : Draft) : (d.write .opening).Begins true := by
  refine ⟨Nat.succ_pos _, ?_⟩
  simp [write]

theorem write_opening {d : Draft} {behindOpening : Bool}
    (h : (0 < d.depth ∧ d.text.getLast? ≠ some ' ') ↔ behindOpening = true) :
    d.write .opening =
      ⟨d.text ++ ((if behindOpening then [' '] else []) ++ ['(']), d.depth + 1⟩ := by
  cases behindOpening <;> simp [write, h]

theorem writeAll_boost (d : Draft) (boost : Option Value) :
    d.writeAll (boostTokens boost) = ⟨d.text ++ boostText boost, d.depth⟩ := by
  cases boost with
  | none => rw [boostText, List.append_nil]; rfl
  | some factor => rfl

end Draft

mutual

/-- The tokens of an operand are written as its text. -/
theorem Operand.writeAll_tokens : ∀ (u : Operand) {d : Draft} {behindOpening : Bool}, u.IsSolid →
    ((0 < d.depth ∧ d.text.getLast? ≠ some ' ') ↔ behindOpening = true) →
    d.writeAll u.tokens = ⟨d.text ++ u.text behindOpening, d.depth⟩
  | .clause c boost, d, _, _, _ => by
    simp [Operand.tokens, Operand.text, Draft.write, Draft.writeAll_boost]
  | .group q boost, d, behindOpening, hu, hd => by
    have hq := q.writeAll_tokens hu.1 d.begins_opening
    rw [Operand.tokens, List.cons_append, Draft.writeAll_cons, Draft.writeAll_append, hq,
      Draft.writeAll_cons, Draft.writeAll_boost, Draft.write_opening hd]
    simp [Operand.text, Draft.write]

/-- The tokens of an expression are written as its text. -/
theorem Expression.writeAll_tokens : ∀ (q : Expression) {d : Draft} {behindOpening : Bool},
    q.IsSolid → d.Begins behindOpening →
    d.writeAll q.tokens = ⟨d.text ++ q.text behindOpening, d.depth⟩
  | .single true u, d, behindOpening, hu, hd => by
    have h : d.writeAll (Expression.single true u).tokens =
        (d.write (.connective .not)).writeAll u.tokens := rfl
    rw [h, hd.write_connective, u.writeAll_tokens hu (Draft.blank_iff_of_blank _ _)]
    simp [Expression.text]
  | .single false u, d, behindOpening, hu, hd => u.writeAll_tokens hu hd.blank_iff
  | .joined q c u, d, behindOpening, hu, hd => by
    have hq := q.writeAll_tokens hu.1 hd
    have hs := Draft.endsSolid_writeAll (Expression.lastSolid_tokens hu.1) d
    rw [Expression.tokens, Draft.writeAll_append, Draft.writeAll_cons,
      Draft.write_connective_of_endsSolid hs, hq,
      u.writeAll_tokens hu.2 (Draft.blank_iff_of_blank _ _)]
    simp [Expression.text]

end

/-! ## Edits -/

namespace Builder

/-- Whether edits are all accepted and write the given tokens. -/
def Writes (b : Builder) (es : List Edit) (ts : List Token) : Prop :=
  b.run (es.map .edit) = (b.extended ts, [])

variable {b : Builder}

theorem endsSolid_extended {ts : List Token} (h : LastSolid ts) :
    EndsSolid (b.extended ts).text := Draft.endsSolid_writeAll h b.draft

theorem Writes.append {es fs : List Edit} {ts us : List Token} (h : b.Writes es ts)
    (h' : (b.extended ts).Writes fs us) : b.Writes (es ++ fs) (ts ++ us) := by
  rw [Writes] at h h' ⊢
  rw [List.map_append, run_append, h, h', extended_extended]
  rfl

theorem Writes.cons {e : Edit} {es : List Edit} {next : Builder} {t : Token} {ts : List Token}
    (he : b.edit e = .ok next) (h : next.Writes es ts)
    (hn : next.extended ts = b.extended (t :: ts)) : b.Writes (e :: es) (t :: ts) := by
  rw [Writes] at h ⊢
  rw [List.map_cons, run_cons, call, step_of_ok he, h, hn]
  rfl

/-- What a clause searches for is pending after its edits, and nothing else has changed. -/
theorem run_subject (h : b.IsIdle) (s : Subject) (hs : s.IsComplete) :
    ∃ next, b.run (s.edits.map .edit) = (next, []) ∧ next.hasClause = true ∧
      next.clauseText = s.text ∧ next.settled = b.extended [] := by
  cases s with
  | terms first more =>
    have he : b.edit (.terms (first :: more)) = .ok { b with terms := first :: more } := by
      rw [edit, if_neg (by simp [hasBound, h.2.1, h.2.2]), h.1]
      rfl
    refine ⟨_, (run_edit b _).trans (step_of_ok he), rfl, ?_, ?_⟩
    · simp [clauseText, rangeText, h.2.1, Subject.text]
    · simp [settled, extended, hasRange, h.1, h.2.1, h.2.2]
  | range lower upper =>
    let half : Builder := { b with lower := some lower }
    have hl : b.edit (.bound .lower lower) = .ok half := by
      rw [edit, if_neg (by simp [hasTerms, h.1]), boundOf_eq_some hs.1]
    have hu : half.edit (.bound .upper upper) = .ok { half with upper := some upper } := by
      rw [edit, if_neg (by simp [half, hasTerms, h.1]), boundOf_eq_some hs.2]
    refine ⟨{ half with upper := some upper }, ?_, by simp [Builder.hasClause, hasRange, half],
      ?_, ?_⟩
    · simp [Subject.edits, run, call, step_of_ok hl, step_of_ok hu]
    · simp [clauseText, rangeText, half, h.1, Subject.text]
    · simp [settled, extended, hasRange, half, h.1, h.2.1, h.2.2]

theorem writes_clause (h : b.IsIdle) {c : Clause} (hs : c.IsSolid) (hc : c.subject.IsComplete) :
    b.Writes c.edits [.clause c.text] := by
  obtain ⟨next, hrun, hclause, htext, hsettled⟩ := run_subject h c.subject hc
  have hf : next.edit (.field c.field) = .ok (b.extended [.clause c.text]) := by
    rw [edit, if_pos hclause, Builder.commit, htext, if_neg hs.1, hsettled, append_extended]
    rfl
  rw [Writes, Clause.edits, List.map_append, run_append, hrun, List.map_cons, List.map_nil,
    run_edit, step_of_ok hf]
  rfl

/-- A connective is accepted at the beginning if it is NOT, and behind a solid end. -/
theorem edit_connect_of_idle (h : b.IsIdle) (hp : b.pending = none) {c : Connective}
    (hc : c = .not ∨ EndsSolid b.text) :
    b.edit (.connect c) = .ok { b.extended [.connective c] with pending := some c } := by
  have hr : ¬ (c ≠ .not ∧ b.endsBlank = true ∧ (!b.hasClause) = true) := by
    rintro ⟨hn, he, -⟩
    rcases hc with hc | hc
    · exact hn hc
    · rw [endsBlank_of_endsSolid hc] at he
      cases he
  rw [edit, hp]
  dsimp only
  rw [if_neg hr, h.commit, append_extended]
  rfl

/-- A connective and what is written behind it. -/
theorem writes_connect (h : b.IsIdle) (hp : b.pending = none) {c : Connective}
    (hc : c = .not ∨ EndsSolid b.text) {es : List Edit} {ts : List Token}
    (hw : ({ b.extended [.connective c] with pending := some c } : Builder).Writes es ts) :
    b.Writes (.connect c :: es) (.connective c :: ts) := by
  refine Writes.cons (edit_connect_of_idle h hp hc) hw ?_
  simp [Builder.extended]

theorem writes_boost (h : b.IsIdle) (hp : b.pending = none) (he : EndsSolid b.text)
    (boost : Option Value) : b.Writes (boostEdits boost) (boostTokens boost) := by
  cases boost with
  | none => exact congrArg (·, []) (extended_nil hp).symm
  | some factor =>
    have hr : ¬ ((!b.hasClause) = true ∧ (b.pending.isSome = true ∨ b.endsBlank = true)) := by
      simp [hp, endsBlank_of_endsSolid he]
    have hb : b.edit (.boost factor) = .ok (b.extended [.boost factor.toText]) := by
      rw [edit, if_neg hr, h.commit, append_extended]
      rfl
    exact (run_edit b _).trans (step_of_ok hb)

theorem writes_startGroup (h : b.IsIdle) : b.Writes [.startGroup] [.opening] := by
  have hb : b.edit .startGroup = .ok (b.extended [.opening]) := by
    rw [edit, h.commit, append_extended]
    rfl
  exact (run_edit b _).trans (step_of_ok hb)

theorem writes_endGroup (h : b.IsIdle) (ho : b.openGroups ≠ 0) :
    b.Writes [.endGroup] [.closing] := by
  have hb : b.edit .endGroup = .ok (b.extended [.closing]) := by
    rw [edit, if_neg ho, h.commit, append_extended]
    rfl
  exact (run_edit b _).trans (step_of_ok hb)

mutual

/-- The edits of an operand write its tokens. -/
theorem writes_operand : ∀ (u : Operand) {b : Builder}, u.IsSolid → b.IsIdle →
    b.Writes u.edits u.tokens
  | .clause c boost, b, hu, hb => by
    have he : EndsSolid (b.extended [.clause c.text]).text :=
      endsSolid_extended ⟨.clause c.text, rfl, hu.1.endsSolid⟩
    exact (writes_clause hb hu.1 hu.2.1).append (writes_boost (hb.extend _) rfl he boost)
  | .group q boost, b, hu, hb => by
    have hs := writes_startGroup hb
    have hq := writes_expression q hu.1 (hb.extend [.opening]) rfl
    -- the inner tokens leave as many groups open as their text does: one more than before
    have ho : ((b.extended [.opening]).extended q.tokens).openGroups ≠ 0 := by
      have hd := q.writeAll_tokens hu.1 b.draft.begins_opening
      change ((b.draft.write .opening).writeAll q.tokens).depth ≠ 0
      rw [hd]
      exact Nat.succ_ne_zero _
    have he := writes_endGroup ((hb.extend [.opening]).extend q.tokens) ho
    have hc : EndsSolid (((b.extended [.opening]).extended q.tokens).extended [.closing]).text :=
      endsSolid_extended ⟨.closing, rfl, trivial⟩
    have hboost := writes_boost (((hb.extend [.opening]).extend q.tokens).extend [.closing])
      rfl hc boost
    have h := hs.append (hq.append (he.append hboost))
    simpa [Operand.edits, Operand.tokens] using h

/-- The edits of an expression write its tokens. -/
theorem writes_expression : ∀ (q : Expression) {b : Builder}, q.IsSolid → b.IsIdle →
    b.pending = none → b.Writes q.edits q.tokens
  | .single true u, b, hu, hb, hp => writes_connect hb hp (.inl rfl) (writes_operand u hu hb)
  | .single false u, b, hu, hb, _ => writes_operand u hu hb
  | .joined q c u, b, hu, hb, hp => by
    have hq := writes_expression q hu.1 hb hp
    have he := endsSolid_extended (b := b) (Expression.lastSolid_tokens hu.1)
    exact hq.append (writes_connect (hb.extend _) rfl (.inr he) (writes_operand u hu.2 hb))

end

/-! ## Finishing -/

/-- There is nothing to take out of the tokens of an expression. -/
theorem finished_tokens {q : Expression} (h : q.IsSolid) : Finished q.tokens := by
  obtain ⟨t, ht, hs⟩ := Expression.lastSolid_tokens h
  refine ⟨?_, ?_, ?_⟩
  · rw [← List.append_nil q.tokens.reverse]
    exact q.orderly_tokens h trivial (.inl rfl)
  · intro c hc
    obtain rfl : t = .connective c := Option.some.inj (ht.symm.trans hc)
    exact hs.elim
  · intro seed hseed
    rw [hseed] at ht
    obtain rfl : Token.seed seed = t := Option.some.inj ht
    exact hs.elim

/-- **Correct use is silent**: a solid expression is built on a new builder without a warning,
finishes without one, and comes out as its text. -/
theorem run_edits {q : Expression} (h : q.IsSolid) :
    let built := (ofSeed []).run (q.edits.map .edit)
    built.2 = [] ∧ built.1.finish.2 = [] ∧ built.1.finish.1.text = q.text false := by
  have hrun : (ofSeed []).run (q.edits.map .edit) = ((ofSeed []).extended q.tokens, []) :=
    writes_expression q h ⟨rfl, rfl, rfl⟩ rfl
  have hdraft : Draft.empty.writeAll q.tokens = ⟨q.text false, 0⟩ :=
    q.writeAll_tokens h (d := .empty) (rfl : Draft.empty = Draft.empty)
  have ho : ((ofSeed []).extended q.tokens).openGroups = 0 := congrArg Draft.depth hdraft
  have hclosed : ((ofSeed []).extended q.tokens).closedTokens = q.tokens := by
    have hi : ((ofSeed []).extended q.tokens).IsIdle := ⟨rfl, rfl, rfl⟩
    rw [hi.closedTokens ho]
    exact List.nil_append _
  have hs : EndsSolid (q.text false) := by
    have := Draft.endsSolid_writeAll (Expression.lastSolid_tokens h) .empty
    rwa [hdraft] at this
  dsimp only
  rw [hrun]
  refine ⟨rfl, ?_, ?_⟩
  · simp only [finish, finishWarnings, hclosed, clean_of_finished (finished_tokens h), ho]
    rfl
  · rw [finish, hclosed, clean_of_finished (finished_tokens h)]
    simp [ofTokens, text, Pruned.tokens, Draft.render, hdraft, hs.trimEnd]

/-- A group in a group, a range, boosts and a NOT. -/
theorem run_edits_nested :
    let clause (field : Text) (term : Text) : Clause := ⟨.terms (.text term) [], some field⟩
    let inner : Expression :=
      .joined (.single false (.clause (clause "title" "a") none)) .or
        (.clause (clause [] "b c") none)
    let outer : Expression :=
      .joined (.single false (.group inner (some (.int 2)))) .and
        (.clause ⟨.range (.int 1) (.int 5), some "created".toList⟩ none)
    let q : Expression :=
      .joined (.single true (.group outer none)) .or (.clause (clause "tags" "d") (some (.int 3)))
    let built := (ofSeed []).run (q.edits.map .edit)
    q.IsSolid ∧ built.2 = [] ∧ built.1.finish.2 = [] ∧ built.1.finish.1.text =
      "NOT ( (title:a OR \"b c\")^2 AND created:[1 TO 5]) OR tags:d^3".toList := by
  intro clause inner outer q built
  have ha : (clause "title" "a").IsSolid :=
    Clause.isSolid_of_endsSolid (by decide +kernel) ⟨'a', by decide +kernel, by decide⟩
  have hb : (clause [] "b c").IsSolid :=
    Clause.isSolid_of_endsSolid (by decide +kernel) ⟨'"', by decide +kernel, by decide⟩
  have hr : Clause.IsSolid ⟨.range (.int 1) (.int 5), some "created".toList⟩ :=
    Clause.isSolid_of_endsSolid (by decide +kernel) ⟨']', by decide +kernel, by decide⟩
  have hd : (clause "tags" "d").IsSolid :=
    Clause.isSolid_of_endsSolid (by decide +kernel) ⟨'d', by decide +kernel, by decide⟩
  have hnone : ∀ factor ∈ (none : Option Value), factor.IsNumber := nofun
  have hsome (n : Int) : ∀ factor ∈ some (Value.int n), factor.IsNumber := by
    rintro _ ⟨⟩
    trivial
  have hinner : inner.IsSolid := ⟨⟨ha, trivial, hnone⟩, hb, trivial, hnone⟩
  have houter : outer.IsSolid := ⟨⟨hinner, hsome 2⟩, hr, ⟨rfl, rfl⟩, hnone⟩
  have h : q.IsSolid := ⟨⟨houter, hnone⟩, hd, trivial, hsome 3⟩
  exact ⟨h, (run_edits h).1, (run_edits h).2.1, (run_edits h).2.2.trans (by decide +kernel)⟩

end Builder

end PortalSearch
