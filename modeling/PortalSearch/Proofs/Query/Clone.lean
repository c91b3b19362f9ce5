import PortalSearch.Proofs.Query.Again
import PortalSearch.Proofs.Query.Ending
import PortalSearch.Proofs.Query.Invariant

/-!
# Clones

A clone starts from the text of the finished query, where the original goes on from its
tokens. Edits never look at the tokens, they only write more of them (`exists_step_onto`), so
the two stay the same builder up to what they started from. Finishing does look, but only at
what is above a floor: finished tokens are one floor, and a seed that ends in no connective
is another, and what finishing leaves above a floor does not depend on it.

What the clone loses is what its text does not tell. A text does not tell a term that reads
AND, OR or NOT from a connective, so the seed is trimmed where the term was kept; and the blanks
at the end of the last term are cut off the text.

Main result: a clone follows its original through every run exactly if trimming would leave the
text of the tokens as it is (`clone_follows_iff`).
-/

namespace PortalSearch.Builder

variable {b x y : Builder}

/-! ## Edits do not look at tokens -/

/-- The builder with other tokens. -/
def onto (b : Builder) (ts : List Token) : Builder := { b with tokens := ts }

@[simp] theorem onto_tokens (b : Builder) : b.onto b.tokens = b := rfl

theorem exists_commit_onto (b : Builder) (lead : Text) :
    ∃ us, ∀ ts, (b.onto ts).commit lead = (b.commit lead).onto (ts ++ us) := by
  by_cases ht : b.clauseText = []
  · refine ⟨[], ?_⟩
    intro ts
    have ht' : (b.onto ts).clauseText = [] := ht
    rw [commit, commit, if_pos ht, if_pos ht', List.append_nil]
    rfl
  · refine ⟨[.clause (lead ++ b.clauseText)], ?_⟩
    intro ts
    have ht' : (b.onto ts).clauseText ≠ [] := ht
    rw [commit, commit, if_neg ht, if_neg ht']
    rfl

/-- A call that writes the pending clause and then one token. -/
theorem exists_append_onto (b : Builder) (t : Token) :
    ∃ us, ∀ ts, ((b.onto ts).commit []).append t = ((b.commit []).append t).onto (ts ++ us) := by
  obtain ⟨us, hus⟩ := exists_commit_onto b []
  refine ⟨us ++ [t], ?_⟩
  intro ts
  rw [hus]
  simp [append, onto]

/-- **Edits do not look at tokens**: they write the same tokens behind any others. -/
theorem exists_edit_onto (b : Builder) (e : Edit) :
    ∃ us, ∀ ts, (b.onto ts).edit e = (b.edit e).map fun next => next.onto (ts ++ us) := by
  cases e with
  -- the guards of `edit` test nothing that `onto` changes, which `change` says where `rw` cannot
  | terms vs =>
    refine ⟨[], ?_⟩
    intro ts
    rw [edit, edit, List.append_nil]
    change (if b.hasBound = true then _ else _) = _
    split <;> rfl
  | field name =>
    obtain ⟨us, hus⟩ := exists_commit_onto b (fieldLead name)
    refine ⟨us, ?_⟩
    intro ts
    rw [edit, edit, hus]
    change (if b.hasClause = true then _ else if b.hasBound = true then _ else _) = _
    split
    · rfl
    · split <;> rfl
  | bound side v =>
    refine ⟨[], ?_⟩
    intro ts
    rw [List.append_nil]
    cases side with
    | lower =>
      rw [edit, edit]
      change (if b.hasTerms = true then _ else _) = _
      split <;> rfl
    | upper =>
      rw [edit, edit]
      change (if b.hasTerms = true then _ else _) = _
      split <;> rfl
  | startGroup =>
    obtain ⟨us, hus⟩ := exists_append_onto b .opening
    exact ⟨us, fun ts => congrArg Except.ok (hus ts)⟩
  | endGroup =>
    obtain ⟨us, hus⟩ := exists_append_onto b .closing
    refine ⟨us, ?_⟩
    intro ts
    rw [edit, edit, hus]
    change (if b.openGroups = 0 then _ else _) = _
    split <;> rfl
  | connect c =>
    obtain ⟨us, hus⟩ := exists_append_onto b (.connective c)
    refine ⟨us, ?_⟩
    intro ts
    cases hp : b.pending with
    | some previous =>
      have hp' : (b.onto ts).pending = some previous := hp
      rw [edit, edit, hp, hp']
      rfl
    | none =>
      have hp' : (b.onto ts).pending = none := hp
      rw [edit, edit, hp, hp', hus]
      change (if c ≠ .not ∧ b.endsBlank = true ∧ (!b.hasClause) = true then _ else _) = _
      dsimp only
      split <;> rfl
  | boost factor =>
    obtain ⟨us, hus⟩ := exists_append_onto b (.boost factor.toText)
    refine ⟨us, ?_⟩
    intro ts
    rw [edit, edit, hus]
    change (if (!b.hasClause) = true ∧ (b.pending.isSome = true ∨ b.endsBlank = true)
      then _ else _) = _
    split <;> rfl

theorem exists_step_onto (b : Builder) (e : Edit) :
    ∃ us, ∀ ts, (b.onto ts).step e = ((b.step e).1.onto (ts ++ us), (b.step e).2) := by
  obtain ⟨us, hus⟩ := exists_edit_onto b e
  cases he : b.edit e with
  | ok next =>
    refine ⟨us, ?_⟩
    intro ts
    rw [step_of_ok he]
    exact step_of_ok (by rw [hus, he]; rfl)
  | error m =>
    refine ⟨[], ?_⟩
    intro ts
    rw [step_of_error he, List.append_nil]
    exact step_of_error (by rw [hus, he]; rfl)

theorem exists_closedTokens_onto (b : Builder) :
    ∃ us, ∀ ts, (b.onto ts).closedTokens = ts ++ us := by
  obtain ⟨us, hus⟩ := exists_commit_onto b []
  refine ⟨us ++ List.replicate b.openGroups .closing, ?_⟩
  intro ts
  rw [closedTokens, hus, ← List.append_assoc]
  rfl

/-! ## Twins -/

/-- Tokens that finishing leaves alone and that stand on their own: they end firm, close every
group they start, and are written as `text`. -/
structure IsBase (ts : List Token) (text : Text) : Prop where
  /-- there is nothing to take out -/
  finished : Finished ts
  /-- no connective waits and no group starts at their end -/
  firm : EndsFirm ts
  /-- how they are written -/
  written : Draft.empty.writeAll ts = ⟨text, 0⟩

/-- Builders that differ only in what they started from: one from the tokens `ts`, the other from
`ts'`. -/
def Twins (ts ts' : List Token) (x y : Builder) : Prop :=
  ∃ us, x.tokens = ts ++ us ∧ y = x.onto (ts' ++ us)

variable {ts ts' : List Token} {written : Text}

theorem Twins.step (h : Twins ts ts' x y) (e : Edit) : Twins ts ts' (x.step e).1 (y.step e).1 := by
  obtain ⟨us, hx, rfl⟩ := h
  obtain ⟨vs, hvs⟩ := exists_step_onto x e
  refine ⟨us ++ vs, ?_, ?_⟩
  · have hself := congrArg (fun r => r.1.tokens) (hvs x.tokens)
    rw [onto_tokens, hx] at hself
    rw [← List.append_assoc]
    exact hself
  · rw [hvs, List.append_assoc]

/-- Finished twins are twins: they kept the same and are written alike. -/
theorem Twins.finish (hts : IsBase ts written) (hts' : IsBase ts' written) (h : Twins ts ts' x y) :
    Twins ts ts' x.finish.1 y.finish.1 := by
  obtain ⟨us, hx, rfl⟩ := h
  obtain ⟨vs, hvs⟩ := exists_closedTokens_onto x
  have hself := hvs x.tokens
  rw [onto_tokens, hx, List.append_assoc] at hself
  -- what was written behind the two starts leaves the same behind both
  obtain ⟨ws, hw, hw'⟩ := exists_clean hts.finished hts.firm hts'.finished hts'.firm (us ++ vs)
  refine ⟨ws, ?_, ?_⟩
  · rw [finish, hself, hw]
    rfl
  · have hr : Draft.render (ts' ++ ws) = Draft.render (ts ++ ws) := by
      rw [Draft.render, Draft.render, Draft.writeAll_append, Draft.writeAll_append, hts.written,
        hts'.written]
    rw [finish, finish, hvs, List.append_assoc, hself, hw, hw', ofTokens, ofTokens, hr]
    rfl

theorem Twins.run (hts : IsBase ts written) (hts' : IsBase ts' written) (h : Twins ts ts' x y)
    (ks : List Call) : Twins ts ts' (x.run ks).1 (y.run ks).1 := by
  induction ks generalizing x y with
  | nil => exact h
  | cons k ks ih =>
    cases k with
    | edit e => exact ih (h.step e)
    | finish => exact ih (h.finish hts hts')

theorem Twins.text (h : Twins ts ts' x y) : y.text = x.text := by
  obtain ⟨us, -, rfl⟩ := h
  rfl

/-! ## Two runs that tell -/

theorem text_finish (b : Builder) :
    b.finish.1.text = Text.trimEnd (Draft.render (clean b.closedTokens).tokens) := rfl

/-- A seed alone is finished by trimming it. -/
theorem text_finish_ofSeed (seed : Text) : (ofSeed seed).finish.1.text = (Seed.trim seed).1 := by
  have hi : (ofSeed seed).IsIdle := ⟨rfl, rfl, rfl⟩
  rw [text_finish, hi.closedTokens rfl, tokens_clean, ofSeed]
  by_cases hs : seed = []
  · subst hs
    rw [Seed.trim_nil, if_pos rfl, List.zipIdx_nil, prune_of_step_eq_none rfl]
    rfl
  · have hp : (prune [(Token.seed seed, 0)]).tokens = [.seed seed] := by
      rw [prune_of_step_eq_none rfl]
      rfl
    rw [if_neg hs, List.zipIdx_cons, List.zipIdx_nil, hp, trimSeed]
    split
    · next h => rw [h]; rfl
    · exact Seed.trimEnd_trim seed

theorem orderly_ofSeed (seed : Text) : Orderly (ofSeed seed).tokens.reverse := by
  rw [ofSeed]
  split
  · trivial
  · exact ⟨rfl, trivial⟩

theorem render_ofSeed (seed : Text) : Draft.render (ofSeed seed).tokens = seed := by
  rw [ofSeed]
  split
  · next h => rw [h]; rfl
  · rfl

/-- A term behind orderly tokens is kept, and they are with it. -/
theorem text_finish_term (hx : x.IsIdle) (ho : x.openGroups = 0) (hs : Orderly x.tokens.reverse) :
    (x.run [.edit (.terms [.text ['b']])]).1.finish.1.text = Draft.render x.tokens ++ ['b'] := by
  have he : x.edit (.terms [.text ['b']]) = .ok { x with terms := [.text ['b']] } := by
    rw [edit, if_neg (by simp [hasBound, hx.2.1, hx.2.2]), hx.1]
    rfl
  have hc : ({ x with terms := [.text ['b']] } : Builder).closedTokens =
      x.tokens ++ [.clause ['b']] := by
    have ht : ({ x with terms := [.text ['b']] } : Builder).clauseText = ['b'] := by
      rw [clauseText, rangeText, hx.2.1]
      exact (by decide : Term.series [.text ['b']] = ['b'])
    rw [closedTokens, commit, ht, if_neg (List.cons_ne_nil _ _)]
    change x.tokens ++ [.clause ['b']] ++ List.replicate x.openGroups .closing = _
    rw [ho]
    exact List.append_nil _
  have hf : Finished (x.tokens ++ [.clause ['b']]) := by
    refine ⟨?_, ?_, ?_⟩
    · rw [List.reverse_append]
      exact ⟨rfl, hs⟩
    · intro c hl
      rw [List.getLast?_append] at hl
      cases hl
    · intro seed hseed
      have hl := congrArg List.getLast? hseed
      rw [List.getLast?_append] at hl
      cases hl
  have hsolid : Text.EndsSolid (Draft.render x.tokens ++ ['b']) :=
    Text.EndsSolid.append ⟨'b', rfl, by decide⟩ _
  rw [run_edit, step_of_ok he, text_finish, hc, tokens_clean_of_finished hf, Draft.render,
    Draft.writeAll_append]
  exact hsolid.trimEnd

/-! ## Clones -/

theorem isBase_seed {seed : Text} (hne : seed ≠ []) (h : (Seed.trim seed).1 = seed) :
    IsBase [.seed seed] seed := by
  have ht : Seed.trim seed = (seed, []) := by
    have := Seed.trim_trim seed
    rwa [h] at this
  refine ⟨⟨⟨rfl, trivial⟩, nofun, ?_⟩, ⟨_, rfl, rfl, nofun⟩, rfl⟩
  intro t hseed
  obtain rfl : seed = t := by simpa using hseed
  exact ⟨hne, ht⟩

theorem clone_follows (hb : b.IsSound)
    (h : (Seed.trim (Draft.render b.finish.1.tokens)).1 = Draft.render b.finish.1.tokens)
    (s : List Call) : (b.clone.run s).1.finish.1.text = (b.finish.1.run s).1.finish.1.text := by
  have hfinished : Finished b.finish.1.tokens := finished_clean b.closedTokens
  have hnest : nest 0 b.finish.1.tokens = some 0 := (isSound_finish hb).nested
  have htexts := (isSound_finish hb).written
  have htrim := Seed.trimEnd_trim (Draft.render b.finish.1.tokens)
  rw [h] at htrim
  have hclone : b.clone = ofSeed (Draft.render b.finish.1.tokens) := congrArg ofSeed htrim
  rw [hclone, finish_fst b]
  -- from here on, the tokens are any finished ones
  generalize b.finish.1.tokens = ts at *
  by_cases hne : ts = []
  · subst hne
    rfl
  · have hwritten : Draft.empty.writeAll ts = ⟨Draft.render ts, 0⟩ := by
      have hd : (Draft.empty.writeAll ts).depth = 0 := Draft.depth_writeAll hnest
      rw [Draft.render, ← hd]
    have htext : Draft.render ts ≠ [] := text_ne_nil htexts (.inr hne)
    have hbase : IsBase ts (Draft.render ts) :=
      ⟨hfinished, endsFirm_of_finished hfinished hnest hne, hwritten⟩
    have hseed : IsBase [.seed (Draft.render ts)] (Draft.render ts) := isBase_seed htext h
    have htwins : Twins ts [.seed (Draft.render ts)] (ofTokens ts) (ofSeed (Draft.render ts)) := by
      refine ⟨[], (List.append_nil _).symm, ?_⟩
      rw [ofSeed, if_neg htext, ofTokens, htrim]
      rfl
    exact ((htwins.run hbase hseed s).finish hbase hseed).text

/-- **Clones follow their originals** through every run exactly if trimming would leave the text
of the finished tokens as it is: there is no blank at its end, and its last word is neither
AND nor OR nor NOT. -/
theorem clone_follows_iff (seed : Text) (ks : List Call) :
    let b := ((ofSeed seed).run ks).1
    (∀ s : List Call, (b.clone.run s).1.finish.1.text = (b.finish.1.run s).1.finish.1.text) ↔
      (Seed.trim (Draft.render b.finish.1.tokens)).1 = Draft.render b.finish.1.tokens := by
  intro b
  refine ⟨?_, clone_follows (isSound_run seed ks)⟩
  intro h
  have hfinished : Finished b.finish.1.tokens := finished_clean b.closedTokens
  -- finishing at once tells that the clone trims nothing
  have htrim : (Seed.trim b.finish.1.text).1 = b.finish.1.text := by
    have hnow := h []
    rw [run, run, finish_fst b, fst_finish_ofTokens hfinished, clone, text_finish_ofSeed] at hnow
    exact hnow
  -- one more term tells that the text has no blanks at its end
  have htext : b.finish.1.text = Draft.render b.finish.1.tokens := by
    have hterm := h [.edit (.terms [.text ['b']])]
    rw [text_finish_term ⟨rfl, rfl, rfl⟩ rfl hfinished.orderly, clone,
      text_finish_term ⟨rfl, rfl, rfl⟩ rfl (orderly_ofSeed _), render_ofSeed] at hterm
    exact List.append_cancel_right hterm
  rw [← htext]
  exact htrim

/-- A last term that reads NOT is such a word: the clone loses it, and the AND in front. -/
theorem clone_loses_last_term :
    let terms (t : String) : Call := .edit (.terms [.text t.toList])
    let b := ((ofSeed []).run [terms "x", .edit (.connect .and), terms "NOT"]).1
    b.finish.1.finish.1.text = "x AND NOT".toList ∧ b.clone.finish.1.text = "x".toList := by
  decide +kernel

end PortalSearch.Builder
