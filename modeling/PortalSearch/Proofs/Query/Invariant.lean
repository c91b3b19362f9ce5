import PortalSearch.Proofs.Query.Commit
import PortalSearch.Proofs.Query.Finished

/-!
# What holds of every builder

Whatever was asked of a builder, two things hold of its tokens: they leave as many groups
open as the builder counts, and none of them is without text. Each is a fact about one token
written behind the others, and an edit that writes does so with the pending clause and at most
one token behind it (`edit_cases`), so edits preserve both; finishing preserves them as
pruning leaves the nesting as it is and takes tokens out only.

Main result: both hold after every run (`isSound_run`).
-/

namespace PortalSearch

/-- Whether a token has a text of its own. Only a clause and what building started from could
be without. -/
def Token.HasText : Token → Prop
  | .seed t | .clause t => t ≠ []
  | .boost _ | .connective _ | .opening | .closing => True

/-- Whether a token has no text that a caller chose, apart from a factor. -/
def Token.IsMark : Token → Prop
  | .boost _ | .connective _ | .opening | .closing => True
  | .seed _ | .clause _ => False

theorem Token.IsMark.hasText {t : Token} (h : t.IsMark) : t.HasText := by
  cases t with
  | seed _ | clause _ => exact h.elim
  | boost _ | connective _ | opening | closing => trivial

/-- The connective that waits for a clause right behind a token. -/
def Token.waiting : Token → Option Connective
  | .connective c => some c
  | .seed _ | .clause _ | .boost _ | .opening | .closing => none

/-- The terms that an edit adds. -/
def Edit.newTerms : Edit → List Value
  | .terms vs => vs
  | .field _ | .bound _ _ | .startGroup | .endGroup | .connect _ | .boost _ => []

namespace Builder

/-- What holds of every builder that calls lead to. -/
structure IsSound (b : Builder) : Prop where
  /-- the tokens leave as many groups open as are counted -/
  nested : nest 0 b.tokens = some b.openGroups
  /-- no token is without text -/
  written : ∀ t ∈ b.tokens, t.HasText

variable {b : Builder}

theorem isSound_ofSeed (seed : Text) : (ofSeed seed).IsSound := by
  rw [ofSeed]
  by_cases hs : seed = []
  · rw [if_pos hs]
    exact ⟨rfl, fun _ h => nomatch h⟩
  · rw [if_neg hs]
    refine ⟨rfl, ?_⟩
    intro t ht
    obtain rfl := List.mem_singleton.mp ht
    exact hs

/-! ## Edits -/

/-- A builder goes on being sound behind a token that keeps to the groups that are open. -/
theorem IsSound.append (h : b.IsSound) {t : Token} (ht : t.HasText)
    (hn : (t.nest b.openGroups).isSome = true) : (b.append t).IsSound := by
  obtain ⟨n, hn⟩ := Option.isSome_iff_exists.mp hn
  have hd : nest b.draft.depth [t] = some n := by
    rw [nest]
    exact Option.bind_eq_some_iff.mpr ⟨n, hn, rfl⟩
  refine ⟨?_, ?_⟩
  · change nest 0 (b.tokens ++ [t]) = some (b.draft.writeAll [t]).depth
    rw [nest_append, h.nested, Draft.depth_writeAll hd]
    exact hd
  · intro u hu
    rcases List.mem_append.mp hu with hu | hu
    · exact h.written u hu
    · rwa [List.mem_singleton.mp hu]

theorem IsSound.commit (h : b.IsSound) (lead : Text) : (b.commit lead).IsSound := by
  have hs : b.settled.IsSound := ⟨h.nested, h.written⟩
  rcases commit_eq b lead with hc | ⟨t, ht, hc⟩
  · rwa [hc]
  · rw [hc]
    exact hs.append ht rfl

/-- What an edit does if it is not refused, and what it asks for. -/
inductive Done (b : Builder) : Edit → Builder → Prop
  /-- terms are added, with no range pending -/
  | terms (vs : List Value) (h : b.hasBound = false) :
    Done b (.terms vs) { b with terms := b.terms ++ vs }
  /-- a complete clause is written behind its field -/
  | field (name : Option Text) (h : b.hasClause = true) :
    Done b (.field name) (b.commit (fieldLead name))
  /-- the lower end of a range is pending, with no terms -/
  | lower (v : Value) (h : b.hasTerms = false) :
    Done b (.bound .lower v) { b with lower := boundOf v }
  /-- the upper end is -/
  | upper (v : Value) (h : b.hasTerms = false) :
    Done b (.bound .upper v) { b with upper := boundOf v }
  /-- a group is started behind what is pending -/
  | startGroup : Done b .startGroup ((b.commit []).append .opening)
  /-- an open group is ended -/
  | endGroup (h : b.openGroups ≠ 0) : Done b .endGroup ((b.commit []).append .closing)
  /-- a connective is written behind something to join, and waits -/
  | connect (c : Connective) (hp : b.pending = none)
    (hj : c = .not ∨ b.endsBlank = false ∨ b.hasClause = true) :
    Done b (.connect c) { (b.commit []).append (.connective c) with pending := some c }
  /-- a boost is written behind something to boost -/
  | boost (factor : Value)
    (h : b.hasClause = true ∨ (b.pending = none ∧ b.endsBlank = false)) :
    Done b (.boost factor) ((b.commit []).append (.boost factor.toText))

theorem done_of_edit {e : Edit} {next : Builder} (he : b.edit e = .ok next) : b.Done e next := by
  cases e with
  | terms vs =>
    rw [edit] at he
    split at he
    · cases he
    · next hb =>
      obtain rfl := Except.ok.inj he
      exact .terms vs (by simpa using hb)
  | field name =>
    rw [edit] at he
    split at he
    · next hc =>
      obtain rfl := Except.ok.inj he
      exact .field name hc
    · split at he <;> cases he
  | bound side v =>
    cases side with
    | lower =>
      rw [edit] at he
      split at he
      · cases he
      · next ht =>
        obtain rfl := Except.ok.inj he
        exact .lower v (by simpa using ht)
    | upper =>
      rw [edit] at he
      split at he
      · cases he
      · next ht =>
        obtain rfl := Except.ok.inj he
        exact .upper v (by simpa using ht)
  | startGroup =>
    obtain rfl := Except.ok.inj he
    exact .startGroup
  | endGroup =>
    rw [edit] at he
    split at he
    · cases he
    · next ho =>
      obtain rfl := Except.ok.inj he
      exact .endGroup ho
  | connect c =>
    rw [edit] at he
    split at he
    · cases he
    · next hp =>
      split at he
      · cases he
      · next hj =>
        obtain rfl := Except.ok.inj he
        refine .connect c hp ?_
        by_contra h
        simp only [not_or] at h
        exact hj ⟨h.1, by simpa using h.2.1, by simpa using h.2.2⟩
  | boost factor =>
    rw [edit] at he
    split at he
    · cases he
    · next hb =>
      obtain rfl := Except.ok.inj he
      refine .boost factor ?_
      by_contra h
      simp only [not_or, not_and, Bool.not_eq_true, Bool.not_eq_false] at h
      refine hb ⟨by simpa using h.1, ?_⟩
      cases hp : b.pending with
      | none => exact .inr (h.2 hp)
      | some _ => exact .inl rfl

/-- **What an edit does**: it changes what is pending, or writes a complete clause that is pending,
or writes what is pending and then one token that ends no group that is not open. -/
theorem edit_cases {e : Edit} {next : Builder} (he : b.edit e = .ok next) :
    (∃ lower upper,
      next = { b with terms := b.terms ++ e.newTerms, lower := lower, upper := upper }) ∨
    (b.hasClause = true ∧ ∃ lead, next = b.commit lead) ∨
    ∃ t, next = { (b.commit []).append t with pending := t.waiting } ∧ t.IsMark ∧
      (t.nest b.openGroups).isSome = true := by
  have hpending : (b.commit []).pending = none := commit_pending b []
  cases done_of_edit he with
  | terms vs _ => exact .inl ⟨_, _, rfl⟩
  | field name hc => exact .inr (.inl ⟨hc, _, rfl⟩)
  | lower v _ | upper v _ =>
    left
    rw [Edit.newTerms, List.append_nil]
    exact ⟨_, _, rfl⟩
  | startGroup =>
    refine .inr (.inr ⟨.opening, ?_, trivial, rfl⟩)
    rw [Token.waiting, ← hpending]
    rfl
  | endGroup ho =>
    refine .inr (.inr ⟨.closing, ?_, trivial, ?_⟩)
    · rw [Token.waiting, ← hpending]
      rfl
    · rw [Token.nest, if_neg ho]
      rfl
  | connect c _ _ => exact .inr (.inr ⟨.connective c, rfl, trivial, rfl⟩)
  | boost factor _ =>
    refine .inr (.inr ⟨.boost factor.toText, ?_, trivial, rfl⟩)
    rw [Token.waiting, ← hpending]
    rfl

theorem isSound_edit (h : b.IsSound) {e : Edit} {next : Builder} (he : b.edit e = .ok next) :
    next.IsSound := by
  obtain ⟨_, _, rfl⟩ | ⟨-, lead, rfl⟩ | ⟨t, rfl, ht, hn⟩ := edit_cases he
  · exact ⟨h.nested, h.written⟩
  · exact h.commit lead
  · have ha := (h.commit []).append ht.hasText (by rwa [commit_openGroups])
    exact ⟨ha.nested, ha.written⟩

theorem isSound_step (h : b.IsSound) (e : Edit) : (b.step e).1.IsSound := by
  rw [step]
  split
  · next he => exact isSound_edit h he
  · exact h

/-! ## Finishing -/

/-- Closing the groups that are open leaves none open. -/
theorem nest_closedTokens (h : b.IsSound) : nest 0 b.closedTokens = some 0 := by
  rw [closedTokens, nest_append, (h.commit []).nested, commit_openGroups]
  exact nest_replicate_closing b.openGroups

theorem hasText_closedTokens (h : b.IsSound) : ∀ t ∈ b.closedTokens, t.HasText := by
  intro t ht
  rcases List.mem_append.mp ht with ht | ht
  · exact (h.commit []).written t ht
  · rw [List.eq_of_mem_replicate ht]
    trivial

theorem nest_clean (ts : List Token) : nest 0 (clean ts).tokens = nest 0 ts := by
  have hp := nest_prune ts.zipIdx
  rw [List.zipIdx_map_fst] at hp
  rw [tokens_clean, ← hp]
  obtain ⟨seed, hseed, ht⟩ | ⟨-, ht⟩ := trimSeed_cases (prune ts.zipIdx).tokens
  · rw [ht, hseed]
    split <;> rfl
  · rw [ht]

theorem hasText_clean {ts : List Token} (h : ∀ t ∈ ts, t.HasText) :
    ∀ t ∈ (clean ts).tokens, t.HasText := by
  intro t ht
  rcases mem_clean ht with ht | ⟨seed, -, hne, rfl⟩
  · exact h t ht
  · exact hne

theorem isSound_ofTokens {ts : List Token} (hn : nest 0 ts = some 0) (ht : ∀ t ∈ ts, t.HasText) :
    (ofTokens ts).IsSound := ⟨hn, ht⟩

theorem isSound_finish (h : b.IsSound) : b.finish.1.IsSound :=
  isSound_ofTokens ((nest_clean _).trans (nest_closedTokens h))
    (hasText_clean (hasText_closedTokens h))

/-! ## Text -/

/-- Tokens with a text of their own are written as some text. -/
theorem text_ne_nil {d : Draft} {ts : List Token} (h : ∀ t ∈ ts, t.HasText)
    (hn : d.text ≠ [] ∨ ts ≠ []) : (d.writeAll ts).text ≠ [] := by
  induction ts generalizing d with
  | nil => exact hn.resolve_right fun h0 => h0 rfl
  | cons t ts ih =>
    refine ih (fun u hu => h u (List.mem_cons_of_mem _ hu)) (.inl ?_)
    have ht := h t (List.mem_cons_self ..)
    cases t with
    | seed t | clause t => exact fun h0 => ht (List.append_eq_nil_iff.mp h0).2
    | boost _ | connective _ | opening | closing => simp [Draft.write]

/-! ## Runs -/

theorem isSound_call (h : b.IsSound) (k : Call) : (b.call k).1.IsSound := by
  cases k with
  | edit e => exact isSound_step h e
  | finish => exact isSound_finish h

/-- **Every builder is sound**, whatever it started from and whatever was asked of it. -/
theorem isSound_run (seed : Text) (ks : List Call) : ((ofSeed seed).run ks).1.IsSound :=
  run_preserves (P := IsSound) (fun _ k h => isSound_call h k) (isSound_ofSeed seed) ks

end Builder

end PortalSearch
