import PortalSearch.Proofs.Query.Boosts
import PortalSearch.Proofs.Query.Pending
import PortalSearch.Proofs.Query.Refusal
import PortalSearch.Proofs.Query.Written

/-!
# What edits look at

AND and OR need something in front to join, a boost needs something to boost, and no connective is
to stand behind another one. That is a question about the last token, but edits look at the text: it
is to hold more than blanks and not to end in the parenthesis that starts a group. As long as every
term is a text and not an empty one, no token leaves the text blank, and a clause ends the text as
it ends itself, also when finishing cuts blanks off (`Token.EndsText`). What remains is a clause, or
a boost, that ends in such a parenthesis itself: it looks like the start of a group.

Main result: edits are refused where the last token leaves nothing to join or to boost, and behind a
clause or a boost that looks like the start of a group, and nowhere else (`refuses_iff`).
-/

namespace PortalSearch

open Text

theorem Text.allBlank_trimEnd (t : Text) : allBlank (trimEnd t) = allBlank t := by
  obtain ⟨blanks, hblank, ht⟩ := exists_trimEnd t
  rw [congrArg allBlank ht, allBlank_append, hblank, Bool.and_true]

/-! ## The last token in the text -/

namespace Token

/-- Whether a token is one that is written in a run without a seed, and if it is a clause, ends in a
word. -/
def IsSpelled : Token → Prop
  | .seed _ => False
  | .clause t => EndsInWord t
  | .boost _ | .connective _ | .opening | .closing => True

/-- How a text ends if a token is the last one in it. -/
def EndsText (t : Token) (text : Text) : Prop :=
  match t with
  | .clause own => text.getLast? = own.getLast?
  | .opening => text.getLast? = some '('
  | .closing => text.getLast? = some ')'
  | .seed _ | .boost _ | .connective _ => allBlank text = false

variable {t : Token}

theorem endsText_write (h : t.IsSpelled) (d : Draft) : t.EndsText (d.write t).text := by
  cases t with
  | seed _ => exact h.elim
  | clause own =>
    obtain ⟨c, hc, -⟩ := h
    change (d.text ++ own).getLast? = own.getLast?
    rw [List.getLast?_append, hc]
    rfl
  | boost factor =>
    change allBlank (d.text ++ '^' :: factor) = false
    rw [allBlank_append, Bool.and_eq_false_iff]
    exact .inr rfl
  | connective c =>
    have hword : allBlank c.word = false := c.endsSolid_word.allBlank
    change allBlank (Draft.spaced d.text ++ c.word ++ [' ']) = false
    rw [allBlank_append, allBlank_append, hword, Bool.and_false, Bool.false_and]
  | opening | closing => exact List.getLast?_concat

/-- The blanks that finishing cuts off make no difference. -/
theorem EndsText.trimEnd (ht : t.IsSpelled) {text : Text} (h : t.EndsText text) :
    t.EndsText (Text.trimEnd text) := by
  have hword {c : Char} (hc : text.getLast? = some c) (hblank : isBlank c = false) :
      Text.trimEnd text = text := EndsInWord.trimEnd ⟨c, hc, hblank⟩
  cases t with
  | seed _ => exact ht.elim
  | clause own =>
    obtain ⟨c, hc, hblank⟩ := ht
    rwa [EndsText, hword (h.trans hc) hblank]
  | boost _ | connective _ => exact (allBlank_trimEnd text).trans h
  | opening | closing => rwa [EndsText, hword h (by decide)]

end Token

namespace Builder

variable {b : Builder}

/-- Whether a call names no terms but texts that are not empty. -/
def Call.NamesTexts : Call → Prop
  | .edit e => ∀ v ∈ e.newTerms, ∃ t, v = .text t ∧ t ≠ []
  | .finish => True

theorem Call.NamesTexts.spells {k : Call} (h : k.NamesTexts) : k.Spells := by
  cases k with
  | finish => trivial
  | edit e =>
    intro v hv
    obtain ⟨t, rfl, ht⟩ := h v hv
    obtain ⟨c, hc, -⟩ := Term.endsInWord_text ht
    intro hnil
    rw [hnil] at hc
    cases hc

/-- Whether the text can be told from the last token. -/
structure IsSpelled (b : Builder) : Prop where
  /-- pending terms end in a word -/
  terms : ∀ v ∈ b.terms, EndsInWord (Term.text v)
  /-- and so do clauses -/
  tokens : ∀ t ∈ b.tokens, t.IsSpelled
  /-- the last token ends the text -/
  ends : ∀ t, b.tokens.getLast? = some t → t.EndsText b.text

theorem IsSpelled.append (h : b.IsSpelled) {t : Token} (ht : t.IsSpelled)
    (p : Option Connective) : IsSpelled { b.append t with pending := p } := by
  refine ⟨h.terms, ?_, ?_⟩
  · exact List.forall_mem_append.mpr ⟨h.tokens, List.forall_mem_singleton.mpr ht⟩
  · intro u hu
    obtain rfl : t = u := by simpa [Builder.append] using hu
    exact Token.endsText_write ht b.draft

/-- A clause of terms that end in a word ends in one. -/
theorem endsInWord_clauseText (h : ∀ v ∈ b.terms, EndsInWord (Term.text v))
    (hne : b.clauseText ≠ []) : EndsInWord b.clauseText := by
  rw [clauseText] at hne ⊢
  by_cases hterms : b.terms = []
  · have hseries : Term.series b.terms = [] := by rw [hterms]; rfl
    rw [hseries, List.append_nil] at hne ⊢
    rw [rangeText] at hne ⊢
    split at hne
    · exact EndsInWord.append ⟨']', rfl, by decide⟩ _
    · exact absurd rfl hne
  · exact (Term.endsInWord_series hterms h).append _

theorem IsSpelled.commit (h : b.IsSpelled) (lead : Text) : (b.commit lead).IsSpelled := by
  have hsettled : b.settled.IsSpelled := ⟨nofun, h.tokens, h.ends⟩
  rw [Builder.commit]
  split
  · exact hsettled
  · next hne =>
    have hclause : (Token.clause (lead ++ b.clauseText)).IsSpelled :=
      (endsInWord_clauseText h.terms hne).append lead
    exact hsettled.append hclause none

theorem IsSpelled.edit (h : b.IsSpelled) {e : Edit} (hk : (Call.edit e).NamesTexts) {next : Builder}
    (he : b.edit e = .ok next) : next.IsSpelled := by
  obtain ⟨_, _, rfl⟩ | ⟨-, lead, rfl⟩ | ⟨t, rfl, ht, -⟩ := edit_cases he
  · refine ⟨List.forall_mem_append.mpr ⟨h.terms, ?_⟩, h.tokens, h.ends⟩
    intro v hv
    obtain ⟨t, rfl, ht⟩ := hk v hv
    exact Term.endsInWord_text ht
  · exact h.commit lead
  · have hspelled : t.IsSpelled := by
      cases t with
      | seed _ | clause _ => exact ht.elim
      | boost _ | connective _ | opening | closing => trivial
    exact (h.commit []).append hspelled _

theorem IsSpelled.finish (h : b.IsSpelled) : b.finish.1.IsSpelled := by
  have hclosed : ∀ t ∈ b.closedTokens, t.IsSpelled := by
    refine List.forall_mem_append.mpr ⟨(h.commit []).tokens, ?_⟩
    intro t ht
    rw [List.eq_of_mem_replicate ht]
    trivial
  have htokens : ∀ t ∈ b.finish.1.tokens, t.IsSpelled := by
    intro t ht
    rcases mem_clean ht with ht | ⟨seed, hseed, -, -⟩
    · exact hclosed t ht
    · exact (hclosed _ hseed).elim
  refine ⟨nofun, htokens, ?_⟩
  intro t ht
  obtain ⟨front, hfront⟩ := List.getLast?_eq_some_iff.mp ht
  have htext : b.finish.1.text = trimEnd ((Draft.empty.writeAll front).write t).text := by
    change trimEnd (Draft.render b.finish.1.tokens) = _
    rw [hfront, Draft.render, Draft.writeAll_append]
    rfl
  have hspelled := htokens t (List.mem_of_getLast? ht)
  rw [htext]
  exact Token.EndsText.trimEnd hspelled (Token.endsText_write hspelled _)

theorem isSpelled_run {ks : List Call} (hks : ∀ k ∈ ks, k.NamesTexts) :
    ((ofSeed []).run ks).1.IsSpelled := by
  have hstart : (ofSeed []).IsSpelled := ⟨nofun, nofun, nofun⟩
  exact run_preserves_of_edit (fun _ _ _ hk h he => h.edit hk he) (fun _ h => h.finish) hstart hks

/-! ## Refusals -/

/-- Whether the last token leaves nothing to join or to boost. -/
def LacksOperand (b : Builder) : Prop :=
  b.tokens = [] ∨ b.tokens.getLast? = some .opening ∨ ∃ c, b.tokens.getLast? = some (.connective c)

/-- Whether a clause or a boost stands last and looks like the start of a group. -/
def LooksOpen (b : Builder) : Prop :=
  (∃ t, b.tokens.getLast? = some (.clause t) ∧ t.getLast? = some '(') ∨
    (∃ factor, b.tokens.getLast? = some (.boost factor)) ∧ b.text.getLast? = some '('

/-- The text tells what the last token does, but for what looks like the start of a group. -/
theorem IsSpelled.endsBlank_iff (h : b.IsSpelled) (hblank : b.tokens = [] → b.text = [])
    (hlast : ∀ c, b.tokens.getLast? ≠ some (.connective c)) :
    b.endsBlank = true ↔ b.LacksOperand ∨ b.LooksOpen := by
  rcases List.eq_nil_or_concat b.tokens with hnil | ⟨ahead, t, htokens⟩
  · have hempty : b.endsBlank = true := by rw [endsBlank, hblank hnil]; rfl
    exact ⟨fun _ => .inl (.inl hnil), fun _ => hempty⟩
  · have ht : b.tokens.getLast? = some t := by
      rw [htokens, List.concat_eq_append, List.getLast?_concat]
    have hne : b.tokens ≠ [] := by
      intro hnil
      rw [hnil] at ht
      cases ht
    have hspelled := h.tokens t (List.mem_of_getLast? ht)
    have hends := h.ends t ht
    have hshows {c : Char} (hc : b.text.getLast? = some c) (hword : isBlank c = false) :
        b.endsBlank = (c == '(') := by
      rw [endsBlank, EndsInWord.allBlank ⟨c, hc, hword⟩, hc]
      rfl
    rw [LacksOperand, LooksOpen, ht]
    cases t with
    | seed _ => exact hspelled.elim
    | clause own =>
      obtain ⟨c, hc, hword⟩ := hspelled
      rw [hshows (hends.trans hc) hword]
      simp [hne, hc]
    | boost factor =>
      have htext : allBlank b.text = false := hends
      rw [endsBlank, htext]
      simp [hne]
    | connective c => exact absurd ht (hlast c)
    | opening | closing =>
      rw [hshows hends (by decide)]
      simp [hne]

theorem refuses_iff_error {e : Edit} : b.Refuses (.edit e) = true ↔ ∃ m, b.edit e = .error m := by
  rw [Refuses, step]
  cases b.edit e with
  | ok next =>
    refine iff_of_false Bool.false_ne_true ?_
    rintro ⟨m, hm⟩
    cases hm
  | error m => exact iff_of_true rfl ⟨m, rfl⟩

theorem refuses_connect_iff (h : b.hasClause = false) (c : Connective) :
    b.Refuses (.edit (.connect c)) = true ↔
      b.pending.isSome = true ∨ c ≠ .not ∧ b.endsBlank = true := by
  rw [refuses_iff_error, Builder.edit]
  cases b.pending with
  | some previous => exact iff_of_true ⟨_, rfl⟩ (.inl rfl)
  | none =>
    dsimp only
    split
    · next hrefused => exact iff_of_true ⟨_, rfl⟩ (.inr ⟨hrefused.1, hrefused.2.1⟩)
    · next haccepted =>
      constructor
      · rintro ⟨m, hm⟩
        cases hm
      · rintro (hpending | ⟨hc, hblank⟩)
        · cases hpending
        · exact absurd ⟨hc, hblank, by simp [h]⟩ haccepted

theorem refuses_boost_iff (h : b.hasClause = false) (factor : Value) :
    b.Refuses (.edit (.boost factor)) = true ↔ b.pending.isSome = true ∨ b.endsBlank = true := by
  rw [refuses_iff_error, Builder.edit]
  split
  · next hrefused => exact iff_of_true ⟨_, rfl⟩ hrefused.2
  · next haccepted =>
    constructor
    · rintro ⟨m, hm⟩
      cases hm
    · intro hor
      exact absurd ⟨by simp [h], hor⟩ haccepted

/-- **Edits are refused** where the last token leaves them nothing to join or to boost, and behind a
clause or a boost that looks like the start of a group. -/
theorem refuses_iff {ks : List Call} (hks : ∀ k ∈ ks, k.NamesTexts) :
    let b := ((ofSeed []).run ks).1
    b.hasClause = false →
      (b.Refuses (.edit (.connect .not)) = true ↔
        ∃ c, b.tokens.getLast? = some (.connective c)) ∧
      (∀ c, c ≠ .not →
        (b.Refuses (.edit (.connect c)) = true ↔ b.LacksOperand ∨ b.LooksOpen)) ∧
      ∀ factor, b.Refuses (.edit (.boost factor)) = true ↔ b.LacksOperand ∨ b.LooksOpen := by
  intro b hclause
  have hspelled : b.IsSpelled := isSpelled_run hks
  have htells : b.Tells := tells_run [] fun k hk => (hks k hk).spells
  have hpoised : b.IsPoised :=
    run_preserves (P := IsPoised) (fun _ k h => h.call k) (isPoised_ofSeed []) ks
  have hwaits : b.pending.isSome = true ↔ ∃ c, b.tokens.getLast? = some (.connective c) := by
    constructor
    · intro hpending
      obtain ⟨c, hc⟩ := Option.isSome_iff_exists.mp hpending
      exact ⟨c, hpoised.last c hc⟩
    · rintro ⟨c, hc⟩
      exact htells.waits c hc
  have hguards : b.pending.isSome = true ∨ b.endsBlank = true ↔ b.LacksOperand ∨ b.LooksOpen := by
    by_cases hlast : ∃ c, b.tokens.getLast? = some (.connective c)
    · exact ⟨fun _ => .inl (.inr (.inr hlast)), fun _ => .inl (hwaits.mpr hlast)⟩
    · rw [hwaits, or_iff_right hlast]
      exact hspelled.endsBlank_iff htells.blank (not_exists.mp hlast)
  refine ⟨?_, ?_, ?_⟩
  · rw [refuses_connect_iff hclause, hwaits]
    simp
  · intro c hc
    rw [refuses_connect_iff hclause, and_iff_right hc, hguards]
  · intro factor
    rw [refuses_boost_iff hclause, hguards]

/-- Edits behind a group that was started within another one, finished and boosted. -/
theorem refuses_iff_behind_boost :
    let ks : List Call := [.edit (.terms [.text "a b".toList, .text "c:d".toList]),
      .edit (.connect .and), .edit .startGroup, .edit (.connect .not), .edit .startGroup,
      .edit (.terms [.text "e".toList]), .finish, .edit (.boost (.int 2))]
    let b := ((ofSeed []).run ks).1
    (∀ k ∈ ks, k.NamesTexts) ∧ b.hasClause = false ∧
      ∀ factor, b.Refuses (.edit (.boost factor)) = true ↔ b.LacksOperand ∨ b.LooksOpen := by
  intro ks b
  have hks : ∀ k ∈ ks, k.NamesTexts := by simp [ks, Call.NamesTexts, Edit.newTerms]
  have hclause : b.hasClause = false := by decide +kernel
  exact ⟨hks, hclause, (refuses_iff hks hclause).2.2⟩

/-- A clause that ends in a parenthesis can neither be joined nor boosted, although it is the last
token. -/
theorem refused_behind_clause :
    let ks : List Call := [.edit (.terms [.text "a(".toList]), .edit (.field none)]
    let b := ((ofSeed []).run ks).1
    (∀ k ∈ ks, k.NamesTexts) ∧ b.hasClause = false ∧ ¬ b.LacksOperand ∧
      b.Refuses (.edit (.connect .and)) = true ∧ b.Refuses (.edit (.connect .or)) = true ∧
      b.Refuses (.edit (.boost (.int 2))) = true := by
  intro ks b
  have hks : ∀ k ∈ ks, k.NamesTexts := by simp [ks, Call.NamesTexts, Edit.newTerms]
  have htokens : b.tokens = [.clause "a(".toList] := by decide +kernel
  refine ⟨hks, by decide +kernel, ?_, by decide +kernel, by decide +kernel, by decide +kernel⟩
  rw [LacksOperand, htokens]
  simp

end Builder

end PortalSearch
