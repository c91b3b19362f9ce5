import PortalSearch.Proofs.Query.Guards
import PortalSearch.Proofs.Query.Normal
import PortalSearch.Proofs.Query.Written
import PortalSearch.Proofs.Text.Bytes

/-!
# Connectives that stand alone

A connective is written with a blank behind it, and with one in front unless there is no text, or a
blank at its end, or the parenthesis of a group that was just started. Whether there is such a
parenthesis is seen from the text, which may also end in one because a caller's text does: a seed, a
clause or the factor of a boost. The connective is then written right behind that text.

Finishing writes the text anew and cuts blanks off its end, but it keeps no connective there, so the
blank behind a connective stays.

Main result: each connective is written as a word with a blank behind it, and stands apart from what
is in front exactly if that is no caller's text that ends in a parenthesis (`stands_apart_iff`).
-/

namespace PortalSearch

open Text

/-! ## Terms -/

/-- A term that is written as something ends in a word. -/
theorem Term.endsInWord {v : Value} (h : text v ≠ []) : EndsInWord (text v) := by
  cases v with
  | text t =>
    refine endsInWord_text ?_
    rintro rfl
    exact h rfl
  | date _ | moment _ => exact (endsSolid_ofInt _).endsInWord
  | int n => exact (endsSolid_ofInt n).endsInWord
  | float x =>
    rw [text]
    split
    · exact (endsSolid_ofInt _).endsInWord
    · exact (Value.IsNumber.endsSolid (v := .float x) trivial).endsInWord
  | bool b => cases b <;> exact ⟨'e', rfl, by decide⟩
  | null => exact ⟨'e', rfl, by decide⟩
  | bytes bs =>
    change EndsInWord (Value.nested (.bytes bs))
    rw [Value.nested, quotedBytes_eq]
    refine EndsInWord.append (s := _ :: _ :: _) ⟨_, rfl, ?_⟩
    rcases chooseQuote_cases (byteChars bs) with hq | hq
    · rw [hq]
      decide
    · rw [hq]
      decide
  | list vs =>
    change EndsInWord (Value.nested (.list vs))
    rw [Value.nested]
    exact EndsInWord.append ⟨']', rfl, by decide⟩ _
  | object fields =>
    change EndsInWord (Value.nested (.object fields))
    rw [Value.nested]
    exact EndsInWord.append ⟨'}', rfl, by decide⟩ _

/-! ## What a token leaves at the end -/

/-- There is nothing to cut behind a parenthesis. -/
theorem Text.trimEnd_of_paren {s : Text} (h : s.getLast? = some '(') : trimEnd s = s :=
  EndsInWord.trimEnd ⟨'(', h, by decide⟩

/-- Whether a caller chooses how a token ends. -/
def Token.IsChosen : Token → Prop
  | .seed _ | .clause _ | .boost _ => True
  | .connective _ | .opening | .closing => False

namespace Draft

variable {d : Draft} {t : Token}

/-- A token that is no blank is written as more than blanks. -/
theorem exists_write_of_not_isBlank (ht : ¬ t.IsBlank) (d : Draft) :
    ∃ more, (d.write t).text = d.text ++ more ∧ allBlank more = false := by
  cases t with
  | seed text | clause text => exact ⟨text, rfl, Bool.eq_false_iff.mpr ht⟩
  | boost factor => exact ⟨'^' :: factor, rfl, rfl⟩
  | connective c =>
    have hmore (lead : Text) : allBlank (lead ++ c.word ++ [' ']) = false := by
      rw [allBlank_append, (c.endsSolid_word.append lead).allBlank, Bool.false_and]
    rcases spaced_cases d.text with h | h
    · exact ⟨[] ++ c.word ++ [' '], by simp [write, h], hmore []⟩
    · exact ⟨[' '] ++ c.word ++ [' '], by simp [write, h], hmore [' ']⟩
  | opening =>
    rw [write]
    dsimp only
    split
    · exact ⟨" (".toList, by simp, rfl⟩
    · exact ⟨['('], rfl, rfl⟩
  | closing => exact ⟨[')'], rfl, rfl⟩

/-- So it keeps the text in front of it from being cut. -/
theorem prefix_trimEnd_writeAll (ht : ¬ t.IsBlank) (d : Draft) (ts : List Token) :
    d.text <+: trimEnd (d.writeAll (t :: ts)).text := by
  obtain ⟨more, hmore, hblank⟩ := exists_write_of_not_isBlank ht d
  obtain ⟨rest, hrest⟩ := prefix_writeAll (d.write t) ts
  have hall : allBlank (more ++ rest) = false := by
    rw [allBlank_append, hblank, Bool.false_and]
  rw [writeAll_cons, ← hrest, hmore, List.append_assoc, trimEnd_append_of_not_allBlank hall]
  exact List.prefix_append ..

/-- Behind anything else than a parenthesis, a connective has a blank in front, or nothing. -/
theorem isBlank_last_spaced {text : Text} (h : text.getLast? ≠ some '(') {x : Char}
    (hx : (spaced text).getLast? = some x) : isBlank x = true := by
  rw [spaced] at hx
  split at hx
  · next hnone =>
    rw [hnone] at hx
    cases hx
  · next hparen => exact absurd hparen h
  · next hspace =>
    rw [hspace] at hx
    obtain rfl := Option.some.inj hx
    decide
  · rw [List.getLast?_concat] at hx
    obtain rfl := Option.some.inj hx
    decide

/-- A parenthesis at the end was written at the start of a group, or chosen by a caller, also when
blanks are cut off. -/
theorem opening_or_isChosen (h : (trimEnd (d.write t).text).getLast? = some '(') :
    t = .opening ∨ t.IsChosen := by
  cases t with
  | seed _ | clause _ | boost _ => exact .inr trivial
  | opening => exact .inl rfl
  | connective c =>
    obtain ⟨x, hx, hsolid⟩ := c.endsSolid_word
    have hend : EndsSolid (spaced d.text ++ c.word) := EndsSolid.append ⟨x, hx, hsolid⟩ _
    change (trimEnd (spaced d.text ++ c.word ++ [' '])).getLast? = _ at h
    rw [trimEnd_append_of_allBlank (t := [' ']) rfl, hend.trimEnd, List.getLast?_append, hx] at h
    exact absurd (Option.some.inj h) hsolid.2
  | closing =>
    have hend : EndsInWord (d.text ++ [')']) := EndsInWord.append ⟨')', rfl, by decide⟩ _
    change (trimEnd (d.text ++ [')'])).getLast? = _ at h
    rw [hend.trimEnd, List.getLast?_concat] at h
    cases h

/-- So it is if the last of some tokens left it. -/
theorem last_of_trimEnd_writeAll {ts : List Token} (hts : ts ≠ [])
    (h : (trimEnd (d.writeAll ts).text).getLast? = some '(') :
    ∃ t, ts.getLast? = some t ∧ (t = .opening ∨ t.IsChosen) := by
  obtain ⟨front, t, rfl⟩ := List.eq_nil_or_concat' ts |>.resolve_left hts
  rw [writeAll_append] at h
  exact ⟨t, List.getLast?_concat, opening_or_isChosen h⟩

theorem last_of_render {ts : List Token} (h : (render ts).getLast? = some '(') :
    ∃ t, ts.getLast? = some t ∧ (t = .opening ∨ t.IsChosen) := by
  have hts : ts ≠ [] := by
    rintro rfl
    cases h
  apply last_of_trimEnd_writeAll (d := empty) hts
  change (trimEnd (render ts)).getLast? = _
  rw [trimEnd_of_paren h, h]

end Draft

namespace Builder

variable {b held : Builder} {ahead behind : List Token} {c : Connective}

/-! ## The text in front of a token -/

/-- The text in front of what stands behind tokens: as the last finishing wrote it if that stands
among the tokens that were left then, else as it was written since. -/
def inFront (held : Builder) (ahead : List Token) : Text :=
  if ahead.length < held.tokens.length then Draft.render ahead
  else (held.draft.writeAll (ahead.drop held.tokens.length)).text

/-- Whether a text is nothing, or ends in a blank, or in the parenthesis of a group that the last
token starts. -/
def StandsApart (ahead : List Token) (text : Text) : Prop :=
  (∀ x, text.getLast? = some x → isBlank x = true) ∨
    ahead.getLast? = some .opening ∧ text.getLast? = some '('

/-- Whether a text ends in a parenthesis that a caller chose. -/
def LooksStarted (ahead : List Token) (text : Text) : Prop :=
  (∃ t, ahead.getLast? = some t ∧ t.IsChosen) ∧ text.getLast? = some '('

theorem inFront_append (held : Builder) (us : List Token) :
    held.inFront (held.tokens ++ us) = (held.draft.writeAll us).text := by
  rw [inFront, if_neg (by simp), List.drop_left]

theorem inFront_of_lt (h : ahead.length < held.tokens.length) :
    held.inFront ahead = Draft.render ahead := if_pos h

/-- A parenthesis at the end of what is written since the last finishing is that of a group, or a
caller chose it. -/
theorem IsCut.last_of_writeAll (hcut : held.IsCut) {us : List Token}
    (h : (held.draft.writeAll us).text.getLast? = some '(') :
    ∃ t, (held.tokens ++ us).getLast? = some t ∧ (t = .opening ∨ t.IsChosen) := by
  by_cases hus : us = []
  · subst hus
    obtain ⟨blanks, hblank, hwritten, -⟩ := hcut
    have hrender : Draft.render held.tokens = held.text ++ blanks := congrArg Draft.text hwritten
    have htext : held.text.getLast? = some '(' := h
    have hne : held.tokens ≠ [] := by
      intro hnil
      rw [hnil] at hrender
      rw [(List.append_eq_nil_iff.mp hrender.symm).1] at htext
      cases htext
    rw [List.append_nil]
    apply Draft.last_of_trimEnd_writeAll (d := .empty) hne
    change (trimEnd (Draft.render held.tokens)).getLast? = _
    rw [hrender, trimEnd_append_of_allBlank hblank, trimEnd_of_paren htext, htext]
  · have hlast := Draft.last_of_trimEnd_writeAll (d := held.draft) hus
    rw [trimEnd_of_paren h] at hlast
    rw [List.getLast?_append_of_ne_nil _ hus]
    exact hlast h

/-- Where a connective is put, it stands apart unless a caller chose the parenthesis there. -/
theorem standsApart_spaced_iff {front : Text} (hlast : front.getLast? = some '(' →
      ∃ t, ahead.getLast? = some t ∧ (t = .opening ∨ t.IsChosen)) :
    StandsApart ahead (Draft.spaced front) ↔ ¬ LooksStarted ahead front := by
  by_cases hparen : front.getLast? = some '('
  · have hspaced : Draft.spaced front = front := by
      rw [Draft.spaced, hparen]
      rfl
    obtain ⟨t, ht, hor⟩ := hlast hparen
    rw [StandsApart, LooksStarted, hspaced, hparen, ht]
    constructor
    · rintro (hblank | ⟨hopening, -⟩)
      · cases hblank '(' rfl
      · obtain rfl := Option.some.inj hopening
        rintro ⟨⟨u, hu, hchosen⟩, -⟩
        obtain rfl := Option.some.inj hu
        exact hchosen
    · intro hno
      refine .inr ⟨?_, rfl⟩
      refine congrArg some (hor.resolve_right ?_)
      exact fun hchosen => hno ⟨⟨t, rfl, hchosen⟩, rfl⟩
  · exact iff_of_true (.inl fun _ => Draft.isBlank_last_spaced hparen) fun h => hparen h.2

/-! ## What finishing keeps -/

/-- Whether no token but the first is written as blanks, and no term will be. -/
structure IsShown (b : Builder) : Prop where
  /-- pending terms end in a word -/
  terms : ∀ v ∈ b.terms, EndsInWord (Term.text v)
  /-- tokens behind the first one are no blanks -/
  tokens : ∀ t ∈ b.tokens.tail, ¬ t.IsBlank

theorem mem_tail_append {α : Type} {x : α} {xs ys : List α} (h : x ∈ (xs ++ ys).tail) :
    x ∈ xs.tail ∨ x ∈ ys := by
  cases xs with
  | nil => exact .inr (List.mem_of_mem_tail h)
  | cons y xs => exact List.mem_append.mp h

/-- What finishing keeps behind the first token stood behind the first one. -/
theorem mem_tail_clean {ts : List Token} {t : Token} (h : t ∈ (clean ts).tokens.tail) :
    t ∈ ts.tail := by
  have hsub := ((sublist_prune ts.zipIdx).map Prod.fst).tail
  rw [List.zipIdx_map_fst] at hsub
  rw [tokens_clean] at h
  obtain ⟨seed, -, ht⟩ | ⟨-, ht⟩ := trimSeed_cases (prune ts.zipIdx).tokens
  · rw [ht] at h
    split at h <;> cases h
  · rw [ht] at h
    exact hsub.subset h

theorem IsShown.append (h : b.IsShown) {t : Token} (ht : ¬ t.IsBlank) (p : Option Connective) :
    IsShown { b.append t with pending := p } := by
  refine ⟨h.terms, ?_⟩
  intro u hu
  rcases mem_tail_append hu with hu | hu
  · exact h.tokens u hu
  · rwa [List.mem_singleton.mp hu]

theorem IsShown.commit (h : b.IsShown) (lead : Text) : (b.commit lead).IsShown := by
  have hsettled : b.settled.IsShown := ⟨nofun, h.tokens⟩
  rw [Builder.commit]
  split
  · exact hsettled
  · next hne =>
    have hclause : EndsInWord (lead ++ b.clauseText) :=
      (endsInWord_clauseText h.terms hne).append lead
    exact hsettled.append (t := .clause _) (Bool.eq_false_iff.mp hclause.allBlank) none

theorem IsShown.edit (h : b.IsShown) {e : Edit} (hk : (Call.edit e).Spells) {next : Builder}
    (he : b.edit e = .ok next) : next.IsShown := by
  obtain ⟨_, _, rfl⟩ | ⟨-, lead, rfl⟩ | ⟨t, rfl, ht, -⟩ := edit_cases he
  · refine ⟨List.forall_mem_append.mpr ⟨h.terms, ?_⟩, h.tokens⟩
    exact fun v hv => Term.endsInWord (hk v hv)
  · exact h.commit lead
  · refine (h.commit []).append ?_ _
    cases t with
    | seed _ | clause _ => exact ht.elim
    | boost _ | connective _ | opening | closing => exact id

theorem IsShown.finish (h : b.IsShown) : b.finish.1.IsShown := by
  refine ⟨nofun, ?_⟩
  intro t ht
  rcases mem_tail_append (mem_tail_clean ht) with ht | ht
  · exact (h.commit []).tokens t ht
  · rw [List.eq_of_mem_replicate ht]
    exact id

theorem isShown_run (seed : Text) {ks : List Call} (hks : ∀ k ∈ ks, k.Spells) :
    ((ofSeed seed).run ks).1.IsShown := by
  have hstart : (ofSeed seed).IsShown := by
    refine ⟨nofun, ?_⟩
    rw [ofSeed]
    dsimp only
    split
    · intro t ht
      cases ht
    · intro t ht
      cases ht
  exact run_preserves_of_edit (fun _ _ _ hk h he => h.edit hk he) (fun _ h => h.finish) hstart hks

/-! ## Connectives in the text -/

/-- What stands at a place of two lists is in the one or in the other. -/
theorem exists_of_append_eq_append_cons {α : Type} {xs ys front rest : List α} {x : α}
    (h : xs ++ ys = front ++ x :: rest) :
    (∃ more, xs = front ++ x :: more) ∨ ∃ more, front = xs ++ more ∧ ys = more ++ x :: rest := by
  obtain ⟨more, hfront, hys⟩ | ⟨more, hxs, hrest⟩ := List.append_eq_append_iff.mp h
  · exact .inr ⟨more, hfront, hys⟩
  · cases more with
    | nil =>
      rw [List.append_nil] at hxs
      exact .inr ⟨[], by rw [hxs, List.append_nil], hrest.symm⟩
    | cons y more =>
      obtain ⟨rfl, -⟩ := List.cons.inj hrest
      exact .inl ⟨more, hxs⟩

/-- What finishing leaves is shown, if what is asked for is. -/
theorem isShown_lastFinished (seed : Text) {ks : List Call} (hks : ∀ k ∈ ks, k.Spells) :
    ((ofSeed seed).lastFinished ks).IsShown :=
  isShown_run seed fun k hk => hks k ((List.rdropWhile_prefix _ ks).subset hk)

/-- No connective is left at the end when a query is finished. -/
theorem ne_nil_of_lastFinished (seed : Text) (ks : List Call)
    (h : ((ofSeed seed).lastFinished ks).tokens = ahead ++ .connective c :: behind) :
    behind ≠ [] := by
  rintro rfl
  obtain hheld | ⟨front, hheld⟩ := lastFinished_cases (ofSeed seed) ks
  · rw [hheld, ofSeed] at h
    dsimp only at h
    have hlast := congrArg List.getLast? h
    rw [List.getLast?_concat] at hlast
    split at hlast <;> cases hlast
  · have hfinished : Finished ((ofSeed seed).lastFinished ks).tokens := by
      rw [hheld]
      exact finished_clean _
    rw [h] at hfinished
    exact hfinished.ended c List.getLast?_concat

/-- A connective that finishing left stands in the text with the blank behind it. -/
theorem prefix_of_kept (hcut : held.IsCut) (hshown : held.IsShown) (hbehind : behind ≠ [])
    (h : held.tokens = ahead ++ .connective c :: behind) :
    Draft.spaced (Draft.render ahead) ++ c.word ++ [' '] <+: held.text := by
  obtain ⟨t, rest, rfl⟩ := List.exists_cons_of_ne_nil hbehind
  have ht : ¬ t.IsBlank := by
    apply hshown.tokens
    rw [h]
    cases ahead <;> simp
  obtain ⟨blanks, hblank, hwritten, -⟩ := hcut
  have hrender : ((Draft.empty.writeAll (ahead ++ [.connective c])).writeAll (t :: rest)).text =
      held.text ++ blanks := by
    rw [← Draft.writeAll_append, List.append_assoc, List.singleton_append, ← h, hwritten]
  have hfront := Draft.prefix_trimEnd_writeAll ht (Draft.empty.writeAll (ahead ++ [.connective c]))
    rest
  rw [hrender, trimEnd_append_of_allBlank hblank, Draft.writeAll_append] at hfront
  exact hfront.trans (List.rdropWhile_prefix isBlank held.text)

/-- **Each connective** is written as a word with a blank behind it, and stands apart from what is
in front exactly if that is no caller's text that ends in a parenthesis. -/
theorem stands_apart_iff (seed : Text) {ks : List Call} (hks : ∀ k ∈ ks, k.Spells) :
    let b := ((ofSeed seed).run ks).1
    let held := (ofSeed seed).lastFinished ks
    held.inFront b.tokens = b.text ∧
      ∀ ahead c behind, b.tokens = ahead ++ .connective c :: behind →
        let front := held.inFront ahead
        ∃ lead, (lead = [] ∨ lead = [' ']) ∧ front ++ lead ++ c.word ++ [' '] <+: b.text ∧
          (StandsApart ahead (front ++ lead) ↔ ¬ LooksStarted ahead front) := by
  intro b held
  have hcut : held.IsCut := isCut_lastFinished seed ks
  obtain ⟨us, htokens, hdraft⟩ := continues_lastFinished (ofSeed seed) ks
  change b.tokens = held.tokens ++ us at htokens
  change b.draft = held.draft.writeAll us at hdraft
  have htext : b.text = (held.draft.writeAll us).text := congrArg Draft.text hdraft
  refine ⟨?_, ?_⟩
  · rw [htokens, inFront_append, htext]
  intro ahead c behind hsplit front
  suffices hspaced : Draft.spaced front ++ c.word ++ [' '] <+: b.text ∧
      (StandsApart ahead (Draft.spaced front) ↔ ¬ LooksStarted ahead front) by
    rcases Draft.spaced_cases front with h | h
    · rw [h] at hspaced
      exact ⟨[], .inl rfl, by rwa [List.append_nil]⟩
    · rw [h] at hspaced
      exact ⟨[' '], .inr rfl, hspaced⟩
  rw [htokens] at hsplit
  -- the connective was left by the last finishing, or was written since
  obtain ⟨rest, hkept⟩ | ⟨since, rfl, rfl⟩ := exists_of_append_eq_append_cons hsplit
  · have hfront : front = Draft.render ahead := by
      apply inFront_of_lt
      rw [hkept, List.length_append, List.length_cons]
      omega
    have hword := prefix_of_kept hcut (isShown_lastFinished seed hks)
      (ne_nil_of_lastFinished seed ks hkept) hkept
    rw [hfront]
    refine ⟨hword.trans ?_, standsApart_spaced_iff Draft.last_of_render⟩
    rw [htext]
    exact Draft.prefix_writeAll held.draft us
  · have hfront : front = (held.draft.writeAll since).text := inFront_append held since
    rw [hfront]
    refine ⟨?_, standsApart_spaced_iff hcut.last_of_writeAll⟩
    rw [htext, Draft.writeAll_append]
    exact Draft.prefix_writeAll ((held.draft.writeAll since).write (.connective c)) behind

/-- A connective in a group that was finished, with one behind it that was written since. -/
theorem stands_apart_behind_group :
    let ks : List Call := [.edit (.connect .and), .edit .startGroup, .edit (.connect .not),
      .edit (.terms [.text "a(".toList]), .finish, .edit (.connect .or)]
    let b := ((ofSeed "x".toList).run ks).1
    let held := (ofSeed "x".toList).lastFinished ks
    let ahead : List Token := [.seed "x".toList, .connective .and, .opening]
    (∀ k ∈ ks, k.Spells) ∧
      b.tokens = ahead ++ .connective .not :: [.clause "a(".toList, .closing, .connective .or] ∧
      b.text = "x AND (NOT a() OR ".toList ∧ held.inFront ahead = "x AND (".toList ∧
      ∃ lead, (lead = [] ∨ lead = [' ']) ∧
        held.inFront ahead ++ lead ++ "NOT".toList ++ [' '] <+: b.text ∧
        StandsApart ahead (held.inFront ahead ++ lead) := by
  intro ks b held ahead
  have hterm : Term.text (.text "a(".toList) ≠ [] := by decide
  have hks : ∀ k ∈ ks, k.Spells := by simpa [ks, Call.Spells, Edit.newTerms] using hterm
  have htokens : b.tokens = ahead ++ .connective .not ::
      [.clause "a(".toList, .closing, .connective .or] := by decide +kernel
  obtain ⟨lead, hlead, hword, hiff⟩ := (stands_apart_iff "x".toList hks).2 ahead .not _ htokens
  refine ⟨hks, htokens, by decide +kernel, by decide +kernel, lead, hlead, hword, hiff.mpr ?_⟩
  rintro ⟨⟨t, ht, hchosen⟩, -⟩
  obtain rfl := Option.some.inj ht
  exact hchosen

/-- Behind a clause that ends in a parenthesis, AND is written as a part of it. -/
theorem and_attached_to_clause :
    let ks : List Call := [.edit (.terms [.text "a(".toList]), .edit (.connect .and),
      .edit (.terms [.text ['b']]), .finish]
    let b := ((ofSeed []).run ks).1
    let held := (ofSeed []).lastFinished ks
    let ahead : List Token := [.clause "a(".toList]
    (∀ k ∈ ks, k.Spells) ∧ b.tokens = ahead ++ .connective .and :: [.clause ['b']] ∧
      b.text = "a(AND b".toList ∧ held.inFront ahead = "a(".toList ∧
      ¬ StandsApart ahead "a(".toList := by
  intro ks b held ahead
  have hterms : Term.text (.text "a(".toList) ≠ [] ∧ Term.text (.text ['b']) ≠ [] := by decide
  have hks : ∀ k ∈ ks, k.Spells := by simpa [ks, Call.Spells, Edit.newTerms] using hterms
  refine ⟨hks, by decide +kernel, by decide +kernel, by decide +kernel, ?_⟩
  rintro (hblank | ⟨hopening, -⟩)
  · cases hblank '(' rfl
  · cases hopening

end Builder

end PortalSearch
