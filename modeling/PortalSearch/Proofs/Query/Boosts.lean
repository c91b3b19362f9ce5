import Mathlib.Data.List.Nodup
import PortalSearch.Proofs.Query.Groups
import PortalSearch.Proofs.Query.Invariant

/-!
# Boosts

A boost raises the rank of what stands in front of it. It may be asked for behind a clause that is
written as nothing, and then it boosts something else or nothing at all; but as long as every term
is written as something, it is put behind something that carries it (`exists_carries_of_boost`).

Finishing is not to move it from there. An empty group goes together with one boost behind it. A
second boost behind the group boosted the same group, but it is left: it ends up behind whatever
stood in front of the group, and boosts that, or stands behind nothing. No other boost is moved: it
stands behind the very token that it was put behind, unless that one was a boost and went with an
empty group (`BehindTaken`).

Main result: a boost is left exactly if it does not stand behind a hollow group, and left where it
was put exactly if, besides, it was put behind something that carries a boost, and that was no boost
behind a hollow group (`boost_stays_iff`).
-/

namespace PortalSearch

open Prune

/-- Whether a boost may stand behind a token. -/
def Token.Carries : Token → Prop
  | .seed _ | .clause _ | .boost _ | .closing => True
  | .connective _ | .opening => False

/-- Whether tokens end in a boost that goes with a hollow group. -/
def BehindTaken (front : List Token) : Prop :=
  ∃ ahead factor, front = ahead ++ [.boost factor] ∧ EndsHollow ahead

namespace Reading

variable {α : Type} {r : Reading α} {t : Token} {m : α}

/-- A token that carries a boost is put on top, unless it is the end of a group that is taken out,
or a boost that goes with one. -/
theorem exists_read_of_carries (ht : t.Carries) (hb : (∃ factor, t = .boost factor) →
    r.wake.boost = false) (hw : (r.read (t, m)).wake.boost = false) :
    ∃ below, (r.read (t, m)).before = (t, m) :: below := by
  cases t with
  | closing => exact ⟨_, readClosing_of_wake hw⟩
  | boost factor =>
    have hr := hb ⟨factor, rfl⟩
    exact ⟨r.before, by simp [read, hr]⟩
  | seed _ | clause _ => exact ⟨r.before, rfl⟩
  | connective _ | opening => exact ht.elim

end Reading

namespace Builder

/-! ## Where boosts are put -/

/-- Whether a call asks for no term that is written as nothing. -/
def Call.Spells : Call → Prop
  | .edit e => ∀ v ∈ e.newTerms, Term.text v ≠ []
  | .finish => True

/-- What can be told of the last token without looking at it. -/
structure Tells (b : Builder) : Prop where
  /-- a connective at the end waits for a clause -/
  waits : ∀ c, b.tokens.getLast? = some (.connective c) → b.pending.isSome = true
  /-- the start of a group at the end ends the text too -/
  opens : b.tokens.getLast? = some .opening → b.text.getLast? = some '('
  /-- without tokens there is no text -/
  blank : b.tokens = [] → b.text = []
  /-- no pending term is written as nothing -/
  spelled : ∀ v ∈ b.terms, Term.text v ≠ []

variable {b : Builder}

theorem tells_ofSeed (seed : Text) : (ofSeed seed).Tells := by
  by_cases hs : seed = []
  · subst hs
    exact ⟨nofun, nofun, fun _ => rfl, nofun⟩
  · have ht : (ofSeed seed).tokens = [.seed seed] := if_neg hs
    refine ⟨?_, ?_, ?_, nofun⟩
    · intro c h
      rw [ht] at h
      cases h
    · intro h
      rw [ht] at h
      cases h
    · intro h
      rw [ht] at h
      cases h

theorem series_ne_nil {terms : List Value} (h : terms ≠ []) (ht : ∀ v ∈ terms, Term.text v ≠ []) :
    Term.series terms ≠ [] := by
  rcases terms with _ | ⟨v, _ | ⟨w, terms⟩⟩
  · exact absurd rfl h
  · rw [Term.series_singleton]
    exact ht v (List.mem_cons_self ..)
  · simp [Term.series_cons_cons]

/-- A complete clause is written as something, if its terms are. -/
theorem Tells.clauseText_ne_nil (h : b.Tells) (hc : b.hasClause = true) : b.clauseText ≠ [] := by
  rw [clauseText]
  intro hnil
  obtain ⟨hrange, hseries⟩ := List.append_eq_nil_iff.mp hnil
  rcases Bool.or_eq_true_iff.mp hc with ht | hr
  · refine series_ne_nil ?_ h.spelled hseries
    simpa [hasTerms] using ht
  · obtain ⟨lower, hl⟩ := Option.isSome_iff_exists.mp (Bool.and_eq_true_iff.mp hr).1
    obtain ⟨upper, hu⟩ := Option.isSome_iff_exists.mp (Bool.and_eq_true_iff.mp hr).2
    simp [rangeText, hl, hu, Term.range] at hrange

/-- Behind a token that waits like the builder does, the same can be told. -/
theorem tells_append (b : Builder) (t : Token) (terms : List Value) (lower upper : Option Value)
    (ht : ∀ v ∈ terms, Term.text v ≠ []) :
    Tells { b.append t with
      terms := terms, lower := lower, upper := upper, pending := t.waiting } := by
  refine ⟨?_, ?_, ?_, ht⟩
  · intro c hc
    obtain rfl : t = .connective c := by simpa [append] using hc
    rfl
  · intro ho
    obtain rfl : t = .opening := by simpa [append] using ho
    simp [append, text, Draft.write]
  · simp [append]

theorem Tells.commit (h : b.Tells) (hc : b.hasClause = true) (lead : Text) :
    (b.commit lead).Tells := by
  rw [Builder.commit, if_neg (h.clauseText_ne_nil hc)]
  apply tells_append b.settled (.clause (lead ++ b.clauseText))
  intro v hv
  cases hv

theorem Tells.edit (h : b.Tells) {e : Edit} (hk : (Call.edit e).Spells) {next : Builder}
    (he : b.edit e = .ok next) : next.Tells := by
  obtain ⟨_, _, rfl⟩ | ⟨hc, lead, rfl⟩ | ⟨t, rfl, -, -⟩ := edit_cases he
  · exact ⟨h.waits, h.opens, h.blank, List.forall_mem_append.mpr ⟨h.spelled, hk⟩⟩
  · exact h.commit hc lead
  · apply tells_append (b.commit []) t _ _ _
    have hnil : ((b.commit []).append t).terms = [] := commit_terms b []
    rw [hnil]
    exact nofun

theorem tells_finish (h : b.IsSound) : b.finish.1.Tells := by
  have hf : Finished b.finish.1.tokens := finished_clean b.closedTokens
  refine ⟨fun c hc => absurd hc (hf.ended c), ?_, ?_, nofun⟩
  · intro ho
    obtain ⟨front, hfront⟩ := List.getLast?_eq_some_iff.mp ho
    -- groups are closed in finished tokens
    have hn := (isSound_finish h).nested
    rw [hfront, nest_concat] at hn
    obtain ⟨d, -, hd⟩ := Option.bind_eq_some_iff.mp hn
    cases hd
  · intro hnil
    rw [finish_fst b, ofTokens, hnil]
    rfl

theorem tells_run (seed : Text) {ks : List Call} (hks : ∀ k ∈ ks, k.Spells) :
    ((ofSeed seed).run ks).1.Tells := by
  -- what finishing leaves is told as the builder is sound
  have hstart : (ofSeed seed).IsSound ∧ (ofSeed seed).Tells :=
    ⟨isSound_ofSeed seed, tells_ofSeed seed⟩
  refine (run_preserves_of_edit (P := fun b => b.IsSound ∧ b.Tells) ?_ ?_ hstart hks).2
  · exact fun _ _ _ hk h he => ⟨isSound_edit h.1 he, h.2.edit hk he⟩
  · exact fun _ h => ⟨isSound_finish h.1, tells_finish h.1⟩

/-- **A boost is put behind something that carries it**, whatever was asked before, as long as no
term is written as nothing. -/
theorem exists_carries_of_boost (seed : Text) {ks : List Call} (hks : ∀ k ∈ ks, k.Spells)
    {factor : Value} {next : Builder}
    (he : ((ofSeed seed).run ks).1.edit (.boost factor) = .ok next) :
    ∃ ahead t, next.tokens = ahead ++ [t, .boost factor.toText] ∧ t.Carries := by
  have h := tells_run seed hks
  generalize ((ofSeed seed).run ks).1 = b at *
  rw [edit] at he
  split at he
  · cases he
  · next hguard =>
    obtain rfl := Except.ok.inj he
    by_cases hc : b.hasClause = true
    · refine ⟨b.tokens, .clause b.clauseText, ?_, trivial⟩
      rw [Builder.commit, if_neg (h.clauseText_ne_nil hc)]
      simp [append, settled]
    · have hc' : b.hasClause = false := Bool.eq_false_iff.mpr hc
      have hp : b.pending.isSome = false ∧ b.endsBlank = false := by simpa [hc'] using hguard
      -- nothing is written in front, so the last token is the one that the text tells of
      have ht : (b.commit []).tokens = b.tokens := by
        rw [commit_of_incomplete hc']
        rfl
      rcases List.eq_nil_or_concat b.tokens with hnil | ⟨ahead, t, hlast⟩
      · rw [endsBlank, h.blank hnil] at hp
        exact absurd hp.2.symm Bool.false_ne_true
      · rw [List.concat_eq_append] at hlast
        refine ⟨ahead, t, by simp [append, ht, hlast], ?_⟩
        have hl : b.tokens.getLast? = some t := by rw [hlast, List.getLast?_concat]
        cases t with
        | connective c => exact absurd hp.1 (by simp [h.waits c hl])
        | opening => exact absurd hp.2 (by simp [endsBlank, h.opens hl])
        | seed _ | clause _ | boost _ | closing => trivial

/-- A term that is written as nothing lets a boost begin the query. -/
example : ((ofSeed []).run [.edit (.terms [.text []]), .edit (.boost (.int 2))]).1.tokens =
    [.boost ['2']] := by decide +kernel

/-! ## What finishing leaves of them -/

theorem nodup_zipIdx (ts : List Token) : ts.zipIdx.Nodup :=
  (nodup_marks ts).of_map Prod.snd

theorem nodup_prune (ts : List Token) : (prune ts.zipIdx).kept.Nodup :=
  (nodup_zipIdx ts).sublist (sublist_prune ts.zipIdx)

variable {front : List Token}

/-- Whether what is kept has a boost, written behind `front`, behind the very token that it was
written behind, and that one carries it. -/
def StaysBehind (kept : List (Token × Nat)) (front : List Token) (factor : Text) : Prop :=
  ∃ ahead t, front = ahead ++ [t] ∧ t.Carries ∧
    ∃ before behind, kept = before ++ (t, ahead.length) :: (.boost factor, front.length) :: behind

/-- What pruning keeps of tokens with a boost among them that goes. -/
theorem not_mem_prune_of_wake (hw : (Reading.start.readAll front.zipIdx).wake.boost = true)
    (factor : Text) (rest : List Token) :
    (.boost factor, front.length) ∉ (prune (front ++ .boost factor :: rest).zipIdx).kept := by
  rw [prune_eq_outcome, List.zipIdx_append, Reading.readAll_append, List.zipIdx_cons, Nat.zero_add]
  refine Reading.not_mem_kept_of_read ?_ rest
  simp [Reading.read, hw]

/-- What pruning keeps of tokens with a boost among them that does not go. -/
theorem exists_prune_of_wake (hw : (Reading.start.readAll front.zipIdx).wake.boost = false)
    (factor : Text) (rest : List Token) :
    ∃ behind, (prune (front ++ .boost factor :: rest).zipIdx).kept =
      (Reading.start.readAll front.zipIdx).before.reverse ++
        (.boost factor, front.length) :: behind := by
  rw [prune_eq_outcome, List.zipIdx_append, Reading.readAll_append, List.zipIdx_cons, Nat.zero_add,
    Reading.readAll_cons]
  refine Reading.exists_kept_above (t := .boost factor) rfl nofun ?_ _
  simp [Reading.read, hw]

/-- A boost that does not go stays behind the token on top. -/
theorem staysBehind_iff_top (hw : (Reading.start.readAll front.zipIdx).wake.boost = false)
    (factor : Text) (rest : List Token) :
    StaysBehind (prune (front ++ .boost factor :: rest).zipIdx).kept front factor ↔
      ∃ ahead t below, front = ahead ++ [t] ∧ t.Carries ∧
        (Reading.start.readAll front.zipIdx).before = (t, ahead.length) :: below := by
  obtain ⟨Y, hY⟩ := exists_prune_of_wake hw factor rest
  constructor
  · rintro ⟨ahead, t, hfront, ht, before, behind, hk⟩
    -- the boost has one place only, so what stands in front of it there is what was on top
    have hnodup := nodup_prune (front ++ .boost factor :: rest)
    rw [hY, List.nodup_middle, List.nodup_cons, List.mem_append, not_or] at hnodup
    rw [hY, List.append_cons before] at hk
    obtain ⟨hb, -⟩ := (List.append_cons_inj_of_notMem hnodup.1.1 hnodup.1.2).mp hk
    refine ⟨ahead, t, before.reverse, hfront, ht, ?_⟩
    rw [← List.reverse_inj, hb]
    simp
  · rintro ⟨ahead, t, below, hfront, ht, hb⟩
    refine ⟨ahead, t, hfront, ht, below.reverse, Y, ?_⟩
    rw [hY, hb]
    simp

theorem wake_boost_iff (hn : (nest 0 front).isSome = true) :
    (Reading.start.readAll front.zipIdx).wake.boost = true ↔ EndsHollow front := by
  have hz : (nest 0 (front.zipIdx.map Prod.fst)).isSome = true := by rwa [List.zipIdx_map_fst]
  have h := Reading.wake_boost_iff_endsHollow hz
  rwa [List.zipIdx_map_fst] at h

/-- What the token on top was read as, with no boost to go: it carries one, and it was not taken. -/
theorem top_iff_not_behindTaken (hn : (nest 0 front).isSome = true)
    (hw : (Reading.start.readAll front.zipIdx).wake.boost = false) :
    (∃ ahead t below, front = ahead ++ [t] ∧ t.Carries ∧
      (Reading.start.readAll front.zipIdx).before = (t, ahead.length) :: below) ↔
      (∃ ahead t, front = ahead ++ [t] ∧ t.Carries) ∧ ¬ BehindTaken front := by
  constructor
  · rintro ⟨ahead, t, below, rfl, ht, hb⟩
    refine ⟨⟨ahead, t, rfl, ht⟩, ?_⟩
    rintro ⟨ahead', g, hf, hh⟩
    obtain ⟨rfl, hg⟩ := List.append_inj' hf rfl
    obtain rfl : t = .boost g := List.singleton_inj.mp hg
    rw [nest_append] at hn
    have hw' := (wake_boost_iff (Option.isSome_of_isSome_bind hn)).mpr hh
    -- the boost in front went, so what is on top was read before it
    have hmem : (.boost g, ahead.length) ∈ (Reading.start.readAll ahead.zipIdx).before := by
      rw [List.zipIdx_append, Reading.readAll_append] at hb
      simp only [Reading.read, hw', List.zipIdx_cons, List.zipIdx_nil, Reading.readAll_cons,
        Reading.readAll_nil, if_true] at hb
      rw [hb]
      exact List.mem_cons_self ..
    exact absurd (Reading.lt_of_mem_readAll hmem) (Nat.lt_irrefl _)
  · rintro ⟨⟨ahead, t, rfl, ht⟩, hbt⟩
    rw [nest_append] at hn
    have ha := wake_boost_iff (Option.isSome_of_isSome_bind hn)
    rw [List.zipIdx_append, Reading.readAll_append, Nat.zero_add] at hw ⊢
    have hboost : (∃ factor, t = .boost factor) →
        (Reading.start.readAll ahead.zipIdx).wake.boost = false := by
      rintro ⟨g, rfl⟩
      rw [← Bool.not_eq_true, ha]
      exact fun hh => hbt ⟨ahead, g, rfl, hh⟩
    obtain ⟨below, hb⟩ := Reading.exists_read_of_carries (m := ahead.length) ht hboost hw
    exact ⟨ahead, t, below, rfl, ht, hb⟩

/-- **A boost is left** exactly if it does not go with a hollow group, and left behind what it was
put behind exactly if, besides, that carries it and is itself no boost that goes with one. -/
theorem boost_stays_iff (seed : Text) (ks : List Call) {rest : List Token} {factor : Text}
    (h : ((ofSeed seed).run ks).1.closedTokens = front ++ .boost factor :: rest) :
    let kept := (clean ((ofSeed seed).run ks).1.closedTokens).kept
    ((.boost factor, front.length) ∈ kept ↔ ¬ EndsHollow front) ∧
      (StaysBehind kept front factor ↔ ¬ EndsHollow front ∧
        (∃ ahead t, front = ahead ++ [t] ∧ t.Carries) ∧ ¬ BehindTaken front) := by
  intro kept
  have hnest := nest_closedTokens (isSound_run seed ks)
  rw [h] at hnest
  obtain ⟨n, hn, -⟩ := nest_of_append hnest
  have hsome : (nest 0 front).isSome = true := by rw [hn]; rfl
  have hmem : (.boost factor, front.length) ∈ kept ↔
      (.boost factor, front.length) ∈ (prune (front ++ .boost factor :: rest).zipIdx).kept := by
    rw [← h]
    exact mem_clean_iff nofun
  have hstays : StaysBehind kept front factor ↔
      StaysBehind (prune (front ++ .boost factor :: rest).zipIdx).kept front factor := by
    rw [← h]
    exact exists_congr fun ahead => exists_congr fun t => and_congr_right fun _ =>
      and_congr_right fun _ => kept_clean_iff
  rw [hmem, hstays, ← wake_boost_iff hsome]
  cases hw : (Reading.start.readAll front.zipIdx).wake.boost with
  | true =>
    have hno := not_mem_prune_of_wake hw factor rest
    refine ⟨⟨fun hm => absurd hm hno, fun hne => absurd rfl hne⟩, ?_, fun hne => absurd rfl hne.1⟩
    rintro ⟨ahead, t, -, -, before, behind, hk⟩
    rw [hk] at hno
    exact absurd (by simp) hno
  | false =>
    obtain ⟨Y, hY⟩ := exists_prune_of_wake hw factor rest
    rw [staysBehind_iff_top hw factor rest, top_iff_not_behindTaken hsome hw]
    refine ⟨⟨fun _ => Bool.false_ne_true, fun _ => ?_⟩, ?_⟩
    · rw [hY]
      simp
    · exact ⟨fun hs => ⟨Bool.false_ne_true, hs⟩, fun hs => hs.2⟩

/-- Behind a group that holds a clause, a second boost stays behind the first. -/
theorem boost_stays_behind_group :
    let calls : List Call := [.edit .startGroup, .edit (.terms [.text ['b']]), .edit .endGroup,
      .edit (.boost (.int 2)), .edit (.boost (.int 3))]
    let b := ((ofSeed []).run calls).1
    let front : List Token := [.opening, .clause ['b'], .closing, .boost ['2']]
    let kept := (clean b.closedTokens).kept
    b.closedTokens = front ++ .boost ['3'] :: [] ∧
      ((.boost ['3'], front.length) ∈ kept ↔ ¬ EndsHollow front) ∧
      (StaysBehind kept front ['3'] ↔ ¬ EndsHollow front ∧
        (∃ ahead t, front = ahead ++ [t] ∧ t.Carries) ∧ ¬ BehindTaken front) ∧
      b.finish.1.text = "(b)^2^3".toList := by
  intro calls b front kept
  have hts : b.closedTokens = front ++ .boost ['3'] :: [] := by decide +kernel
  obtain ⟨hmem, hstays⟩ := boost_stays_iff [] calls hts
  exact ⟨hts, hmem, hstays, by decide +kernel⟩

/-- Behind an empty group, the first boost goes with it, and the second one boosts the clause in
front. -/
theorem boost_moved_by_empty_group :
    let b := ((ofSeed []).run [.edit (.terms [.text ['a']]), .edit (.field none), .edit .startGroup,
      .edit .endGroup, .edit (.boost (.int 2)), .edit (.boost (.int 3))]).1
    b.closedTokens = [.clause ['a'], .opening, .closing, .boost ['2'], .boost ['3']] ∧
      (.boost ['3'], 4) ∈ (clean b.closedTokens).kept ∧
      ¬ StaysBehind (clean b.closedTokens).kept [.clause ['a'], .opening, .closing, .boost ['2']]
        ['3'] ∧
      b.finish.1.text = "a^3".toList := by
  intro b
  have hk : (clean b.closedTokens).kept = [(.clause ['a'], 0), (.boost ['3'], 4)] := by
    decide +kernel
  refine ⟨by decide +kernel, by rw [hk]; simp, ?_, by decide +kernel⟩
  rw [hk]
  rintro ⟨ahead, t, hfront, -, before, behind, h⟩
  -- the token it was put behind stood at place 3, the one it stands behind now at place 0
  have hahead : ahead.length = 3 := by
    have hlen := congrArg List.length hfront
    simp at hlen
    omega
  have hmem : (t, 3) ∈ [(Token.clause ['a'], 0), (.boost ['3'], 4)] := by
    rw [h, ← hahead]
    simp
  simp at hmem

end Builder

end PortalSearch
