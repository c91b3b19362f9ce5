import PortalSearch.Proofs.Query.Account
import PortalSearch.Proofs.Query.Clone
import PortalSearch.Proofs.Query.Inside

/-!
# The text as it is written

A builder writes its text token by token, and finishing writes it once more from all the tokens that
are left. The two come to the same as long as the text is what the tokens are written as. Finishing
cuts the blanks at the end off the text and leaves the tokens as they are, so a clause or a boost
that ends in blanks has them in its token only; what is written behind it then comes earlier in the
text than in what the tokens are written as, until the query is finished again.

Nothing that is written later takes the difference back, but for a connective that stands first: it
puts a blank in front of itself if there is none, which may be the one that was cut off
(`trimEnd_writeAll_iff`).

Main result: the text is what the tokens are written as, up to blanks at the end, exactly if the
last finishing cut nothing off, or nothing but blanks was written since, or a connective was and
puts back what was cut off; and while it is, finishing changes nothing of it without saying so
(`text_agrees_iff`).
-/

namespace PortalSearch

/-! ## Blanks at the end -/

namespace Text

variable {s t : Text}

/-- Blanks at the end are cut off, whatever stands in front. -/
theorem trimEnd_append_of_allBlank (ht : allBlank t = true) (s : Text) :
    trimEnd (s ++ t) = trimEnd s := by
  have hnil : t.reverse.dropWhile isBlank = [] := by
    rw [List.dropWhile_eq_nil_iff]
    intro c hc
    exact List.all_eq_true.mp ht c (List.mem_reverse.mp hc)
  rw [trimEnd, trimEnd, List.reverse_append, List.dropWhile_append,
    hnil]
  rfl

/-- Only what stands behind has blanks to cut off, if there is anything else in it. -/
theorem trimEnd_append_of_not_allBlank (ht : allBlank t = false) (s : Text) :
    trimEnd (s ++ t) = s ++ trimEnd t := by
  have hne : (t.reverse.dropWhile isBlank).isEmpty = false := by
    rw [List.isEmpty_eq_false_iff, ne_eq, List.dropWhile_eq_nil_iff]
    intro hall
    rw [allBlank, List.all_eq_false] at ht
    obtain ⟨c, hc, hblank⟩ := ht
    exact hblank (hall c (List.mem_reverse.mpr hc))
  rw [trimEnd, trimEnd, List.reverse_append, List.dropWhile_append,
    hne, if_neg Bool.false_ne_true, List.reverse_append, List.reverse_reverse]

/-- What is cut off are blanks. -/
theorem exists_trimEnd (t : Text) : ∃ blanks, allBlank blanks = true ∧ t = trimEnd t ++ blanks := by
  refine ⟨t.rtakeWhile isBlank, ?_, List.rdropWhile_append_rtakeWhile.symm⟩
  rw [allBlank, List.all_eq_true]
  intro c hc
  exact List.mem_rtakeWhile_imp hc

theorem prefix_trimEnd (h : s <+: t) : trimEnd s <+: trimEnd t := by
  obtain ⟨u, rfl⟩ := h
  cases hu : allBlank u with
  | true => exact ⟨[], by rw [List.append_nil, trimEnd_append_of_allBlank hu]⟩
  | false =>
    rw [trimEnd_append_of_not_allBlank hu]
    exact (List.rdropWhile_prefix isBlank s).trans (List.prefix_append ..)

end Text

open Text

/-- Whether a token is written as blanks. -/
def Token.IsBlank : Token → Prop
  | .seed t | .clause t => allBlank t = true
  | .boost _ | .connective _ | .opening | .closing => False

/-! ## Drafts that went apart -/

namespace Draft

variable {d d' : Draft}

/-- Whether two drafts end alike and not only in blanks, behind texts of different lengths. -/
def Apart (d d' : Draft) : Prop :=
  ∃ (s s' : Text) (shared : Draft), d = shared.behind ⟨s, 0⟩ ∧ d' = shared.behind ⟨s', 0⟩ ∧
    s.length ≠ s'.length ∧ allBlank shared.text = false

theorem apart_append {s s' t : Text} (hs : s.length ≠ s'.length) (ht : allBlank t = false)
    (depth : Nat) : Apart ⟨s ++ t, depth⟩ ⟨s' ++ t, depth⟩ :=
  ⟨s, s', ⟨t, depth⟩, by simp [behind], by simp [behind], hs, ht⟩

theorem Apart.write (h : Apart d d') (t : Token) : Apart (d.write t) (d'.write t) := by
  obtain ⟨s, s', shared, rfl, rfl, hs, hblank⟩ := h
  have hne : shared.text ≠ [] := by
    intro hnil
    rw [hnil] at hblank
    cases hblank
  refine ⟨s, s', shared.write t, write_behind hne (.inl rfl) t, write_behind hne (.inl rfl) t, hs,
    ?_⟩
  obtain ⟨more, hmore⟩ := prefix_write shared t
  rw [← hmore, allBlank_append, Bool.and_eq_false_iff]
  exact .inl hblank

theorem Apart.writeAll (h : Apart d d') (ts : List Token) :
    Apart (d.writeAll ts) (d'.writeAll ts) := by
  induction ts generalizing d d' with
  | nil => exact h
  | cons t ts ih => exact ih (h.write t)

theorem Apart.trimEnd_ne (h : Apart d d') : trimEnd d.text ≠ trimEnd d'.text := by
  obtain ⟨s, s', shared, rfl, rfl, hs, hblank⟩ := h
  rw [behind, behind, trimEnd_append_of_not_allBlank hblank, trimEnd_append_of_not_allBlank hblank]
  intro heq
  exact hs (congrArg List.length (List.append_cancel_right heq))

/-! ## Blanks cut off -/

variable {s blanks : Text}

theorem spaced_spaced (t : Text) : spaced (spaced t) = spaced t := by
  rcases spaced_cases t with h | h
  · rw [h, h]
  · rw [h, spaced, List.getLast?_concat]
    rfl

/-- A connective puts as many blanks behind a text as behind that text with more blanks only if the
others are the one that it puts there. -/
theorem length_spaced_ne (hb : allBlank blanks = true) (hne : blanks ≠ [])
    (hs : spaced s ≠ s ++ blanks) : (spaced s).length ≠ (spaced (s ++ blanks)).length := by
  intro hlen
  have hpos := List.length_pos_iff.mpr hne
  have hle := (prefix_spaced blanks).length_le
  rw [spaced_append hne, List.length_append] at hlen
  rcases spaced_cases s with hspaced | hspaced
  · rw [hspaced] at hlen
    omega
  · -- there is one blank then, and it keeps a connective from putting another one behind it
    rw [hspaced, List.length_append, List.length_singleton] at hlen
    obtain ⟨c, rfl⟩ := List.length_eq_one_iff.mp (show blanks.length = 1 by omega)
    have hc : c ≠ ' ' := by
      rintro rfl
      exact hs hspaced
    have hparen : c ≠ '(' := by
      rintro rfl
      cases hb
    have hmore : spaced [c] = [c] ++ [' '] := by
      rw [spaced]
      split
      · next h => cases h
      · next h => exact absurd (Option.some.inj h) hparen
      · next h => exact absurd (Option.some.inj h) hc
      · rfl
    rw [hmore] at hlen
    simp at hlen

/-- The first token that is more than blanks puts two drafts apart for good. -/
theorem apart_write {more : Text} {t : Token} (hb : allBlank blanks = true) (hne : blanks ≠ [])
    (ht : ¬ t.IsBlank)
    (hs : more ≠ [] ∨ (∀ c, t ≠ .connective c) ∨ spaced s ≠ s ++ blanks) :
    Apart (write ⟨s ++ more, 0⟩ t) (write ⟨s ++ blanks ++ more, 0⟩ t) := by
  have hpos := List.length_pos_iff.mpr hne
  have hlen : (s ++ more).length ≠ (s ++ blanks ++ more).length := by
    simp only [List.length_append]
    omega
  cases t with
  | seed text | clause text =>
    exact apart_append hlen (by simpa [Token.IsBlank] using ht) 0
  | boost factor => exact apart_append (t := '^' :: factor) hlen rfl 0
  | opening => exact apart_append (t := ['(']) hlen rfl 1
  | closing => exact apart_append (t := [')']) hlen rfl 0
  | connective c =>
    have hword : allBlank (c.word ++ [' ']) = false := by cases c <;> rfl
    have hspaced : (spaced (s ++ more)).length ≠ (spaced (s ++ blanks ++ more)).length := by
      by_cases hmore : more = []
      · subst hmore
        rw [List.append_nil, List.append_nil]
        apply length_spaced_ne hb hne
        exact (hs.resolve_left fun h => h rfl).resolve_left fun h => h c rfl
      · rw [spaced_append hmore, spaced_append hmore]
        simp only [List.length_append]
        omega
    simp only [write, List.append_assoc _ c.word]
    exact apart_append hspaced hword 0

/-- Drafts of which one has more blanks at its end go apart behind tokens, unless these are blank or
a connective stands first and puts the blanks there. -/
theorem apart_writeAll {ts : List Token} (more : Text) (hb : allBlank blanks = true)
    (hne : blanks ≠ []) (htext : ∀ t ∈ ts, t.HasText) (ht : ¬ ∀ t ∈ ts, t.IsBlank)
    (hs : more ≠ [] ∨ (∀ c, ts.head? ≠ some (.connective c)) ∨ spaced s ≠ s ++ blanks) :
    Apart (writeAll ⟨s ++ more, 0⟩ ts) (writeAll ⟨s ++ blanks ++ more, 0⟩ ts) := by
  induction ts generalizing more with
  | nil => exact absurd (fun _ h => nomatch h) ht
  | cons t ts ih =>
    rw [List.forall_mem_cons] at htext ht
    by_cases hblank : t.IsBlank
    · -- the blanks of the token stand behind the others
      have hrest : ¬ ∀ t ∈ ts, t.IsBlank := fun h => ht ⟨hblank, h⟩
      cases t with
      | seed text | clause text =>
        have hmore : more ++ text ≠ [] := fun h => htext.1 (List.append_eq_nil_iff.mp h).2
        have happart := ih (more ++ text) htext.2 hrest (.inl hmore)
        simpa only [writeAll_cons, write, List.append_assoc] using happart
      | boost _ | connective _ | opening | closing => exact hblank.elim
    · refine (apart_write hb hne hblank ?_).writeAll ts
      refine hs.imp_right (Or.imp_left ?_)
      rintro hhead c rfl
      exact hhead c rfl

theorem exists_writeAll_blank {ts : List Token} (h : ∀ t ∈ ts, t.IsBlank) :
    ∃ more, allBlank more = true ∧ ∀ d : Draft, d.writeAll ts = ⟨d.text ++ more, d.depth⟩ := by
  induction ts with
  | nil => exact ⟨[], rfl, fun d => by rw [List.append_nil]; rfl⟩
  | cons t ts ih =>
    rw [List.forall_mem_cons] at h
    obtain ⟨more, hmore, hwrite⟩ := ih h.2
    cases t with
    | seed text | clause text =>
      refine ⟨text ++ more, ?_, ?_⟩
      · rw [allBlank_append]
        exact Bool.and_eq_true_iff.mpr ⟨h.1, hmore⟩
      · intro d
        rw [writeAll_cons, hwrite, write, List.append_assoc]
    | boost _ | connective _ | opening | closing => exact h.1.elim

/-- **Blanks that are cut off** are missed behind all that is written next, up to blanks at the end,
unless that is only blanks, or a connective stands first and puts them there. -/
theorem trimEnd_writeAll_iff {ts : List Token} (hb : allBlank blanks = true)
    (htext : ∀ t ∈ ts, t.HasText) :
    trimEnd (writeAll ⟨s, 0⟩ ts).text = trimEnd (writeAll ⟨s ++ blanks, 0⟩ ts).text ↔
      s ++ blanks = s ∨ (∀ t ∈ ts, t.IsBlank) ∨
        (∃ c, ts.head? = some (.connective c)) ∧ spaced s = s ++ blanks := by
  constructor
  · intro heq
    by_contra hnone
    obtain ⟨hcut, hblank, hjoin⟩ : s ++ blanks ≠ s ∧ (¬ ∀ t ∈ ts, t.IsBlank) ∧
        ¬ ((∃ c, ts.head? = some (.connective c)) ∧ spaced s = s ++ blanks) := by
      simpa only [not_or] using hnone
    have hne : blanks ≠ [] := by
      rintro rfl
      exact hcut (List.append_nil s)
    have hfirst : (∀ c, ts.head? ≠ some (.connective c)) ∨ spaced s ≠ s ++ blanks := by
      rwa [not_and_or, not_exists] at hjoin
    have happart := apart_writeAll [] hb hne htext hblank (.inr hfirst)
    rw [List.append_nil, List.append_nil] at happart
    exact happart.trimEnd_ne heq
  · rintro (hcut | hblank | ⟨⟨c, hc⟩, hspaced⟩)
    · rw [hcut]
    · obtain ⟨more, hmore, hwrite⟩ := exists_writeAll_blank hblank
      rw [hwrite, hwrite, trimEnd_append_of_allBlank hmore, trimEnd_append_of_allBlank hmore,
        trimEnd_append_of_allBlank hb]
    · obtain ⟨rest, rfl⟩ := List.head?_eq_some_iff.mp hc
      have hagain : spaced (s ++ blanks) = s ++ blanks := by rw [← hspaced, spaced_spaced]
      simp only [writeAll_cons, write, hspaced, hagain]

end Draft

/-! ## Finishing without a removal -/

open Prune

/-- A step takes out a connective or a group. -/
theorem Prune.dropped_or_groups_of_stepFrom {α : Type} {before ts : List (Token × α)} {p : Pruned α}
    (h : stepFrom before ts = some p) : p.dropped ≠ [] ∨ p.groups ≠ 0 := by
  fun_induction stepFrom before ts with
  | case1 => cases h
  | case2 before _ _ rest =>
    obtain rfl := Option.some.inj h
    right
    rw [removeGroup.eq_def]
    split <;> exact Nat.one_ne_zero
  | case3 before c mark rest hd =>
    obtain rfl := Option.some.inj h
    exact .inl (List.cons_ne_nil _ _)
  | case4 before c mark rest hd ih => exact ih h
  | case5 before t rest _ _ ih => exact ih h

/-- Pruning that tells of nothing took nothing out. -/
theorem kept_prune_of_nothing {α : Type} {ts : List (Token × α)} (hd : (prune ts).dropped = [])
    (hg : (prune ts).groups = 0) : (prune ts).kept = ts := by
  cases hstep : step? ts with
  | none => rw [prune_of_step_eq_none hstep]
  | some p =>
    rw [prune_of_step_eq_some hstep] at hd hg
    rcases dropped_or_groups_of_stepFrom hstep with hp | hp
    · exact absurd (List.append_eq_nil_iff.mp hd).1 hp
    · exact absurd (Nat.add_eq_zero_iff.mp hg).1 hp

/-- Trimming that tells of nothing cuts blanks off only. -/
theorem Seed.fst_trim_of_nothing {seed : Text} (h : (trim seed).2 = []) :
    (trim seed).1 = trimEnd seed := by
  rw [trim, trimBack] at h ⊢
  dsimp only at h ⊢
  split at h
  · rfl
  · exact absurd (List.append_eq_nil_iff.mp h).2 (List.cons_ne_nil _ _)

namespace Builder

variable {b held : Builder}

/-- Finishing that tells of nothing leaves the text that the tokens are written as, up to blanks at
the end. -/
theorem trimEnd_render_clean {ts : List Token} (hd : (clean ts).dropped = [])
    (hg : (clean ts).groups = 0) :
    trimEnd (Draft.render (clean ts).tokens) = trimEnd (Draft.render ts) := by
  have hkept (hpd : (prune ts.zipIdx).dropped = []) (hpg : (prune ts.zipIdx).groups = 0) :
      (prune ts.zipIdx).tokens = ts := by
    rw [Pruned.tokens, kept_prune_of_nothing hpd hpg, List.zipIdx_map_fst]
  obtain ⟨seed, place, hseed, hc⟩ | ⟨-, hc⟩ := clean_cases ts
  · rw [hc] at hd hg
    obtain ⟨hpd, hcut⟩ := List.append_eq_nil_iff.mp hd
    have hts := hkept hpd hg
    rw [Pruned.tokens, hseed] at hts
    have htrim := Seed.trimEnd_trim seed
    rw [hc, ← hts, Pruned.tokens]
    dsimp only
    split
    · next hnil =>
      rw [Seed.fst_trim_of_nothing hcut] at hnil
      exact hnil.symm
    · change trimEnd (Seed.trim seed).1 = trimEnd seed
      rw [htrim, Seed.fst_trim_of_nothing hcut]
  · rw [hc] at hd hg ⊢
    rw [hkept hd hg]

/-- Finishing that tells of nothing goes on from what the tokens are written as. -/
theorem prefix_text_finish (h : ∀ n cs, .removed n cs ∉ b.finish.2) :
    trimEnd (Draft.render b.tokens) <+: b.finish.1.text := by
  have hnothing : ¬ ∃ n cs, Warning.removed n cs ∈ b.finish.2 := by simpa using h
  rw [exists_mem_finish_iff, not_or, not_not, not_not] at hnothing
  obtain ⟨us, hus⟩ := exists_closedTokens_onto b
  have hclosed : b.closedTokens = b.tokens ++ us := hus b.tokens
  change _ <+: trimEnd (Draft.render (clean b.closedTokens).tokens)
  rw [trimEnd_render_clean hnothing.1 hnothing.2, hclosed, Draft.render, Draft.render,
    Draft.writeAll_append]
  exact prefix_trimEnd (Draft.prefix_writeAll _ us)

/-! ## Between two finishings -/

/-- Whether a call is an edit. -/
def Call.isEdit : Call → Bool
  | .edit _ => true
  | .finish => false

/-- The builder as the last call that finishes it leaves it, or as the run finds it. -/
def lastFinished (b : Builder) (ks : List Call) : Builder := (b.run (ks.rdropWhile Call.isEdit)).1

theorem lastFinished_cases (b : Builder) (ks : List Call) :
    b.lastFinished ks = b ∨ ∃ front, b.lastFinished ks = (b.run front).1.finish.1 := by
  rw [lastFinished]
  rcases List.eq_nil_or_concat (ks.rdropWhile Call.isEdit) with hnil | ⟨front, k, hlast⟩
  · rw [hnil]
    exact .inl rfl
  · rw [List.concat_eq_append] at hlast
    have hne : ks.rdropWhile Call.isEdit ≠ [] := by simp [hlast]
    have hk : ¬ k.isEdit = true := by
      simpa [hlast] using List.rdropWhile_last_not Call.isEdit ks hne
    rw [hlast, run_append]
    cases k with
    | edit e => exact absurd rfl hk
    | finish => exact .inr ⟨front, rfl⟩

/-- Whether a builder was written from another one on, by edits. -/
def Continues (held b : Builder) : Prop :=
  ∃ us, b.tokens = held.tokens ++ us ∧ b.draft = held.draft.writeAll us

theorem Continues.append (h : Continues held b) (t : Token) : Continues held (b.append t) := by
  obtain ⟨us, htokens, hdraft⟩ := h
  refine ⟨us ++ [t], ?_, ?_⟩
  · rw [Builder.append, htokens, List.append_assoc]
  · rw [Builder.append, hdraft, Draft.writeAll_append]
    rfl

theorem Continues.commit (h : Continues held b) (lead : Text) : Continues held (b.commit lead) := by
  have hs : Continues held b.settled := h
  rcases commit_eq b lead with hc | ⟨t, -, hc⟩
  · rwa [hc]
  · rw [hc]
    exact hs.append _

theorem Continues.step (h : Continues held b) (e : Edit) : Continues held (b.step e).1 := by
  cases he : b.edit e with
  | ok next =>
    rw [step_of_ok he]
    obtain ⟨_, _, rfl⟩ | ⟨-, lead, rfl⟩ | ⟨t, rfl, -, -⟩ := edit_cases he
    · exact h
    · exact h.commit lead
    · exact (h.commit []).append t
  | error m =>
    rw [step_of_error he]
    exact h

theorem Continues.run (h : Continues held b) {ks : List Call} (hks : ∀ k ∈ ks, k.isEdit = true) :
    Continues held (b.run ks).1 := by
  induction ks generalizing b with
  | nil => exact h
  | cons k ks ih =>
    rw [List.forall_mem_cons] at hks
    cases k with
    | edit e => exact ih (h.step e) hks.2
    | finish => cases hks.1

theorem continues_lastFinished (b : Builder) (ks : List Call) :
    Continues (b.lastFinished ks) (b.run ks).1 := by
  have hstart : Continues (b.lastFinished ks) (b.lastFinished ks) :=
    ⟨[], (List.append_nil _).symm, rfl⟩
  have hedits : ∀ k ∈ ks.rtakeWhile Call.isEdit, k.isEdit = true :=
    fun _ hk => List.mem_rtakeWhile_imp hk
  have hsplit := congrArg Prod.fst (run_append b (ks.rdropWhile Call.isEdit)
    (ks.rtakeWhile Call.isEdit))
  rw [List.rdropWhile_append_rtakeWhile] at hsplit
  rw [hsplit]
  exact hstart.run hedits

/-- Whether tokens are written as the text, up to blanks that were cut off its end, with no group
open. -/
def IsCut (b : Builder) : Prop :=
  ∃ blanks, allBlank blanks = true ∧ Draft.empty.writeAll b.tokens = ⟨b.text ++ blanks, 0⟩ ∧
    b.openGroups = 0

theorem isCut_ofSeed (seed : Text) : (ofSeed seed).IsCut := by
  refine ⟨[], rfl, ?_, rfl⟩
  rw [List.append_nil, ofSeed]
  split
  · next h => rw [h]; rfl
  · rfl

theorem isCut_finish (h : b.IsSound) : b.finish.1.IsCut := by
  obtain ⟨blanks, hblank, htext⟩ := exists_trimEnd (Draft.render b.finish.1.tokens)
  have hdepth : (Draft.empty.writeAll b.finish.1.tokens).depth = 0 :=
    Draft.depth_writeAll (isSound_finish h).nested
  refine ⟨blanks, hblank, ?_, rfl⟩
  change _ = (⟨trimEnd (Draft.render b.finish.1.tokens) ++ blanks, 0⟩ : Draft)
  rw [← htext, ← hdepth]
  rfl

theorem isCut_lastFinished (seed : Text) (ks : List Call) :
    ((ofSeed seed).lastFinished ks).IsCut := by
  obtain h | ⟨front, h⟩ := lastFinished_cases (ofSeed seed) ks
  · rw [h]
    exact isCut_ofSeed seed
  · rw [h]
    exact isCut_finish (isSound_run seed front)

/-- **The text and the tokens** of a builder agree up to blanks at the end exactly if the last
finishing cut nothing off, or only blanks were written since, or a connective stands first that puts
back what was cut off. As long as they agree, finishing changes nothing of the text that it does not
tell of. -/
theorem text_agrees_iff (seed : Text) (ks : List Call) :
    let b := ((ofSeed seed).run ks).1
    let held := (ofSeed seed).lastFinished ks
    let since := b.tokens.drop held.tokens.length
    (trimEnd b.text = trimEnd (Draft.render b.tokens) ↔
      Draft.render held.tokens = held.text ∨ (∀ t ∈ since, t.IsBlank) ∨
        (∃ c, since.head? = some (.connective c)) ∧
          Draft.spaced held.text = Draft.render held.tokens) ∧
    (trimEnd b.text = trimEnd (Draft.render b.tokens) →
      (∀ n cs, .removed n cs ∉ b.finish.2) → trimEnd b.text <+: b.finish.1.text) := by
  intro b held since
  obtain ⟨us, htokens, hdraft⟩ := continues_lastFinished (ofSeed seed) ks
  obtain ⟨blanks, hblank, hwritten, hopen⟩ := isCut_lastFinished seed ks
  have hsince : since = us := by
    change b.tokens.drop held.tokens.length = us
    rw [htokens, List.drop_left]
  have hrender : Draft.render held.tokens = held.text ++ blanks := congrArg Draft.text hwritten
  refine ⟨?_, ?_⟩
  · have htext : ∀ t ∈ us, t.HasText := by
      intro t ht
      apply (isSound_run seed ks).written
      rw [htokens]
      exact List.mem_append_right _ ht
    have hb : b.text = (Draft.writeAll ⟨held.text, 0⟩ us).text := by
      rw [text, hdraft, ← hopen]
      rfl
    have hts : Draft.render b.tokens = (Draft.writeAll ⟨held.text ++ blanks, 0⟩ us).text := by
      rw [htokens, Draft.render, Draft.writeAll_append, hwritten]
    rw [hb, hts, hsince, hrender]
    exact Draft.trimEnd_writeAll_iff hblank htext
  · intro hagree hnothing
    rw [hagree]
    exact prefix_text_finish hnothing

/-- A boost behind an empty term is shown right behind the other term, and finishing takes it away
from there without a word. -/
theorem boost_shown_elsewhere :
    let b := ((ofSeed []).run [.edit (.terms [.text ['a'], .text []]), .finish,
      .edit (.boost (.int 2))]).1
    b.text = "a^2".toList ∧ Draft.render b.tokens = "a ^2".toList ∧
      trimEnd b.text ≠ trimEnd (Draft.render b.tokens) ∧
      b.finish.1.text = "a ^2".toList ∧ b.finish.2.isEmpty = true := by
  decide +kernel

end Builder

end PortalSearch
