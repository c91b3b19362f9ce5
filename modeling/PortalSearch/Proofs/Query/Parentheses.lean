import PortalSearch.Proofs.Query.Written

/-!
# Parentheses

A builder counts the groups that are open, but it is the text that a reader gets. If nothing that a
caller hands over holds a parenthesis, every parenthesis of the text is the start or the end of a
group, so the two agree: no prefix of the text ends more groups than it starts, and the groups that
are open at its end are those that are counted.

The seed of a clone is the one text that does hold parentheses. It is the text of a finished query,
and all that is needed of a text is that its parentheses match each other. They still do when the
end of a seed is trimmed, as neither blanks nor connectives are written with parentheses.

Main result: the parentheses of the text match the groups that are open in every state, and after
finishing all of them are closed (`isNested_proceed`).
-/

namespace PortalSearch

/-! ## Parentheses of a text -/

namespace Text

/-- How many parentheses are open behind a character; nothing if it closes one that is not open. -/
def levelBehind (depth : Nat) (c : Char) : Option Nat :=
  if c = '(' then some (depth + 1)
  else if c = ')' then if depth = 0 then none else some (depth - 1)
  else some depth

/-- How many parentheses are open behind a text. -/
def level (depth : Nat) : Text → Option Nat
  | [] => some depth
  | c :: t => (levelBehind depth c).bind fun d => level d t

/-- Whether there is no parenthesis. -/
def IsFlat (t : Text) : Prop := ∀ c ∈ t, c ≠ '(' ∧ c ≠ ')'

instance (t : Text) : Decidable t.IsFlat :=
  decidable_of_iff ((t.all fun c => c != '(' && c != ')') = true) (by simp [IsFlat])

/-- Whether the parentheses match each other. -/
def IsBalanced (t : Text) : Prop := level 0 t = some 0

/-- Whether no prefix closes more parentheses than it opens, and `n` are open at the end. -/
structure IsNested (t : Text) (n : Nat) : Prop where
  /-- every parenthesis is opened before it is closed -/
  opened : ∀ front, front <+: t → front.count ')' ≤ front.count '('
  /-- those that are not closed -/
  remaining : t.count '(' = t.count ')' + n

variable {depth n : Nat} {s t : Text}

theorem level_append (depth : Nat) (s t : Text) :
    level depth (s ++ t) = (level depth s).bind fun d => level d t := by
  induction s generalizing depth with
  | nil => rfl
  | cons c s ih =>
    rw [List.cons_append, level, level, Option.bind_assoc]
    exact Option.bind_congr fun d _ => ih d

/-- What is balanced or not stays so inside other parentheses. -/
theorem level_add (h : level depth t = some n) (k : Nat) : level (depth + k) t = some (n + k) := by
  induction t generalizing depth with
  | nil => rw [Option.some.inj h]; rfl
  | cons c t ih =>
    obtain ⟨m, hm, ht⟩ := Option.bind_eq_some_iff.mp h
    have hk : levelBehind (depth + k) c = some (m + k) := by
      rw [levelBehind] at hm ⊢
      split_ifs at hm ⊢ <;> simp at hm ⊢ <;> omega
    rw [level, hk]
    exact ih ht

theorem level_count (h : level depth t = some n) : depth + t.count '(' = n + t.count ')' := by
  induction t generalizing depth with
  | nil => rw [Option.some.inj h]; rfl
  | cons c t ih =>
    obtain ⟨m, hm, ht⟩ := Option.bind_eq_some_iff.mp h
    have hrest := ih ht
    rw [levelBehind] at hm
    rw [List.count_cons, List.count_cons]
    split_ifs at hm with hopen hclose hzero
    · subst hopen
      simp at hm ⊢
      omega
    · subst hclose
      simp at hm ⊢
      omega
    · simp [hopen, hclose] at hm ⊢
      omega

/-- **The level of a text** tells how its parentheses nest. -/
theorem isNested_of_level (h : level 0 t = some n) : t.IsNested n := by
  refine ⟨?_, ?_⟩
  · rintro front ⟨rest, rfl⟩
    rw [level_append] at h
    obtain ⟨m, hm, -⟩ := Option.bind_eq_some_iff.mp h
    have hcount := level_count hm
    omega
  · have hcount := level_count h
    omega

theorem IsFlat.append (hs : s.IsFlat) (ht : t.IsFlat) : IsFlat (s ++ t) :=
  List.forall_mem_append.mpr ⟨hs, ht⟩

theorem IsFlat.level (h : t.IsFlat) (depth : Nat) : level depth t = some depth := by
  induction t with
  | nil => rfl
  | cons c t ih =>
    obtain ⟨⟨hopen, hclose⟩, ht⟩ := List.forall_mem_cons.mp h
    rw [Text.level, levelBehind, if_neg hopen, if_neg hclose]
    exact ih ht

theorem IsFlat.isBalanced (h : t.IsFlat) : t.IsBalanced := h.level 0

theorem IsBalanced.level (h : t.IsBalanced) (depth : Nat) : level depth t = some depth := by
  simpa using level_add h depth

theorem level_append_of_isFlat (ht : t.IsFlat) (depth : Nat) (s : Text) :
    level depth (s ++ t) = level depth s := by
  rw [level_append]
  cases level depth s with
  | none => rfl
  | some d => exact ht.level d

theorem isFlat_of_allBlank (h : allBlank t = true) : t.IsFlat := by
  intro c hc
  have hblank := List.all_eq_true.mp h c hc
  constructor
  · rintro rfl
    cases hblank
  · rintro rfl
    cases hblank

/-- Blanks at the end are outside of all parentheses. -/
theorem level_trimEnd (t : Text) : level 0 (trimEnd t) = level 0 t := by
  obtain ⟨blanks, hblank, ht⟩ := exists_trimEnd t
  conv_rhs => rw [ht, level_append_of_isFlat (isFlat_of_allBlank hblank)]

end Text

open Text

theorem Connective.isFlat_word (c : Connective) : c.word.IsFlat := by cases c <;> decide

/-- A seed is balanced without its end as well. -/
theorem Seed.isBalanced_trim {seed : Text} (h : seed.IsBalanced) : (trim seed).1.IsBalanced := by
  obtain ⟨tail, htail, hcut⟩ := exists_trim seed
  have hflat : tail.IsFlat := by
    intro d hd
    rcases hcut d hd with hblank | ⟨c, hc⟩
    · exact isFlat_of_allBlank (t := [d]) (by simpa [allBlank] using hblank) d (by simp)
    · exact c.isFlat_word d hc
  rwa [htail, IsBalanced, level_append_of_isFlat hflat] at h

/-- Whether the parentheses in the text of a token match each other. -/
def Token.IsBalanced : Token → Prop
  | .seed t | .clause t | .boost t => t.IsBalanced
  | .connective _ | .opening | .closing => True

/-! ## Parentheses of tokens -/

namespace Draft

variable {d : Draft} {n : Nat}

/-- A blank in front of a connective or a group changes no level. -/
theorem level_blank {s t : Text} (h : s = t ∨ s = t ++ [' ']) (depth : Nat) :
    level depth s = level depth t := by
  rcases h with rfl | rfl
  · rfl
  · exact level_append_of_isFlat (by decide) depth t

/-- **A token takes the text** to the level that it takes the groups to. -/
theorem level_write (hd : level 0 d.text = some d.depth) {t : Token} (ht : t.IsBalanced)
    (hn : t.nest d.depth = some n) : level 0 (d.write t).text = some n := by
  cases t with
  | seed text | clause text =>
    obtain rfl := Option.some.inj hn
    rw [write, level_append, hd]
    exact ht.level d.depth
  | boost factor =>
    obtain rfl := Option.some.inj hn
    rw [write, level_append, hd]
    exact ht.level d.depth
  | connective c =>
    obtain rfl := Option.some.inj hn
    have hflat : IsFlat (c.word ++ [' ']) := c.isFlat_word.append (by decide)
    rw [write, List.append_assoc, level_append, level_blank (spaced_cases d.text), hd]
    exact hflat.level d.depth
  | opening =>
    obtain rfl := Option.some.inj hn
    rw [write, level_append, level_blank (t := d.text) (by split <;> simp), hd]
    rfl
  | closing =>
    rw [write, level_append, hd]
    simpa [level, levelBehind, Token.nest] using hn

theorem level_writeAll {ts : List Token} (hd : level 0 d.text = some d.depth)
    (hts : ∀ t ∈ ts, t.IsBalanced) (hn : nest d.depth ts = some n) :
    level 0 (d.writeAll ts).text = some n := by
  induction ts generalizing d with
  | nil => exact hd.trans hn
  | cons t ts ih =>
    rw [List.forall_mem_cons] at hts
    obtain ⟨m, hm, ht⟩ := Option.bind_eq_some_iff.mp hn
    have hone : nest d.depth [t] = some m := Option.bind_eq_some_iff.mpr ⟨m, hm, rfl⟩
    have hdepth : (d.write t).depth = m := depth_writeAll hone
    apply ih _ hts.2 (hdepth ▸ ht)
    rw [hdepth]
    exact level_write hd hts.1 hm

end Draft

namespace Term

theorem isFlat_range {lower upper : Value} (hl : (text lower).IsFlat) (hu : (text upper).IsFlat) :
    (range lower upper).IsFlat := by
  have hopen : IsFlat ['['] := by decide
  have hto : IsFlat " TO ".toList := by decide
  have hclose : IsFlat [']'] := by decide
  exact (((hopen.append hl).append hto).append hu).append hclose

theorem isFlat_series {vs : List Value} (h : ∀ v ∈ vs, (text v).IsFlat) : (series vs).IsFlat := by
  have hblank : IsFlat [' '] := by decide
  refine forall_mem_intercalate hblank fun p hp => ?_
  obtain ⟨v, hv, rfl⟩ := List.mem_map.mp hp
  exact h v hv

end Term

/-! ## Every state -/

/-- Whether an edit brings no parenthesis but that of a group. -/
def Edit.IsFlat : Edit → Prop
  | .terms vs => ∀ v ∈ vs, (Term.text v).IsFlat
  | .field name => ∀ f ∈ name, Text.IsFlat f
  | .bound _ v => (Term.text v).IsFlat
  | .boost factor => factor.toText.IsFlat
  | .startGroup | .endGroup | .connect _ => True

namespace Builder

variable {b : Builder}

/-- What one can go on with from a builder. -/
inductive Move where
  /-- the builder, behind a call -/
  | call (k : Call)
  /-- a clone of it -/
  | clone

/-- Whether going on brings no parenthesis but those of groups. -/
def Move.IsFlat : Move → Prop
  | .call (.edit e) => e.IsFlat
  | .call .finish | .clone => True

/-- The builder to go on with. -/
def move (b : Builder) : Move → Builder
  | .call k => (b.call k).1
  | .clone => b.clone

/-- The builder after several moves. -/
def proceed (b : Builder) (ms : List Move) : Builder := ms.foldl move b

/-- Whether the parentheses of the text match the groups, and all that is left to write is flat. -/
structure IsLevel (b : Builder) : Prop extends IsSound b where
  /-- as many parentheses as groups are open -/
  level : Text.level 0 b.text = some b.openGroups
  /-- so it is when the text is written once more -/
  balanced : ∀ t ∈ b.tokens, t.IsBalanced
  /-- pending terms have no parentheses -/
  terms : ∀ v ∈ b.terms, (Term.text v).IsFlat
  /-- nor has the lower end of a range -/
  lower : ∀ v ∈ b.lower, (Term.text v).IsFlat
  /-- nor has the upper one -/
  upper : ∀ v ∈ b.upper, (Term.text v).IsFlat

theorem isLevel_ofSeed {seed : Text} (h : seed.IsBalanced) : (ofSeed seed).IsLevel := by
  refine ⟨isSound_ofSeed seed, h, ?_, nofun, nofun, nofun⟩
  intro t ht
  rw [ofSeed] at ht
  split at ht
  · cases ht
  · obtain rfl := List.mem_singleton.mp ht
    exact h

/-! ### Edits -/

theorem IsLevel.isFlat_clauseText (h : b.IsLevel) : b.clauseText.IsFlat := by
  refine IsFlat.append ?_ (Term.isFlat_series h.terms)
  rw [rangeText]
  split
  · next hl hu => exact Term.isFlat_range (h.lower _ hl) (h.upper _ hu)
  · exact List.forall_mem_nil _

theorem IsLevel.append (h : b.IsLevel) {t : Token} (ht : t.HasText) (hb : t.IsBalanced)
    (hn : (t.nest b.openGroups).isSome = true) : (b.append t).IsLevel := by
  have hsound := h.toIsSound.append ht hn
  have hnest : t.nest b.openGroups = some (b.append t).openGroups := by
    have hall : nest 0 (b.tokens ++ [t]) = some (b.append t).openGroups := hsound.nested
    rwa [nest_concat, h.nested] at hall
  refine ⟨hsound, Draft.level_write h.level hb hnest, ?_, h.terms, h.lower, h.upper⟩
  exact List.forall_mem_append.mpr ⟨h.balanced, List.forall_mem_singleton.mpr hb⟩

theorem IsLevel.settled (h : b.IsLevel) : b.settled.IsLevel := by
  refine ⟨⟨h.nested, h.written⟩, h.level, h.balanced, nofun, ?_, ?_⟩
  · intro v hv
    rw [Builder.settled] at hv
    split at hv
    · cases hv
    · exact h.lower v hv
  · intro v hv
    rw [Builder.settled] at hv
    split at hv
    · cases hv
    · exact h.upper v hv

theorem IsLevel.commit (h : b.IsLevel) {lead : Text} (hlead : lead.IsFlat) :
    (b.commit lead).IsLevel := by
  rw [Builder.commit]
  split
  · exact h.settled
  · next hne =>
    refine h.settled.append ?_ (hlead.append h.isFlat_clauseText).isBalanced rfl
    exact fun hnil => hne (List.append_eq_nil_iff.mp hnil).2

/-- What is pending, and then one token. -/
theorem IsLevel.mark (h : b.IsLevel) {t : Token} (ht : t.HasText) (hb : t.IsBalanced)
    (hn : (t.nest b.openGroups).isSome = true) : ((b.commit []).append t).IsLevel :=
  (h.commit (by decide)).append ht hb (by rwa [commit_openGroups])

theorem isFlat_fieldLead {name : Option Text} (h : ∀ f ∈ name, f.IsFlat) :
    (fieldLead name).IsFlat := by
  rw [fieldLead.eq_def]
  split
  · decide
  · decide
  · next field _ =>
    split
    · decide
    · exact (h field rfl).append (by decide)

theorem isFlat_boundOf {v : Value} (h : (Term.text v).IsFlat) :
    ∀ w ∈ boundOf v, (Term.text w).IsFlat := by
  intro w hw
  rw [boundOf_eq_some (Option.isSome_of_mem hw)] at hw
  obtain rfl := Option.some.inj hw
  exact h

theorem IsLevel.edit (h : b.IsLevel) {e : Edit} (hflat : e.IsFlat) {next : Builder}
    (he : b.edit e = .ok next) : next.IsLevel := by
  cases done_of_edit he with
  | terms vs _ =>
    exact ⟨⟨h.nested, h.written⟩, h.level, h.balanced,
      List.forall_mem_append.mpr ⟨h.terms, hflat⟩, h.lower, h.upper⟩
  | field name _ => exact h.commit (isFlat_fieldLead hflat)
  | lower v _ =>
    exact ⟨⟨h.nested, h.written⟩, h.level, h.balanced, h.terms, isFlat_boundOf hflat, h.upper⟩
  | upper v _ =>
    exact ⟨⟨h.nested, h.written⟩, h.level, h.balanced, h.terms, h.lower, isFlat_boundOf hflat⟩
  | startGroup => exact h.mark (t := .opening) trivial trivial rfl
  | endGroup ho =>
    refine h.mark (t := .closing) trivial trivial ?_
    rw [Token.nest, if_neg ho]
    rfl
  | connect c _ _ =>
    have hm := h.mark (t := .connective c) trivial trivial rfl
    exact ⟨⟨hm.nested, hm.written⟩, hm.level, hm.balanced, hm.terms, hm.lower, hm.upper⟩
  | boost factor _ => exact h.mark (t := .boost factor.toText) trivial hflat.isBalanced rfl

/-! ### Finishing -/

theorem balanced_clean {ts : List Token} (h : ∀ t ∈ ts, t.IsBalanced) :
    ∀ t ∈ (clean ts).tokens, t.IsBalanced := by
  intro t ht
  rcases mem_clean ht with ht | ⟨seed, hseed, -, rfl⟩
  · exact h t ht
  · exact Seed.isBalanced_trim (h _ hseed)

theorem IsLevel.finish (h : b.IsLevel) : b.finish.1.IsLevel := by
  have hsound := isSound_finish h.toIsSound
  have hbalanced : ∀ t ∈ b.finish.1.tokens, t.IsBalanced := by
    apply balanced_clean
    refine List.forall_mem_append.mpr ⟨(h.commit (by decide)).balanced, ?_⟩
    intro t ht
    rw [List.eq_of_mem_replicate ht]
    trivial
  refine ⟨hsound, ?_, hbalanced, nofun, nofun, nofun⟩
  change Text.level 0 (trimEnd (Draft.render b.finish.1.tokens)) = some 0
  rw [level_trimEnd]
  exact Draft.level_writeAll rfl hbalanced hsound.nested

/-! ### Moves -/

theorem IsLevel.move (h : b.IsLevel) {m : Move} (hflat : m.IsFlat) : (b.move m).IsLevel := by
  cases m with
  | clone => exact isLevel_ofSeed h.finish.level
  | call k =>
    cases k with
    | finish => exact h.finish
    | edit e =>
      change (b.step e).1.IsLevel
      cases he : b.edit e with
      | ok next =>
        rw [step_of_ok he]
        exact h.edit hflat he
      | error m =>
        rw [step_of_error he]
        exact h

theorem IsLevel.proceed (h : b.IsLevel) {ms : List Move} (hflat : ∀ m ∈ ms, m.IsFlat) :
    (b.proceed ms).IsLevel := by
  induction ms generalizing b with
  | nil => exact h
  | cons m ms ih =>
    rw [List.forall_mem_cons] at hflat
    exact ih (h.move hflat.1) hflat.2

/-- **Parentheses match** in the text of every builder that calls and clones lead to, and those that
are not closed are the groups that are open; finishing closes them. -/
theorem isNested_proceed {seed : Text} (hseed : seed.IsFlat) {ms : List Move}
    (hms : ∀ m ∈ ms, m.IsFlat) :
    let b := (ofSeed seed).proceed ms
    b.text.IsNested b.openGroups ∧ b.finish.1.text.IsNested 0 ∧ b.finish.1.openGroups = 0 := by
  intro b
  have h : b.IsLevel := (isLevel_ofSeed hseed.isBalanced).proceed hms
  exact ⟨isNested_of_level h.level, isNested_of_level h.finish.level, rfl⟩

/-- The groups of a clone are started behind those of its original. -/
theorem isNested_behind_group :
    let ms : List Move := [.call (.edit .startGroup), .call (.edit (.terms [.text ['a']])), .clone,
      .call (.edit (.connect .and)), .call (.edit .startGroup)]
    let b := (ofSeed []).proceed ms
    Text.IsFlat [] ∧ (∀ m ∈ ms, m.IsFlat) ∧ b.text = "(a) AND (".toList ∧ b.text.IsNested 1 := by
  intro ms b
  have hseed : Text.IsFlat [] := by decide
  have hterm : (Term.text (.text ['a'])).IsFlat := by decide
  have hms : ∀ m ∈ ms, m.IsFlat := by simp [ms, Move.IsFlat, Edit.IsFlat, hterm]
  have hopen : b.openGroups = 1 := by decide +kernel
  have hnested : b.text.IsNested b.openGroups := (isNested_proceed hseed hms).1
  rw [hopen] at hnested
  exact ⟨hseed, hms, by decide +kernel, hnested⟩

end Builder

end PortalSearch
