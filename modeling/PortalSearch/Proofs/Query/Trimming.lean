import PortalSearch.Proofs.Query.Clone
import PortalSearch.Proofs.Query.Mending
import PortalSearch.Proofs.Query.Normal
import PortalSearch.Proofs.Query.Written

/-!
# Trimming by searching

Trimming reads a seed from its end, word by word. One may search the seed instead for the first
place from which on it holds one connective among blanks, cut it off there, and search again until
nothing is found. The first place is in front of all the blanks that stand before the connective,
and what is cut off there does not reach into the word in front of them.

Main results: searching and cutting comes to trimming (`trims_iff`), and finishing a builder that
holds nothing but a seed leaves the seed up to the end of its last word that is no connective, and
names the words behind it (`finish_ofSeed`).
-/

namespace PortalSearch

/-- Whether a word is that of a connective. -/
def Connective.isWord (w : Text) : Bool := ["AND".toList, "OR".toList, "NOT".toList].contains w

theorem Connective.isWord_iff {w : Text} : isWord w = true ↔ ∃ c : Connective, c.word = w := by
  rw [isWord, List.contains_iff_mem]
  constructor
  · intro h
    simp only [List.mem_cons, List.not_mem_nil, or_false] at h
    obtain rfl | rfl | rfl := h
    · exact ⟨.and, rfl⟩
    · exact ⟨.or, rfl⟩
    · exact ⟨.not, rfl⟩
  · rintro ⟨c, rfl⟩
    cases c <;> decide

/-- A list is divided from its end where the end changes its kind. -/
theorem rsplit_append {α : Type} {p : α → Bool} {xs ys : List α}
    (hx : ∀ x, xs.getLast? = some x → p x = false) (hy : ∀ y ∈ ys, p y = true) :
    (xs ++ ys).rdropWhile p = xs ∧ (xs ++ ys).rtakeWhile p = ys := by
  induction ys using List.reverseRecOn with
  | nil =>
    have hlast (hne : xs ≠ []) : ¬ p (xs.getLast hne) = true := by
      rw [hx _ (List.getLast?_eq_some_getLast hne)]
      exact Bool.false_ne_true
    rw [List.append_nil]
    exact ⟨List.rdropWhile_eq_self_iff.mpr hlast, List.rtakeWhile_eq_nil_iff.mpr hlast⟩
  | append_singleton ys y ih =>
    obtain ⟨hys, hsingle⟩ := List.forall_mem_append.mp hy
    have hlast : p y = true := hsingle y (List.mem_singleton_self y)
    rw [← List.append_assoc, List.rdropWhile_concat_pos _ _ _ hlast,
      List.rtakeWhile_concat_pos _ _ _ hlast]
    exact ⟨(ih hys).1, congrArg (· ++ [y]) (ih hys).2⟩

theorem not_of_getLast?_rdropWhile {α : Type} {p : α → Bool} {xs : List α} {x : α}
    (h : (xs.rdropWhile p).getLast? = some x) : p x = false := by
  have hne : xs.rdropWhile p ≠ [] := by
    intro hnil
    rw [hnil] at h
    cases h
  rw [List.getLast?_eq_some_getLast hne, Option.some.injEq] at h
  rw [← h]
  exact Bool.not_eq_true _ ▸ List.rdropWhile_last_not p xs hne

open Text

namespace Seed

variable {text front : Text} {c : Connective}

/-! ## The last word -/

/-- The word that a text ends in. -/
def lastWord (text : Text) : Text := (trimEnd text).rtakeWhile fun x => !isBlank x

/-- What stands in front of the word that a text ends in. -/
def beforeLast (text : Text) : Text := (trimEnd text).rdropWhile fun x => !isBlank x

theorem beforeLast_append_lastWord (text : Text) :
    beforeLast text ++ lastWord text = trimEnd text :=
  List.rdropWhile_append_rtakeWhile

/-- Trimming goes on in front of the last word if that is a connective. -/
theorem trim_eq (text : Text) : trim text =
    match Connective.ofWord? (lastWord text) with
    | none => (trimEnd text, [])
    | some c => ((trim (beforeLast text)).1, (trim (beforeLast text)).2 ++ [c]) := by
  have hback : text.reverse.dropWhile isBlank = (trimEnd text).reverse := by
    rw [trimEnd, List.reverse_reverse]
  have hbefore : (trimEnd text).reverse.dropWhile (fun x => !isBlank x) =
      (beforeLast text).reverse := by
    rw [beforeLast, List.rdropWhile, List.reverse_reverse]
  rw [trim, trimBack, hback]
  dsimp only
  split
  · next h =>
    change Connective.ofWord? (lastWord text) = none at h
    rw [h, List.reverse_reverse]
  · next c h =>
    change Connective.ofWord? (lastWord text) = some c at h
    rw [h, hbefore]
    rfl

theorem trim_congr {other : Text} (h : trimEnd text = trimEnd other) : trim text = trim other := by
  rw [trim_eq, trim_eq other, lastWord, lastWord, beforeLast, beforeLast, h]

/-! ## Searching -/

/-- Whether a connective stands behind a place among blanks and ends the text. At the start of the
text there may be no blank in front of it. -/
def Dangles (text front : Text) (c : Connective) : Prop :=
  ∃ lead trail, text = front ++ lead ++ c.word ++ trail ∧ allBlank lead = true ∧
    allBlank trail = true ∧ (lead = [] → front = [])

/-- Whether a place is the first one from which on a connective dangles. -/
def Finds (text front : Text) (c : Connective) : Prop :=
  Dangles text front c ∧ ∀ front' d, Dangles text front' d → front.length ≤ front'.length

/-- What is left of a text, and what was cut off, when it is searched until nothing is found. -/
inductive Trims : Text → Text → List Connective → Prop
  /-- nothing is found, and blanks at the end are cut off -/
  | rest {text : Text} (h : ∀ front c, ¬ Finds text front c) : Trims text (trimEnd text) []
  /-- what is found is cut off -/
  | cut {text front kept : Text} {c : Connective} {cs : List Connective} (h : Finds text front c)
    (hrest : Trims front kept cs) : Trims text kept (cs ++ [c])

/-- A connective that dangles is the last word. -/
theorem lastWord_of_dangles (h : Dangles text front c) : lastWord text = c.word ∧
    ∃ lead, beforeLast text = front ++ lead ∧ allBlank lead = true := by
  obtain ⟨lead, trail, rfl, hlead, htrail, hfirst⟩ := h
  have hword : EndsInWord c.word := c.endsSolid_word.endsInWord
  have hend : trimEnd (front ++ lead ++ c.word ++ trail) = front ++ lead ++ c.word := by
    rw [trimEnd_append_of_allBlank htrail, (hword.append _).trimEnd]
  have hblank : ∀ x, (front ++ lead).getLast? = some x → (!isBlank x) = false := by
    intro x hx
    by_cases hnil : lead = []
    · rw [hnil, hfirst hnil] at hx
      cases hx
    · rw [List.getLast?_append_of_ne_nil _ hnil] at hx
      rw [List.all_eq_true.mp hlead x (List.mem_of_getLast? hx)]
      rfl
  have hsplit := rsplit_append hblank fun x hx => by rw [unbroken_word c x hx]; rfl
  rw [lastWord, beforeLast, hend]
  exact ⟨hsplit.2, lead, hsplit.1, hlead⟩

/-- A connective that dangles is trimmed, and then what stands in front of it is. -/
theorem trim_of_dangles (h : Dangles text front c) :
    trim text = ((trim front).1, (trim front).2 ++ [c]) := by
  obtain ⟨hword, lead, hbefore, hlead⟩ := lastWord_of_dangles h
  have hfront : trim (front ++ lead) = trim front :=
    trim_congr (trimEnd_append_of_allBlank hlead front)
  rw [trim_eq, hword, ofWord_word, hbefore, hfront]

/-- A last word that is a connective is found behind what stands in front of its blanks. -/
theorem finds_of_lastWord (h : lastWord text = c.word) :
    Finds text (trimEnd (beforeLast text)) c := by
  obtain ⟨trail, htrail, htext⟩ := exists_trimEnd text
  obtain ⟨lead, hlead, hbefore⟩ := exists_trimEnd (beforeLast text)
  refine ⟨⟨lead, trail, ?_, hlead, htrail, ?_⟩, ?_⟩
  · rw [← hbefore, ← h, beforeLast_append_lastWord, ← htext]
  · rintro rfl
    rw [List.append_nil] at hbefore
    -- there is no last character, as it would be a blank in front of a word, and none
    rw [← List.getLast?_eq_none_iff, Option.eq_none_iff_forall_ne_some]
    intro x hx
    have hnone : isBlank x = false := not_of_getLast?_rdropWhile (p := isBlank) hx
    rw [← hbefore] at hx
    have hsome : (!isBlank x) = false := not_of_getLast?_rdropWhile (p := fun x => !isBlank x) hx
    rw [hnone] at hsome
    cases hsome
  · intro front' d hd
    obtain ⟨-, lead', hbefore', hlead'⟩ := lastWord_of_dangles hd
    rw [hbefore', trimEnd_append_of_allBlank hlead']
    exact (List.rdropWhile_prefix isBlank front').length_le

theorem length_lt_of_dangles (h : Dangles text front c) : front.length < text.length := by
  obtain ⟨lead, trail, rfl, -⟩ := h
  have hpos : 0 < c.word.length := by cases c <;> decide
  simp only [List.length_append]
  omega

theorem trims_trim (text : Text) : Trims text (trim text).1 (trim text).2 := by
  induction hn : text.length using Nat.strongRecOn generalizing text with
  | _ n ih =>
    subst hn
    cases hword : Connective.ofWord? (lastWord text) with
    | none =>
      have htrim : trim text = (trimEnd text, []) := by rw [trim_eq, hword]
      rw [htrim]
      refine .rest ?_
      intro front c hfinds
      rw [(lastWord_of_dangles hfinds.1).1, ofWord_word] at hword
      cases hword
    | some c =>
      have hfinds := finds_of_lastWord (word_of_ofWord hword).symm
      rw [trim_of_dangles hfinds.1]
      exact .cut hfinds (ih _ (length_lt_of_dangles hfinds.1) _ rfl)

/-- **Searching and cutting** comes to trimming. -/
theorem trims_iff {kept : Text} {cs : List Connective} :
    Trims text kept cs ↔ trim text = (kept, cs) := by
  constructor
  · intro h
    induction h with
    | rest h =>
      rw [trim_eq]
      split
      · rfl
      · next c hword => exact absurd (finds_of_lastWord (word_of_ofWord hword).symm) (h _ c)
    | cut h _ ih => rw [trim_of_dangles h.1, ih]
  · intro h
    have htrims := trims_trim text
    rwa [h] at htrims

/-! ## Words -/

/-- What is left goes up to the end of a word, or is nothing. -/
theorem exists_rest_of_trims {kept : Text} {cs : List Connective} (h : Trims text kept cs) :
    ∃ rest, text = kept ++ rest ∧ (kept = [] ∨ ∀ x, rest.head? = some x → isBlank x = true) := by
  induction h with
  | @rest text _ =>
    obtain ⟨blanks, hblank, htext⟩ := exists_trimEnd text
    refine ⟨blanks, htext, .inr ?_⟩
    intro x hx
    exact List.all_eq_true.mp hblank x (List.mem_of_head? hx)
  | @cut text front kept c cs h _ ih =>
    obtain ⟨⟨lead, trail, rfl, hlead, -, hfirst⟩, -⟩ := h
    obtain ⟨rest, rfl, hrest⟩ := ih
    refine ⟨rest ++ lead ++ c.word ++ trail, by simp, ?_⟩
    refine hrest.elim .inl ?_
    intro hblank
    cases rest with
    | cons x rest => exact .inr hblank
    | nil =>
      cases lead with
      | nil => exact .inl (List.append_eq_nil_iff.mp (hfirst rfl)).1
      | cons x lead =>
        right
        intro y hy
        obtain rfl : x = y := Option.some.inj hy
        exact List.all_eq_true.mp hlead x (List.mem_cons_self ..)

/-- The connectives that trimming tells of are the last words, up to the first that is none. -/
theorem split_words_trim (seed : Text) :
    (words seed).rdropWhile Connective.isWord = words (trim seed).1 ∧
      (words seed).rtakeWhile Connective.isWord = (trim seed).2.map Connective.word := by
  rw [words_trim]
  apply rsplit_append
  · intro w hw
    rw [← Bool.not_eq_true, Connective.isWord_iff]
    rintro ⟨c, rfl⟩
    exact (trim_eq_self_iff.mp (trim_trim seed)).2 c hw
  · intro w hw
    obtain ⟨c, -, rfl⟩ := List.mem_map.mp hw
    exact Connective.isWord_iff.mpr ⟨c, rfl⟩

end Seed

/-- Words do not reach over a blank that a text goes on with. -/
theorem Text.words_append {s t : Text} (h : ∀ x, t.head? = some x → isBlank x = true) :
    words (s ++ t) = words s ++ words t := by
  cases t with
  | nil => simp
  | cons x t =>
    have hx : isBlank x = true := h x rfl
    have htail : words (x :: t) = words t := words_append_cons hx [] t
    rw [words_append_cons hx, htail]

/-- How connectives are told of where no group was taken out. -/
theorem Warning.message_removed_zero {cs : List Connective} (hcs : cs ≠ []) :
    (removed 0 cs).message = "Removed dangling " ++
      List.intercalate ", " ((cs.map Connective.word).map fun w => '`' :: w ++ ['`']) ++
      " with no clause to join. Call `match(...)` after `and_()`, `or_()`, `not_()` or " ++
      "`start_group()` to remove this warning." := by
  have hparts : removedParts 0 cs = ["dangling " ++ quotedWords cs] := by
    rw [removedParts, if_pos rfl, if_neg hcs]
    rfl
  have hstart : "Removed ".toList ++ "dangling ".toList = "Removed dangling ".toList := by decide
  change "Removed ".toList ++ List.intercalate " and " (removedParts 0 cs) ++ _ ++ _ = _
  rw [hparts, quotedWords, List.map_map, List.intercalate_singleton, ← hstart]
  simp only [List.append_assoc, Function.comp_def]

namespace Builder

/-- What finishing takes out of a seed alone is what trimming does. -/
theorem snd_finish_ofSeed (seed : Text) : (ofSeed seed).finish.2 =
    if (Seed.trim seed).2 = [] then [] else [.removed 0 (Seed.trim seed).2] := by
  have hidle : (ofSeed seed).IsIdle := ⟨rfl, rfl, rfl⟩
  have hclean : (clean (ofSeed seed).closedTokens).groups = 0 ∧
      (clean (ofSeed seed).closedTokens).dropped = (Seed.trim seed).2 := by
    rw [hidle.closedTokens rfl, ofSeed]
    by_cases hs : seed = []
    · subst hs
      rw [Seed.trim_nil, if_pos rfl, clean, List.zipIdx_nil, prune_of_step_eq_none rfl]
      exact ⟨rfl, rfl⟩
    · rw [if_neg hs, clean, List.zipIdx_cons, List.zipIdx_nil, prune_of_step_eq_none rfl]
      exact ⟨rfl, rfl⟩
  rw [snd_finish, removalWarnings, hclean.1, hclean.2]
  simp [ofSeed, hasHalf, openGroups]

/-- **A seed alone** is finished up to the end of its last word that is no connective, and the words
behind that one are what the warning names. -/
theorem finish_ofSeed (seed : Text) :
    let done := (ofSeed seed).finish
    let kept := (words seed).rdropWhile Connective.isWord
    let dropped := (words seed).rtakeWhile Connective.isWord
    (∃ rest, seed = done.1.text ++ rest ∧ words done.1.text = kept ∧ words rest = dropped ∧
      (kept = [] ∧ done.1.text = [] ∨
        EndsInWord done.1.text ∧ ∀ x, rest.head? = some x → isBlank x = true)) ∧
    (∃ cs, Seed.Trims seed done.1.text cs ∧ cs.map Connective.word = dropped ∧
      done.2 = if cs = [] then [] else [.removed 0 cs]) ∧
    done.2.map Warning.message = if dropped = [] then [] else
      ["Removed dangling " ++ List.intercalate ", " (dropped.map fun w => '`' :: w ++ ['`']) ++
        " with no clause to join. Call `match(...)` after `and_()`, `or_()`, `not_()` or " ++
        "`start_group()` to remove this warning."] := by
  intro done kept dropped
  have htext : done.1.text = (Seed.trim seed).1 := text_finish_ofSeed seed
  have hwarnings : done.2 =
      if (Seed.trim seed).2 = [] then [] else [.removed 0 (Seed.trim seed).2] :=
    snd_finish_ofSeed seed
  obtain ⟨hkept, hdropped⟩ : kept = words (Seed.trim seed).1 ∧
    dropped = (Seed.trim seed).2.map Connective.word := Seed.split_words_trim seed
  rw [htext, hkept, hdropped, hwarnings]
  refine ⟨?_, ⟨_, Seed.trims_iff.mpr rfl, rfl, rfl⟩, ?_⟩
  · obtain ⟨rest, hseed, hrest⟩ := Seed.exists_rest_of_trims (Seed.trims_trim seed)
    refine ⟨rest, hseed, rfl, ?_, ?_⟩
    · have hwords : words seed = words (Seed.trim seed).1 ++ words rest := by
        obtain hnil | hblank := hrest
        · rw [congrArg words hseed, hnil]
          rfl
        · rw [congrArg words hseed, words_append hblank]
      exact List.append_cancel_left (hwords.symm.trans (Seed.words_trim seed))
    · by_cases hnil : (Seed.trim seed).1 = []
      · exact .inl ⟨by rw [hnil]; rfl, hnil⟩
      · refine .inr ⟨⟨_, List.getLast?_eq_some_getLast hnil, ?_⟩, hrest.resolve_left hnil⟩
        have hsettled := (Seed.trim_eq_self_iff.mp (Seed.trim_trim seed)).1
        exact hsettled _ (List.getLast?_eq_some_getLast hnil)
  · by_cases hcs : (Seed.trim seed).2 = []
    · rw [hcs]
      rfl
    · have hwords : (Seed.trim seed).2.map Connective.word ≠ [] := by simpa using hcs
      rw [if_neg hcs, if_neg hwords, List.map_singleton, Warning.message_removed_zero hcs]

end Builder

end PortalSearch
