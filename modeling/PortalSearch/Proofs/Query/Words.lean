import PortalSearch.Query.Seed

/-!
# The words of a seed

A text is a list of words with blanks between them. What trimming cuts off the end of a seed are
whole words, and they are the words of the connectives that it tells of: so the words of a seed are
those that are left and then those.

Main result: trimming cuts off the connectives that it tells of, and no other word
(`words_trim`).
-/

namespace PortalSearch

namespace Text

/-- The words of a text: what stands between blanks. -/
def words (t : Text) : List Text := (t.splitOnP isBlank).filter fun w => !w.isEmpty

variable {c : Char}

@[simp] theorem words_nil : words [] = [] := rfl

theorem words_append_cons (hc : isBlank c = true) (s t : Text) :
    words (s ++ c :: t) = words s ++ words t := by
  rw [words, List.splitOnP_append_cons s t hc, List.filter_append]
  rfl

theorem words_concat (hc : isBlank c = true) (s : Text) : words (s ++ [c]) = words s := by
  rw [words_append_cons hc, words_nil, List.append_nil]

/-- Blanks at the end belong to no word. -/
theorem words_append_of_allBlank {t : Text} (ht : allBlank t = true) (s : Text) :
    words (s ++ t) = words s := by
  induction t generalizing s with
  | nil => rw [List.append_nil]
  | cons c t ih =>
    obtain ⟨hc, ht⟩ := Bool.and_eq_true_iff.mp ht
    rw [List.append_cons, ih ht, words_concat hc]

theorem words_of_unbroken {w : Text} (hw : ∀ c ∈ w, isBlank c = false) (hne : w ≠ []) :
    words w = [w] := by
  rw [words, List.splitOnP_eq_singleton hw]
  simp [hne]

/-- A word behind a blank, or at the start, is the last word. -/
theorem words_append_word {s w : Text} (hs : ∀ c, s.getLast? = some c → isBlank c = true)
    (hw : ∀ c ∈ w, isBlank c = false) (hne : w ≠ []) : words (s ++ w) = words s ++ [w] := by
  rcases List.eq_nil_or_concat s with rfl | ⟨t, c, hs'⟩
  · exact words_of_unbroken hw hne
  · rw [List.concat_eq_append] at hs'
    subst hs'
    have hc : isBlank c = true := hs c List.getLast?_concat
    rw [List.append_assoc, List.singleton_append, words_append_cons hc, words_concat hc,
      words_of_unbroken hw hne]

end Text

namespace Seed

theorem word_of_ofWord {w : Text} {c : Connective} (h : Connective.ofWord? w = some c) :
    c.word = w := by
  have := List.find?_some h
  simpa using this

theorem ofWord_word (c : Connective) : Connective.ofWord? c.word = some c := by
  cases c <;> rfl

theorem unbroken_word (c : Connective) : ∀ d ∈ c.word, Text.isBlank d = false := by
  have hall : (c.word.all fun d => !Text.isBlank d) = true := by cases c <;> rfl
  simpa using hall

/-- Whether a character is a blank or one of those that connectives are written with. -/
def IsCuttable (d : Char) : Prop := Text.isBlank d = true ∨ ∃ c : Connective, d ∈ c.word

/-- What is left is the start of the text, and what is cut off are blanks and connectives. -/
theorem exists_trimBack (back : Text) :
    ∃ cut, back = cut ++ (trimBack back).1 ∧ ∀ d ∈ cut, IsCuttable d := by
  have hblank {t : Text} : ∀ d ∈ t.takeWhile Text.isBlank, IsCuttable d :=
    fun d hd => .inl (List.all_eq_true.mp List.all_takeWhile d hd)
  fun_induction trimBack back with
  | case1 back shown h =>
    exact ⟨back.takeWhile Text.isBlank, List.takeWhile_append_dropWhile.symm, hblank⟩
  | case2 back shown c h earlier ih =>
    obtain ⟨cut, hcut, hall⟩ := ih
    have hword : ∀ d ∈ shown.takeWhile fun x => !Text.isBlank x, IsCuttable d := by
      intro d hd
      refine .inr ⟨c, ?_⟩
      rw [word_of_ofWord h]
      exact List.mem_reverse.mpr hd
    refine ⟨back.takeWhile Text.isBlank ++ ((shown.takeWhile fun x => !Text.isBlank x) ++ cut),
      ?_, ?_⟩
    · rw [List.append_assoc, List.append_assoc, ← hcut, List.takeWhile_append_dropWhile,
        List.takeWhile_append_dropWhile]
    · exact List.forall_mem_append.mpr ⟨hblank, List.forall_mem_append.mpr ⟨hword, hall⟩⟩

/-- The blanks at the end of a text, read from there, belong to no word. -/
theorem words_dropWhile (back : Text) :
    Text.words (back.dropWhile Text.isBlank).reverse = Text.words back.reverse := by
  have hblank : Text.allBlank (back.takeWhile Text.isBlank).reverse = true := by
    rw [Text.allBlank, List.all_reverse]
    exact List.all_takeWhile
  rw [← Text.words_append_of_allBlank hblank, ← List.reverse_append,
    List.takeWhile_append_dropWhile]

theorem words_trimBack (back : Text) : Text.words back.reverse =
    Text.words (trimBack back).1.reverse ++ (trimBack back).2.map Connective.word := by
  fun_induction trimBack back with
  | case1 back shown h =>
    rw [List.map_nil, List.append_nil]
    exact (words_dropWhile back).symm
  | case2 back shown c h earlier ih =>
    have hsplit : shown.reverse = (shown.dropWhile fun x => !Text.isBlank x).reverse ++ c.word := by
      rw [word_of_ofWord h, ← List.reverse_append, List.takeWhile_append_dropWhile]
    rw [← words_dropWhile back]
    change Text.words shown.reverse = _
    rw [hsplit, Text.words_append_word, ih, List.map_append, List.append_assoc]
    · rfl
    · intro d hd
      have hhead := List.head?_dropWhile_not (fun x => !Text.isBlank x) shown
      rw [List.getLast?_reverse] at hd
      simpa [hd] using hhead
    · exact unbroken_word c
    · cases c <;> simp [Connective.word]

/-- Trimming cuts blanks and connectives off a seed at its end. -/
theorem exists_trim (seed : Text) :
    ∃ tail, seed = (trim seed).1 ++ tail ∧ ∀ d ∈ tail, IsCuttable d := by
  obtain ⟨cut, hcut, hall⟩ := exists_trimBack seed.reverse
  refine ⟨cut.reverse, ?_, fun d hd => hall d (List.mem_reverse.mp hd)⟩
  rw [trim, ← List.reverse_append, ← hcut, List.reverse_reverse]

/-- **Trimming cuts off the connectives** that it tells of, and no other word. -/
theorem words_trim (seed : Text) :
    Text.words seed = Text.words (trim seed).1 ++ (trim seed).2.map Connective.word := by
  have h := words_trimBack seed.reverse
  rwa [List.reverse_reverse] at h

end Seed

end PortalSearch
