import Mathlib.Data.List.Chain
import PortalSearch.Proofs.Query.Account
import PortalSearch.Proofs.Query.Ending
import PortalSearch.Proofs.Query.Finished
import PortalSearch.Query.Lexer

/-!
# Reading written tokens

A query text is put together token by token, and a token adds only to the end. What it adds is read
as that token again, if what follows keeps out of it: a clause and a boost go on up to the next
blank, parenthesis or `^` (`Lexer.Stops`), so no clause may stand right behind one; all others end
by themselves.

A clause is read as one word if reading goes over it and is outside of quotes and brackets behind it
(`Lexer.IsWhole`). Texts with neither blanks nor marks are, and so are texts without marks between
quotes or brackets, and all these next to each other.

Main result: finished tokens whose clauses are such words, none right behind a clause or a boost,
are what their text is read as (`tokens_render`).
-/

namespace PortalSearch

/-! ## Words -/

namespace Lexer

/-- The characters that are not part of a word, or not in the same way as others. -/
def marks : Text := ['"', '(', ')', '^', '[', ']']

/-- Whether a text has no marks. -/
def Unmarked (w : Text) : Prop := ∀ c ∈ w, c ∉ marks

instance (w : Text) : Decidable (Unmarked w) := List.decidableBAll (fun c => c ∉ marks) w

/-- Whether a text has neither marks nor blanks. -/
def Unbroken (w : Text) : Prop := ∀ c ∈ w, c ∉ marks ∧ Text.isBlank c = false

instance (w : Text) : Decidable (Unbroken w) :=
  List.decidableBAll (fun c => c ∉ marks ∧ Text.isBlank c = false) w

/-- Whether a word or a boost does not go on with a text. -/
def Stops (rest : Text) : Prop := ∀ c ∈ rest.head?, isStop c = true

/-- Whether reading goes over a text as over any part of a word. -/
def IsWhole (w : Text) : Prop :=
  ∀ rest, word false false (w ++ rest) = (w ++ (word false false rest).1, (word false false rest).2)

variable {v w rest : Text} {c : Char} {quoted bracketed : Bool}

theorem stops_cons (h : isStop c = true) (rest : Text) : Stops (c :: rest) := by
  rintro x hx
  obtain rfl : c = x := Option.some.inj hx
  exact h

theorem word_of_stops (h : Stops rest) : word false false rest = ([], rest) := by
  cases rest with
  | nil => rfl
  | cons c rest =>
    have hc : isStop c = true := h c rfl
    simp [word, hc]

theorem isStop_of_not_mem_marks (h : c ∉ marks) (hb : Text.isBlank c = false) :
    isStop c = false := by
  simp only [marks, List.mem_cons, not_or] at h
  simp [isStop, hb, h]

/-- Inside quotes or brackets blanks are read on, and marks elsewhere only end what they began. -/
theorem word_append (h : Unmarked w)
    (hb : ∀ c ∈ w, Text.isBlank c = true → (quoted || bracketed) = true) (rest : Text) :
    word quoted bracketed (w ++ rest) =
      (w ++ (word quoted bracketed rest).1, (word quoted bracketed rest).2) := by
  induction w with
  | nil => rfl
  | cons c w ih =>
    have hc := h c List.mem_cons_self
    simp only [marks, List.mem_cons, not_or] at hc
    have hgoes : (isStop c && !(Text.isBlank c && (quoted || bracketed))) = false := by
      cases hblank : Text.isBlank c with
      | false => simp [isStop, hblank, hc]
      | true => simp [hb c List.mem_cons_self hblank]
    obtain ⟨hquote, -, -, -, hleft, hright, -⟩ := hc
    have hquoted : (quoted != (c == '"')) = quoted := by simp [beq_eq_false_iff_ne.mpr hquote]
    have hbracketed : ((bracketed || c == '[') && c != ']') = bracketed := by
      simp [beq_eq_false_iff_ne.mpr hleft, bne_iff_ne.mpr hright]
    rw [List.cons_append, word, hgoes, hquoted, hbracketed,
      ih (fun x hx => h x (List.mem_cons_of_mem _ hx))
        (fun x hx => hb x (List.mem_cons_of_mem _ hx))]
    rfl

theorem IsWhole.append (hv : IsWhole v) (hw : IsWhole w) : IsWhole (v ++ w) := by
  intro rest
  rw [List.append_assoc, hv, hw, List.append_assoc]

theorem isWhole_of_unbroken (h : Unbroken w) : IsWhole w := by
  apply word_append fun c hc => (h c hc).1
  intro c hc hblank
  rw [(h c hc).2] at hblank
  cases hblank

theorem isWhole_quoted (h : Unmarked w) : IsWhole ('"' :: w ++ ['"']) := by
  intro rest
  have hopen (s : Text) : word false false ('"' :: s) =
      ('"' :: (word true false s).1, (word true false s).2) := rfl
  have hclose (s : Text) : word true false ('"' :: s) =
      ('"' :: (word false false s).1, (word false false s).2) := rfl
  rw [List.append_assoc, List.cons_append, hopen, word_append h fun _ _ _ => rfl,
    List.singleton_append, hclose]
  simp

theorem isWhole_bracketed (h : Unmarked w) : IsWhole ('[' :: w ++ [']']) := by
  intro rest
  have hopen (s : Text) : word false false ('[' :: s) =
      ('[' :: (word false true s).1, (word false true s).2) := rfl
  have hclose (s : Text) : word false true (']' :: s) =
      (']' :: (word false false s).1, (word false false s).2) := rfl
  rw [List.append_assoc, List.cons_append, hopen, word_append h fun _ _ _ => rfl,
    List.singleton_append, hclose]
  simp

/-! ## Tokens -/

theorem tokens_nil : tokens [] = [] := tokens.eq_def []

theorem tokens_blank (rest : Text) : tokens (' ' :: rest) = tokens rest := tokens.eq_def _

theorem tokens_opening (rest : Text) : tokens ('(' :: rest) = .opening :: tokens rest :=
  tokens.eq_def _

theorem tokens_closing (rest : Text) : tokens (')' :: rest) = .closing :: tokens rest :=
  tokens.eq_def _

/-- A word that does not go on is a token. -/
theorem tokens_word (hw : IsWhole w) (hne : w ≠ []) (hs : Stops rest) :
    tokens (w ++ rest) = ofWord w :: tokens rest := by
  have hread : word false false (w ++ rest) = (w, rest) := by
    rw [hw, word_of_stops hs, List.append_nil]
  obtain ⟨c, w, rfl⟩ := List.exists_cons_of_ne_nil hne
  -- a stop would have ended the word at once
  have hc : isStop c = false := by
    by_contra hstop
    rw [Bool.not_eq_false] at hstop
    rw [List.cons_append, word_of_stops (stops_cons hstop _)] at hread
    cases hread
  have hword : word (c == '"') (c == '[') (w ++ rest) = (w, rest) := by
    have hbracket : ((false || c == '[') && c != ']') = (c == '[') := by
      by_cases h : c = '[' <;> simp [h]
    rw [List.cons_append, word, hc, hbracket, Bool.false_bne] at hread
    simpa [Prod.ext_iff] using hread
  simp only [isStop, Bool.or_eq_false_iff, beq_eq_false_iff_ne] at hc
  obtain ⟨⟨⟨hblank, hopening⟩, hclosing⟩, hboost⟩ := hc
  rw [List.cons_append, tokens.eq_def]
  split
  · next h => cases h
  · next h => exact absurd (List.cons.inj h).1 hopening
  · next h => exact absurd (List.cons.inj h).1 hclosing
  · next h => exact absurd (List.cons.inj h).1 hboost
  · next h =>
    obtain ⟨rfl, rfl⟩ := List.cons.inj h
    rw [hblank, hword]
    rfl

/-- A boost that does not go on is a token. -/
theorem tokens_boost (hw : ∀ c ∈ w, isStop c = false) (hs : Stops rest) :
    tokens ('^' :: w ++ rest) = .boost w :: tokens rest := by
  have htake : (rest.takeWhile fun c => !isStop c) = [] := by
    cases rest with
    | nil => rfl
    | cons c rest => simp [hs c rfl]
  have hdrop : (rest.dropWhile fun c => !isStop c) = rest := by
    cases rest with
    | nil => rfl
    | cons c rest => simp [hs c rfl]
  have hgoes : ∀ c ∈ w, (!isStop c) = true := by simpa using hw
  have hread : tokens ('^' :: w ++ rest) = .boost ((w ++ rest).takeWhile fun c => !isStop c) ::
      tokens ((w ++ rest).dropWhile fun c => !isStop c) := tokens.eq_def _
  rw [hread, List.takeWhile_append_of_pos hgoes, List.dropWhile_append_of_pos hgoes, htake, hdrop,
    List.append_nil]

theorem ofWord_word (c : Connective) : ofWord c.word = .connective c := by
  cases c <;> rfl

theorem ofWord_of_eq_none (h : Connective.ofWord? w = none) : ofWord w = .clause w := by
  rw [ofWord, h]

end Lexer

/-! ## What a token adds to the text -/

namespace Token

/-- Whether what a token adds to a text is read as the token, if no more of it follows. -/
def IsReadable : Token → Prop
  | clause t => Lexer.IsWhole t ∧ Text.EndsSolid t ∧ Connective.ofWord? t = none
  | boost factor => Text.EndsSolid factor ∧ ∀ c ∈ factor, Lexer.isStop c = false
  | seed _ => False
  | connective _ | opening | closing => True

/-- Whether a token goes on up to the next stop. -/
def goesOn : Token → Bool
  | clause _ | boost _ => true
  | seed _ | connective _ | opening | closing => false

theorem IsReadable.isSolid {t : Token} (h : t.IsReadable) (hc : t.isConnective = false)
    (ho : t ≠ opening) : t.IsSolid := by
  cases t with
  | clause t => exact h.2.1
  | boost factor => exact h.1
  | closing => trivial
  | seed _ => exact h.elim
  | connective _ => cases hc
  | opening => exact absurd rfl ho

theorem IsReadable.isSolid_of_goesOn {t : Token} (h : t.IsReadable) (hg : t.goesOn = true) :
    t.IsSolid := by
  cases t with
  | clause _ | boost _ => exact h.isSolid rfl nofun
  | seed _ | connective _ | opening | closing => cases hg

end Token

/-- Whether no clause stands right behind a clause or a boost. -/
def Apart (ts : List Token) : Prop := ts.IsChain fun t u => t.goesOn = true → u.isClause = false

instance (ts : List Token) : Decidable (Apart ts) := inferInstanceAs (Decidable (ts.IsChain _))

namespace Draft

open Lexer

/-- A connective brings a blank in front or none. -/
theorem exists_spaced (t : Text) :
    ∃ blank, spaced t = t ++ blank ∧ (blank = [] ∨ blank = [' ']) := by
  rw [spaced]
  split
  · exact ⟨[], (List.append_nil t).symm, .inl rfl⟩
  · exact ⟨[], (List.append_nil t).symm, .inl rfl⟩
  · exact ⟨[], (List.append_nil t).symm, .inl rfl⟩
  · exact ⟨[' '], rfl, .inr rfl⟩

theorem tokens_connective (c : Connective) (rest : Text) :
    tokens (c.word ++ ' ' :: rest) = .connective c :: tokens rest := by
  have hwhole : IsWhole c.word := by
    apply isWhole_of_unbroken
    cases c <;> decide
  have hne : c.word ≠ [] := by cases c <;> exact List.cons_ne_nil _ _
  rw [tokens_word hwhole hne (stops_cons rfl rest), ofWord_word, tokens_blank]

/-- **What a token adds** to a text is read as that token, and keeps out of what is in front. -/
theorem exists_write {t : Token} (ht : t.IsReadable) (d : Draft) :
    ∃ piece, (d.write t).text = d.text ++ piece ∧
      (∀ rest, (t.goesOn = true → Stops rest) → tokens (piece ++ rest) = t :: tokens rest) ∧
      (t.isClause = false → Text.EndsSolid d.text → ∀ rest, Stops (piece ++ rest)) := by
  cases t with
  | seed t => exact ht.elim
  | clause t =>
    obtain ⟨hwhole, hsolid, hword⟩ := ht
    have hne : t ≠ [] := by
      rintro rfl
      obtain ⟨c, hc, -⟩ := hsolid
      cases hc
    refine ⟨t, rfl, ?_, nofun⟩
    intro rest hs
    rw [tokens_word hwhole hne (hs rfl), ofWord_of_eq_none hword]
  | boost factor =>
    obtain ⟨-, hgoes⟩ := ht
    refine ⟨'^' :: factor, rfl, ?_, fun _ _ rest => stops_cons rfl _⟩
    intro rest hs
    exact tokens_boost hgoes (hs rfl)
  | connective c =>
    obtain ⟨blank, hspaced, hblank⟩ := exists_spaced d.text
    refine ⟨blank ++ c.word ++ [' '], ?_, ?_, ?_⟩
    · simp [write, hspaced]
    · intro rest _
      rcases hblank with rfl | rfl
      · simpa using tokens_connective c rest
      · simpa [tokens_blank] using tokens_connective c rest
    · intro _ hsolid rest
      rw [spaced_of_endsSolid hsolid] at hspaced
      obtain rfl := List.append_cancel_left hspaced
      exact stops_cons rfl _
  | opening =>
    by_cases hd : 0 < d.depth ∧ d.text.getLast? ≠ some ' '
    · refine ⟨[' ', '('], by simp [write, hd], ?_, fun _ _ rest => stops_cons rfl _⟩
      intro rest _
      exact (tokens_blank _).trans (tokens_opening rest)
    · refine ⟨['('], by simp [write, hd], ?_, fun _ _ rest => stops_cons rfl _⟩
      intro rest _
      exact tokens_opening rest
  | closing =>
    refine ⟨[')'], rfl, ?_, fun _ _ rest => stops_cons rfl _⟩
    intro rest _
    exact tokens_closing rest

/-- **What tokens add** to a text is read as those tokens. -/
theorem exists_writeAll {ts : List Token} (hts : ∀ t ∈ ts, t.IsReadable) (ha : Apart ts)
    (d : Draft) :
    ∃ s, (d.writeAll ts).text = d.text ++ s ∧ tokens s = ts ∧
      ((∀ t ∈ ts.head?, t.isClause = false) → Text.EndsSolid d.text → Stops s) := by
  induction ts generalizing d with
  | nil => exact ⟨[], (List.append_nil _).symm, tokens_nil, fun _ _ => nofun⟩
  | cons t ts ih =>
    obtain ⟨ht, hts⟩ := List.forall_mem_cons.mp hts
    obtain ⟨hnext, ha⟩ := List.isChain_cons.mp ha
    obtain ⟨piece, hpiece, hread, hout⟩ := exists_write ht d
    obtain ⟨s, hs, htokens, hstops⟩ := ih hts ha (d.write t)
    refine ⟨piece ++ s, ?_, ?_, ?_⟩
    · rw [writeAll_cons, hs, hpiece, List.append_assoc]
    · rw [hread s, htokens]
      intro hg
      exact hstops (fun u hu => hnext u hu hg) (endsSolid_write (ht.isSolid_of_goesOn hg) d)
    · intro hhead hsolid
      exact hout (hhead t rfl) hsolid s

/-- **Finished tokens are what their text is read as**, if each of them is readable and none goes on
in the next. -/
theorem tokens_render {ts : List Token} (hf : Finished ts) (hn : nest 0 ts = some 0)
    (hts : ∀ t ∈ ts, t.IsReadable) (ha : Apart ts) : tokens (Text.trimEnd (render ts)) = ts := by
  obtain ⟨s, hs, htokens, -⟩ := exists_writeAll hts ha empty
  have htext : render ts = s := hs
  have htrim : Text.trimEnd (render ts) = render ts := by
    by_cases hne : ts = []
    · rw [hne]
      rfl
    · obtain ⟨t, hlast, hc, ho⟩ := Builder.endsFirm_of_finished hf hn hne
      have hsolid := (hts t (List.mem_of_getLast? hlast)).isSolid hc ho
      exact (endsSolid_writeAll ⟨t, hlast, hsolid⟩ empty).trimEnd
  rw [htrim, htext, htokens]

end Draft

end PortalSearch
