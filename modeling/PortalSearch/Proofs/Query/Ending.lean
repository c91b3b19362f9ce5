import PortalSearch.Query.Expression

/-!
# How a text ends

What may be written next depends on the last character: AND, OR and a boost need one that is
neither a blank nor an opening parenthesis, and so does a connective that is to have a
blank in front. A text with such a last character *ends solid*. The texts of numbers do,
since no character of theirs is anything else, and a token whose own text ends solid makes
the whole text end solid. A text that only has to keep its end when blanks are cut off *ends in a
word*: terms that are texts do, as there are quotes around those with blanks.
-/

namespace PortalSearch

namespace Text

/-- Whether a character neither separates words nor starts a group. -/
def IsSolid (c : Char) : Prop := isBlank c = false ∧ c ≠ '('

instance (c : Char) : Decidable (IsSolid c) := inferInstanceAs (Decidable (_ ∧ _))

/-- Whether all characters are solid. -/
def AllSolid (t : Text) : Prop := ∀ c ∈ t, IsSolid c

instance (t : Text) : Decidable (AllSolid t) := List.decidableBAll IsSolid t

/-- Whether there is a last character, and a solid one. -/
def EndsSolid (t : Text) : Prop := ∃ c, t.getLast? = some c ∧ IsSolid c

/-- Whether there is a last character, and no blank. -/
def EndsInWord (t : Text) : Prop := ∃ c, t.getLast? = some c ∧ isBlank c = false

variable {s t : Text} {c : Char}

theorem allBlank_append (s t : Text) : allBlank (s ++ t) = (allBlank s && allBlank t) :=
  List.all_append

theorem EndsInWord.append (h : EndsInWord t) (s : Text) : EndsInWord (s ++ t) := by
  obtain ⟨c, hc, hword⟩ := h
  exact ⟨c, by rw [List.getLast?_append, hc]; rfl, hword⟩

theorem EndsInWord.allBlank (h : EndsInWord t) : allBlank t = false := by
  obtain ⟨c, hc, hword⟩ := h
  rw [Text.allBlank, List.all_eq_false]
  exact ⟨c, List.mem_of_getLast? hc, by simp [hword]⟩

/-- There are no blanks to cut off. -/
theorem EndsInWord.trimEnd (h : EndsInWord t) : trimEnd t = t := by
  obtain ⟨c, hc, hword⟩ := h
  rw [← List.head?_reverse] at hc
  rw [Text.trimEnd]
  cases hr : t.reverse with
  | nil => rw [hr] at hc; cases hc
  | cons x back =>
    obtain rfl : x = c := by simpa [hr] using hc
    rw [List.dropWhile_cons_of_neg (by simp [hword]), ← hr, List.reverse_reverse]

theorem EndsSolid.endsInWord (h : EndsSolid t) : EndsInWord t := by
  obtain ⟨c, hc, hs⟩ := h
  exact ⟨c, hc, hs.1⟩

theorem AllSolid.append (hs : AllSolid s) (ht : AllSolid t) : AllSolid (s ++ t) :=
  List.forall_mem_append.mpr ⟨hs, ht⟩

theorem allSolid_replicate (h : IsSolid c) (n : Nat) : AllSolid (List.replicate n c) :=
  fun _ hx => List.eq_of_mem_replicate hx ▸ h

theorem AllSolid.endsSolid (h : AllSolid t) (hn : t ≠ []) : EndsSolid t :=
  ⟨t.getLast hn, List.getLast?_eq_some_getLast hn, h _ (List.getLast_mem hn)⟩

theorem EndsSolid.append (h : EndsSolid t) (s : Text) : EndsSolid (s ++ t) := by
  obtain ⟨c, hc, hs⟩ := h
  exact ⟨c, by rw [List.getLast?_append, hc]; rfl, hs⟩

theorem EndsSolid.allBlank (h : EndsSolid t) : allBlank t = false := h.endsInWord.allBlank

/-- There are no blanks to cut off. -/
theorem EndsSolid.trimEnd (h : EndsSolid t) : trimEnd t = t := h.endsInWord.trimEnd

/-- Only what is behind can have blanks to cut off. -/
theorem EndsSolid.trimEnd_append (h : EndsSolid s) (t : Text) :
    Text.trimEnd (s ++ t) = s ++ Text.trimEnd t := by
  have hs := congrArg List.reverse h.trimEnd
  rw [Text.trimEnd, List.reverse_reverse] at hs
  rw [Text.trimEnd, Text.trimEnd, List.reverse_append,
    List.dropWhile_append, hs]
  split
  · next hnil => simp [List.isEmpty_iff.mp hnil]
  · simp

/-! ## Numbers -/

theorem isSolid_of_isDigit (h : c.isDigit = true) : IsSolid c := by
  have hn : 48 ≤ c.toNat ∧ c.toNat ≤ 57 := by simpa [Char.isDigit, UInt32.le_iff_toNat_le] using h
  refine ⟨?_, ?_⟩
  · simp [isBlank]
    omega
  · rintro rfl
    exact absurd hn.1 (by decide)

theorem allSolid_ofNat (n : Nat) : AllSolid (ofNat n) := fun _ h =>
  isSolid_of_isDigit (Nat.isDigit_of_mem_toDigits (by decide) (by decide) h)

theorem ofNat_ne_nil (n : Nat) : ofNat n ≠ [] := by
  rw [ofNat, Nat.toDigits_eq_if (by decide)]
  split <;> simp

theorem endsSolid_ofInt (n : Int) : EndsSolid (ofInt n) := by
  cases n with
  | ofNat n => exact (allSolid_ofNat n).endsSolid (ofNat_ne_nil n)
  | negSucc n => exact ((allSolid_ofNat (n + 1)).endsSolid (ofNat_ne_nil (n + 1))).append ['-']

end Text

open Text

namespace Decimal.Layout

/-- Digits are laid out with zeros, a point, signs and an `e`, and nothing else. -/
theorem allSolid_write (style : Layout) {digits : Text} (h : AllSolid digits) (point : Int) :
    AllSolid (style.write digits point) := by
  have htake (n : Nat) : AllSolid (digits.take n) := fun c hc => h c (List.mem_of_mem_take hc)
  have hdrop (n : Nat) : AllSolid (digits.drop n) := fun c hc => h c (List.mem_of_mem_drop hc)
  have hzeros := allSolid_replicate (c := '0') (by decide)
  rw [write]
  dsimp only
  split
  · split
    · exact (AllSolid.append (by decide) (hzeros _)).append h
    · split
      · exact (h.append (hzeros _)).append (by decide)
      · exact ((htake _).append (by decide)).append (hdrop _)
  · have hrest : AllSolid (if digits.drop 1 = [] then [] else '.' :: digits.drop 1) := by
      split
      · decide
      · exact AllSolid.append (s := ['.']) (by decide) (hdrop 1)
    have hsign : AllSolid ['e', if point - 1 < 0 then '-' else '+'] := by
      split <;> decide
    exact (((htake 1).append hrest).append hsign).append
      ((hzeros _).append (allSolid_ofNat _))

theorem write_ne_nil (style : Layout) {digits : Text} (h : digits ≠ []) (point : Int) :
    style.write digits point ≠ [] := by
  rw [write]
  dsimp only
  split
  · split
    · simp
    · split
      · simp [h]
      · simp
  · simp

theorem endsSolid_text (style : Layout) (x : Binary64) : EndsSolid (style.text x) := by
  rw [text]
  split
  · exact AllSolid.endsSolid (by decide) (by decide)
  · refine EndsSolid.append ?_ _
    split
    · exact AllSolid.endsSolid (by decide) (by decide)
    · split
      · exact AllSolid.endsSolid (by decide) (by decide)
      · exact (style.allSolid_write (allSolid_ofNat _) _).endsSolid
          (style.write_ne_nil (ofNat_ne_nil _) _)

end Decimal.Layout

theorem Value.IsNumber.endsSolid {v : Value} (h : v.IsNumber) : EndsSolid v.toText := by
  cases v with
  | int n => exact endsSolid_ofInt n
  | float x => exact layout.endsSolid_text x
  | null | bool _ | text _ | bytes _ | date _ | moment _ | list _ | object _ => exact h.elim

/-! ## Terms -/

/-- There are no blanks in a text that stands without quotes. -/
theorem Term.isBlank_of_plain {t : Text} (h : ¬ needsQuotes t = true) :
    ∀ c ∈ t, isBlank c = false := by
  rw [needsQuotes, Bool.not_eq_true, List.any_eq_false] at h
  intro c hc
  have hplain := h c hc
  rw [Bool.or_eq_true, not_or, Bool.not_eq_true] at hplain
  exact hplain.1

theorem Term.endsInWord_text {t : Text} (h : t ≠ []) : EndsInWord (text (.text t)) := by
  rw [text]
  split
  · exact EndsInWord.append ⟨'"', rfl, by decide⟩ _
  · next hplain =>
    exact ⟨t.getLast h, List.getLast?_eq_some_getLast h,
      isBlank_of_plain hplain _ (List.getLast_mem h)⟩

theorem Term.endsInWord_series {vs : List Value} (hne : vs ≠ [])
    (h : ∀ v ∈ vs, EndsInWord (text v)) : EndsInWord (series vs) := by
  induction vs with
  | nil => exact absurd rfl hne
  | cons v vs ih =>
    rw [List.forall_mem_cons] at h
    cases vs with
    | nil => exact (series_singleton v).symm ▸ h.1
    | cons w vs =>
      rw [series_cons_cons]
      exact (ih (List.cons_ne_nil _ _) h.2).append _

/-! ## Tokens -/

theorem Connective.endsSolid_word (c : Connective) : EndsSolid c.word := by
  cases c <;> exact ⟨_, rfl, by decide⟩

/-- Whether a token that an edit writes makes the text end solid. -/
def Token.IsSolid : Token → Prop
  | .clause t => EndsSolid t
  | .boost factor => EndsSolid factor
  | .closing => True
  | .seed _ | .connective _ | .opening => False

theorem Draft.endsSolid_write {t : Token} (h : t.IsSolid) (d : Draft) :
    EndsSolid (d.write t).text := by
  cases t with
  | clause t => exact EndsSolid.append h _
  | boost factor => exact (EndsSolid.append h ['^']).append _
  | closing => exact EndsSolid.append ⟨')', rfl, by decide⟩ _
  | seed _ | connective _ | opening => exact h.elim

/-- Whether the last of some tokens makes the text end solid. -/
def LastSolid (ts : List Token) : Prop := ∃ t, ts.getLast? = some t ∧ t.IsSolid

theorem LastSolid.append {ts : List Token} (h : LastSolid ts) (front : List Token) :
    LastSolid (front ++ ts) := by
  obtain ⟨t, ht, hs⟩ := h
  exact ⟨t, by rw [List.getLast?_append, ht]; rfl, hs⟩

theorem Draft.endsSolid_writeAll {ts : List Token} (h : LastSolid ts) (d : Draft) :
    EndsSolid (d.writeAll ts).text := by
  obtain ⟨t, ht, hs⟩ := h
  obtain ⟨front, rfl⟩ := List.getLast?_eq_some_iff.mp ht
  rw [writeAll_append]
  exact endsSolid_write hs _

/-- A connective behind a solid end has a blank in front. -/
theorem Draft.spaced_of_endsSolid {t : Text} (h : EndsSolid t) : Draft.spaced t = t ++ [' '] := by
  obtain ⟨c, hc, hs⟩ := h
  rw [spaced, hc]
  split
  · next hn => cases hn
  · next hp => exact absurd (Option.some.inj hp) hs.2
  · next hb => exact absurd hs.1 (by rw [Option.some.inj hb]; decide)
  · rfl

/-- Behind a solid end there is something to join or to boost. -/
theorem Builder.endsBlank_of_endsSolid {b : Builder} (h : EndsSolid b.text) :
    b.endsBlank = false := by
  obtain ⟨c, hc, hs⟩ := h
  rw [endsBlank, EndsSolid.allBlank ⟨c, hc, hs⟩, hc]
  simpa using hs.2

end PortalSearch
