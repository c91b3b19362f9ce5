import Mathlib.Algebra.Group.Nat.Even
import Mathlib.Data.List.Forall2
import PortalSearch.Proofs.Query.Ending
import PortalSearch.Query.Phrase

/-!
# Terms as phrases

A reader of a series of terms cuts it at the blanks that stand outside of double quotes, so what it
does at a blank depends on how many quotes it has read before. A term that holds a blank stands
between quotes, and no blank in it is cut at as long as the term has no quotes of its own. Quotes in
a term are written as they are: one in front of a blank lets the blank out, and an odd one lets the
blank behind the term in.

Main result: a reader finds the terms of a series as they are, or between quotes, exactly if each
blank in a term stands behind an even number of its quotes and each term but the last has an even
number of them (`phrases_series_iff`).
-/

namespace PortalSearch.Phrase

open Text

variable {c : Char} {s t : Text} {quoted : Bool}

/-- The phrases that a reader finds: the pieces of a text that hold anything. -/
def phrases (t : Text) : List Text := (pieces t).filter fun p => !p.isEmpty

/-- Whether a phrase is a term, as it is or between quotes. -/
def Shows (phrase term : Text) : Prop := phrase = term ∨ phrase = '"' :: term ++ ['"']

/-- Whether each blank stands behind an even number of quotes. -/
def ShieldsBlanks (t : Text) : Prop :=
  ∀ front c rest, t = front ++ c :: rest → isBlank c = true → Even (front.count '"')

/-! ## Reading on -/

/-- Whether a reader is inside quotes behind a text. -/
def quotedBehind (quoted : Bool) (t : Text) : Bool := t.foldl (fun q c => q != (c == '"')) quoted

/-- Whether a reader cuts a text nowhere. -/
def IsUncut (quoted : Bool) : Text → Prop
  | [] => True
  | c :: t => (isBlank c = true → quoted = true) ∧ IsUncut (quoted != (c == '"')) t

instance decidableIsUncut : (quoted : Bool) → (t : Text) → Decidable (IsUncut quoted t)
  | _, [] => isTrue trivial
  | quoted, c :: t =>
    have := decidableIsUncut (quoted != (c == '"')) t
    inferInstanceAs (Decidable (_ ∧ _))

theorem quotedBehind_eq_iff (quoted : Bool) (t : Text) :
    quotedBehind quoted t = quoted ↔ Even (t.count '"') := by
  induction t generalizing quoted with
  | nil => exact iff_of_true rfl ⟨0, rfl⟩
  | cons c t ih =>
    change quotedBehind (quoted != (c == '"')) t = quoted ↔ _
    by_cases hc : c = '"'
    · subst hc
      have hflip : quotedBehind (!quoted) t = quoted ↔ ¬ quotedBehind (!quoted) t = !quoted := by
        cases quotedBehind (!quoted) t <;> cases quoted <;> simp
      rw [List.count_cons_self, Nat.even_add_one, ← ih (!quoted), ← hflip]
      simp
    · rw [List.count_cons_of_ne hc, beq_false_of_ne hc, Bool.bne_false]
      exact ih quoted

theorem isUncut_append : IsUncut quoted (s ++ t) ↔
    IsUncut quoted s ∧ IsUncut (quotedBehind quoted s) t := by
  induction s generalizing quoted with
  | nil => exact (and_iff_right trivial).symm
  | cons c s ih =>
    rw [List.cons_append, IsUncut, ih, IsUncut, and_assoc]
    rfl

theorem isUncut_of_unbroken (h : ∀ c ∈ t, isBlank c = false) (quoted : Bool) :
    IsUncut quoted t := by
  induction t generalizing quoted with
  | nil => trivial
  | cons c t ih =>
    rw [List.forall_mem_cons] at h
    refine ⟨?_, ih h.2 _⟩
    intro hc
    exact Bool.noConfusion (h.1.symm.trans hc)

/-- A text is cut nowhere, or first at some blank. -/
theorem isUncut_or_exists (quoted : Bool) (t : Text) : IsUncut quoted t ∨
    ∃ front c rest, t = front ++ c :: rest ∧ IsUncut quoted front ∧ isBlank c = true ∧
      quotedBehind quoted front = false := by
  induction t generalizing quoted with
  | nil => exact .inl trivial
  | cons c t ih =>
    by_cases hcut : isBlank c = true ∧ quoted = false
    · exact .inr ⟨[], c, t, rfl, trivial, hcut.1, hcut.2⟩
    · have hc : isBlank c = true → quoted = true := by simpa using hcut
      obtain huncut | ⟨front, d, rest, rfl, hfront, hd, hquoted⟩ := ih (quoted != (c == '"'))
      · exact .inl ⟨hc, huncut⟩
      · exact .inr ⟨c :: front, d, rest, rfl, ⟨hc, hfront⟩, hd, hquoted⟩

/-- Where a text is cut, a blank stands behind an even number of quotes, counted from inside. -/
theorem isUncut_true_iff : IsUncut true t ↔ ShieldsBlanks t := by
  constructor
  · rintro huncut front c rest rfl hc
    have hrest := (isUncut_append.mp huncut).2
    exact (quotedBehind_eq_iff true front).mp (hrest.1 hc)
  · intro hshields
    obtain huncut | ⟨front, c, rest, rfl, -, hc, hquoted⟩ := isUncut_or_exists true t
    · exact huncut
    · have heven := hshields front c rest rfl hc
      rw [← quotedBehind_eq_iff true, hquoted] at heven
      cases heven

instance (t : Text) : Decidable (ShieldsBlanks t) := decidable_of_iff _ isUncut_true_iff

/-! ## Pieces -/

theorem passes (h : isBlank c = true → quoted = true) : (isBlank c && !quoted) = false := by
  cases hblank : isBlank c with
  | false => rfl
  | true => rw [h hblank]; rfl

theorem cut_of_isUncut (h : IsUncut quoted t) : cut quoted t = [t] := by
  induction t generalizing quoted with
  | nil => rfl
  | cons c t ih =>
    rw [cut, passes h.1, ih h.2]
    rfl

/-- The first cut leaves what stands in front of it as one piece. -/
theorem cut_append_cons (h : IsUncut quoted s) (hquoted : quotedBehind quoted s = false)
    (hc : isBlank c = true) (t : Text) : cut quoted (s ++ c :: t) = s :: cut false t := by
  induction s generalizing quoted with
  | nil =>
    obtain rfl : quoted = false := hquoted
    rw [List.nil_append, cut, hc]
    rfl
  | cons d s ih =>
    rw [List.cons_append, cut, passes h.1, ih h.2 hquoted]
    rfl

theorem phrases_of_isUncut (h : IsUncut false t) (hne : t ≠ []) : phrases t = [t] := by
  rw [phrases, pieces, cut_of_isUncut h]
  simp [hne]

theorem phrases_append_cons (h : IsUncut false s) (hquoted : quotedBehind false s = false)
    (hc : isBlank c = true) (hne : s ≠ []) (t : Text) :
    phrases (s ++ c :: t) = s :: phrases t := by
  rw [phrases, pieces, cut_append_cons h hquoted hc]
  simp [hne, phrases, pieces]

/-! ## Terms -/

/-- A text is written as it is, with no blank in it, or between quotes. -/
theorem text_cases (t : Text) : (Term.text (.text t) = t ∧ ∀ c ∈ t, isBlank c = false) ∨
    Term.text (.text t) = '"' :: t ++ ['"'] ∧ Term.needsQuotes t = true := by
  rw [Term.text]
  split
  · next h => exact .inr ⟨rfl, h⟩
  · next h => exact .inl ⟨rfl, Term.isBlank_of_plain h⟩

/-- A term is written as a phrase that shows it. -/
theorem shows_text (t : Text) : Shows (Term.text (.text t)) t :=
  (text_cases t).imp And.left And.left

theorem text_ne_nil_of_ne_nil (ht : t ≠ []) : Term.text (.text t) ≠ [] := by
  obtain ⟨h, -⟩ | ⟨h, -⟩ := text_cases t
  · rwa [h]
  · rw [h]
    exact List.cons_ne_nil _ _

/-- No term begins with a blank as it is written. -/
theorem isBlank_head_text (h : (Term.text (.text t)).head? = some c) : isBlank c = false := by
  obtain ⟨hplain, hblank⟩ | ⟨hquoted, -⟩ := text_cases t
  · rw [hplain] at h
    exact hblank c (List.mem_of_head? h)
  · rw [hquoted] at h
    obtain rfl := Option.some.inj h
    decide

/-- A term is cut nowhere exactly if its quotes shield its blanks. -/
theorem isUncut_text_iff (t : Text) : IsUncut false (Term.text (.text t)) ↔ ShieldsBlanks t := by
  obtain ⟨h, hblank⟩ | ⟨h, -⟩ := text_cases t
  · rw [h, ← isUncut_true_iff]
    exact iff_of_true (isUncut_of_unbroken hblank false) (isUncut_of_unbroken hblank true)
  · have hlast (q : Bool) : IsUncut q ['"'] := ⟨nofun, trivial⟩
    have hfirst : IsUncut false ('"' :: t ++ ['"']) ↔ IsUncut true (t ++ ['"']) :=
      and_iff_right nofun
    rw [h, hfirst, isUncut_append, and_iff_left (hlast _), isUncut_true_iff]

/-- Behind a term a reader is outside of quotes exactly if the term has an even number of them. -/
theorem quotedBehind_text_iff (t : Text) :
    quotedBehind false (Term.text (.text t)) = false ↔ Even (t.count '"') := by
  rw [quotedBehind_eq_iff]
  obtain ⟨h, -⟩ | ⟨h, -⟩ := text_cases t
  · rw [h]
  · rw [h, List.count_append, List.count_cons_self, List.count_singleton_self, Nat.even_add_one,
      Nat.even_add_one, not_not]

/-! ## Series -/

/-- A text that stands behind itself moved by one place holds one character only, and goes on with
it. -/
theorem eq_of_cons_append_eq {a : Char} {more rest : Text} (h : a :: t ++ more = t ++ rest) :
    (∀ c ∈ t, c = a) ∧ rest.head? = some a := by
  induction t generalizing a with
  | nil =>
    obtain rfl : a :: more = rest := h
    exact ⟨nofun, rfl⟩
  | cons c t ih =>
    obtain ⟨rfl, htail⟩ := List.cons.inj h
    obtain ⟨hall, hhead⟩ := ih htail
    exact ⟨List.forall_mem_cons.mpr ⟨rfl, hall⟩, hhead⟩

/-- At the start of a series, a phrase that shows the first term is what the term is written as. -/
theorem eq_text_of_shows {phrase rest : Text} (hshows : Shows phrase t)
    (hstart : phrase <+: Term.text (.text t) ++ rest) (hrest : rest.head? ≠ some '"') :
    phrase = Term.text (.text t) := by
  obtain ⟨more, hmore⟩ := hstart
  obtain ⟨h, -⟩ | ⟨h, hneeds⟩ := text_cases t
  · rw [h] at hmore ⊢
    obtain rfl | rfl := hshows
    · rfl
    · -- the quotes would have to be those of the term, and what follows it one too
      rw [List.append_assoc] at hmore
      exact absurd (eq_of_cons_append_eq hmore).2 hrest
  · rw [h] at hmore ⊢
    obtain rfl | rfl := hshows
    · -- the term would hold quotes only, and need none
      rw [List.append_assoc] at hmore
      have hquotes := (eq_of_cons_append_eq hmore.symm).1
      obtain ⟨c, hc, hneed⟩ := List.any_eq_true.mp hneeds
      rw [hquotes c hc] at hneed
      cases hneed
    · rfl

/-- A phrase that is cut off at the start of a series holds something. -/
theorem ne_nil_of_cut {front rest more : Text}
    (h : Term.text (.text t) ++ rest = front ++ c :: more) (hc : isBlank c = true) (ht : t ≠ []) :
    front ≠ [] := by
  rintro rfl
  have hhead : (Term.text (.text t)).head? = some c := by
    have := congrArg List.head? h
    rwa [List.head?_append_of_ne_nil _ (text_ne_nil_of_ne_nil ht)] at this
  exact Bool.noConfusion ((isBlank_head_text hhead).symm.trans hc)

theorem shows_single_iff (ht : t ≠ []) :
    List.Forall₂ Shows (phrases (Term.text (.text t))) [t] ↔ ShieldsBlanks t := by
  rw [← isUncut_text_iff]
  constructor
  · intro hshows
    obtain huncut | ⟨front, c, more, h, hfront, hc, hquoted⟩ :=
      isUncut_or_exists false (Term.text (.text t))
    · exact huncut
    · have hall : Term.text (.text t) ++ [] = front ++ c :: more := by rw [List.append_nil, h]
      have hne : front ≠ [] := ne_nil_of_cut hall hc ht
      have hstart : front <+: Term.text (.text t) ++ [] := ⟨c :: more, hall.symm⟩
      rw [h, phrases_append_cons hfront hquoted hc hne] at hshows
      obtain rfl : front = Term.text (.text t) :=
        eq_text_of_shows (List.forall₂_cons.mp hshows).1 hstart nofun
      cases List.self_eq_append_right.mp h
  · intro huncut
    rw [phrases_of_isUncut huncut (text_ne_nil_of_ne_nil ht)]
    exact .cons (shows_text t) .nil

theorem shows_cons_iff (ht : t ≠ []) {rest : Text} {ts : List Text} (hts : ts ≠ []) :
    List.Forall₂ Shows (phrases (Term.text (.text t) ++ ' ' :: rest)) (t :: ts) ↔
      (ShieldsBlanks t ∧ Even (t.count '"')) ∧ List.Forall₂ Shows (phrases rest) ts := by
  rw [← isUncut_text_iff, ← quotedBehind_text_iff]
  constructor
  · intro hshows
    obtain huncut | ⟨front, c, more, h, hfront, hc, hquoted⟩ :=
      isUncut_or_exists false (Term.text (.text t) ++ ' ' :: rest)
    · -- all of the series would be one phrase
      rw [phrases_of_isUncut huncut (by simp)] at hshows
      exact absurd (List.forall₂_nil_left_iff.mp (List.forall₂_cons.mp hshows).2) hts
    · have hne : front ≠ [] := ne_nil_of_cut h hc ht
      have hstart : front <+: Term.text (.text t) ++ ' ' :: rest := ⟨c :: more, h.symm⟩
      rw [h, phrases_append_cons hfront hquoted hc hne] at hshows
      obtain ⟨hfirst, hothers⟩ := List.forall₂_cons.mp hshows
      obtain rfl : front = Term.text (.text t) := eq_text_of_shows hfirst hstart (by simp)
      obtain ⟨-, rfl⟩ := List.cons.inj (List.append_cancel_left h)
      exact ⟨⟨hfront, hquoted⟩, hothers⟩
  · rintro ⟨⟨huncut, hquoted⟩, hothers⟩
    rw [phrases_append_cons huncut hquoted rfl (text_ne_nil_of_ne_nil ht)]
    exact .cons (shows_text t) hothers

/-- **A reader finds the terms** of a series, each as it is or between quotes, exactly if each blank
in a term stands behind an even number of its quotes and each term but the last has an even number
of them. -/
theorem phrases_series_iff {ts : List Text} (hts : ∀ t ∈ ts, t ≠ []) :
    List.Forall₂ Shows (phrases (Term.series (ts.map .text))) ts ↔
      (∀ t ∈ ts, ShieldsBlanks t) ∧ ∀ t ∈ ts.dropLast, Even (t.count '"') := by
  induction ts with
  | nil => exact iff_of_true .nil ⟨nofun, nofun⟩
  | cons t ts ih =>
    rw [List.forall_mem_cons] at hts
    rcases ts with _ | ⟨u, ts⟩
    · rw [List.forall_mem_singleton, List.map_singleton, Term.series_singleton]
      exact (shows_single_iff hts.1).trans (and_iff_left nofun).symm
    · have hseries : Term.series ((t :: u :: ts).map .text) =
          Term.text (.text t) ++ ' ' :: Term.series ((u :: ts).map .text) := by
        exact (Term.series_cons_cons ..).trans (List.append_assoc ..)
      have hshields : (∀ x ∈ t :: u :: ts, ShieldsBlanks x) ↔
          ShieldsBlanks t ∧ ∀ x ∈ u :: ts, ShieldsBlanks x := List.forall_mem_cons
      have heven : (∀ x ∈ (t :: u :: ts).dropLast, Even (x.count '"')) ↔
          Even (t.count '"') ∧ ∀ x ∈ (u :: ts).dropLast, Even (x.count '"') :=
        List.forall_mem_cons
      rw [hseries, shows_cons_iff hts.1 (List.cons_ne_nil _ _), ih hts.2, hshields, heven,
        and_and_and_comm]

/-- Quotes around a single word within a term leave the term in one phrase. -/
theorem phrases_series_around_word :
    let ts := ["say \"a\" again".toList, "d:".toList, "e\"".toList]
    (∀ t ∈ ts, t ≠ []) ∧ (∀ t ∈ ts, ShieldsBlanks t) ∧
      (∀ t ∈ ts.dropLast, Even (t.count '"')) ∧
      List.Forall₂ Shows (phrases (Term.series (ts.map .text))) ts := by
  intro ts
  have hts : ∀ t ∈ ts, t ≠ [] := by decide
  have hshields : ∀ t ∈ ts, ShieldsBlanks t := by decide
  have heven : ∀ t ∈ ts.dropLast, Even (t.count '"') := by decide
  exact ⟨hts, hshields, heven, (phrases_series_iff hts).mpr ⟨hshields, heven⟩⟩

/-- Quotes in a term let one of its blanks out, or the blank behind it in. -/
theorem phrases_series_broken :
    let ts := ["a\" b".toList]
    let us := ["a\"".toList, "b".toList]
    (∀ t ∈ ts ++ us, t ≠ []) ∧
      phrases (Term.series (ts.map .text)) = ["\"a\"".toList, "b\"".toList] ∧
      ¬ List.Forall₂ Shows (phrases (Term.series (ts.map .text))) ts ∧
      phrases (Term.series (us.map .text)) = ["a\" b".toList] ∧
      ¬ List.Forall₂ Shows (phrases (Term.series (us.map .text))) us := by
  intro ts us
  have hout : phrases (Term.series (ts.map .text)) = ["\"a\"".toList, "b\"".toList] := by decide
  have hin : phrases (Term.series (us.map .text)) = ["a\" b".toList] := by decide
  refine ⟨by decide, hout, ?_, hin, ?_⟩
  · rw [hout]
    intro h
    cases h.length_eq
  · rw [hin]
    intro h
    cases h.length_eq

end PortalSearch.Phrase
