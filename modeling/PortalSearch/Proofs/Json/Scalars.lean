import Mathlib.Data.List.Basic
import PortalSearch.Proofs.Json.Grammar

/-!
# Reading names, numbers and texts

The parts of JSON that hold no other values are found as far as the grammar lets them go on. A text
ends at its closing quote. A number has no such mark: it ends where no digit, point or exponent can
go on with it, as in front of everything that may follow a value (`Stops`).

Main results: `beginsWith_of_readScalar` and `Magnitude.yields_number` for names and numbers,
`quotes_of_readUnits` and `readUnits_of_quotes` for what stands between quotes.
-/

namespace PortalSearch.Json

variable {s t rest : Text} {c : Char} {v : Value} {negative : Bool} {digits limit : Nat}

/-! ## Blanks -/

theorem blankUpTo_refl (s : Text) : BlankUpTo s s := ⟨[], nofun, rfl⟩

theorem skipBlanks_cons_of_mem (hc : c ∈ blanks) (s : Text) :
    skipBlanks (c :: s) = skipBlanks s := by
  have hall : blanks.all (fun x => x == ' ' || x == '\t' || x == '\n' || x == '\r') = true := by
    decide
  exact List.dropWhile_cons_of_pos (List.all_eq_true.mp hall c hc)

theorem skipBlanks_cons_of_not_mem (hc : c ∉ blanks) (s : Text) :
    skipBlanks (c :: s) = c :: s := by
  simp only [blanks, List.mem_cons, List.not_mem_nil, or_false, not_or] at hc
  exact List.dropWhile_cons_of_neg (by simp [hc])

theorem blankUpTo_skipBlanks (s : Text) : BlankUpTo s (skipBlanks s) := by
  induction s with
  | nil => exact blankUpTo_refl []
  | cons c s ih =>
    by_cases hc : c ∈ blanks
    · obtain ⟨front, hfront, hs⟩ := ih
      rw [skipBlanks_cons_of_mem hc]
      exact ⟨c :: front, List.forall_mem_cons.mpr ⟨hc, hfront⟩, congrArg (c :: ·) hs⟩
    · rw [skipBlanks_cons_of_not_mem hc]
      exact blankUpTo_refl _

theorem BlankUpTo.skipBlanks_eq (h : BlankUpTo s rest) : skipBlanks s = skipBlanks rest := by
  obtain ⟨front, hfront, rfl⟩ := h
  induction front with
  | nil => rfl
  | cons c front ih =>
    obtain ⟨hc, hfront⟩ := List.forall_mem_cons.mp hfront
    rw [List.cons_append, skipBlanks_cons_of_mem hc, ih hfront]

theorem BlankUpTo.length_le (h : BlankUpTo s rest) : rest.length ≤ s.length := by
  obtain ⟨front, -, rfl⟩ := h
  rw [List.length_append]
  exact Nat.le_add_left _ _

/-- Whether a value ends in front of a text: it is empty, or begins with a blank or a mark that may
follow a value. -/
def Stops (rest : Text) : Prop := ∀ c ∈ rest.head?, c ∈ blanks ∨ c ∈ [',', ']', '}']

theorem BlankUpTo.stops (h : BlankUpTo s rest) (hrest : Stops rest) : Stops s := by
  obtain ⟨front, hfront, rfl⟩ := h
  cases front with
  | nil => exact hrest
  | cons c front =>
    rintro x hx
    obtain rfl : c = x := Option.some.inj hx
    exact .inl (hfront c List.mem_cons_self)

theorem stops_nil : Stops [] := nofun

theorem stops_cons (hc : c ∈ [',', ']', '}']) (rest : Text) : Stops (c :: rest) := by
  rintro x hx
  obtain rfl : c = x := Option.some.inj hx
  exact .inr hc

/-! ## Texts -/

theorem quotes_of_readUnits {ns : List Nat} (h : readUnits s = some (ns, rest)) :
    Quotes s ns rest := by
  fun_induction readUnits s generalizing ns rest with
  | case2 s =>
    obtain ⟨rfl, rfl⟩ := Prod.mk.inj (Option.some.inj h)
    exact .close s
  | case3 a b c d s n ms t hs hn ih =>
    obtain ⟨rfl, rfl⟩ := Prod.mk.inj (Option.some.inj h)
    exact .unit hn (ih hs)
  | case5 c s _ x ms t hs hx ih =>
    obtain ⟨rfl, rfl⟩ := Prod.mk.inj (Option.some.inj h)
    exact .short hx (ih hs)
  | case8 c s hquote _ _ hplain ms t hs ih =>
    obtain ⟨rfl, rfl⟩ := Prod.mk.inj (Option.some.inj h)
    rw [not_or, Nat.not_lt] at hplain
    exact .plain hquote hplain.2 hplain.1 (ih hs)
  | _ => cases h

theorem readUnits_of_quotes {ns : List Nat} (h : Quotes s ns rest) :
    readUnits s = some (ns, rest) := by
  induction h with
  | close rest => rfl
  | plain hquote hescape hcontrol _ ih =>
    rw [readUnits, ih, if_neg (not_or.mpr ⟨Nat.not_lt.mpr hcontrol, hescape⟩)]
    · exact hquote
    · exact fun _ _ _ _ _ h => absurd h hescape
    · exact fun _ _ h => absurd h hescape
  | short hc _ ih =>
    rw [readUnits, hc, ih]
    rintro _ _ _ _ _ rfl
    cases hc
  | unit hn _ ih => rw [readUnits, hn, ih]

theorem Quotes.length_lt {ns : List Nat} (h : Quotes s ns rest) : rest.length < s.length := by
  induction h with
  | close rest => exact Nat.lt_succ_self _
  | plain _ _ _ _ ih | short _ _ ih | unit _ _ ih =>
    simp only [List.length_cons]
    omega

/-! ## Numbers -/

/-- Whether a text does not begin with a digit. -/
def NoDigit (rest : Text) : Prop := ∀ c ∈ rest.head?, c.isDigit = false

theorem takeWhile_append (hs : AllDigits s) (hrest : NoDigit rest) :
    (s ++ rest).takeWhile Char.isDigit = s := by
  rw [List.takeWhile_append_of_pos hs]
  cases rest with
  | nil => exact List.append_nil s
  | cons c rest =>
    rw [List.takeWhile_cons_of_neg (by simp [hrest c rfl]), List.append_nil]

theorem dropWhile_append (hs : AllDigits s) (hrest : NoDigit rest) :
    (s ++ rest).dropWhile Char.isDigit = rest := by
  rw [List.dropWhile_append_of_pos hs]
  cases rest with
  | nil => rfl
  | cons c rest => exact List.dropWhile_cons_of_neg (by simp [hrest c rfl])

theorem allDigits_takeWhile (s : Text) : AllDigits (s.takeWhile Char.isDigit) :=
  List.all_eq_true.mp List.all_takeWhile

/-! ### The whole part -/

theorem isWholePart_of_readWhole (h : readWhole s = some (t, rest)) :
    s = t ++ rest ∧ IsWholePart t := by
  rw [readWhole.eq_def] at h
  split at h
  · obtain ⟨rfl, rfl⟩ := Prod.mk.inj (Option.some.inj h)
    exact ⟨rfl, .inl rfl⟩
  · next c s hzero =>
    split at h
    · next hc =>
      obtain ⟨rfl, rfl⟩ := Prod.mk.inj (Option.some.inj h)
      refine ⟨List.takeWhile_append_dropWhile.symm, .inr ⟨?_, ?_, allDigits_takeWhile _⟩⟩
      · rw [List.takeWhile_cons_of_pos hc]
        exact List.cons_ne_nil _ _
      · rw [List.takeWhile_cons_of_pos hc]
        exact fun h => hzero (Option.some.inj h)
    · cases h
  · cases h

theorem IsWholePart.allDigits (h : IsWholePart t) : AllDigits t := by
  rcases h with rfl | ⟨-, -, h⟩
  · exact List.forall_mem_singleton.mpr rfl
  · exact h

theorem IsWholePart.exists_cons (h : IsWholePart t) : ∃ c w, t = c :: w ∧ c.isDigit = true := by
  have hdigits := h.allDigits
  rcases h with rfl | ⟨hne, -, -⟩
  · exact ⟨'0', [], rfl, rfl⟩
  · obtain ⟨c, w, rfl⟩ := List.exists_cons_of_ne_nil hne
    exact ⟨c, w, rfl, hdigits c List.mem_cons_self⟩

theorem readWhole_append (h : IsWholePart t) (hrest : NoDigit rest) :
    readWhole (t ++ rest) = some (t, rest) := by
  rcases h with rfl | ⟨hne, hzero, hdigits⟩
  · rfl
  · obtain ⟨c, w, rfl⟩ := List.exists_cons_of_ne_nil hne
    rw [List.cons_append, readWhole, if_pos (hdigits c List.mem_cons_self), ← List.cons_append,
      takeWhile_append hdigits hrest, dropWhile_append hdigits hrest]
    rintro rfl
    exact hzero rfl

/-! ### The fraction -/

theorem fraction_of_readFraction (h : readFraction s = (t, rest)) :
    s = fractionText t ++ rest ∧ AllDigits t := by
  rw [readFraction.eq_def] at h
  split at h
  · next s =>
    dsimp only at h
    split at h
    · obtain ⟨rfl, rfl⟩ := Prod.mk.inj h
      exact ⟨rfl, nofun⟩
    · next hne =>
      obtain ⟨rfl, rfl⟩ := Prod.mk.inj h
      rw [fractionText, if_neg hne, List.cons_append, List.takeWhile_append_dropWhile]
      exact ⟨rfl, allDigits_takeWhile s⟩
  · obtain ⟨rfl, rfl⟩ := Prod.mk.inj h
    exact ⟨rfl, nofun⟩

theorem readFraction_append (h : AllDigits t) (hrest : NoDigit rest) (hpoint : '.' ∉ rest.head?) :
    readFraction (fractionText t ++ rest) = (t, rest) := by
  rw [fractionText]
  split
  · next hnil =>
    subst hnil
    rw [List.nil_append, readFraction.eq_def]
    split
    · next rest => exact absurd rfl hpoint
    · rfl
  · next hne =>
    rw [List.cons_append, readFraction, takeWhile_append h hrest, dropWhile_append h hrest]
    exact if_neg hne

/-! ### The exponent -/

theorem readSign_eq (s : Text) :
    ∃ sign, (sign, (readSign s).1) ∈ exponentSigns ∧ s = sign ++ (readSign s).2 := by
  rw [readSign.eq_def]
  split
  · exact ⟨['-'], by simp [exponentSigns], rfl⟩
  · exact ⟨['+'], by simp [exponentSigns], rfl⟩
  · exact ⟨[], by simp [exponentSigns], rfl⟩

theorem readSign_append {sign : Text} {lowers : Bool} (hsign : (sign, lowers) ∈ exponentSigns)
    (hne : t ≠ []) (ht : AllDigits t) : readSign (sign ++ (t ++ rest)) = (lowers, t ++ rest) := by
  obtain ⟨c, t, rfl⟩ := List.exists_cons_of_ne_nil hne
  have hc := ht c List.mem_cons_self
  simp only [exponentSigns, List.mem_cons, List.not_mem_nil, or_false, Prod.mk.injEq] at hsign
  rcases hsign with ⟨rfl, rfl⟩ | ⟨rfl, rfl⟩ | ⟨rfl, rfl⟩
  · rw [List.nil_append, List.cons_append, readSign]
    · rintro _ ⟨rfl, -⟩
      cases hc
    · rintro _ ⟨rfl, -⟩
      cases hc
  · rfl
  · rfl

/-- Nothing is taken off a text that begins with no exponent. -/
theorem rest_of_readExponent_none (h : readExponent s = (none, rest)) : rest = s := by
  rw [readExponent.eq_def] at h
  split at h
  · next c s =>
    split at h
    · dsimp only at h
      split at h
      · exact (Prod.mk.inj h).2.symm
      · cases h
    · exact (Prod.mk.inj h).2.symm
  · exact (Prod.mk.inj h).2.symm

theorem exponent_of_readExponent {n : Int} (h : readExponent s = (some n, rest)) :
    ∃ mark sign lowers e, (mark = 'e' ∨ mark = 'E') ∧ (sign, lowers) ∈ exponentSigns ∧ e ≠ [] ∧
      AllDigits e ∧ s = mark :: (sign ++ e) ++ rest ∧ n = signed lowers (ofDigits e) := by
  rw [readExponent.eq_def] at h
  split at h
  · next mark s =>
    split at h
    · next hmark =>
      dsimp only at h
      split at h
      · cases h
      · next hne =>
        obtain ⟨hn, rfl⟩ := Prod.mk.inj h
        obtain ⟨sign, hsign, hs⟩ := readSign_eq s
        refine ⟨mark, sign, (readSign s).1, _, hmark, hsign, hne, allDigits_takeWhile _, ?_,
          (Option.some.inj hn).symm⟩
        rw [List.cons_append, List.append_assoc, List.takeWhile_append_dropWhile, ← hs]
    · cases h
  · cases h

theorem readExponent_append {mark : Char} {sign : Text} {lowers : Bool}
    (hmark : mark = 'e' ∨ mark = 'E') (hsign : (sign, lowers) ∈ exponentSigns) (hne : t ≠ [])
    (ht : AllDigits t) (hrest : NoDigit rest) :
    readExponent (mark :: (sign ++ t) ++ rest) = (some (signed lowers (ofDigits t)), rest) := by
  rw [List.cons_append, List.append_assoc, readExponent, if_pos hmark,
    readSign_append hsign hne ht]
  dsimp only
  rw [takeWhile_append ht hrest, dropWhile_append ht hrest, if_neg hne]
  rfl

/-! ### Numbers as a whole -/

theorem Stops.noDigit (h : Stops rest) : NoDigit rest := by
  have hall : (blanks ++ [',', ']', '}']).all (!·.isDigit) = true := by decide
  intro c hc
  simpa using List.all_eq_true.mp hall c (List.mem_append.mpr (h c hc))

theorem Stops.not_mem_head {c : Char} (h : Stops rest) (hc : c ∉ blanks ++ [',', ']', '}']) :
    c ∉ rest.head? :=
  fun hmem => hc (List.mem_append.mpr (h c hmem))

theorem readExponent_of_stops (h : Stops rest) : readExponent rest = (none, rest) := by
  cases rest with
  | nil => rfl
  | cons c rest =>
    have hmark : ¬ (c = 'e' ∨ c = 'E') := by
      rintro (rfl | rfl)
      · exact h.not_mem_head (by decide) rfl
      · exact h.not_mem_head (by decide) rfl
    rw [readExponent, if_neg hmark]

theorem magnitude_of_readMagnitude (h : readMagnitude limit negative s = .ok (v, rest)) :
    ∃ t, s = t ++ rest ∧ Magnitude limit negative t v := by
  rw [readMagnitude] at h
  split at h
  · cases h
  · next w t hw =>
    obtain ⟨rfl, hwhole⟩ := isWholePart_of_readWhole hw
    obtain ⟨f, u, hfraction⟩ : ∃ f u, readFraction t = (f, u) := ⟨_, _, rfl⟩
    obtain ⟨rfl, hf⟩ := fraction_of_readFraction hfraction
    rw [hfraction] at h
    dsimp only at h
    split at h
    · next u' he =>
      obtain rfl := rest_of_readExponent_none he
      split at h
      · next hnil =>
        subst hnil
        split at h
        · cases h
        · next hdigits =>
          obtain ⟨rfl, rfl⟩ := Prod.mk.inj (Except.ok.inj h)
          exact ⟨w, rfl, .whole hwhole (Nat.le_of_not_lt hdigits)⟩
      · next hne =>
        obtain ⟨rfl, rfl⟩ := Prod.mk.inj (Except.ok.inj h)
        exact ⟨_, (List.append_assoc _ _ _).symm, .fraction hwhole hne hf⟩
    · next n u' he =>
      obtain ⟨rfl, rfl⟩ := Prod.mk.inj (Except.ok.inj h)
      obtain ⟨mark, sign, lowers, e, hmark, hsign, hne, hdigits, rfl, rfl⟩ :=
        exponent_of_readExponent he
      refine ⟨_, ?_, .exponent hwhole hf hmark hsign hne hdigits⟩
      rw [List.append_assoc, List.append_assoc]

/-- Whether a reader gives something back, or gives up at a limit if not everything is within its
limits. -/
def Yields {α : Type} (within : Prop) (result : Except ReadError α) (a : α) : Prop :=
  result = .ok a ∨ ¬ within ∧ ∃ e, result = .error e ∧ e ≠ .malformed

theorem noDigit_fractionText (f : Text) (hrest : NoDigit rest) :
    NoDigit (fractionText f ++ rest) := by
  rw [fractionText]
  split
  · exact hrest
  · rintro x hx
    obtain rfl : '.' = x := Option.some.inj hx
    rfl

theorem noDigit_of_mark {mark : Char} (hmark : mark = 'e' ∨ mark = 'E') (s : Text) :
    NoDigit (mark :: s) ∧ '.' ∉ (mark :: s).head? := by
  rcases hmark with rfl | rfl
  · exact ⟨fun _ hc => Option.some.inj hc ▸ rfl, by simp⟩
  · exact ⟨fun _ hc => Option.some.inj hc ▸ rfl, by simp⟩

theorem readFraction_of_stops {f : Text} (hf : AllDigits f) (hrest : Stops rest) :
    readFraction (fractionText f ++ rest) = (f, rest) :=
  readFraction_append hf hrest.noDigit (hrest.not_mem_head (by decide))

/-- The number of a whole part, a fraction and perhaps an exponent. -/
def numberOf (negative : Bool) (whole fraction : Text) : Option Int → Value
  | none =>
    if fraction = [] then .int (signed negative (ofDigits whole))
    else .float (.ofDecimal negative (ofDigits (whole ++ fraction)) (-fraction.length))
  | some exponent =>
    .float (.ofDecimal negative (ofDigits (whole ++ fraction)) (exponent - fraction.length))

/-- A number is made of what is read part by part. Only a whole number is held to the limit. -/
theorem Magnitude.exists_parts (h : Magnitude digits negative t v) (hrest : Stops rest) :
    ∃ whole fraction exponent afterWhole afterFraction,
      readWhole (t ++ rest) = some (whole, afterWhole) ∧
      readFraction afterWhole = (fraction, afterFraction) ∧
      readExponent afterFraction = (exponent, rest) ∧
      v = numberOf negative whole fraction exponent ∧
      (exponent = none → fraction = [] → whole.length ≤ digits) := by
  cases h with
  | @whole _ hw hdigits =>
    exact ⟨t, [], none, rest, rest, readWhole_append hw hrest.noDigit,
      readFraction_of_stops (f := []) nofun hrest, readExponent_of_stops hrest, rfl,
      fun _ _ => hdigits⟩
  | @fraction w f hw hne hf =>
    refine ⟨w, f, none, fractionText f ++ rest, rest, ?_, readFraction_of_stops hf hrest,
      readExponent_of_stops hrest, (if_neg hne).symm, fun _ hnil => absurd hnil hne⟩
    rw [List.append_assoc]
    exact readWhole_append hw (noDigit_fractionText f hrest.noDigit)
  | @exponent w f sign e mark lowers hw hf hmark hsign hne he =>
    obtain ⟨hdigit, hpoint⟩ := noDigit_of_mark hmark (sign ++ e ++ rest)
    refine ⟨w, f, some (signed lowers (ofDigits e)), fractionText f ++ mark :: (sign ++ e ++ rest),
      mark :: (sign ++ e ++ rest), ?_, readFraction_append hf hdigit hpoint, ?_, rfl, nofun⟩
    · rw [List.append_assoc, List.append_assoc, List.cons_append]
      exact readWhole_append hw (noDigit_fractionText f hdigit)
    · rw [← List.cons_append]
      exact readExponent_append hmark hsign hne he hrest.noDigit

theorem Magnitude.yields (h : Magnitude digits negative t v) (hrest : Stops rest) :
    Yields (digits ≤ limit) (readMagnitude limit negative (t ++ rest)) (v, rest) := by
  obtain ⟨whole, fraction, exponent, afterWhole, afterFraction, hwhole, hfraction, hexponent, rfl,
    hdigits⟩ := h.exists_parts hrest
  rw [readMagnitude, hwhole]
  dsimp only
  rw [hfraction]
  dsimp only
  rw [hexponent]
  cases exponent with
  | some n => exact .inl rfl
  | none =>
    dsimp only [numberOf]
    split
    · next hnil =>
      split
      · next hmany =>
        have hfew := hdigits rfl hnil
        exact .inr ⟨fun hlimit => by omega, _, rfl, nofun⟩
      · exact .inl rfl
    · exact .inl rfl

theorem Magnitude.exists_cons (h : Magnitude digits negative t v) :
    ∃ c s, t = c :: s ∧ c.isDigit = true := by
  cases h with
  | whole hw => exact hw.exists_cons
  | fraction hw | exponent hw =>
    obtain ⟨c, w, rfl, hc⟩ := hw.exists_cons
    exact ⟨c, _, rfl, hc⟩

/-! ### Names and numbers -/

theorem readScalar_of_mem_names (h : (t, v) ∈ names) (rest : Text) :
    readScalar digits (t ++ rest) = .ok (v, rest) := by
  simp only [names, List.mem_cons, List.not_mem_nil, or_false, Prod.mk.injEq] at h
  rcases h with ⟨rfl, rfl⟩ | ⟨rfl, rfl⟩ | ⟨rfl, rfl⟩ | ⟨rfl, rfl⟩ | ⟨rfl, rfl⟩ | ⟨rfl, rfl⟩
  all_goals rfl

/-- A number does not begin as a name does. -/
theorem readScalar_of_isDigit (negative : Bool) (hc : c.isDigit = true) (s : Text) :
    readScalar digits (signText negative ++ c :: s) =
      readNumber digits (signText negative ++ c :: s) := by
  have hall : ['n', 't', 'f', 'N', 'I', '-'].all (!·.isDigit) = true := by decide
  have hne : ∀ x ∈ ['n', 't', 'f', 'N', 'I', '-'], x ≠ c := by
    rintro x hx rfl
    simpa [hc] using List.all_eq_true.mp hall x hx
  simp only [List.forall_mem_cons] at hne
  have hnone : (names.findSome? fun n =>
      (n.1.isPrefixOf? (signText negative ++ c :: s)).map fun rest => (n.2, rest)) = none := by
    cases negative with
    | false => simp [names, signText, List.isPrefixOf?, hne]
    | true => simp [names, signText, List.isPrefixOf?, hne]
  rw [readScalar, hnone]

theorem Magnitude.yields_number (h : Magnitude digits negative t v) (hrest : Stops rest) :
    Yields (digits ≤ limit) (readScalar limit (signText negative ++ (t ++ rest))) (v, rest) := by
  obtain ⟨c, s, rfl, hc⟩ := h.exists_cons
  rw [List.cons_append, readScalar_of_isDigit negative hc, ← List.cons_append]
  cases negative with
  | true => exact h.yields hrest
  | false =>
    have hnumber : readNumber limit (c :: s ++ rest) =
        readMagnitude limit false (c :: s ++ rest) := by
      rw [List.cons_append, readNumber]
      rintro _ ⟨rfl, -⟩
      cases hc
    change Yields _ (readNumber limit (c :: s ++ rest)) _
    rw [hnumber]
    exact h.yields hrest

theorem beginsWith_of_readScalar (h : readScalar digits s = .ok (v, rest)) (depth : Nat) :
    BeginsWith digits depth s (.value v) rest := by
  rw [readScalar] at h
  split at h
  · next r hr =>
    obtain rfl := Except.ok.inj h
    obtain ⟨⟨t, w⟩, hmem, hdrop⟩ := List.exists_of_findSome?_eq_some hr
    obtain ⟨rest', hrest, heq⟩ := Option.map_eq_some_iff.mp hdrop
    obtain ⟨rfl, rfl⟩ := Prod.mk.inj heq
    rw [← List.append_eq_of_isPrefixOf?_eq_some hrest]
    exact .name hmem _
  · rw [readNumber.eq_def] at h
    split at h
    · obtain ⟨t, rfl, ht⟩ := magnitude_of_readMagnitude h
      exact .number true ht rest
    · obtain ⟨t, rfl, ht⟩ := magnitude_of_readMagnitude h
      exact .number false ht rest

end PortalSearch.Json
