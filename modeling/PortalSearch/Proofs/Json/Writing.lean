import Mathlib.Data.Bool.AllAny
import Mathlib.Data.List.Forall2
import PortalSearch.Json.Writer
import PortalSearch.Proofs.Json.Reading

/-!
# What is written is read back

A value that is made of nulls, truth values, whole numbers, texts and lists has a JSON text of
printable characters of the basic set, which is JSON for that value and for nothing else. Characters
of a text are written one by one, so what is read off each does not depend on what stands behind it
(`quotes_escapeChar`); the two halves of a character outside the basic plane are put together again
only when all units of the text are known (`ofUnits_units_append`).

Writing is described without limits. A machine with limits reads the text back if the value keeps
within them: `Fits` goes by the same two numbers as the grammar.

Main results: `exists_isTextOf` and `Fits.exists_writes`.
-/

namespace PortalSearch

/-! ## Digits -/

namespace Text

variable {n width : Nat}

theorem ofHex_one (h : n < 16) : ofHex 1 n = [Nat.digitChar n] := by
  rw [ofHex, Nat.toDigits_of_lt_base h]
  rfl

/-- The last digit of a number that is filled up with zeros. -/
theorem ofHex_succ (hwidth : 0 < width) (n : Nat) :
    ofHex (width + 1) n = ofHex width (n / 16) ++ [Nat.digitChar (n % 16)] := by
  rcases Nat.lt_or_ge n 16 with hn | hn
  · obtain ⟨w, rfl⟩ := Nat.exists_eq_add_one_of_ne_zero (Nat.ne_of_gt hwidth)
    rw [Nat.div_eq_of_lt hn, Nat.mod_eq_of_lt hn, ofHex, ofHex, Nat.toDigits_of_lt_base hn,
      Nat.toDigits_zero, padZeros, padZeros, ← List.replicate_succ']
    rfl
  · rw [ofHex, ofHex, Nat.toDigits_of_base_le (by decide) hn, padZeros, padZeros,
      List.length_append, List.length_singleton, Nat.add_sub_add_right, List.append_assoc]

theorem ofHex_four (h : n < 0x10000) : ofHex 4 n = [Nat.digitChar (n / 16 / 16 / 16),
    Nat.digitChar (n / 16 / 16 % 16), Nat.digitChar (n / 16 % 16), Nat.digitChar (n % 16)] := by
  rw [ofHex_succ (by decide), ofHex_succ (by decide), ofHex_succ (by decide), ofHex_one (by omega)]
  rfl

/-- A number that is not zero does not begin with one. -/
theorem head?_ofNat (h : 0 < n) : (ofNat n).head? ≠ some '0' := by
  rw [ofNat]
  induction n using Nat.strongRecOn with
  | ind n ih =>
    rcases Nat.lt_or_ge n 10 with hn | hn
    · have hall : ∀ m ∈ List.range 10, 0 < m → [Nat.digitChar m].head? ≠ some '0' := by decide
      rw [Nat.toDigits_of_lt_base hn]
      exact hall n (List.mem_range.mpr hn) h
    · rw [Nat.toDigits_of_base_le (by decide) hn, List.head?_append_of_ne_nil _ Nat.toDigits_ne_nil]
      exact ih (n / 10) (by omega) (by omega)

end Text

namespace Json

/-- Whether a character is a printable one of the basic set. -/
def IsBasic (c : Char) : Prop := 0x20 ≤ c.toNat ∧ c.toNat ≤ 0x7E

instance (c : Char) : Decidable (IsBasic c) := inferInstanceAs (Decidable (_ ∧ _))

/-- Whether a text has only such characters. -/
def AllBasic (t : Text) : Prop := ∀ c ∈ t, IsBasic c

instance (t : Text) : Decidable (AllBasic t) :=
  decidable_of_iff (t.all fun c => decide (IsBasic c)) List.all_iff_forall_prop

theorem isBasic_digitChar {n : Nat} (h : n < 16) : IsBasic (Nat.digitChar n) := by
  have hall : ∀ m ∈ List.range 16, IsBasic (Nat.digitChar m) := by decide
  exact hall n (List.mem_range.mpr h)

theorem isBasic_of_isDigit {c : Char} (h : c.isDigit = true) : IsBasic c := by
  obtain ⟨hlow, hhigh⟩ := Char.isDigit_iff_toNat.mp h
  exact ⟨Nat.le_trans (by decide) hlow, Nat.le_trans hhigh (by decide)⟩

/-! ## Texts -/

variable {s rest : Text} {ns : List Nat}

theorem hexUnit?_ofHex {n : Nat} (h : n < 0x10000) : hexUnit? (Nat.digitChar (n / 16 / 16 / 16))
    (Nat.digitChar (n / 16 / 16 % 16)) (Nat.digitChar (n / 16 % 16)) (Nat.digitChar (n % 16)) =
      some n := by
  have hdigit (m : Nat) := Text.hexValue_digitChar (Nat.mod_lt m (show 0 < 16 by decide))
  rw [hexUnit?, Text.hexValue_digitChar (by omega), hdigit, hdigit, hdigit]
  exact congrArg some (by omega)

theorem unitEscape_eq {n : Nat} (h : n < 0x10000) : unitEscape n =
    ['\\', 'u', Nat.digitChar (n / 16 / 16 / 16), Nat.digitChar (n / 16 / 16 % 16),
      Nat.digitChar (n / 16 % 16), Nat.digitChar (n % 16)] := by
  rw [unitEscape, Text.ofHex_four h]
  rfl

theorem quotes_unitEscape {n : Nat} (hn : n < 0x10000) (h : Quotes s ns rest) :
    Quotes (unitEscape n ++ s) (n :: ns) rest := by
  rw [unitEscape_eq hn]
  exact .unit (hexUnit?_ofHex hn) h

theorem quotes_unitEscapes {us : List Nat} (hus : ∀ n ∈ us, n < 0x10000) (h : Quotes s ns rest) :
    Quotes (us.flatMap unitEscape ++ s) (us ++ ns) rest := by
  induction us with
  | nil => exact h
  | cons n us ih =>
    rw [List.forall_mem_cons] at hus
    rw [List.flatMap_cons, List.append_assoc]
    exact quotes_unitEscape hus.1 (ih hus.2)

/-- A character is a half of a pair neither by itself nor beyond the last pair. -/
theorem toNat_cases (c : Char) : c.toNat < 0xD800 ∨ 0xDFFF < c.toNat ∧ c.toNat < 0x110000 :=
  c.valid

theorem lt_of_mem_units {c : Char} {n : Nat} (h : n ∈ units c) : n < 0x10000 := by
  have hc := toNat_cases c
  rw [units] at h
  split at h
  · rw [List.mem_singleton.mp h]
    assumption
  · simp only [List.mem_cons, List.not_mem_nil, or_false] at h
    omega

/-- The characters that are written by a letter behind a backslash, with that letter. -/
def shortEscapes : List (Char × Char) :=
  [('"', '"'), ('\\', '\\'), ('\n', 'n'), ('\r', 'r'), ('\t', 't'), ('\x08', 'b'), ('\x0c', 'f')]

/-- A character is written by a letter behind a backslash, as it is, or by its units. -/
theorem escapeChar_cases (c : Char) :
    (∃ x, escapeChar c = ['\\', x] ∧ IsBasic x ∧ shortEscape? x = some c ∧ units c = [c.toNat]) ∨
      (escapeChar c = [c] ∧ IsBasic c ∧ c ≠ '"' ∧ c ≠ '\\' ∧ units c = [c.toNat]) ∨
      escapeChar c = (units c).flatMap unitEscape := by
  by_cases hc : c ∈ shortEscapes.map Prod.fst
  · have hall : ∀ p ∈ shortEscapes, escapeChar p.1 = ['\\', p.2] ∧ IsBasic p.2 ∧
        shortEscape? p.2 = some p.1 ∧ units p.1 = [p.1.toNat] := by decide
    obtain ⟨p, hp, rfl⟩ := List.mem_map.mp hc
    exact .inl ⟨p.2, hall p hp⟩
  · simp only [shortEscapes, List.map_cons, List.map_nil, List.mem_cons, List.not_mem_nil, or_false,
      not_or] at hc
    by_cases hbasic : IsBasic c
    · have hunits : units c = [c.toNat] := if_pos (Nat.lt_of_le_of_lt hbasic.2 (by decide))
      refine .inr (.inl ⟨?_, hbasic, hc.1, hc.2.1, hunits⟩)
      simp only [escapeChar, hc, if_false]
      exact if_pos hbasic
    · refine .inr (.inr ?_)
      simp only [escapeChar, hc, if_false]
      exact if_neg hbasic

/-- What is written for a character is read as its units, whatever stands behind it. -/
theorem quotes_escapeChar (c : Char) (h : Quotes s ns rest) :
    Quotes (escapeChar c ++ s) (units c ++ ns) rest := by
  rcases escapeChar_cases c with ⟨x, hc, -, hx, hunits⟩ | ⟨hc, hbasic, hquote, hescape, hunits⟩ | hc
  · rw [hc, hunits]
    exact .short hx h
  · rw [hc, hunits]
    exact .plain hquote hescape hbasic.1 h
  · rw [hc]
    exact quotes_unitEscapes (fun n => lt_of_mem_units) h

theorem allBasic_unitEscape {n : Nat} (h : n < 0x10000) : AllBasic (unitEscape n) := by
  have hdigit (m : Nat) : IsBasic (Nat.digitChar (m % 16)) := isBasic_digitChar (by omega)
  rw [unitEscape_eq h, AllBasic]
  simp only [List.forall_mem_cons]
  exact ⟨by decide, by decide, isBasic_digitChar (by omega), hdigit _, hdigit _, hdigit _, nofun⟩

theorem allBasic_escapeChar (c : Char) : AllBasic (escapeChar c) := by
  rcases escapeChar_cases c with ⟨x, hc, hx, -⟩ | ⟨hc, hbasic, -⟩ | hc
  · rw [hc]
    exact List.forall_mem_cons.mpr ⟨by decide, List.forall_mem_singleton.mpr hx⟩
  · rw [hc]
    exact List.forall_mem_singleton.mpr hbasic
  · rw [hc]
    intro x hx
    obtain ⟨n, hn, hx⟩ := List.mem_flatMap.mp hx
    exact allBasic_unitEscape (lt_of_mem_units hn) x hx

/-- The units of a character are put together again, whatever units stand behind them. -/
theorem ofUnits_units_append (c : Char) (ns : List Nat) :
    ofUnits (units c ++ ns) = c :: ofUnits ns := by
  have hc := toNat_cases c
  rw [units]
  split
  · have hhigh : isHighHalf c.toNat = false := by
      rw [isHighHalf, Bool.and_eq_false_iff, decide_eq_false_iff_not, decide_eq_false_iff_not]
      omega
    have hlow : isLowHalf c.toNat = false := by
      rw [isLowHalf, Bool.and_eq_false_iff, decide_eq_false_iff_not, decide_eq_false_iff_not]
      omega
    cases ns with
    | nil =>
      rw [List.append_nil, ofUnits, ofUnits, hhigh, hlow, Char.ofNat_toNat]
      rfl
    | cons n ns =>
      rw [List.singleton_append, ofUnits, hhigh, hlow, Char.ofNat_toNat]
      rfl
  · have hhigh : isHighHalf (0xD800 + (c.toNat - 0x10000) / 0x400) = true := by
      rw [isHighHalf, Bool.and_eq_true, decide_eq_true_eq, decide_eq_true_eq]
      omega
    have hlow : isLowHalf (0xDC00 + (c.toNat - 0x10000) % 0x400) = true := by
      rw [isLowHalf, Bool.and_eq_true, decide_eq_true_eq, decide_eq_true_eq]
      omega
    have hpair : 0x10000 + (0xD800 + (c.toNat - 0x10000) / 0x400 - 0xD800) * 0x400 +
        (0xDC00 + (c.toNat - 0x10000) % 0x400 - 0xDC00) = c.toNat := by omega
    rw [List.cons_append, List.singleton_append, ofUnits, hhigh, hlow, hpair, Char.ofNat_toNat]
    rfl

theorem ofUnits_units (t : Text) : ofUnits (t.flatMap units) = t := by
  induction t with
  | nil => rfl
  | cons c t ih => rw [List.flatMap_cons, ofUnits_units_append, ih]

theorem quotes_escape (t rest : Text) :
    Quotes (t.flatMap escapeChar ++ '"' :: rest) (t.flatMap units) rest := by
  induction t with
  | nil => exact .close rest
  | cons c t ih =>
    rw [List.flatMap_cons, List.flatMap_cons, List.append_assoc]
    exact quotes_escapeChar c ih

/-! ## Values -/

variable {digits depth digits' depth' : Nat} {v : Value} {vs : List Value}

/-- Whether a value is made of nulls, truth values, whole numbers, texts and lists. -/
inductive IsPlain : Value → Prop where
  /-- nothing -/
  | null : IsPlain .null
  /-- a truth value -/
  | bool (b : Bool) : IsPlain (.bool b)
  /-- a whole number -/
  | int (n : Int) : IsPlain (.int n)
  /-- a text -/
  | text (t : Text) : IsPlain (.text t)
  /-- a list of such values -/
  | list {vs : List Value} (h : ∀ v ∈ vs, IsPlain v) : IsPlain (.list vs)

/-- Whether a plain value keeps within limits for how many digits a whole number has and how deeply
lists are nested. -/
inductive Fits (digits : Nat) : (depth : Nat) → Value → Prop where
  /-- nothing -/
  | null {depth : Nat} : Fits digits depth .null
  /-- a truth value -/
  | bool {depth : Nat} (b : Bool) : Fits digits depth (.bool b)
  /-- a whole number -/
  | int {depth : Nat} {n : Int} (h : (Text.ofNat n.natAbs).length ≤ digits) :
      Fits digits depth (.int n)
  /-- a text -/
  | text {depth : Nat} (t : Text) : Fits digits depth (.text t)
  /-- a list of such values -/
  | list {depth : Nat} {vs : List Value} (h : ∀ v ∈ vs, Fits digits depth v) :
      Fits digits (depth + 1) (.list vs)

theorem Fits.mono (h : Fits digits depth v) (hdigits : digits ≤ digits') (hdepth : depth ≤ depth') :
    Fits digits' depth' v := by
  induction h generalizing depth' with
  | null => exact .null
  | bool b => exact .bool b
  | int h => exact .int (Nat.le_trans h hdigits)
  | text t => exact .text t
  | @list depth vs _ ih =>
    obtain ⟨d, rfl⟩ : ∃ d, depth' = d + 1 := ⟨depth' - 1, by omega⟩
    exact .list fun v hv => ih v hv (by omega)

/-- Limits that all of several values keep within. -/
theorem exists_forall_fits (h : ∀ v ∈ vs, ∃ digits depth, Fits digits depth v) :
    ∃ digits depth, ∀ v ∈ vs, Fits digits depth v := by
  induction vs with
  | nil => exact ⟨0, 0, nofun⟩
  | cons v vs ih =>
    obtain ⟨⟨m, d, hv⟩, hvs⟩ := List.forall_mem_cons.mp h
    obtain ⟨m', d', hvs⟩ := ih hvs
    refine ⟨max m m', max d d', List.forall_mem_cons.mpr ⟨?_, fun w hw => ?_⟩⟩
    · exact hv.mono (Nat.le_max_left m m') (Nat.le_max_left d d')
    · exact (hvs w hw).mono (Nat.le_max_right m m') (Nat.le_max_right d d')

theorem IsPlain.exists_fits (h : IsPlain v) : ∃ digits depth, Fits digits depth v := by
  induction h with
  | null => exact ⟨0, 0, .null⟩
  | bool b => exact ⟨0, 0, .bool b⟩
  | int n => exact ⟨_, 0, .int (Nat.le_refl _)⟩
  | text t => exact ⟨0, 0, .text t⟩
  | list _ ih =>
    obtain ⟨digits, depth, hvs⟩ := exists_forall_fits ih
    exact ⟨digits, depth + 1, .list hvs⟩

/-- Whether a text is written for a value, within limits: in printable characters of the basic set,
so that whatever stands behind it begins with the value. -/
structure Writes (digits depth : Nat) (t : Text) (v : Value) : Prop where
  /-- its characters -/
  basic : AllBasic t
  /-- what it is -/
  begins : ∀ rest, BeginsWith digits depth (t ++ rest) (.value v) rest

theorem writes_name {t : Text} (h : (t, v) ∈ names) : Writes digits depth t v := by
  have hall : ∀ name ∈ names.map Prod.fst, AllBasic name := by decide
  exact ⟨hall t (List.mem_map_of_mem h), fun rest => .name h rest⟩

theorem isWholePart_ofNat (n : Nat) : IsWholePart (Text.ofNat n) := by
  rcases Nat.eq_zero_or_pos n with rfl | hn
  · exact .inl (Nat.toDigits_zero 10)
  · refine .inr ⟨Nat.toDigits_ne_nil, Text.head?_ofNat hn, fun c hc => ?_⟩
    exact Nat.isDigit_of_mem_toDigits (by decide) (by decide) hc

theorem writes_int {n : Int} (h : (Text.ofNat n.natAbs).length ≤ digits) :
    Writes digits depth (Text.ofInt n) (.int n) := by
  have hbasic (m : Nat) : AllBasic (Text.ofNat m) := fun c hc =>
    isBasic_of_isDigit ((isWholePart_ofNat m).allDigits c hc)
  have hvalue (m : Nat) : ofDigits (Text.ofNat m) = m := Nat.ofDigitChars_ten_toDigits
  cases n with
  | ofNat m =>
    have hnumber : Magnitude digits false (Text.ofNat m) (.int (signed false m)) := by
      simpa only [hvalue] using Magnitude.whole (isWholePart_ofNat m) h
    exact ⟨hbasic m, fun rest => .number false hnumber rest⟩
  | negSucc m =>
    have hnumber : Magnitude digits true (Text.ofNat (m + 1)) (.int (signed true (m + 1))) := by
      simpa only [hvalue] using Magnitude.whole (isWholePart_ofNat (m + 1)) h
    refine ⟨List.forall_mem_cons.mpr ⟨by decide, hbasic (m + 1)⟩, fun rest => ?_⟩
    exact .number true hnumber rest

theorem writes_text (t : Text) : Writes digits depth (writeText t) (.text t) := by
  refine ⟨?_, fun rest => ?_⟩
  · have hinside : AllBasic (t.flatMap escapeChar) := fun c hc =>
      have ⟨x, _, hc⟩ := List.mem_flatMap.mp hc
      allBasic_escapeChar x c hc
    have hend : AllBasic ['"'] := by decide
    exact List.forall_mem_cons.mpr ⟨by decide, List.forall_mem_append.mpr ⟨hinside, hend⟩⟩
  · have htext : BeginsWith digits depth ('"' :: (t.flatMap escapeChar ++ '"' :: rest))
        (.value (.text (ofUnits (t.flatMap units)))) rest := .text (quotes_escape t rest)
    rw [ofUnits_units] at htext
    rwa [writeText, List.cons_append, List.cons_append, List.append_assoc]

/-- The texts of several values with commas between them, up to the bracket. -/
theorem beginsWith_elements {parts : List Text} (h : List.Forall₂ (Writes digits depth) parts vs)
    (hne : vs ≠ []) (rest : Text) :
    BeginsWith digits depth (List.intercalate ", " parts ++ ']' :: rest) (.elements vs) rest := by
  induction h with
  | nil => exact absurd rfl hne
  | @cons part v parts vs hpart hparts ih =>
    cases hparts with
    | nil =>
      rw [List.intercalate_singleton]
      exact .lastElement (hpart.begins (']' :: rest)) (blankUpTo_refl _)
    | @cons next w parts vs hnext hparts =>
      rw [List.intercalate_cons_cons, List.append_assoc, List.append_assoc]
      exact .element (hpart.begins _) (blankUpTo_refl _) ⟨[' '], by simp [blanks], rfl⟩
        (ih (List.cons_ne_nil w vs))

theorem writes_list {parts : List Text} (h : List.Forall₂ (Writes digits depth) parts vs) :
    Writes digits (depth + 1) ('[' :: List.intercalate ", " parts ++ [']']) (.list vs) := by
  have hparts : ∀ part ∈ parts, AllBasic part := by
    induction h with
    | nil => nofun
    | cons hv _ ih => exact List.forall_mem_cons.mpr ⟨hv.basic, ih⟩
  refine ⟨?_, fun rest => ?_⟩
  · have hseparator : AllBasic ", ".toList := by decide
    have hinside : AllBasic (List.intercalate ", " parts) :=
      Text.forall_mem_intercalate hseparator hparts
    have hend : AllBasic [']'] := by decide
    exact List.forall_mem_cons.mpr ⟨by decide, List.forall_mem_append.mpr ⟨hinside, hend⟩⟩
  · rw [List.append_assoc, List.cons_append]
    cases vs with
    | nil =>
      obtain rfl := List.forall₂_nil_right_iff.mp h
      exact .emptyList (blankUpTo_refl _)
    | cons v vs =>
      exact .list (blankUpTo_refl _) (beginsWith_elements h (List.cons_ne_nil v vs) rest)

theorem exists_writeAll (h : ∀ v ∈ vs, ∃ t, write v = some t ∧ Writes digits depth t v) :
    ∃ parts, writeAll vs = some parts ∧ List.Forall₂ (Writes digits depth) parts vs := by
  induction vs with
  | nil => exact ⟨[], rfl, .nil⟩
  | cons v vs ih =>
    obtain ⟨⟨t, ht, hv⟩, hvs⟩ := List.forall_mem_cons.mp h
    obtain ⟨parts, hparts, hall⟩ := ih hvs
    refine ⟨t :: parts, ?_, .cons hv hall⟩
    rw [writeAll, ht, hparts]

/-- A plain value has a JSON text, which is that value under the limits it keeps within. -/
theorem Fits.exists_writes (h : Fits digits depth v) :
    ∃ t, write v = some t ∧ Writes digits depth t v := by
  induction h with
  | null => exact ⟨_, by rw [write], writes_name (by simp [names])⟩
  | bool b =>
    refine ⟨_, by rw [write], ?_⟩
    cases b <;> exact writes_name (by simp [names])
  | int h => exact ⟨_, by rw [write], writes_int h⟩
  | text t => exact ⟨_, by rw [write], writes_text t⟩
  | list _ ih =>
    obtain ⟨parts, hparts, hall⟩ := exists_writeAll ih
    refine ⟨_, ?_, writes_list hall⟩
    rw [write, hparts]
    rfl

/-! ## Whole texts -/

/-- Whether a text stands for a value to all who read it: it is written in printable characters of
the basic set, it is JSON for that value and for no other, and a machine gives the value back unless
it is beyond its limits. -/
structure IsTextOf (t : Text) (v : Value) : Prop where
  /-- its characters -/
  basic : AllBasic t
  /-- what it is JSON for -/
  only : ∀ w, IsJsonOf t w ↔ w = v
  /-- what is read -/
  read : ∀ limits : Limits, Fits limits.digits limits.nesting v → Json.read limits t = .ok v

theorem Writes.denotes {t : Text} (h : Writes digits depth t v) : Denotes digits depth t v := by
  refine ⟨t, [], blankUpTo_refl t, ?_, blankUpTo_refl []⟩
  have hbegins := h.begins []
  rwa [List.append_nil] at hbegins

/-- **Written and read**: a plain value has a JSON text, and that is the text of no other value. -/
theorem exists_isTextOf (h : IsPlain v) : ∃ t, write v = some t ∧ IsTextOf t v := by
  obtain ⟨digits, depth, hfits⟩ := h.exists_fits
  obtain ⟨t, ht, hwrites⟩ := hfits.exists_writes
  have hjson : IsJsonOf t v := ⟨digits, depth, hwrites.denotes⟩
  refine ⟨t, ht, hwrites.basic, fun w => ⟨fun hw => hw.unique hjson, fun hw => hw ▸ hjson⟩, ?_⟩
  intro limits hlimits
  obtain ⟨u, hu, hwithin⟩ := hlimits.exists_writes
  obtain rfl : t = u := Option.some.inj (ht.symm.trans hu)
  exact read_eq_ok_iff.mpr hwithin.denotes

/-- A character outside the basic plane is written by two units. -/
example : write (.list [.text "é𝄞\n", .list [.int (-20)]]) =
    some "[\"\\u00e9\\ud834\\udd1e\\n\", [-20]]".toList := by decide

end Json

end PortalSearch
