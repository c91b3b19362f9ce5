import PortalSearch.Proofs.Json.Scalars

/-!
# What the reader of JSON reads

The reader keeps to the grammar: what it gives back is what the text denotes within its limits, and
a text that it calls malformed is no JSON under any limits. On JSON beyond its limits it gives up,
with an error that says so. Lists and objects are read alike, part by part up to the closing
bracket, so what holds of the parts is shown once for both.

Soundness goes by how deeply the reader may go (`beginsWith_of_readValue`). Completeness goes by the
rules of the grammar (`BeginsWith.isRead`). What a text is JSON for does not depend on the limits:
two readings under different limits are both what a reader with room for both gives back.

Main results: `read_eq_ok_iff`, `not_isJson_of_malformed`, `IsJsonOf.unique` and `givesUp_iff`.
-/

namespace PortalSearch.Json

variable {s t rest : Text} {c closing : Char} {v : Value} {negative : Bool} {digits depth : Nat}

section Parts

variable {α : Type} {part : Text → Except ReadError (α × Text)} {whole : List α → Value}
  {as : List α} {fuel : Nat}

/-! ## Soundness -/

theorem names_of_readName {name : Text} (h : readName s = .ok (name, rest)) :
    Names s name rest := by
  rw [readName.eq_def] at h
  split at h
  · next s =>
    split at h
    · cases h
    · next t u htext =>
      split at h
      · next w hcolon =>
        obtain ⟨rfl, rfl⟩ := Prod.mk.inj (Except.ok.inj h)
        obtain ⟨⟨ns, u'⟩, hunits, heq⟩ := Option.map_eq_some_iff.mp htext
        obtain ⟨rfl, rfl⟩ := Prod.mk.inj heq
        refine .name (quotes_of_readUnits hunits) ?_ (blankUpTo_skipBlanks w)
        rw [← hcolon]
        exact blankUpTo_skipBlanks _
      · cases h
  · cases h

theorem Names.readName_eq {name : Text} (h : Names s name rest) :
    readName s = .ok (name, skipBlanks rest) := by
  cases h with
  | @name s t u _ ns hquotes hcolon hrest =>
    have hmark : skipBlanks t = ':' :: u := by
      rw [hcolon.skipBlanks_eq]
      exact skipBlanks_cons_of_not_mem (by decide) u
    rw [readName, readText, readUnits_of_quotes hquotes]
    dsimp only [Option.map_some]
    rw [hmark, ← hrest.skipBlanks_eq]
    rfl

theorem names_of_readMember {value : Text → Except ReadError (Value × Text)} {f : Text × Value}
    (h : readMember value s = .ok (f, rest)) :
    ∃ t, Names s f.1 t ∧ value t = .ok (f.2, rest) := by
  rw [readMember] at h
  split at h
  · cases h
  · next name t hname =>
    split at h
    · cases h
    · next v u hv =>
      obtain ⟨rfl, rfl⟩ := Prod.mk.inj (Except.ok.inj h)
      exact ⟨t, names_of_readName hname, hv⟩

/-- What is read as parts is a last part, or a part in front of others. -/
theorem of_readParts {motive : Text → List α → Text → Prop}
    (hlast : ∀ {s t rest : Text} {a : α}, part s = .ok (a, t) → BlankUpTo t (closing :: rest) →
      motive s [a] rest)
    (hmore : ∀ {s t u w rest : Text} {a : α} {as : List α}, part s = .ok (a, t) →
      BlankUpTo t (',' :: u) → BlankUpTo u w → motive w as rest → motive s (a :: as) rest)
    (h : readParts closing part fuel s = .ok (as, rest)) : motive s as rest := by
  induction fuel generalizing s as with
  | zero =>
    rw [readParts] at h
    cases h
  | succ fuel ih =>
    rw [readParts] at h
    split at h
    · cases h
    · next a t ha =>
      have hblank := blankUpTo_skipBlanks t
      split at h
      · cases h
      · next c u hnext =>
        rw [hnext] at hblank
        split at h
        · next hclosing =>
          obtain ⟨rfl, rfl⟩ := Prod.mk.inj (Except.ok.inj h)
          exact hlast ha (hclosing ▸ hblank)
        · split at h
          · next hcomma =>
            split at h
            · cases h
            · next others w hothers =>
              obtain ⟨rfl, rfl⟩ := Prod.mk.inj (Except.ok.inj h)
              exact hmore ha (hcomma ▸ hblank) (blankUpTo_skipBlanks u) (ih hothers)
          · cases h

/-- Between brackets there is nothing, or there are parts. -/
theorem of_readEnclosed (h : readEnclosed closing whole part s = .ok (v, rest)) :
    BlankUpTo s (closing :: rest) ∧ v = whole [] ∨
      ∃ t as, BlankUpTo s t ∧ readParts closing part s.length t = .ok (as, rest) ∧
        v = whole as := by
  have hblank := blankUpTo_skipBlanks s
  rw [readEnclosed] at h
  split at h
  · cases h
  · next c t hnext =>
    rw [hnext] at hblank
    split at h
    · next hclosing =>
      obtain ⟨rfl, rfl⟩ := Prod.mk.inj (Except.ok.inj h)
      exact .inl ⟨hclosing ▸ hblank, rfl⟩
    · split at h
      · cases h
      · next as u hparts =>
        obtain ⟨rfl, rfl⟩ := Prod.mk.inj (Except.ok.inj h)
        exact .inr ⟨_, as, hblank, hparts, rfl⟩

/-- **Soundness**: a value that is read is what the text begins with by the grammar. -/
theorem beginsWith_of_readValue (h : readValue digits depth s = .ok (v, rest)) :
    BeginsWith digits depth s (.value v) rest := by
  induction depth using Nat.strongRecOn generalizing s v rest with
  | ind depth ih =>
    rw [readValue.eq_def] at h
    split at h
    · split at h
      · next t u htext =>
        obtain ⟨rfl, rfl⟩ := Prod.mk.inj (Except.ok.inj h)
        obtain ⟨⟨ns, u'⟩, hunits, heq⟩ := Option.map_eq_some_iff.mp htext
        obtain ⟨rfl, rfl⟩ := Prod.mk.inj heq
        exact .text (quotes_of_readUnits hunits)
      · cases h
    · cases h
    · cases h
    · next depth s =>
      have hvalue := @ih depth (Nat.lt_succ_self depth)
      rcases of_readEnclosed h with ⟨hs, rfl⟩ | ⟨t, vs, hs, hparts, rfl⟩
      · exact .emptyList hs
      · refine .list hs (of_readParts (motive := fun s vs rest =>
          BeginsWith digits depth s (.elements vs) rest) ?_ ?_ hparts)
        · exact fun hv ht => .lastElement (hvalue hv) ht
        · exact fun hv ht hu hmore => .element (hvalue hv) ht hu hmore
    · next depth s =>
      have hvalue := @ih depth (Nat.lt_succ_self depth)
      rcases of_readEnclosed h with ⟨hs, rfl⟩ | ⟨t, fields, hs, hparts, rfl⟩
      · exact .emptyObject hs
      · refine .object hs (of_readParts (motive := fun s fields rest =>
          BeginsWith digits depth s (.members fields) rest) ?_ ?_ hparts)
        · intro s u rest f hf hu
          obtain ⟨t, hname, hv⟩ := names_of_readMember hf
          exact .lastMember hname (hvalue hv) hu
        · intro s u w x rest f fields hf hu hw hmore
          obtain ⟨t, hname, hv⟩ := names_of_readMember hf
          exact .member hname (hvalue hv) hu hw hmore
    · exact beginsWith_of_readScalar h depth

/-! ## What the grammar says is read -/

variable {p : Phrase} {within within' : Prop}

theorem exists_cons_of_mem_names (h : (t, v) ∈ names) :
    ∃ c s, t = c :: s ∧ c ∉ blanks ++ [',', ']', '}'] ++ ['"', '[', '{'] := by
  simp only [names, List.mem_cons, List.not_mem_nil, or_false, Prod.mk.injEq] at h
  rcases h with ⟨rfl, -⟩ | ⟨rfl, -⟩ | ⟨rfl, -⟩ | ⟨rfl, -⟩ | ⟨rfl, -⟩ | ⟨rfl, -⟩
  all_goals exact ⟨_, _, rfl, by decide⟩

theorem Magnitude.exists_cons_signed (h : Magnitude digits negative t v) :
    ∃ c s, signText negative ++ t = c :: s ∧ c ∉ blanks ++ [',', ']', '}'] ++ ['"', '[', '{'] := by
  obtain ⟨c, s, rfl, hc⟩ := h.exists_cons
  cases negative with
  | true => exact ⟨'-', c :: s, rfl, by decide⟩
  | false =>
    refine ⟨c, s, rfl, ?_⟩
    have hall : (blanks ++ [',', ']', '}'] ++ ['"', '[', '{']).all (!·.isDigit) = true := by decide
    intro hmem
    simpa [hc] using List.all_eq_true.mp hall c hmem

/-- A phrase begins with neither a blank nor a mark that may follow a value. -/
theorem BeginsWith.exists_cons (h : BeginsWith digits depth s p rest) :
    ∃ c t, s = c :: t ∧ c ∉ blanks ++ [',', ']', '}'] := by
  induction h with
  | name h rest =>
    obtain ⟨c, s, rfl, hc⟩ := exists_cons_of_mem_names h
    exact ⟨c, s ++ rest, rfl, fun hmem => hc (List.mem_append_left _ hmem)⟩
  | number negative h rest =>
    obtain ⟨c, s, hs, hc⟩ := h.exists_cons_signed
    rw [← List.append_assoc, hs]
    exact ⟨c, s ++ rest, rfl, fun hmem => hc (List.mem_append_left _ hmem)⟩
  | text | emptyList | list | emptyObject | object => exact ⟨_, _, rfl, by decide⟩
  | lastElement _ _ ih | element _ _ _ _ ih => exact ih
  | lastMember hs | member hs =>
    cases hs with
    | name => exact ⟨_, _, rfl, by decide⟩

theorem BeginsWith.skipBlanks_eq (h : BeginsWith digits depth s p rest) : skipBlanks s = s := by
  obtain ⟨c, t, rfl, hc⟩ := h.exists_cons
  exact skipBlanks_cons_of_not_mem (fun hmem => hc (List.mem_append_left _ hmem)) t

theorem Names.length_lt {name : Text} (h : Names s name rest) : rest.length < s.length := by
  cases h with
  | name hquotes hcolon hrest =>
    have htext := hquotes.length_lt
    have hmark := hcolon.length_le
    have hvalue := hrest.length_le
    simp only [List.length_cons] at hmark ⊢
    omega

theorem BeginsWith.length_lt (h : BeginsWith digits depth s p rest) : rest.length < s.length := by
  induction h with
  | name h rest =>
    obtain ⟨c, s, rfl, -⟩ := exists_cons_of_mem_names h
    simp only [List.length_append, List.length_cons]
    omega
  | number negative h rest =>
    obtain ⟨c, s, hs, -⟩ := h.exists_cons_signed
    rw [← List.append_assoc, hs]
    simp only [List.length_append, List.length_cons]
    omega
  | text h =>
    have htext := h.length_lt
    rw [List.length_cons]
    omega
  | emptyList h | emptyObject h =>
    have hclose := h.length_le
    simp only [List.length_cons] at hclose ⊢
    omega
  | list hs _ ih | object hs _ ih =>
    have hfirst := hs.length_le
    rw [List.length_cons]
    omega
  | lastElement _ ht ih =>
    have hclose := ht.length_le
    rw [List.length_cons] at hclose
    omega
  | element _ ht hu _ ihValue ih =>
    have hcomma := ht.length_le
    have hnext := hu.length_le
    rw [List.length_cons] at hcomma
    omega
  | lastMember hs _ hu ih =>
    have hname := hs.length_lt
    have hclose := hu.length_le
    rw [List.length_cons] at hclose
    omega
  | member hs _ hu hw _ ihValue ih =>
    have hname := hs.length_lt
    have hcomma := hu.length_le
    have hnext := hw.length_le
    rw [List.length_cons] at hcomma
    omega

theorem Yields.of_imp {α : Type} {result : Except ReadError α} {a : α} (h : Yields within result a)
    (himp : within' → within) : Yields within' result a :=
  h.imp_right fun ⟨hlimit, herror⟩ => ⟨fun hwithin => hlimit (himp hwithin), herror⟩

/-- A reader that goes on with what another one gives back, and passes its errors on. -/
theorem Yields.goesOn {α β : Type} {first : Except ReadError α} {result : Except ReadError β}
    {a : α} {b : β} (h : Yields within first a)
    (hok : first = .ok a → Yields within result b)
    (herror : ∀ e, first = .error e → result = .error e) : Yields within result b := by
  rcases h with hfirst | ⟨hwithin, e, hfirst, he⟩
  · exact hok hfirst
  · exact .inr ⟨hwithin, e, herror e hfirst, he⟩

/-- What stands behind blanks up to a mark. -/
theorem BlankUpTo.skipBlanks_eq_cons (h : BlankUpTo s (c :: rest)) (hc : c ∉ blanks) :
    skipBlanks s = c :: rest :=
  h.skipBlanks_eq.trans (skipBlanks_cons_of_not_mem hc rest)

/-! ### Parts -/

theorem yields_member {value : Text → Except ReadError (Value × Text)} {name : Text}
    (hs : Names s name t) (ht : skipBlanks t = t) (hv : Yields within (value t) (v, rest)) :
    Yields within (readMember value s) ((name, v), rest) := by
  rw [readMember, hs.readName_eq, ht]
  refine hv.goesOn (fun hread => ?_) fun e hread => ?_
  · dsimp only
    rw [hread]
    exact .inl rfl
  · dsimp only
    rw [hread]

/-- As long as there is more to read there is fuel. -/
theorem exists_fuel (hfuel : s.length ≤ fuel + rest.length) (h : rest.length < s.length) :
    ∃ n, fuel = n + 1 :=
  Nat.exists_eq_add_one_of_ne_zero (by omega)

theorem yields_last {a : α} (hfuel : s.length ≤ fuel + rest.length) (hpart : t.length < s.length)
    (ha : Yields within (part s) (a, t)) (ht : BlankUpTo t (closing :: rest))
    (hclosing : closing ∉ blanks) : Yields within (readParts closing part fuel s) ([a], rest) := by
  have hclose := ht.length_le
  rw [List.length_cons] at hclose
  obtain ⟨fuel, rfl⟩ := exists_fuel hfuel (by omega)
  rw [readParts]
  refine ha.goesOn (fun hread => ?_) fun e hread => ?_
  · rw [hread]
    dsimp only
    rw [ht.skipBlanks_eq_cons hclosing]
    exact .inl (if_pos rfl)
  · rw [hread]

theorem yields_more {a : α} {u w : Text} (hfuel : s.length ≤ fuel + rest.length)
    (hpart : t.length < s.length) (ha : Yields within (part s) (a, t))
    (ht : BlankUpTo t (',' :: u)) (hu : BlankUpTo u w) (hw : skipBlanks w = w)
    (hothers : rest.length < w.length) (hclosing : ',' ≠ closing)
    (hmore : ∀ n, w.length ≤ n + rest.length →
      Yields within (readParts closing part n w) (as, rest)) :
    Yields within (readParts closing part fuel s) (a :: as, rest) := by
  have hcomma := ht.length_le
  have hnext := hu.length_le
  rw [List.length_cons] at hcomma
  obtain ⟨fuel, rfl⟩ := exists_fuel hfuel (by omega)
  rw [readParts]
  refine ha.goesOn (fun hread => ?_) fun e hread => ?_
  · rw [hread]
    dsimp only
    rw [ht.skipBlanks_eq_cons (by decide)]
    dsimp only
    rw [if_neg hclosing, if_pos rfl, hu.skipBlanks_eq, hw]
    refine (hmore fuel (by omega)).goesOn (fun hread => ?_) fun e hread => ?_
    · rw [hread]
      exact .inl rfl
    · rw [hread]
  · rw [hread]

theorem yields_nothing (h : BlankUpTo s (closing :: rest)) (hclosing : closing ∉ blanks) :
    Yields within (readEnclosed closing whole part s) (whole [], rest) := by
  rw [readEnclosed, h.skipBlanks_eq_cons hclosing]
  exact .inl (if_pos rfl)

theorem yields_enclosed (hs : BlankUpTo s (c :: t)) (hc : c ∉ blanks) (hclosing : c ≠ closing)
    (h : Yields within (readParts closing part s.length (c :: t)) (as, rest)) :
    Yields within (readEnclosed closing whole part s) (whole as, rest) := by
  rw [readEnclosed, hs.skipBlanks_eq_cons hc]
  dsimp only
  rw [if_neg hclosing]
  refine h.goesOn (fun hread => ?_) fun e hread => ?_
  · rw [hread]
    exact .inl rfl
  · rw [hread]

/-- What stands between brackets is read as deeply as it may, which is one less deep. -/
theorem yields_nested {opening : Char} {part : Nat → Nat → Text → Except ReadError (α × Text)}
    (htooDeep : ∀ m, readValue m 0 (opening :: s) = .error .tooDeep)
    (hopen : ∀ m n, readValue m (n + 1) (opening :: s) = readEnclosed closing whole (part m n) s)
    (h : ∀ m n, Yields (digits ≤ m ∧ depth ≤ n) (readEnclosed closing whole (part m n) s) (v, rest))
    (m n : Nat) : Yields (digits ≤ m ∧ depth + 1 ≤ n) (readValue m n (opening :: s)) (v, rest) := by
  cases n with
  | zero => exact .inr ⟨fun hwithin => by omega, _, htooDeep m, nofun⟩
  | succ n =>
    rw [hopen]
    exact (h m n).of_imp fun hwithin => ⟨hwithin.1, by omega⟩

/-! ### Phrases -/

/-- Whether the readers read a phrase where a text begins with it. A value has to be followed by
what may follow one, and for parts there has to be fuel. -/
def IsRead (digits depth : Nat) (s : Text) (p : Phrase) (rest : Text) : Prop :=
  ∀ m n, match p with
    | .value v => Stops rest → Yields (digits ≤ m ∧ depth ≤ n) (readValue m n s) (v, rest)
    | .elements vs => ∀ fuel, s.length ≤ fuel + rest.length →
      Yields (digits ≤ m ∧ depth ≤ n) (readParts ']' (readValue m n) fuel s) (vs, rest)
    | .members fields => ∀ fuel, s.length ≤ fuel + rest.length →
      Yields (digits ≤ m ∧ depth ≤ n) (readParts '}' (readMember (readValue m n)) fuel s)
        (fields, rest)

theorem readValue_eq_readScalar (hc : c ∉ ['"', '[', '{']) (s : Text) :
    readValue digits depth (c :: s) = readScalar digits (c :: s) := by
  simp only [List.mem_cons, List.not_mem_nil, or_false, not_or] at hc
  obtain ⟨hquote, hbracket, hbrace⟩ := hc
  rw [readValue.eq_def]
  split
  · next h => exact absurd (List.cons.inj h).1 hquote
  · next h => exact absurd (List.cons.inj h).1 hbracket
  · next h => exact absurd (List.cons.inj h).1 hbrace
  · next h => exact absurd (List.cons.inj h).1 hbracket
  · next h => exact absurd (List.cons.inj h).1 hbrace
  · rfl

theorem isRead_scalar (hs : s = c :: t) (hc : c ∉ ['"', '[', '{'])
    (hscalar : Stops rest → ∀ m, Yields (digits ≤ m) (readScalar m s) (v, rest)) :
    IsRead digits depth s (.value v) rest := by
  intro m n hstops
  rw [hs, readValue_eq_readScalar hc, ← hs]
  exact (hscalar hstops m).of_imp And.left

/-- **Completeness**: what a text begins with by the grammar is read, unless it is beyond the limits
of the reader. -/
theorem BeginsWith.isRead (h : BeginsWith digits depth s p rest) :
    IsRead digits depth s p rest := by
  have hnot : ∀ {x : Char}, x ∉ blanks ++ [',', ']', '}'] ++ ['"', '[', '{'] →
      x ∉ ['"', '[', '{'] := fun hx hmem => hx (List.mem_append_right _ hmem)
  induction h with
  | name h rest =>
    obtain ⟨c, s, rfl, hc⟩ := exists_cons_of_mem_names h
    exact isRead_scalar rfl (hnot hc) fun _ m => .inl (readScalar_of_mem_names h rest)
  | number negative h rest =>
    obtain ⟨c, s, hs, hc⟩ := h.exists_cons_signed
    rw [← List.append_assoc, hs]
    refine isRead_scalar rfl (hnot hc) fun hrest m => ?_
    rw [← hs, List.append_assoc]
    exact h.yields_number hrest
  | text h =>
    intro m n _
    rw [readValue, readText, readUnits_of_quotes h]
    exact .inl rfl
  | emptyList h =>
    intro m n _
    refine yields_nested (fun _ => rfl) (fun _ _ => rfl) (fun m n => ?_) m n
    exact yields_nothing h (by decide)
  | @emptyObject depth s rest h =>
    intro m n _
    change Yields _ _ (objectOf [], rest)
    refine yields_nested (fun _ => rfl) (fun _ _ => rfl) (fun m n => ?_) m n
    exact yields_nothing h (by decide)
  | list hs h ih | object hs h ih =>
    intro m n _
    have hlength := hs.length_le
    obtain ⟨c, t, rfl, hc⟩ := h.exists_cons
    refine yields_nested (fun _ => rfl) (fun _ _ => rfl) (fun m n => ?_) m n
    refine yields_enclosed hs (fun hmem => hc (List.mem_append_left _ hmem)) ?_ ?_
    · rintro rfl
      exact absurd (by decide) hc
    · exact ih m n _ (by omega)
  | lastElement hv ht ih =>
    intro m n fuel hfuel
    exact yields_last hfuel hv.length_lt (ih m n (ht.stops (stops_cons (by decide) _))) ht
      (by decide)
  | element hv ht hu h ihValue ih =>
    intro m n fuel hfuel
    exact yields_more hfuel hv.length_lt (ihValue m n (ht.stops (stops_cons (by decide) _))) ht hu
      h.skipBlanks_eq h.length_lt (by decide) (ih m n)
  | lastMember hs hv hu ih =>
    intro m n fuel hfuel
    have hmember := yields_member hs hv.skipBlanks_eq (ih m n (hu.stops (stops_cons (by decide) _)))
    exact yields_last hfuel (Nat.lt_trans hv.length_lt hs.length_lt) hmember hu (by decide)
  | member hs hv hu hw h ihValue ih =>
    intro m n fuel hfuel
    have hmember :=
      yields_member hs hv.skipBlanks_eq (ihValue m n (hu.stops (stops_cons (by decide) _)))
    exact yields_more hfuel (Nat.lt_trans hv.length_lt hs.length_lt) hmember hu hw h.skipBlanks_eq
      h.length_lt (by decide) (ih m n)

end Parts

/-! ## Whole texts -/

variable {limits : Limits} {w : Value}

/-- A text that denotes a value is read as that value, or beyond the limits of the reader. -/
theorem Denotes.yields (h : Denotes digits depth s v) (limits : Limits) :
    Yields (digits ≤ limits.digits ∧ depth ≤ limits.nesting) (read limits s) v := by
  obtain ⟨t, rest, hfront, hvalue, hback⟩ := h
  rw [read, hfront.skipBlanks_eq, hvalue.skipBlanks_eq]
  have hfirst := hvalue.isRead limits.digits limits.nesting (hback.stops stops_nil)
  refine hfirst.goesOn (fun hread => ?_) fun e hread => ?_
  · rw [hread]
    dsimp only
    rw [hback.skipBlanks_eq]
    exact .inl rfl
  · rw [hread]

/-- **What is read** is exactly what the text denotes within the limits. -/
theorem read_eq_ok_iff : read limits s = .ok v ↔ Denotes limits.digits limits.nesting s v := by
  constructor
  · intro h
    rw [read] at h
    split at h
    · cases h
    · next w rest hvalue =>
      split at h
      · next hrest =>
        obtain rfl := Except.ok.inj h
        exact ⟨_, rest, blankUpTo_skipBlanks s, beginsWith_of_readValue hvalue,
          hrest ▸ blankUpTo_skipBlanks rest⟩
      · cases h
  · intro h
    rcases h.yields limits with hread | ⟨hbeyond, -⟩
    · exact hread
    · exact absurd ⟨Nat.le_refl _, Nat.le_refl _⟩ hbeyond

/-- A text that is called malformed is no JSON, whatever the limits. -/
theorem not_isJson_of_malformed (h : read limits s = .error .malformed) : ¬ IsJson s := by
  rintro ⟨v, digits, depth, hdenotes⟩
  rcases hdenotes.yields limits with hread | ⟨-, e, hread, he⟩
  · rw [h] at hread
    cases hread
  · rw [h] at hread
    exact he (Except.error.inj hread).symm

theorem isJsonOf_of_read (h : read limits s = .ok v) : IsJsonOf s v :=
  ⟨limits.digits, limits.nesting, read_eq_ok_iff.mp h⟩

theorem Denotes.read_eq (h : Denotes digits depth s v) (hdigits : digits ≤ limits.digits)
    (hnesting : depth ≤ limits.nesting) : read limits s = .ok v := by
  rcases h.yields limits with hread | ⟨hbeyond, -⟩
  · exact hread
  · exact absurd ⟨hdigits, hnesting⟩ hbeyond

/-- **One value**: a text is JSON for nothing else than what it is JSON for. -/
theorem IsJsonOf.unique (hv : IsJsonOf s v) (hw : IsJsonOf s w) : v = w := by
  obtain ⟨m, d, hv⟩ := hv
  obtain ⟨m', d', hw⟩ := hw
  -- a machine with room for both readings
  let limits : Limits := ⟨max m m', max d d'⟩
  have hreadV : read limits s = .ok v := hv.read_eq (Nat.le_max_left m m') (Nat.le_max_left d d')
  have hreadW : read limits s = .ok w := hw.read_eq (Nat.le_max_right m m') (Nat.le_max_right d d')
  exact Except.ok.inj (hreadV.symm.trans hreadW)

/-- Whether the reader gives up at one of its limits. -/
def GivesUp (limits : Limits) (s : Text) : Prop := ∃ e, read limits s = .error e ∧ e ≠ .malformed

/-- JSON is read as what it is JSON for, unless the reader gives up. -/
theorem IsJsonOf.read_eq (h : IsJsonOf s v) (hread : ¬ GivesUp limits s) :
    read limits s = .ok v := by
  cases hs : read limits s with
  | ok w => rw [h.unique (isJsonOf_of_read hs)]
  | error e =>
    refine absurd ⟨e, hs, ?_⟩ hread
    rintro rfl
    exact not_isJson_of_malformed hs ⟨v, h⟩

/-- On JSON the reader gives up exactly if there is no value within its limits. -/
theorem givesUp_iff (h : IsJson s) :
    GivesUp limits s ↔ ¬ ∃ v, Denotes limits.digits limits.nesting s v := by
  constructor
  · rintro ⟨e, hread, -⟩ ⟨v, hv⟩
    rw [read_eq_ok_iff.mpr hv] at hread
    cases hread
  · refine fun hnone => Classical.byContradiction fun hread => hnone ?_
    obtain ⟨v, hv⟩ := h
    exact ⟨v, read_eq_ok_iff.mp (hv.read_eq hread)⟩

end PortalSearch.Json
