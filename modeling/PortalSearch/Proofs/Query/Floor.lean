import PortalSearch.Proofs.Query.Nesting
import PortalSearch.Proofs.Query.Reading

/-!
# Reading above a floor

What a reading does with the tokens to come depends little on what it has read before. Take
some tokens at the bottom of the stack as its *floor*, and let no connective be on top of the
floor. Then nothing ever goes from the floor, unless the floor ends in the start of a group
and that group is ended; and all that counts of the floor is whether it is empty and whether
it ends in the start of a group.

Main result: two readings that hold the same tokens above level floors go on doing so
(`Alike.readAll`), whatever the marks. With empty floors this says that pruning does not
look at marks (`tokens_prune_of_tokens`).
-/

namespace PortalSearch

open Prune

variable {α β : Type}

namespace Reading

/-- Whether two floors look the same from above, no connective being on top of either. -/
structure Level (F : List (Token × α)) (G : List (Token × β)) : Prop where
  /-- no connective is on top of the first -/
  left : ∀ c, top F ≠ some (.connective c)
  /-- nor of the second -/
  right : ∀ c, top G ≠ some (.connective c)
  /-- both end in the start of a group, or neither does -/
  opening : top F = some .opening ↔ top G = some .opening
  /-- both are empty, or neither is -/
  bottom : top F = none ↔ top G = none

/-- Two readings that hold the tokens `V` above their floors, nearest token first. -/
structure Alike (F : List (Token × α)) (G : List (Token × β)) (V : List Token)
    (r : Reading α) (s : Reading β) : Prop where
  /-- what the first holds -/
  left : ∃ X, X.map Prod.fst = V ∧ r.before = X ++ F
  /-- what the second holds -/
  right : ∃ Y, Y.map Prod.fst = V ∧ s.before = Y ++ G
  /-- what goes with the group taken out last -/
  wake : r.wake = s.wake

variable {F : List (Token × α)} {G : List (Token × β)} {r : Reading α} {s : Reading β}
variable {V : List Token}

/-! ## What is shed -/

/-- Whether a token is a connective that goes. -/
def goes (p : Connective → Bool) : Token → Bool
  | .connective c => p c
  | .seed _ | .clause _ | .boost _ | .opening | .closing => false

theorem tokens_shed (p : Connective → Bool) (X : List (Token × α)) :
    (shed p X).1.map Prod.fst = (X.map Prod.fst).dropWhile (goes p) := by
  fun_induction shed p X with
  | case1 c mark X hp ih =>
    have hg : goes p (.connective c) = true := hp
    rw [List.map_cons, List.dropWhile_cons_of_pos hg]
    exact ih
  | case2 c mark X hp =>
    have hg : ¬ goes p (.connective c) = true := hp
    rw [List.map_cons, List.dropWhile_cons_of_neg hg]
  | case3 X hX =>
    rcases X with _ | ⟨⟨t, mark⟩, X⟩
    · rfl
    · cases t with
      | connective c => exact absurd rfl (hX _ _ _)
      | seed _ | clause _ | boost _ | opening | closing => rfl

/-- Nothing is shed from a floor. -/
theorem shed_append (p : Connective → Bool) (X : List (Token × α))
    (hF : ∀ c, top F ≠ some (.connective c)) : (shed p (X ++ F)).1 = (shed p X).1 ++ F := by
  have hbase : shed p F = (F, []) := shed_of_top fun c hc => absurd hc (hF c)
  fun_induction shed p X with
  | case1 c mark X hp ih =>
    rw [List.cons_append, shed, if_pos hp]
    exact ih
  | case2 c mark X hp => rw [List.cons_append, shed, if_neg hp]
  | case3 X hX =>
    rcases X with _ | ⟨⟨t, mark⟩, X⟩
    · exact congrArg Prod.fst hbase
    · cases t with
      | connective c => exact absurd rfl (hX _ _ _)
      | seed _ | clause _ | boost _ | opening | closing => rfl

/-- What is left above a floor after shedding. -/
theorem exists_shed (p : Connective → Bool) (hF : ∀ c, top F ≠ some (.connective c))
    (h : ∃ X, X.map Prod.fst = V ∧ r.before = X ++ F) :
    ∃ X, X.map Prod.fst = V.dropWhile (goes p) ∧ (shed p r.before).1 = X ++ F := by
  obtain ⟨X, rfl, hb⟩ := h
  exact ⟨(shed p X).1, tokens_shed p X, by rw [hb, shed_append p X hF]⟩

/-- Connectives do not count for the nesting. -/
theorem nest_dropWhile_goes (p : Connective → Bool) (V : List Token) :
    nest 0 (V.dropWhile (goes p)).reverse = nest 0 V.reverse := by
  induction V with
  | nil => rfl
  | cons t V ih =>
    by_cases ht : goes p t = true
    · rw [List.dropWhile_cons_of_pos ht, ih, List.reverse_cons, nest_concat]
      cases t with
      | connective c => simp [Token.nest]
      | seed _ | clause _ | boost _ | opening | closing => cases ht
    · rw [List.dropWhile_cons_of_neg ht]

/-! ## One token -/

theorem Level.leads_top (hl : Level F G) {X : List (Token × α)} {Y : List (Token × β)}
    (h : X.map Prod.fst = Y.map Prod.fst) (c : Connective) :
    c.leads (top (X ++ F)) = c.leads (top (Y ++ G)) := by
  rcases X with _ | ⟨⟨t, m⟩, X⟩
  · obtain rfl := List.map_eq_nil_iff.mp h.symm
    have ho := hl.opening
    have hb := hl.bottom
    simp only [List.nil_append, Connective.leads]
    congr 1
    rw [Bool.eq_iff_iff]
    simp [ho, hb]
  · obtain ⟨⟨u, n⟩, Y, rfl, rfl, -⟩ := List.map_eq_cons_iff.mp h.symm
    rfl

theorem Alike.push (h : Alike F G V r s) (t : Token) (m : α) (n : β) :
    Alike F G (t :: V) (r.push (t, m)) (s.push (t, n)) := by
  obtain ⟨⟨X, hX, hr⟩, ⟨Y, hY, hs⟩, -⟩ := h
  exact ⟨⟨(t, m) :: X, congrArg _ hX, congrArg _ hr⟩, ⟨(t, n) :: Y, congrArg _ hY, congrArg _ hs⟩,
    rfl⟩

theorem Alike.readConnective (hl : Level F G) (h : Alike F G V r s) (c : Connective) (m : α)
    (n : β) : ∃ V', Alike F G V' (r.readConnective c m) (s.readConnective c n) ∧
      nest 0 V'.reverse = nest 0 V.reverse := by
  cases hw : r.wake.connective with
  | true =>
    rw [readConnective_of_wake hw, readConnective_of_wake (h.wake ▸ hw)]
    exact ⟨V, ⟨h.left, h.right, rfl⟩, rfl⟩
  | false =>
    obtain ⟨X, hX, hr⟩ := exists_shed c.yields hl.left h.left
    obtain ⟨Y, hY, hs⟩ := exists_shed c.yields hl.right h.right
    have htop : c.leads (top (shed c.yields r.before).1) =
        c.leads (top (shed c.yields s.before).1) := by
      rw [hr, hs]
      exact hl.leads_top (hX.trans hY.symm) c
    have hn := nest_dropWhile_goes c.yields V
    cases hlead : c.leads (top (shed c.yields r.before).1) with
    | true =>
      rw [readConnective_of_leads hw hlead, readConnective_of_leads (h.wake ▸ hw) (htop ▸ hlead)]
      exact ⟨_, ⟨⟨X, hX, hr⟩, ⟨Y, hY, hs⟩, rfl⟩, hn⟩
    | false =>
      rw [readConnective_of_joins hw hlead, readConnective_of_joins (h.wake ▸ hw) (htop ▸ hlead)]
      refine ⟨.connective c :: V.dropWhile (goes c.yields),
        ⟨⟨(.connective c, m) :: X, congrArg _ hX, congrArg _ hr⟩,
          ⟨(.connective c, n) :: Y, congrArg _ hY, congrArg _ hs⟩, rfl⟩, ?_⟩
      rw [List.reverse_cons, nest_concat, hn]
      simp [Token.nest]

/-- The end of a group that holds something above the floors, or of one that they hold. -/
theorem alike_closing_of_held {X : List (Token × α)} {Y : List (Token × β)}
    (h : X.map Prod.fst = Y.map Prod.fst) (hr : (shedAll r.before).1 = X ++ F)
    (hs : (shedAll s.before).1 = Y ++ G) (hF : top (X ++ F) ≠ some .opening)
    (hG : top (Y ++ G) ≠ some .opening) (m : α) (n : β) :
    Alike F G (.closing :: Y.map Prod.fst) (r.readClosing m) (s.readClosing n) := by
  rw [readClosing_of_held (hr ▸ hF), readClosing_of_held (hs ▸ hG)]
  exact ⟨⟨(.closing, m) :: X, congrArg _ h, congrArg _ hr⟩,
    ⟨(.closing, n) :: Y, rfl, congrArg _ hs⟩, rfl⟩

/-- The end of an empty group above the floors. -/
theorem alike_closing_of_empty (hl : Level F G) {X : List (Token × α)} {Y : List (Token × β)}
    {a : α} {b : β} (h : X.map Prod.fst = Y.map Prod.fst)
    (hr : (shedAll r.before).1 = (.opening, a) :: X ++ F)
    (hs : (shedAll s.before).1 = (.opening, b) :: Y ++ G) (m : α) (n : β) :
    ∃ V', Alike F G V' (r.readClosing m) (s.readClosing n) ∧
      nest 0 V'.reverse = nest 0 (Y.map Prod.fst).reverse := by
  by_cases hc : ∃ c a' X', X = (.connective c, a') :: X'
  · -- the connective in front is above the floors as well, as they end in none
    obtain ⟨c, a', X', rfl⟩ := hc
    obtain ⟨⟨t, b'⟩, Y', rfl, ht, hY⟩ := List.map_eq_cons_iff.mp h.symm
    obtain rfl : t = .connective c := ht
    rw [readClosing_of_front hr, readClosing_of_front hs]
    refine ⟨Y'.map Prod.fst, ⟨⟨X', hY.symm, rfl⟩, ⟨Y', rfl, rfl⟩, rfl⟩, ?_⟩
    rw [List.map_cons, List.reverse_cons, nest_concat]
    simp [Token.nest]
  · have hX (c : Connective) : top (X ++ F) ≠ some (.connective c) := by
      rcases X with _ | ⟨⟨t, a'⟩, X⟩
      · exact hl.left c
      · intro ht
        obtain rfl : t = .connective c := Option.some.inj ht
        exact hc ⟨_, _, _, rfl⟩
    have hY (c : Connective) : top (Y ++ G) ≠ some (.connective c) := by
      rcases Y with _ | ⟨⟨t, b'⟩, Y⟩
      · exact hl.right c
      · obtain ⟨⟨u, a'⟩, X', rfl, hu, -⟩ := List.map_eq_cons_iff.mp h
        intro ht
        obtain rfl : t = .connective c := Option.some.inj ht
        exact hX c (congrArg some hu)
    rw [readClosing_of_bare hr hX, readClosing_of_bare hs hY]
    exact ⟨Y.map Prod.fst, ⟨⟨X, h, rfl⟩, ⟨Y, rfl, rfl⟩, rfl⟩, rfl⟩

theorem Alike.readClosing (hl : Level F G) (h : Alike F G V r s) (m : α) (n : β)
    (hc : top F = some .opening → nest 0 V.reverse ≠ some 0) :
    ∃ V', Alike F G V' (r.readClosing m) (s.readClosing n) ∧
      nest 0 V'.reverse = (nest 0 V.reverse).bind fun d => Token.closing.nest d := by
  obtain ⟨X, hX, hr⟩ := exists_shed (fun _ => true) hl.left h.left
  obtain ⟨Y, hY, hs⟩ := exists_shed (fun _ => true) hl.right h.right
  have hXY := hX.trans hY.symm
  rw [← nest_dropWhile_goes (fun _ => true) V, ← hY] at hc ⊢
  have hconcat := nest_concat 0 (Y.map Prod.fst).reverse .closing
  rw [← List.reverse_cons] at hconcat
  rcases Y with _ | ⟨⟨t, b⟩, Y⟩
  · -- nothing is left above the floors, and the group is not theirs
    obtain rfl := List.map_eq_nil_iff.mp hXY
    have hF : top F ≠ some .opening := fun h0 => hc h0 rfl
    have hG : top G ≠ some .opening := fun h0 => hF (hl.opening.mpr h0)
    exact ⟨_, alike_closing_of_held hXY hr hs hF hG m n, hconcat⟩
  · obtain ⟨⟨u, a⟩, X, rfl, hu, hXY'⟩ := List.map_eq_cons_iff.mp hXY
    obtain rfl : u = t := hu
    by_cases ho : u = .opening
    · subst ho
      obtain ⟨V', hV, hn⟩ := alike_closing_of_empty hl hXY' hr hs m n
      refine ⟨V', hV, ?_⟩
      rw [hn, List.map_cons, List.reverse_cons, nest_concat, Option.bind_assoc]
      exact (Option.bind_fun_some _).symm
    · have hne : some u ≠ some Token.opening := fun h0 => ho (Option.some.inj h0)
      exact ⟨_, alike_closing_of_held hXY hr hs hne hne m n, hconcat⟩

/-- One token leads to the same above level floors, unless it ends the group that the floors
end in. -/
theorem Alike.read (hl : Level F G) (h : Alike F G V r s) (t : Token) (m : α) (n : β)
    (hc : t = .closing → top F = some .opening → nest 0 V.reverse ≠ some 0) :
    ∃ V', Alike F G V' (r.read (t, m)) (s.read (t, n)) ∧
      nest 0 V'.reverse = (nest 0 V.reverse).bind fun d => t.nest d := by
  have hpush : nest 0 (t :: V).reverse = (nest 0 V.reverse).bind fun d => t.nest d := by
    rw [List.reverse_cons, nest_concat]
  cases t with
  | connective c =>
    obtain ⟨V', hV, hn⟩ := h.readConnective hl c m n
    exact ⟨V', hV, hn.trans (Option.bind_fun_some _).symm⟩
  | closing => exact h.readClosing hl m n (hc rfl)
  | boost factor =>
    cases hw : r.wake.boost with
    | true =>
      have hw' : s.wake.boost = true := h.wake ▸ hw
      refine ⟨V, ?_, (Option.bind_fun_some _).symm⟩
      rw [Reading.read, if_pos hw, Reading.read, if_pos hw', h.wake]
      exact ⟨h.left, h.right, rfl⟩
    | false =>
      have hw' : s.wake.boost = false := h.wake ▸ hw
      refine ⟨.boost factor :: V, ?_, hpush⟩
      rw [Reading.read, if_neg (by simp [hw]), Reading.read, if_neg (by simp [hw'])]
      exact h.push (.boost factor) m n
  | seed text => exact ⟨_, h.push (.seed text) m n, hpush⟩
  | clause text => exact ⟨_, h.push (.clause text) m n, hpush⟩
  | opening => exact ⟨_, h.push .opening m n, hpush⟩

/-! ## Many tokens -/

/-- **Floors do not matter**: the same tokens lead to the same above level floors, unless they
end the group that the floors end in. -/
theorem Alike.readAll (hl : Level F G) (h : Alike F G V r s) {ts : List (Token × α)}
    {us : List (Token × β)} (hts : ts.map Prod.fst = us.map Prod.fst)
    (hc : top F = some .opening → (nest 0 (V.reverse ++ ts.map Prod.fst)).isSome = true) :
    ∃ V', Alike F G V' (r.readAll ts) (s.readAll us) ∧
      nest 0 V'.reverse = nest 0 (V.reverse ++ ts.map Prod.fst) := by
  -- what is above the floors is nested as what was read, so it tells whether their group ends
  induction ts generalizing us V r s with
  | nil =>
    obtain rfl := List.map_eq_nil_iff.mp hts.symm
    exact ⟨V, h, by simp⟩
  | cons t ts ih =>
    obtain ⟨⟨u, n⟩, us, rfl, hu, hus⟩ := List.map_eq_cons_iff.mp hts.symm
    obtain ⟨t, m⟩ := t
    obtain rfl : u = t := hu
    have hstep : u = .closing → top F = some .opening → nest 0 V.reverse ≠ some 0 := by
      rintro rfl hF h0
      have := hc hF
      rw [nest_append, h0] at this
      cases this
    obtain ⟨V', hV, hn⟩ := h.read hl u m n hstep
    have happ : nest 0 (V'.reverse ++ ts.map Prod.fst) =
        nest 0 (V.reverse ++ ((u, m) :: ts).map Prod.fst) := by
      rw [nest_append, hn, nest_append, Option.bind_assoc]
      rfl
    obtain ⟨V'', hV', hn'⟩ := ih hV hus.symm fun hF => happ ▸ hc hF
    exact ⟨V'', hV', hn'.trans happ⟩

/-! ## What is left at the end -/

theorem tokens_outcome {X : List (Token × α)} (hF : ∀ c, top F ≠ some (.connective c))
    (h : r.before = X ++ F) : r.outcome.tokens =
      (F.map Prod.fst).reverse ++ ((X.map Prod.fst).dropWhile (goes fun _ => true)).reverse := by
  rw [outcome, Pruned.tokens, h, shed_append _ _ hF, List.map_reverse, List.map_append,
    tokens_shed, List.reverse_append]

/-- The same is left above level floors. -/
theorem Alike.outcome (hl : Level F G) (h : Alike F G V r s) :
    ∃ W, r.outcome.tokens = (F.map Prod.fst).reverse ++ W ∧
      s.outcome.tokens = (G.map Prod.fst).reverse ++ W := by
  obtain ⟨⟨X, hX, hr⟩, ⟨Y, hY, hs⟩, -⟩ := h
  refine ⟨(V.dropWhile (goes fun _ => true)).reverse, ?_, ?_⟩
  · rw [tokens_outcome hl.left hr, hX]
  · rw [tokens_outcome hl.right hs, hY]

theorem level_nil : Level ([] : List (Token × α)) ([] : List (Token × β)) :=
  ⟨nofun, nofun, Iff.rfl, Iff.rfl⟩

/-- Whether a floor ends neither in a connective nor in the start of a group. -/
def Firm (F : List (Token × α)) : Prop :=
  ∃ t, top F = some t ∧ t.isConnective = false ∧ t ≠ .opening

theorem Firm.top_ne (hF : Firm F) (c : Connective) : top F ≠ some (.connective c) := by
  obtain ⟨t, ht, hc, -⟩ := hF
  intro h
  obtain rfl := Option.some.inj (ht.symm.trans h)
  cases hc

theorem Firm.top_ne_opening (hF : Firm F) : top F ≠ some .opening := by
  obtain ⟨t, ht, -, ho⟩ := hF
  exact fun h => ho (Option.some.inj (ht.symm.trans h))

theorem Firm.top_ne_none (hF : Firm F) : top F ≠ none := by
  obtain ⟨t, ht, -⟩ := hF
  simp [ht]

/-- Firm floors are level. -/
theorem level_of_firm (hF : Firm F) (hG : Firm G) : Level F G where
  left := hF.top_ne
  right := hG.top_ne
  opening := iff_of_false hF.top_ne_opening hG.top_ne_opening
  bottom := iff_of_false hF.top_ne_none hG.top_ne_none

end Reading

theorem Reading.alike_start :
    Alike ([] : List (Token × α)) ([] : List (Token × β)) [] .start .start :=
  ⟨⟨[], rfl, rfl⟩, ⟨[], rfl, rfl⟩, rfl⟩

/-- Pruning does not look at marks. -/
theorem tokens_prune_of_tokens {ts : List (Token × α)} {us : List (Token × β)}
    (h : ts.map Prod.fst = us.map Prod.fst) : (prune ts).tokens = (prune us).tokens := by
  obtain ⟨V, hV, -⟩ := Reading.alike_start.readAll Reading.level_nil h nofun
  obtain ⟨W, hr, hs⟩ := hV.outcome Reading.level_nil
  rw [prune_eq_outcome, prune_eq_outcome, hr, hs]
  rfl

/-- Pruning leaves the nesting as it is. -/
theorem nest_prune (ts : List (Token × α)) :
    nest 0 (prune ts).tokens = nest 0 (ts.map Prod.fst) := by
  have hl := Reading.level_nil (α := α) (β := α)
  obtain ⟨V, ⟨⟨X, rfl, hr⟩, -, -⟩, hn⟩ :=
    Reading.alike_start.readAll hl (rfl : ts.map Prod.fst = ts.map Prod.fst) nofun
  rw [prune_eq_outcome, Reading.tokens_outcome hl.left hr]
  exact (Reading.nest_dropWhile_goes _ _).trans hn

end PortalSearch
