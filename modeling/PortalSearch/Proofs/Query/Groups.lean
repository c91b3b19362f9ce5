import PortalSearch.Proofs.Query.Floor

/-!
# What is left of a group

A group is read above the floor that its opening makes, so what is left of it does not depend on
what stands in front. There are two cases. If it holds a clause, it is left with both its ends and
makes a floor itself (`exists_readAll_group`). If nothing stays above its opening but connectives,
nothing is left of it, and it takes the connective in front along (`readAll_empty`).

Of which groups is nothing left? They hold connectives and groups of the same kind, each perhaps
with one boost, and nothing else: they are *hollow* (`Hollow`). Main results: pruning leaves
nothing of a group exactly if it is hollow (`prune_group_eq_nil_iff`), and a boost goes with what
stands in front of it exactly if that is a hollow group (`wake_boost_iff_endsHollow`).
-/

namespace PortalSearch

open Prune

variable {α : Type}

/-- Whether a group holds nothing but connectives and groups that hold nothing either, each perhaps
with one boost. -/
inductive Hollow : List Token → Prop
  /-- nothing at all -/
  | nil : Hollow []
  /-- one more connective -/
  | connective {ts : List Token} (h : Hollow ts) (c : Connective) : Hollow (ts ++ [.connective c])
  /-- one more group -/
  | group {ts inner : List Token} (h : Hollow ts) (hi : Hollow inner) :
    Hollow (ts ++ .opening :: inner ++ [.closing])
  /-- one more group, with a boost -/
  | boosted {ts inner : List Token} (h : Hollow ts) (hi : Hollow inner) (factor : Text) :
    Hollow (ts ++ .opening :: inner ++ [.closing] ++ [.boost factor])

/-- Whether tokens are a clause, what building started from, or a group that holds a clause. -/
inductive IsOperand : List Token → Prop
  /-- a clause -/
  | clause (text : Text) : IsOperand [.clause text]
  /-- what building started from -/
  | seed (text : Text) : IsOperand [.seed text]
  /-- a group that holds a clause -/
  | group {inner : List Token} (hn : nest 0 inner = some 0) (hc : ∃ text, .clause text ∈ inner) :
    IsOperand (.opening :: inner ++ [.closing])

/-- Whether tokens end in a hollow group. -/
def EndsHollow (ts : List Token) : Prop :=
  ∃ ahead inner, ts = ahead ++ .opening :: inner ++ [.closing] ∧ Hollow inner

theorem Hollow.nest {ts : List Token} (h : Hollow ts) : nest 0 ts = some 0 := by
  induction h with
  | nil => rfl
  | connective h c ih => rw [nest_concat, ih]; rfl
  | group h hi ih ihi => rw [List.append_assoc, nest_append, ih]; exact nest_enclosed ihi 0
  | boosted h hi factor ih ihi =>
    rw [nest_concat, List.append_assoc, nest_append, ih, Option.bind_some, nest_enclosed ihi 0]
    rfl

/-! ## Marks -/

theorem nodup_marks (ts : List Token) : (ts.zipIdx.map Prod.snd).Nodup := by
  rw [List.zipIdx_map_snd]
  exact List.nodup_range'

theorem zipIdx_enclosed (t u : Token) (inner : List Token) (k : Nat) :
    (t :: inner ++ [u]).zipIdx k =
      (t, k) :: inner.zipIdx (k + 1) ++ [(u, k + 1 + inner.length)] := by
  rw [List.cons_append, List.zipIdx_cons, List.zipIdx_append]
  rfl

theorem exists_concat_of_map {us : List (Token × α)} {ts : List Token} {t : Token}
    (h : us.map Prod.fst = ts ++ [t]) : ∃ vs m, us = vs ++ [(t, m)] ∧ vs.map Prod.fst = ts := by
  obtain ⟨vs, ws, rfl, hvs, hws⟩ := List.map_eq_append_iff.mp h
  obtain ⟨⟨u, m⟩, xs, rfl, hu, hxs⟩ := List.map_eq_cons_iff.mp hws
  obtain rfl : u = t := hu
  obtain rfl := List.map_eq_nil_iff.mp hxs
  exact ⟨vs, m, rfl, hvs⟩

theorem exists_group_of_map {us : List (Token × α)} {ahead inner : List Token}
    (h : us.map Prod.fst = ahead ++ .opening :: inner ++ [.closing]) :
    ∃ as m is n, us = as ++ ((.opening, m) :: is ++ [(.closing, n)]) ∧ as.map Prod.fst = ahead ∧
      is.map Prod.fst = inner := by
  obtain ⟨vs, n, rfl, hvs⟩ := exists_concat_of_map h
  obtain ⟨as, ws, rfl, has, hws⟩ := List.map_eq_append_iff.mp hvs
  obtain ⟨⟨u, m⟩, is, rfl, hu, his⟩ := List.map_eq_cons_iff.mp hws
  obtain rfl : u = .opening := hu
  exact ⟨as, m, is, n, List.append_assoc .., has, his⟩

namespace Reading

variable {r : Reading α} {F X : List (Token × α)}

/-! ## Floors -/

theorem top_cons_ne {t : Token} (ht : t.isConnective = false) (m : α) (F : List (Token × α))
    (c : Connective) : top ((t, m) :: F) ≠ some (.connective c) := by
  intro hc
  obtain rfl : t = .connective c := Option.some.inj hc
  cases ht

/-- Nothing goes from a floor. -/
theorem exists_kept (hF : ∀ c, top F ≠ some (.connective c)) {X : List (Token × α)}
    (h : r.before = X ++ F) : ∃ Y, r.outcome.kept = F.reverse ++ Y := by
  refine ⟨(shedAll X).1.reverse, ?_⟩
  rw [outcome, h, shed_append _ _ hF, List.reverse_append]

/-- What is read above a floor leaves it as it is. -/
theorem exists_above (hF : ∀ c, top F ≠ some (.connective c)) (h : r.before = F)
    (ts : List (Token × α))
    (hc : top F = some .opening → (nest 0 (ts.map Prod.fst)).isSome = true) :
    ∃ X, (r.readAll ts).before = X ++ F := by
  have ha : Alike F F [] r r := ⟨⟨[], rfl, h⟩, ⟨[], rfl, h⟩, rfl⟩
  obtain ⟨V, ⟨⟨X, -, hX⟩, -, -⟩, -⟩ := ha.readAll ⟨hF, hF, Iff.rfl, Iff.rfl⟩ rfl hc
  exact ⟨X, hX⟩

/-- What is kept begins with what was kept in front of a token that makes a floor. -/
theorem exists_kept_above {t : Token} {m : α} (ht : t.isConnective = false) (ho : t ≠ .opening)
    (h : r.before = (t, m) :: F) (ts : List (Token × α)) :
    ∃ Y, (r.readAll ts).outcome.kept = F.reverse ++ (t, m) :: Y := by
  have hF := top_cons_ne ht m F
  obtain ⟨X, hX⟩ := exists_above hF h ts fun hc => absurd (Option.some.inj hc) ho
  obtain ⟨Y, hY⟩ := exists_kept hF hX
  exact ⟨Y, by rw [hY]; simp⟩

/-- What nested tokens leave above a floor is nested like them. -/
theorem exists_nested (hF : ∀ c, top F ≠ some (.connective c)) (h : r.before = F) {n : Nat}
    {ts : List (Token × α)} (hn : nest 0 (ts.map Prod.fst) = some n) :
    ∃ X, (r.readAll ts).before = X ++ F ∧ nest 0 (X.map Prod.fst).reverse = some n := by
  have ha : Alike F F [] r r := ⟨⟨[], rfl, h⟩, ⟨[], rfl, h⟩, rfl⟩
  obtain ⟨V, ⟨⟨X, rfl, hX⟩, -, -⟩, hV⟩ :=
    ha.readAll ⟨hF, hF, Iff.rfl, Iff.rfl⟩ (rfl : ts.map Prod.fst = _) (by simp [hn])
  exact ⟨X, hX, hV.trans hn⟩

/-! ## Places -/

theorem lt_of_mem_readAll {front : List Token} {t : Token × Nat}
    (h : t ∈ (start.readAll front.zipIdx).before) : t.2 < front.length := by
  have hf := (start.sublist_readAll front.zipIdx).subset h
  rw [start, List.append_nil, List.mem_reverse] at hf
  exact List.snd_lt_of_mem_zipIdx hf

/-- A token that is not put on top is not kept, nor is another one in its place. -/
theorem not_mem_kept_of_read {front : List Token} {t : Token}
    (h : ((start.readAll front.zipIdx).read (t, front.length)).before =
      (start.readAll front.zipIdx).before) (rest : List Token) :
    (t, front.length) ∉ ((start.readAll front.zipIdx).readAll
      ((t, front.length) :: rest.zipIdx (front.length + 1))).outcome.kept := by
  intro hm
  have hs := (sublist_shed (fun _ => true) _).subset (List.mem_reverse.mp hm)
  rw [readAll_cons] at hs
  have hs := (sublist_readAll _ _).subset hs
  rw [h] at hs
  rcases List.mem_append.mp hs with hm | hm
  · exact absurd (List.le_snd_of_mem_zipIdx (List.mem_reverse.mp hm)) (Nat.not_succ_le_self _)
  · exact absurd (lt_of_mem_readAll hm) (Nat.lt_irrefl _)

/-! ## What the end of a group finds -/

/-- Whether there are connectives only. -/
def AllConnectives (X : List (Token × α)) : Prop := ∀ t ∈ X, t.1.isConnective = true

/-- All that is shed is connectives. -/
theorem allConnectives_shed_iff (p : Connective → Bool) (X : List (Token × α)) :
    AllConnectives (shed p X).1 ↔ AllConnectives X := by
  fun_induction shed p X with
  | case1 c mark X hp ih => simp [AllConnectives, Token.isConnective] at ih ⊢; exact ih
  | case2 => exact Iff.rfl
  | case3 => exact Iff.rfl

theorem shedAll_eq_nil_iff (X : List (Token × α)) : (shedAll X).1 = [] ↔ AllConnectives X := by
  rw [← allConnectives_shed_iff fun _ => true]
  refine ⟨fun h => h ▸ nofun, ?_⟩
  intro h
  rcases hX : (shedAll X).1 with _ | ⟨⟨t, m⟩, Y⟩
  · rfl
  · have ht : t.isConnective = true := h (t, m) (by rw [hX]; exact List.mem_cons_self ..)
    cases t with
    | connective c => exact absurd (congrArg top hX) (top_shedAll c)
    | seed _ | clause _ | boost _ | opening | closing => cases ht

/-- Nested tokens do not end in the start of a group, whatever goes from their end. -/
theorem top_shedAll_of_nested (hn : nest 0 (X.map Prod.fst).reverse = some 0)
    (hX : ¬ AllConnectives X) (G : List (Token × α)) :
    top ((shedAll X).1 ++ G) ≠ some .opening := by
  rw [← nest_dropWhile_goes fun _ => true, ← tokens_shed] at hn
  rcases hs : (shedAll X).1 with _ | ⟨⟨t, m⟩, Y⟩
  · exact absurd ((shedAll_eq_nil_iff X).mp hs) hX
  · intro ho
    obtain rfl : t = .opening := Option.some.inj ho
    rw [hs, List.map_cons, List.reverse_cons, nest_concat] at hn
    obtain ⟨d, -, hd⟩ := Option.bind_eq_some_iff.mp hn
    cases hd

/-- What is left when a group is taken out that stood on `F`: the connective in front goes with it,
or, if there is none, the next one is to go. -/
def Emptied (F : List (Token × α)) (s : Reading α) : Prop :=
  (∃ c a, F = (.connective c, a) :: s.before) ∧ s.wake = ⟨true, false⟩ ∨
  (∀ c, top F ≠ some (.connective c)) ∧ s.before = F ∧ s.wake = ⟨true, true⟩

variable {m n : α}

/-- The end of a group that holds nothing but connectives takes it out. -/
theorem readClosing_of_empty (h : r.before = X ++ (.opening, m) :: F) (hX : AllConnectives X) :
    Emptied F (r.readClosing n) := by
  have hs : (shedAll r.before).1 = (.opening, m) :: F := by
    rw [h, shed_append _ _ (top_cons_ne rfl m F), (shedAll_eq_nil_iff X).mpr hX, List.nil_append]
  by_cases hF : ∃ c, top F = some (.connective c)
  · obtain ⟨c, hc⟩ := hF
    rcases F with _ | ⟨⟨t, a⟩, below⟩
    · cases hc
    · obtain rfl : t = .connective c := Option.some.inj hc
      rw [readClosing_of_front hs]
      exact .inl ⟨⟨c, a, rfl⟩, rfl⟩
  · have hF' (c : Connective) : top F ≠ some (.connective c) := fun hc => hF ⟨c, hc⟩
    rw [readClosing_of_bare hs hF']
    exact .inr ⟨hF', rfl, rfl⟩

/-- The end of a group that is not taken out is put on top. -/
theorem readClosing_of_wake (h : (r.readClosing n).wake.boost = false) :
    (r.readClosing n).before = (.closing, n) :: (shedAll r.before).1 := by
  obtain ⟨m, c, m', below, hb⟩ | ⟨m, below, hb, hc⟩ | hb := top_cases (shedAll r.before).1
  · rw [readClosing_of_front hb] at h
    cases h
  · rw [readClosing_of_bare hb hc] at h
    cases h
  · rw [readClosing_of_held hb]

/-- The end of a group that holds more is put on top of what it holds. -/
theorem readClosing_of_nested (h : r.before = X ++ (.opening, m) :: F)
    (hn : nest 0 (X.map Prod.fst).reverse = some 0) (hX : ¬ AllConnectives X) :
    (r.readClosing n).before = (.closing, n) :: (shedAll X).1 ++ (.opening, m) :: F ∧
      (r.readClosing n).wake = .none := by
  have hs : (shedAll r.before).1 = (shedAll X).1 ++ (.opening, m) :: F := by
    rw [h, shed_append _ _ (top_cons_ne rfl m F)]
  rw [readClosing_of_held (hs ▸ top_shedAll_of_nested hn hX _), hs]
  exact ⟨rfl, rfl⟩

/-! ## Groups that hold a clause -/

/-- **A group that holds a clause is left with both its ends**, and what is left between them is
nested. -/
theorem exists_readAll_group {ts : List (Token × α)} (hn : nest 0 (ts.map Prod.fst) = some 0)
    (hc : ∃ text, Token.clause text ∈ ts.map Prod.fst) (r : Reading α) (m n : α) :
    ∃ held, (r.readAll ((.opening, m) :: ts ++ [(.closing, n)])).before =
        (.closing, n) :: held ++ (.opening, m) :: r.before ∧
      (r.readAll ((.opening, m) :: ts ++ [(.closing, n)])).wake = .none ∧
      nest 0 (held.map Prod.fst).reverse = some 0 ∧ held.Sublist ts.reverse := by
  obtain ⟨X, hX, hnX⟩ :=
    exists_nested (r := r.push (.opening, m)) (top_cons_ne rfl m r.before) rfl hn
  have hall : ¬ AllConnectives X := by
    obtain ⟨text, hmem⟩ := hc
    obtain ⟨as, bs, hsplit⟩ := List.append_of_mem hmem
    obtain ⟨us, vs, rfl, rfl, hvs⟩ := List.map_eq_append_iff.mp hsplit
    obtain ⟨⟨t, k⟩, ws, rfl, ht, -⟩ := List.map_eq_cons_iff.mp hvs
    obtain rfl : t = .clause text := ht
    -- the clause is a floor above the start of the group, whatever follows it inside
    obtain ⟨d, hd, -⟩ := nest_of_append (hsplit ▸ hn)
    obtain ⟨Y, hY, -⟩ :=
      exists_nested (r := r.push (.opening, m)) (top_cons_ne rfl m r.before) rfl hd
    obtain ⟨Z, hZ⟩ := exists_above
      (r := ((r.push (.opening, m)).readAll us).push (.clause text, k)) (top_cons_ne rfl k _) rfl ws
      nofun
    rw [readAll_append, readAll_cons, read_clause, hZ, hY] at hX
    have hXZ : X = Z ++ (.clause text, k) :: Y := by
      refine List.append_cancel_right (hX.symm.trans ?_)
      rw [List.append_assoc, List.cons_append]
    intro h
    have := h (.clause text, k) (by rw [hXZ]; simp)
    cases this
  have hsub := sublist_readAll (r.push (.opening, m)) ts
  rw [hX, push_before, List.append_sublist_append_right] at hsub
  obtain ⟨hbefore, hwake⟩ := readClosing_of_nested (n := n) hX hnX hall
  refine ⟨(shedAll X).1, ?_, ?_, ?_, (sublist_shed _ X).trans hsub⟩
  · rw [List.cons_append, readAll_cons, readAll_append]
    exact hbefore
  · rw [List.cons_append, readAll_cons, readAll_append]
    exact hwake
  · rw [tokens_shed, nest_dropWhile_goes]
    exact hnX

/-- A clause, what building started from, or a group that holds a clause is put on top with its
first and its last token. -/
theorem exists_readAll_operand {ts : List (Token × α)} (h : IsOperand (ts.map Prod.fst))
    (r : Reading α) :
    ∃ V : List (Token × α), (r.readAll ts).before = V.reverse ++ r.before ∧
      (r.readAll ts).wake = .none ∧ V.Sublist ts ∧ V.head? = ts.head? ∧
      V.getLast? = ts.getLast? := by
  generalize hts : ts.map Prod.fst = tokens at h
  cases h with
  | clause text =>
    obtain ⟨⟨t, m⟩, rfl, ht⟩ := List.map_eq_singleton_iff.mp hts
    obtain rfl : t = .clause text := ht
    exact ⟨[(.clause text, m)], rfl, rfl, List.Sublist.refl _, rfl, rfl⟩
  | seed text =>
    obtain ⟨⟨t, m⟩, rfl, ht⟩ := List.map_eq_singleton_iff.mp hts
    obtain rfl : t = .seed text := ht
    exact ⟨[(.seed text, m)], rfl, rfl, List.Sublist.refl _, rfl, rfl⟩
  | @group inner hn hc =>
    have hts : ts.map Prod.fst = [] ++ .opening :: inner ++ [.closing] := hts
    obtain ⟨as, m, is, n, rfl, has, rfl⟩ := exists_group_of_map hts
    obtain rfl := List.map_eq_nil_iff.mp has
    obtain ⟨held, hb, hw, -, hsub⟩ := exists_readAll_group hn hc r m n
    rw [List.nil_append]
    refine ⟨(.opening, m) :: held.reverse ++ [(.closing, n)], ?_, hw, ?_, rfl, ?_⟩
    · rw [hb]
      simp
    · have hrev := hsub.reverse
      rw [List.reverse_reverse] at hrev
      exact (hrev.cons_cons _).append (List.Sublist.refl _)
    · rw [List.getLast?_concat, List.getLast?_concat]

/-! ## Hollow groups -/

theorem Emptied.wake_boost {s : Reading α} (h : Emptied F s) : s.wake.boost = true := by
  obtain ⟨-, hw⟩ | ⟨-, -, hw⟩ := h <;> rw [hw]

/-- If there were connectives only in front of the group, so there are behind it. -/
theorem Emptied.exists_connectives {s : Reading α} (h : Emptied (X ++ F) s)
    (hF : ∀ c, top F ≠ some (.connective c)) (hX : AllConnectives X) :
    ∃ Y, s.before = Y ++ F ∧ AllConnectives Y := by
  obtain ⟨⟨c, a, hb⟩, -⟩ | ⟨-, hb, -⟩ := h
  · rcases X with _ | ⟨t, X⟩
    · exact absurd (congrArg top hb) (hF c)
    · obtain ⟨-, hb⟩ := List.cons.inj hb
      exact ⟨X, hb.symm, fun u hu => hX u (List.mem_cons_of_mem _ hu)⟩
  · exact ⟨X, hb, hX⟩

/-- If there are connectives only behind the group, so there were in front of it. -/
theorem Emptied.exists_connectives_of_before {G : List (Token × α)} {s : Reading α}
    (h : Emptied G s) (hs : s.before = X ++ F) (hX : AllConnectives X) :
    ∃ Y, G = Y ++ F ∧ AllConnectives Y := by
  obtain ⟨⟨c, a, hb⟩, -⟩ | ⟨-, hb, -⟩ := h
  · refine ⟨(.connective c, a) :: X, by rw [hb, hs]; rfl, ?_⟩
    intro t ht
    rcases List.mem_cons.mp ht with rfl | ht
    · rfl
    · exact hX t ht
  · exact ⟨X, by rw [← hb, hs], hX⟩

theorem wake_readConnective (r : Reading α) (c : Connective) (m : α) :
    (r.readConnective c m).wake = .none := by
  rw [readConnective]
  split
  · rfl
  · dsimp only
    split <;> rfl

/-- Only behind an empty group does a boost go. -/
theorem wake_boost {r : Reading α} {t : Token} {m : α} (h : (r.read (t, m)).wake.boost = true) :
    t = .closing := by
  cases t with
  | closing => rfl
  | connective c =>
    rw [read_connective, wake_readConnective] at h
    cases h
  | boost factor =>
    rw [read] at h
    split at h <;> cases h
  | seed _ | clause _ | opening => cases h

/-- Connectives are left of a connective and of what was left in front of it. -/
theorem exists_readConnective {c : Connective} (hF : ∀ c, top F ≠ some (.connective c))
    (h : r.before = X ++ F) :
    ∃ Y, (r.readConnective c m).before = Y ++ F ∧ (AllConnectives Y ↔ AllConnectives X) := by
  cases hw : r.wake.connective with
  | true => exact ⟨X, by rw [readConnective_of_wake hw]; exact h, Iff.rfl⟩
  | false =>
    have hs : (shed c.yields r.before).1 = (shed c.yields X).1 ++ F := by rw [h, shed_append _ _ hF]
    have hX := allConnectives_shed_iff c.yields X
    cases hl : c.leads (top (shed c.yields r.before).1) with
    | true =>
      rw [readConnective_of_leads hw hl]
      exact ⟨(shed c.yields X).1, hs, hX⟩
    | false =>
      rw [readConnective_of_joins hw hl]
      refine ⟨(.connective c, m) :: (shed c.yields X).1, congrArg _ hs, ?_⟩
      rw [← hX]
      simp [AllConnectives, Token.isConnective]

/-- What is read of a group of which connectives are left is taken out again. -/
theorem emptied_of_connectives {ts : List (Token × α)}
    (h : ∃ X, ((r.push (.opening, m)).readAll ts).before = X ++ (.opening, m) :: r.before ∧
      AllConnectives X) (n : α) :
    Emptied r.before (r.readAll ((.opening, m) :: ts ++ [(.closing, n)])) := by
  obtain ⟨X, hX, hall⟩ := h
  rw [List.cons_append, readAll_cons, readAll_append]
  exact readClosing_of_empty hX hall

/-- **Of a hollow list** connectives are left. -/
theorem exists_readAll_hollow {ts : List Token} (h : Hollow ts) {us : List (Token × α)}
    (hus : us.map Prod.fst = ts) (hF : ∀ c, top F ≠ some (.connective c)) (hr : r.before = X ++ F)
    (hX : AllConnectives X) : ∃ Y, (r.readAll us).before = Y ++ F ∧ AllConnectives Y := by
  induction h generalizing r us F X with
  | nil =>
    obtain rfl := List.map_eq_nil_iff.mp hus
    exact ⟨X, hr, hX⟩
  | connective h c ih =>
    obtain ⟨vs, m, rfl, hvs⟩ := exists_concat_of_map hus
    obtain ⟨Y, hY, hall⟩ := ih hvs hF hr hX
    obtain ⟨Z, hZ, hiff⟩ := exists_readConnective (c := c) (m := m) hF hY
    exact ⟨Z, by rw [readAll_append]; exact hZ, hiff.mpr hall⟩
  | group h hi ih ihi =>
    obtain ⟨as, m, is, n, rfl, has, his⟩ := exists_group_of_map hus
    obtain ⟨Y, hY, hall⟩ := ih has hF hr hX
    have he := emptied_of_connectives (r := r.readAll as)
      (ihi (X := []) his (top_cons_ne rfl m _) rfl nofun) n
    rw [hY] at he
    rw [readAll_append]
    exact he.exists_connectives hF hall
  | boosted h hi factor ih ihi =>
    obtain ⟨vs, k, rfl, hvs⟩ := exists_concat_of_map hus
    obtain ⟨as, m, is, n, rfl, has, his⟩ := exists_group_of_map hvs
    obtain ⟨Y, hY, hall⟩ := ih has hF hr hX
    have he := emptied_of_connectives (r := r.readAll as)
      (ihi (X := []) his (top_cons_ne rfl m _) rfl nofun) n
    -- the boost goes with the group
    have hw := he.wake_boost
    rw [hY] at he
    rw [readAll_append, readAll_append, readAll_cons, readAll_nil, read, if_pos hw]
    exact he.exists_connectives hF hall

/-- **A hollow group is taken out** as soon as it is read. -/
theorem emptied_of_hollow {ts : List (Token × α)} (h : Hollow (ts.map Prod.fst)) (r : Reading α)
    (m n : α) : Emptied r.before (r.readAll ((.opening, m) :: ts ++ [(.closing, n)])) :=
  emptied_of_connectives (exists_readAll_hollow (X := []) h rfl (top_cons_ne rfl m _) rfl nofun) n

/-! ## Which groups are taken out -/

/-- Whether tokens are hollow if nothing but connectives is left of them. -/
def TellsHollow (ts : List (Token × α)) : Prop :=
  ∀ (r : Reading α) (X : List (Token × α)), r.wake = .none →
    (∀ c, top r.before ≠ some (.connective c)) → nest 0 (ts.map Prod.fst) = some 0 →
    (r.readAll ts).before = X ++ r.before → AllConnectives X → Hollow (ts.map Prod.fst)

/-- A boost goes only behind a hollow group, if smaller lists tell that they are hollow. -/
theorem exists_hollow_of_wake {ts : List (Token × α)}
    (ih : ∀ us : List (Token × α), us.length < ts.length → TellsHollow us) (hr : r.wake = .none)
    (hn : (nest 0 (ts.map Prod.fst)).isSome = true) (hw : (r.readAll ts).wake.boost = true) :
    ∃ as m is n, ts = as ++ ((.opening, m) :: is ++ [(.closing, n)]) ∧
      Hollow (is.map Prod.fst) ∧ Emptied (r.readAll as).before (r.readAll ts) := by
  rcases List.eq_nil_or_concat ts with rfl | ⟨us, ⟨t, n⟩, hts⟩
  · rw [readAll_nil, hr] at hw
    cases hw
  rw [List.concat_eq_append] at hts
  subst hts
  rw [readAll_append] at hw
  obtain rfl := wake_boost hw
  obtain ⟨d, hd⟩ := Option.isSome_iff_exists.mp hn
  rw [List.map_append, List.map_cons, List.map_nil, nest_concat] at hd
  obtain ⟨k, hk, hclose⟩ := Option.bind_eq_some_iff.mp hd
  cases k with
  | zero => cases hclose
  | succ k =>
    obtain ⟨ahead, inner, hus, -, hi⟩ := exists_opening hk
    obtain ⟨as, ws, rfl, -, hws⟩ := List.map_eq_append_iff.mp hus
    obtain ⟨⟨u, m⟩, is, rfl, hu, rfl⟩ := List.map_eq_cons_iff.mp hws
    obtain rfl : u = .opening := hu
    obtain ⟨X, hX, hnX⟩ :=
      exists_nested (r := (r.readAll as).push (.opening, m)) (top_cons_ne rfl m _) rfl hi
    have hus : (r.readAll (as ++ (.opening, m) :: is)).before =
        X ++ (.opening, m) :: (r.readAll as).before := by
      rw [readAll_append]
      exact hX
    by_cases hall : AllConnectives X
    · refine ⟨as, m, is, n, List.append_assoc .., ?_, ?_⟩
      · exact ih is (by simp; omega) _ X rfl (top_cons_ne rfl m _) hi hX hall
      · have he := emptied_of_connectives ⟨X, hX, hall⟩ n
        rw [List.append_assoc, readAll_append]
        exact he
    · rw [readAll_cons, readAll_nil, read_closing,
        (readClosing_of_nested (n := n) hus hnX hall).2] at hw
      cases hw

/-- Tokens in front of a hollow group are hollow if all of them together are hollow. -/
theorem hollow_of_emptied {as is : List (Token × α)} {s : Reading α} (has : TellsHollow as)
    (hi : Hollow (is.map Prod.fst)) (hr : r.wake = .none)
    (hF : ∀ c, top r.before ≠ some (.connective c))
    (hn : nest 0 (as.map Prod.fst ++ (.opening :: is.map Prod.fst ++ [.closing])) = some 0)
    (he : Emptied (r.readAll as).before s) (hs : s.before = X ++ r.before)
    (hX : AllConnectives X) : Hollow (as.map Prod.fst) := by
  obtain ⟨Y, hY, hall⟩ := he.exists_connectives_of_before hs hX
  refine has r Y hr hF ?_ hY hall
  obtain ⟨d, hd, hg⟩ := nest_of_append hn
  rw [nest_enclosed hi.nest] at hg
  rw [hd, ← hg]

theorem tellsHollow (ts : List (Token × α)) : TellsHollow ts := by
  -- on the length: behind the end of a group, what stands in front of its start is looked at next
  induction hl : ts.length using Nat.strongRecOn generalizing ts with
  | _ l ih =>
    intro r X hr hF hn hX hall
    rcases List.eq_nil_or_concat ts with rfl | ⟨us, ⟨t, n⟩, hts⟩
    · exact .nil
    rw [List.concat_eq_append] at hts
    subst hts hl
    have hlen : us.length < (us ++ [(t, n)]).length := by simp
    have hmap : (us ++ [(t, n)]).map Prod.fst = us.map Prod.fst ++ [t] := List.map_append
    rw [hmap] at hn ⊢
    obtain ⟨d, hd, hend⟩ := nest_of_append hn
    obtain ⟨Y, hY, -⟩ := exists_nested hF rfl hd
    -- a token that is put on top stays there, and is no connective
    have hpush (hp : (r.readAll (us ++ [(t, n)])).before = (t, n) :: (r.readAll us).before) :
        t.isConnective = true := by
      rw [hX, hY] at hp
      have hXY : X = (t, n) :: Y := List.append_cancel_right hp
      exact hall (t, n) (by rw [hXY]; exact List.mem_cons_self ..)
    rw [readAll_append] at hX hpush
    cases t with
    | clause text => exact absurd (hpush rfl) Bool.false_ne_true
    | seed text => exact absurd (hpush rfl) Bool.false_ne_true
    | opening => cases hend
    | connective c =>
      obtain rfl : d = 0 := Option.some.inj hend
      obtain ⟨Z, hZ, hiff⟩ := exists_readConnective (c := c) (m := n) hF hY
      obtain rfl : Z = X := List.append_cancel_right (hZ.symm.trans hX)
      exact .connective (ih _ hlen us rfl r Y hr hF hd hY (hiff.mp hall)) c
    | boost factor =>
      obtain rfl : d = 0 := Option.some.inj hend
      cases hw : (r.readAll us).wake.boost with
      | false => exact absurd (hpush (by simp [read, hw])) Bool.false_ne_true
      | true =>
        have hs : (r.readAll us).before = X ++ r.before := by
          rw [← hX]
          simp [read, hw]
        obtain ⟨as, m, is, k, rfl, hi, he⟩ := exists_hollow_of_wake
          (fun vs hvs => ih _ (Nat.lt_trans hvs hlen) vs rfl) hr (by simp [hd]) hw
        have has :
            as.length < (as ++ ((Token.opening, m) :: is ++ [(Token.closing, k)])).length := by
          simp
        have ha := hollow_of_emptied (ih _ (Nat.lt_trans has hlen) as rfl) hi hr hF
          (by simpa using hd) he hs hall
        have hb := Hollow.boosted ha hi factor
        simpa using hb
    | closing =>
      cases hw : (r.readAll (us ++ [(.closing, n)])).wake.boost with
      | false =>
        rw [readAll_append] at hw
        have hb := readClosing_of_wake hw
        rw [hY, shed_append _ _ hF] at hb
        have hXY : X = (.closing, n) :: (shedAll Y).1 :=
          List.append_cancel_right (hX.symm.trans hb)
        exact absurd (hall (.closing, n) (by rw [hXY]; exact List.mem_cons_self ..))
          Bool.false_ne_true
      | true =>
        obtain ⟨as, m, is, k, hsplit, hi, he⟩ := exists_hollow_of_wake
          (fun vs hvs => ih _ hvs vs rfl) hr (by rw [hmap, hn]; rfl) hw
        have has : as.length < (us ++ [(Token.closing, n)]).length := by
          rw [hsplit]
          simp
        have hts : us.map Prod.fst ++ [.closing] =
            as.map Prod.fst ++ (.opening :: is.map Prod.fst ++ [.closing]) := by
          rw [← hmap, hsplit]
          simp
        rw [hts] at hn ⊢
        rw [readAll_append] at he
        have ha := hollow_of_emptied (ih _ has as rfl) hi hr hF hn he hX hall
        rw [← List.append_assoc]
        exact .group ha hi

/-- Tokens are hollow exactly if nothing but connectives is left of them. -/
theorem hollow_iff {ts : List (Token × α)} (hr : r.wake = .none)
    (hF : ∀ c, top r.before ≠ some (.connective c)) (hn : nest 0 (ts.map Prod.fst) = some 0)
    (hX : (r.readAll ts).before = X ++ r.before) : Hollow (ts.map Prod.fst) ↔ AllConnectives X := by
  refine ⟨?_, tellsHollow ts r X hr hF hn hX⟩
  intro h
  obtain ⟨Y, hY, hall⟩ := exists_readAll_hollow (X := []) h rfl hF rfl nofun
  rwa [List.append_cancel_right (hX.symm.trans hY)]

/-! ## Main results -/

/-- **A boost goes** with what stands in front of it exactly if that is a hollow group. -/
theorem wake_boost_iff_endsHollow {front : List (Token × α)}
    (hn : (nest 0 (front.map Prod.fst)).isSome = true) :
    (start.readAll front).wake.boost = true ↔ EndsHollow (front.map Prod.fst) := by
  constructor
  · intro hw
    obtain ⟨as, m, is, n, rfl, hi, -⟩ :=
      exists_hollow_of_wake (fun us _ => tellsHollow us) rfl hn hw
    exact ⟨as.map Prod.fst, is.map Prod.fst, by simp, hi⟩
  · rintro ⟨ahead, inner, h, hi⟩
    obtain ⟨as, m, is, n, rfl, -, rfl⟩ := exists_group_of_map h
    rw [readAll_append]
    exact (emptied_of_hollow hi _ m n).wake_boost

end Reading

/-- **Pruning leaves nothing of a group** exactly if it is hollow. -/
theorem prune_group_eq_nil_iff {ts : List (Token × α)} (hn : nest 0 (ts.map Prod.fst) = some 0)
    (m n : α) :
    (prune ((.opening, m) :: ts ++ [(.closing, n)])).kept = [] ↔ Hollow (ts.map Prod.fst) := by
  rw [prune_eq_outcome, Reading.outcome, List.reverse_eq_nil_iff, Reading.shedAll_eq_nil_iff]
  constructor
  · intro hall
    obtain ⟨X, hX, hnX⟩ := Reading.exists_nested (r := Reading.start.push (.opening, m))
      (Reading.top_cons_ne rfl m _) rfl hn
    apply (Reading.hollow_iff rfl (Reading.top_cons_ne rfl m _) hn hX).mpr
    by_cases hc : Reading.AllConnectives X
    · exact hc
    · have hb := (Reading.readClosing_of_nested (n := n) hX hnX hc).1
      rw [List.cons_append, Reading.readAll_cons, Reading.readAll_append, Reading.readAll_cons,
        Reading.readAll_nil, Reading.read_opening, Reading.read_closing, hb] at hall
      exact absurd (hall (.closing, n) (List.mem_cons_self ..)) Bool.false_ne_true
  · intro h
    obtain ⟨⟨c, a, hb⟩, -⟩ | ⟨-, hb, -⟩ := Reading.emptied_of_hollow h Reading.start m n
    · cases hb
    · rw [hb]
      intro t ht
      cases ht

end PortalSearch
