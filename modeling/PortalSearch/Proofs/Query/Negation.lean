import PortalSearch.Proofs.Query.Groups
import PortalSearch.Proofs.Query.Invariant

/-!
# Negations

A NOT in front of a clause, or in front of a group that holds one, negates it. Finishing is
not to take it away: without it the query would find what it was told to leave out.

An empty group goes with one neighbouring connective, and if there is none in front it takes
the one behind. That one joins the group to what follows it if it is AND or OR, but a NOT
negates what follows and has nothing to do with the group. So a NOT is lost if it stands
right behind an empty group that has no connective in front (`EndsBare`), and this is the
only way to lose it: once it is read together with what it negates, the two are a floor
that nothing takes away.

Main result: finishing keeps a NOT right in front of what it negates exactly if it does not
stand behind such a group (`negation_kept_iff`).
-/

namespace PortalSearch

open Prune

variable {α β : Type}

/-! ## What a NOT negates -/

/-- Whether tokens begin with a clause, or with a group that holds one. -/
def BeginsOperand : List Token → Prop
  | .clause _ :: _ => True
  | .opening :: ts => ∃ inner text behind, ts = inner ++ .clause text :: behind ∧
      (nest 0 inner).isSome = true
  | _ => False

/-- Tokens with a mark that says nothing. -/
def unmarked (ts : List Token) : List (Token × Unit) := ts.map fun t => (t, ())

@[simp] theorem unmarked_append (ts us : List Token) :
    unmarked (ts ++ us) = unmarked ts ++ unmarked us := List.map_append

@[simp] theorem tokens_unmarked (ts : List Token) : (unmarked ts).map Prod.fst = ts := by
  simp [unmarked, Function.comp_def]

/-- Whether a connective is left at the end of tokens and waits for what comes next: it stands
right in front of a clause that is put behind them. -/
def Waits (ts : List Token) : Prop :=
  ∃ c before, (prune (unmarked (ts ++ [.clause []]))).tokens = before ++ [.connective c, .clause []]

/-- Whether tokens end in a group, perhaps with a boost, of which nothing is left, and no
connective waits in front of it. -/
def EndsBare (ts : List Token) : Prop :=
  ∃ ahead inner boost, ts = ahead ++ .opening :: inner ++ .closing :: boost ∧
    nest 0 inner = some 0 ∧ (boost = [] ∨ ∃ factor, boost = [.boost factor]) ∧
    (prune (unmarked (.opening :: inner ++ [.closing]))).kept = [] ∧ ¬ Waits ahead

namespace Reading

/-! ## Ends of groups -/

/-- Whether the end of a group would now find it empty, with no connective in front. -/
def FindsBare (r : Reading α) : Prop :=
  ∃ m below, (shedAll r.before).1 = (.opening, m) :: below ∧ ∀ c, top below ≠ some (.connective c)

theorem wake_readClosing (r : Reading α) (m : α) :
    (r.readClosing m).wake.connective = true ↔ r.FindsBare := by
  obtain ⟨a, c, a', below, hb⟩ | ⟨a, below, hb, hc⟩ | hb := top_cases (shedAll r.before).1
  · rw [readClosing_of_front hb]
    refine ⟨fun h => (Bool.noConfusion h), ?_⟩
    rintro ⟨m', below', hb', hc'⟩
    rw [hb] at hb'
    obtain ⟨-, rfl⟩ := List.cons.inj hb'
    exact absurd rfl (hc' c)
  · rw [readClosing_of_bare hb hc]
    exact ⟨fun _ => ⟨a, below, hb, hc⟩, fun _ => rfl⟩
  · rw [readClosing_of_held hb]
    refine ⟨fun h => (Bool.noConfusion h), ?_⟩
    rintro ⟨m', below', hb', -⟩
    exact absurd (congrArg top hb') hb

/-- What a connective that comes next meets. -/
theorem wake_read (r : Reading α) (t : Token) (m : α) :
    (r.read (t, m)).wake.connective = true ↔ (t = .closing ∧ r.FindsBare) ∨
      (∃ factor, t = .boost factor) ∧ r.wake.boost = true ∧ r.wake.connective = true := by
  cases t with
  | closing =>
    rw [read_closing, wake_readClosing]
    simp
  | connective c =>
    rw [read_connective, wake_readConnective]
    simp [Wake.none]
  | boost factor =>
    rw [read]
    split
    · next hb => simp [hb]
    · next hb => simp [hb, push, Wake.none]
  | seed _ | clause _ | opening => simp [read, push, Wake.none]

/-! ## Empty groups -/

variable {ts : List Token}

/-- Tokens as they are read without marks. -/
def of (ts : List Token) : Reading Unit := start.readAll (unmarked ts)

theorem of_append (ts us : List Token) : of (ts ++ us) = (of ts).readAll (unmarked us) := by
  rw [of, unmarked_append, readAll_append, of]

theorem of_concat (ts : List Token) (t : Token) : of (ts ++ [t]) = (of ts).read (t, ()) :=
  of_append ts [t]

/-- A connective waits if it is on top. -/
theorem waits_iff (ts : List Token) :
    Waits ts ↔ ∃ c, top (of ts).before = some (.connective c) := by
  have hclause : (of (ts ++ [.clause []])).outcome.tokens =
      ((of ts).before.map Prod.fst).reverse ++ [.clause []] := by
    rw [of_concat, outcome, Pruned.tokens]
    simp [read, push, shed]
  rw [Waits, prune_eq_outcome, ← of, hclause]
  constructor
  · rintro ⟨c, before, h⟩
    refine ⟨c, ?_⟩
    have h' := congrArg (fun us => us.reverse.tail.head?) h
    simpa [top] using h'
  · rintro ⟨c, h⟩
    rcases hb : (of ts).before with _ | ⟨⟨t, m⟩, below⟩
    · rw [hb] at h
      cases h
    · rw [hb] at h
      obtain rfl : t = .connective c := Option.some.inj h
      exact ⟨c, (below.map Prod.fst).reverse, by simp⟩

/-- The end of a group finds it empty and bare exactly if nothing is left of the group and no
connective waits in front of it. -/
theorem findsBare_iff {ahead inner : List Token} (hi : nest 0 inner = some 0) :
    (of (ahead ++ .opening :: inner)).FindsBare ↔
      (prune (unmarked (.opening :: inner ++ [.closing]))).kept = [] ∧ ¬ Waits ahead := by
  have hF := top_cons_ne (t := .opening) rfl () (of ahead).before
  have hi' : nest 0 ((unmarked inner).map Prod.fst) = some 0 := by rwa [tokens_unmarked]
  obtain ⟨X, hX, hnX⟩ := exists_nested (r := (of ahead).push (.opening, ())) hF rfl hi'
  have hbefore : (of (ahead ++ .opening :: inner)).before =
      X ++ (.opening, ()) :: (of ahead).before := by
    rw [of_append]
    exact hX
  have hgroup : (prune (unmarked (.opening :: inner ++ [.closing]))).kept = [] ↔
      AllConnectives X := by
    rw [← hollow_iff rfl hF hi' hX, ← prune_group_eq_nil_iff hi' () (), unmarked_append]
    rfl
  rw [hgroup, waits_iff, FindsBare, hbefore, shed_append _ _ hF]
  constructor
  · rintro ⟨m, below, hs, hc⟩
    have hall : AllConnectives X := by
      by_cases hall : AllConnectives X
      · exact hall
      · exact absurd (congrArg top hs) (top_shedAll_of_nested hnX hall _)
    rw [(shedAll_eq_nil_iff X).mpr hall] at hs
    obtain ⟨-, rfl⟩ := List.cons.inj hs
    exact ⟨hall, fun ⟨c, h⟩ => hc c h⟩
  · rintro ⟨hall, hw⟩
    refine ⟨(), (of ahead).before, ?_, fun c hc => hw ⟨c, hc⟩⟩
    rw [(shedAll_eq_nil_iff X).mpr hall, List.nil_append]

theorem endsBare_of_findsBare {ts boost : List Token} (hf : (of ts).FindsBare)
    (h : (nest 0 (ts ++ [.closing])).isSome = true)
    (hb : boost = [] ∨ ∃ factor, boost = [.boost factor]) : EndsBare (ts ++ .closing :: boost) := by
  obtain ⟨n, hn⟩ := Option.isSome_iff_exists.mp h
  rw [nest_concat] at hn
  obtain ⟨m, hm, hc⟩ := Option.bind_eq_some_iff.mp hn
  cases m with
  | zero => cases hc
  | succ m =>
    obtain ⟨ahead, inner, rfl, -, hi⟩ := exists_opening hm
    obtain ⟨hp, hw⟩ := (findsBare_iff hi).mp hf
    exact ⟨ahead, inner, boost, rfl, hi, hb, hp, hw⟩

/-- **Bare ends**: a connective goes with what stands in front of it exactly if that is an empty
group with no connective in front. -/
theorem wake_iff_endsBare {front : List Token} (h : (nest 0 front).isSome = true) :
    (of front).wake.connective = true ↔ EndsBare front := by
  constructor
  · intro hw
    rcases List.eq_nil_or_concat front with rfl | ⟨ts, t, hts⟩
    · cases hw
    rw [List.concat_eq_append] at hts
    subst hts
    rw [of_concat, wake_read] at hw
    obtain ⟨rfl, hf⟩ | ⟨⟨factor, rfl⟩, hb, hc⟩ := hw
    · exact endsBare_of_findsBare hf h (.inl rfl)
    · -- a boost that goes stands behind the end of the group
      rcases List.eq_nil_or_concat ts with rfl | ⟨ts, t, hts⟩
      · cases hc
      rw [List.concat_eq_append] at hts
      subst hts
      rw [of_concat] at hb hc
      obtain rfl := wake_boost hb
      obtain ⟨-, hf⟩ | ⟨⟨factor, hne⟩, -⟩ := (wake_read _ _ _).mp hc
      · have h' : (nest 0 (ts ++ [.closing])).isSome = true := by
          rw [nest_append] at h
          exact Option.isSome_of_isSome_bind h
        rw [List.append_assoc]
        exact endsBare_of_findsBare hf h' (.inr ⟨factor, rfl⟩)
      · cases hne
  · rintro ⟨ahead, inner, boost, rfl, hi, hboost, hbare⟩
    have hf := (findsBare_iff hi).mpr hbare
    have hc : (of (ahead ++ .opening :: inner ++ [.closing])).wake = ⟨true, true⟩ := by
      obtain ⟨m, below, hb, hc⟩ := hf
      rw [of_concat, read_closing, readClosing_of_bare hb hc]
    rcases hboost with rfl | ⟨factor, rfl⟩
    · rw [hc]
    · rw [List.append_cons, of_concat, wake_read, hc]
      exact .inr ⟨⟨factor, rfl⟩, rfl, rfl⟩

/-! ## What is kept -/

/-- A clause is kept with all that was kept in front of it. -/
theorem exists_kept_of_clause (r : Reading α) {text : Text} {m : α} (ts : List (Token × α)) :
    ∃ Y, (r.readAll ((.clause text, m) :: ts)).outcome.kept =
      r.before.reverse ++ (.clause text, m) :: Y :=
  exists_kept_above (t := .clause text) (r := r.push (.clause text, m)) rfl nofun rfl ts

/-- So is a group that holds a clause. -/
theorem exists_kept_of_operand (r : Reading α) {t : Token × α} {ts : List (Token × α)}
    (h : BeginsOperand (t.1 :: ts.map Prod.fst)) :
    ∃ Y, (r.readAll (t :: ts)).outcome.kept = r.before.reverse ++ t :: Y := by
  obtain ⟨t, m⟩ := t
  cases t with
  | clause text => exact exists_kept_of_clause r ts
  | opening =>
    obtain ⟨inner, text, behind, hts, hn⟩ := h
    obtain ⟨us, vs, rfl, hus, hvs⟩ := List.map_eq_append_iff.mp hts
    obtain ⟨⟨u, n⟩, ws, rfl, hu, -⟩ := List.map_eq_cons_iff.mp hvs
    obtain rfl : u = .clause text := hu
    have hF (c : Connective) : top ((.opening, m) :: r.before) ≠ some (.connective c) := nofun
    obtain ⟨X, hX⟩ := exists_above (r := r.push (.opening, m)) hF rfl us fun _ => hus ▸ hn
    obtain ⟨Y, hY⟩ := exists_kept_of_clause ((r.push (.opening, m)).readAll us) (m := n) ws
    rw [readAll_cons, read_opening, readAll_append, hY, hX]
    exact ⟨X.reverse ++ (.clause text, n) :: Y, by simp⟩
  | seed _ | boost _ | connective _ | closing => exact h.elim

/-- A connective that goes with what stands in front of it is not kept. -/
theorem not_mem_kept_of_wake {front : List Token}
    (hw : (start.readAll front.zipIdx).wake.connective = true) (c : Connective)
    (rest : List Token) : (.connective c, front.length) ∉ ((start.readAll front.zipIdx).readAll
      ((.connective c, front.length) :: rest.zipIdx (front.length + 1))).outcome.kept := by
  refine not_mem_kept_of_read ?_ rest
  rw [read_connective, readConnective_of_wake hw]

/-- A NOT that does not go is kept right in front of what it negates. -/
theorem exists_kept_of_not {r : Reading α} (hw : r.wake.connective = false) (m : α)
    {t : Token × α} {ts : List (Token × α)} (h : BeginsOperand (t.1 :: ts.map Prod.fst)) :
    ∃ before behind, (r.readAll ((.connective .not, m) :: t :: ts)).outcome.kept =
      before ++ (.connective .not, m) :: t :: behind := by
  have hlead : Connective.leads (top (shed Connective.not.yields r.before).1) .not = false :=
    Bool.and_false _
  obtain ⟨Y, hY⟩ := exists_kept_of_operand (r.read (.connective .not, m)) h
  rw [readAll_cons, hY, read_connective, readConnective_of_joins hw hlead]
  exact ⟨(shed Connective.not.yields r.before).1.reverse, Y, by simp⟩

end Reading

namespace Builder

/-- **Negations are kept** right in front of what they negate, exactly if they do not stand
behind an empty group that has no connective in front. -/
theorem negation_kept_iff (seed : Text) (ks : List Call) {front rest : List Token} {t : Token}
    (h : ((ofSeed seed).run ks).1.closedTokens = front ++ .connective .not :: t :: rest)
    (ho : BeginsOperand (t :: rest)) :
    (∃ before behind, (clean ((ofSeed seed).run ks).1.closedTokens).kept =
      before ++ (.connective .not, front.length) :: (t, front.length + 1) :: behind) ↔
      ¬ EndsBare front := by
  have hnest := nest_closedTokens (isSound_run seed ks)
  rw [h] at hnest ⊢
  obtain ⟨n, hn, -⟩ := nest_of_append hnest
  obtain ⟨V, hV, -⟩ := Reading.alike_start.readAll Reading.level_nil
    (show front.zipIdx.map Prod.fst = (unmarked front).map Prod.fst by simp) nofun
  have hwake := Reading.wake_iff_endsBare (Option.isSome_iff_exists.mpr ⟨n, hn⟩)
  rw [Reading.of, ← hV.wake] at hwake
  rw [kept_clean_iff, prune_eq_outcome, ← hwake, List.zipIdx_append, Reading.readAll_append,
    List.zipIdx_cons, Nat.zero_add]
  cases hw : (Reading.start.readAll front.zipIdx).wake.connective with
  | true =>
    refine ⟨?_, fun hne => absurd rfl hne⟩
    rintro ⟨before, behind, hk⟩
    have hlost := Reading.not_mem_kept_of_wake hw .not (t :: rest)
    rw [hk] at hlost
    exact absurd (List.mem_append_right _ (List.mem_cons_self ..)) hlost
  | false =>
    refine ⟨fun _ => Bool.false_ne_true, fun _ => ?_⟩
    rw [List.zipIdx_cons]
    exact Reading.exists_kept_of_not hw front.length (by rwa [List.zipIdx_map_fst])

/-- An empty group behind an OR takes the OR along, and the NOT behind it stays. -/
theorem negation_kept_behind_or :
    let terms (c : Char) : Call := .edit (.terms [.text [c]])
    let calls : List Call := [terms 'a', .edit (.connect .or), .edit .startGroup, .edit .endGroup,
      .edit (.connect .not), .edit .startGroup, terms 'b']
    let b := ((ofSeed []).run calls).1
    let front : List Token := [.clause ['a'], .connective .or, .opening, .closing]
    b.closedTokens = front ++ .connective .not :: .opening :: [.clause ['b'], .closing] ∧
      BeginsOperand [.opening, .clause ['b'], .closing] ∧
      ((∃ before behind, (clean b.closedTokens).kept =
        before ++ (.connective .not, 4) :: (.opening, 5) :: behind) ↔ ¬ EndsBare front) ∧
      b.finish.1.text = "a NOT (b)".toList := by
  intro terms calls b front
  have hts : b.closedTokens =
      front ++ .connective .not :: .opening :: [.clause ['b'], .closing] := by
    decide +kernel
  have ho : BeginsOperand [.opening, .clause ['b'], .closing] := ⟨[], ['b'], [.closing], rfl, rfl⟩
  exact ⟨hts, ho, negation_kept_iff [] calls hts ho, by decide +kernel⟩

/-- With nothing in front, an empty group takes the NOT behind it, and the clause that was to be
left out is searched for. -/
theorem negation_lost_behind_empty_group :
    let b := ((ofSeed []).run [.edit .startGroup, .edit .endGroup, .edit (.connect .not),
      .edit (.terms [.text ['a']])]).1
    b.closedTokens = [.opening, .closing, .connective .not, .clause ['a']] ∧
      ¬ (∃ before behind, (clean b.closedTokens).kept =
        before ++ (.connective .not, 2) :: (.clause ['a'], 3) :: behind) ∧
      b.finish.1.text = "a".toList := by
  intro b
  refine ⟨by decide +kernel, ?_, by decide +kernel⟩
  have hk : (clean b.closedTokens).kept = [(.clause ['a'], 3)] := by decide +kernel
  rw [hk]
  rintro ⟨before, behind, h⟩
  have hlen := congrArg List.length h
  simp at hlen
  omega

end Builder

end PortalSearch
