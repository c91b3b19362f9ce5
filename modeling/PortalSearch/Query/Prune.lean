import PortalSearch.Query.Token

/-!
# Pruning

A finished query has no group without content and no connective without something to
join. Pruning takes both out, one place at a time and always at the first place from the
left, until there is none.

* An empty group goes together with one boost behind it and with one neighbouring
  connective: the one in front if there is one, else the one behind.
* A connective goes if nothing or the end of a group follows it, if nothing or the start of
  a group stands in front of it (a NOT may begin), or if a connective follows it, except
  where the two are AND NOT or OR NOT.

Every token carries a mark that pruning never looks at, such as its place in the query, so
that one can say which of several equal tokens is left. Pruning ends because each step
takes a token out (`Prune.length_step`), and nothing is left to go at its end (`step_prune`).
-/

namespace PortalSearch

variable {α : Type}

/-- What is left of a query, and what was taken out of it. -/
structure Pruned (α : Type) where
  /-- the tokens that are left, with their marks -/
  kept : List (Token × α)
  /-- the connectives taken out, in the order in which they were -/
  dropped : List Connective
  /-- how many empty groups were taken out -/
  groups : Nat

/-- The tokens that are left. -/
def Pruned.tokens (p : Pruned α) : List Token := p.kept.map Prod.fst

namespace Prune

/-- Whether a connective joins nothing, given the tokens in front of it and behind it. -/
def isDangling (before : Option Token) (c : Connective) (behind : Option Token) : Bool :=
  let leads := (before == none || before == some .opening) && c != .not
  match behind with
  | none | some .closing => true
  | some (.connective next) => leads || c == .not || next != .not
  | some _ => leads

/-- Without a boost in front. -/
def dropBoost : List (Token × α) → List (Token × α)
  | (.boost _, _) :: rest => rest
  | rest => rest

/-- Takes out an empty group, given what stands in front of it, nearest token first, and
what stands behind it. -/
def removeGroup (before rest : List (Token × α)) : Pruned α :=
  match before, dropBoost rest with
  | (.connective c, _) :: before, rest => ⟨before.reverse ++ rest, [c], 1⟩
  | before, (.connective c, _) :: rest => ⟨before.reverse ++ rest, [c], 1⟩
  | before, rest => ⟨before.reverse ++ rest, [], 1⟩

/-- Takes out what is to go at the first place in the tokens, if there is one; `before` is
what stands in front of them, nearest token first. -/
def stepFrom (before : List (Token × α)) : List (Token × α) → Option (Pruned α)
  | [] => none
  | (.opening, _) :: (.closing, _) :: rest => some (removeGroup before rest)
  | (.connective c, mark) :: rest =>
    if isDangling (before.head?.map Prod.fst) c (rest.head?.map Prod.fst) then
      some ⟨before.reverse ++ rest, [c], 0⟩
    else stepFrom ((.connective c, mark) :: before) rest
  | t :: rest => stepFrom (t :: before) rest

/-- Takes out what is to go at the first place, if there is one. -/
def step? (ts : List (Token × α)) : Option (Pruned α) := stepFrom [] ts

theorem length_dropBoost (ts : List (Token × α)) : (dropBoost ts).length ≤ ts.length := by
  unfold dropBoost
  split <;> simp

theorem length_removeGroup (before rest : List (Token × α)) :
    (removeGroup before rest).kept.length ≤ before.length + rest.length := by
  have h := length_dropBoost rest
  unfold removeGroup
  split
  · simp; omega
  · next hr => rw [hr] at h; simp at h ⊢; omega
  · simp; omega

theorem length_stepFrom {before ts : List (Token × α)} {p : Pruned α}
    (h : stepFrom before ts = some p) : p.kept.length < before.length + ts.length := by
  fun_induction stepFrom before ts with
  | case1 => cases h
  | case2 before _ _ rest =>
    obtain rfl := Option.some.inj h
    have := length_removeGroup before rest
    simp; omega
  | case3 before c mark rest hd =>
    obtain rfl := Option.some.inj h
    simp
  | case4 before c mark rest hd ih =>
    have := ih h
    simp at this ⊢
    omega
  | case5 before t rest _ _ ih =>
    have := ih h
    simp at this ⊢
    omega

/-- Each step leaves fewer tokens. -/
theorem length_step {ts : List (Token × α)} {p : Pruned α} (h : step? ts = some p) :
    p.kept.length < ts.length := by
  simpa using length_stepFrom h

end Prune

/-- Prunes a query. -/
def prune (ts : List (Token × α)) : Pruned α :=
  match _h : Prune.step? ts with
  | none => ⟨ts, [], 0⟩
  | some p =>
    let later := prune p.kept
    ⟨later.kept, p.dropped ++ later.dropped, p.groups + later.groups⟩
termination_by ts.length
decreasing_by exact Prune.length_step _h

/-- Pruning where nothing is to go changes nothing. -/
theorem prune_of_step_eq_none {ts : List (Token × α)} (h : Prune.step? ts = none) :
    prune ts = ⟨ts, [], 0⟩ := by
  unfold prune
  split
  · rfl
  · next p hp => rw [h] at hp; cases hp

/-- Pruning is one step and pruning what it left. -/
theorem prune_of_step_eq_some {ts : List (Token × α)} {p : Pruned α}
    (h : Prune.step? ts = some p) :
    prune ts = ⟨(prune p.kept).kept, p.dropped ++ (prune p.kept).dropped,
      p.groups + (prune p.kept).groups⟩ := by
  rw [prune]
  split
  · next hn => rw [h] at hn; cases hn
  · next q hq =>
    obtain rfl : p = q := Option.some.inj (h.symm.trans hq)
    rfl

/-- Nothing is left to go. -/
theorem step_prune (ts : List (Token × α)) : Prune.step? (prune ts).kept = none := by
  induction hn : ts.length using Nat.strongRecOn generalizing ts with
  | _ n ih =>
    cases h : Prune.step? ts with
    | none => rw [prune_of_step_eq_none h]; exact h
    | some p =>
      rw [prune_of_step_eq_some h]
      exact ih _ (hn ▸ Prune.length_step h) _ rfl

end PortalSearch
