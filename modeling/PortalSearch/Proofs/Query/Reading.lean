import PortalSearch.Proofs.Query.Order

/-!
# Pruning in one reading

`prune` takes out one place at a time and starts again from the left. The same can be
had in a single reading of the tokens, with what is left so far as a stack, nearest token
first. A connective on top of the stack waits for the token behind it, and goes as soon as
that token shows that it joins nothing. The end of a group that holds nothing takes its
opening off the stack, and the connective in front of that with it; if there is none, the
next connective is taken as it comes (`Wake`).

Main result: the reading ends with exactly what pruning ends with, the same tokens, the
same connectives in the same order and the same number of groups (`prune_eq_outcome`). It
rests on the stack being orderly, so that the leftmost place to prune is always at its top.
-/

namespace PortalSearch

open Prune

variable {α : Type}

/-- What an empty group that was just taken out still takes with it. -/
structure Wake where
  /-- a boost right behind it -/
  boost : Bool
  /-- a connective right behind it, as there was none in front -/
  connective : Bool
  deriving DecidableEq

/-- Nothing goes. -/
def Wake.none : Wake := ⟨false, false⟩

/-- A query as far as it is read. -/
structure Reading (α : Type) where
  /-- the tokens left so far, nearest first -/
  before : List (Token × α)
  /-- what goes with the group taken out last -/
  wake : Wake
  /-- the connectives taken out, in the order in which they were -/
  dropped : List Connective
  /-- how many empty groups were taken out -/
  groups : Nat

namespace Reading

/-- Nothing is read yet. -/
def start : Reading α := ⟨[], .none, [], 0⟩

/-- The token on top. -/
def top (before : List (Token × α)) : Option Token := before.head?.map Prod.fst

/-- Takes connectives off the top while `p` holds: what is left, and the connectives in the
order in which they go. -/
def shed (p : Connective → Bool) : List (Token × α) → List (Token × α) × List Connective
  | (.connective c, mark) :: before =>
    if p c then ((shed p before).1, c :: (shed p before).2)
    else ((.connective c, mark) :: before, [])
  | before => (before, [])

/-- Takes all connectives off the top. -/
abbrev shedAll (before : List (Token × α)) : List (Token × α) × List Connective :=
  shed (fun _ => true) before

/-- Puts a token on top. -/
def push (r : Reading α) (t : Token × α) : Reading α :=
  { r with before := t :: r.before, wake := .none }

/-- Reads a connective. -/
def readConnective (r : Reading α) (c : Connective) (mark : α) : Reading α :=
  if r.wake.connective then { r with wake := .none, dropped := r.dropped ++ [c] }
  else
    let s := shed c.yields r.before
    if c.leads (top s.1) then ⟨s.1, .none, r.dropped ++ s.2 ++ [c], r.groups⟩
    else ⟨(.connective c, mark) :: s.1, .none, r.dropped ++ s.2, r.groups⟩

/-- Reads the end of a group. -/
def readClosing (r : Reading α) (mark : α) : Reading α :=
  let s := shedAll r.before
  match s.1 with
  | (.opening, _) :: (.connective c, _) :: before =>
    ⟨before, ⟨true, false⟩, r.dropped ++ s.2 ++ [c], r.groups + 1⟩
  | (.opening, _) :: before => ⟨before, ⟨true, true⟩, r.dropped ++ s.2, r.groups + 1⟩
  | before => ⟨(.closing, mark) :: before, .none, r.dropped ++ s.2, r.groups⟩

/-- Reads one token. -/
def read (r : Reading α) : Token × α → Reading α
  | (.boost factor, mark) =>
    if r.wake.boost then { r with wake := ⟨false, r.wake.connective⟩ }
    else r.push (.boost factor, mark)
  | (.connective c, mark) => r.readConnective c mark
  | (.closing, mark) => r.readClosing mark
  | t => r.push t

/-- Reads tokens in order. -/
def readAll (r : Reading α) (ts : List (Token × α)) : Reading α := ts.foldl read r

/-- What is left at the end of the tokens, where no connective joins anything. -/
def outcome (r : Reading α) : Pruned α :=
  ⟨(shedAll r.before).1.reverse, r.dropped ++ (shedAll r.before).2, r.groups⟩

@[simp] theorem readAll_nil (r : Reading α) : r.readAll [] = r := rfl

@[simp] theorem readAll_cons (r : Reading α) (t : Token × α) (ts : List (Token × α)) :
    r.readAll (t :: ts) = (r.read t).readAll ts := rfl

@[simp] theorem push_before (r : Reading α) (t : Token × α) :
    (r.push t).before = t :: r.before := rfl

@[simp] theorem push_wake (r : Reading α) (t : Token × α) : (r.push t).wake = .none := rfl

@[simp] theorem read_clause (r : Reading α) (text : Text) (mark : α) :
    r.read (.clause text, mark) = r.push (.clause text, mark) := rfl

@[simp] theorem read_opening (r : Reading α) (mark : α) :
    r.read (.opening, mark) = r.push (.opening, mark) := rfl

@[simp] theorem read_connective (r : Reading α) (c : Connective) (mark : α) :
    r.read (.connective c, mark) = r.readConnective c mark := rfl

@[simp] theorem read_closing (r : Reading α) (mark : α) :
    r.read (.closing, mark) = r.readClosing mark := rfl

theorem readAll_append (r : Reading α) (ts us : List (Token × α)) :
    r.readAll (ts ++ us) = (r.readAll ts).readAll us := List.foldl_append

/-! ## Connectives on top -/

theorem top_eq_head? (before : List (Token × α)) : top before = (before.map Prod.fst).head? :=
  List.head?_map.symm

theorem orderly_shed (p : Connective → Bool) {before : List (Token × α)}
    (h : Orderly (before.map Prod.fst)) : Orderly ((shed p before).1.map Prod.fst) := by
  fun_induction shed p before with
  | case1 c mark before hp ih => exact ih h.2
  | case2 => exact h
  | case3 => exact h

/-- No connective that is left on top could go. -/
theorem top_shed {p : Connective → Bool} {before : List (Token × α)} {c : Connective}
    (h : top (shed p before).1 = some (.connective c)) : p c = false := by
  fun_induction shed p before with
  | case1 d mark before hd ih => exact ih h
  | case2 d mark before hd =>
    obtain rfl : d = c := by simpa [top] using h
    simpa using hd
  | case3 before hb =>
    rcases before with _ | ⟨⟨t, mark⟩, before⟩
    · cases h
    · obtain rfl : t = .connective c := by simpa [top] using h
      exact absurd rfl (hb _ _ _)

theorem top_shedAll {before : List (Token × α)} (c : Connective) :
    top (shedAll before).1 ≠ some (.connective c) :=
  fun h => Bool.noConfusion (top_shed h)

/-- Nothing goes if the connective on top, if there is one, may stay. -/
theorem shed_of_top {p : Connective → Bool} {before : List (Token × α)}
    (h : ∀ c, top before = some (.connective c) → p c = false) : shed p before = (before, []) := by
  rcases before with _ | ⟨⟨t, mark⟩, before⟩
  · rfl
  · cases t with
    | connective c => rw [shed, if_neg (by simp [h c rfl])]
    | seed _ | clause _ | boost _ | opening | closing => rfl

/-! ## Reading connectives and ends of groups -/

theorem readConnective_of_wake {r : Reading α} {c : Connective} {mark : α}
    (hw : r.wake.connective = true) :
    r.readConnective c mark = { r with wake := .none, dropped := r.dropped ++ [c] } := by
  simp [readConnective, hw]

theorem readConnective_of_leads {r : Reading α} {c : Connective} {mark : α}
    (hw : r.wake.connective = false) (hl : c.leads (top (shed c.yields r.before).1) = true) :
    r.readConnective c mark = ⟨(shed c.yields r.before).1, .none,
      r.dropped ++ (shed c.yields r.before).2 ++ [c], r.groups⟩ := by
  simp only [readConnective, hw, hl]
  rfl

theorem readConnective_of_joins {r : Reading α} {c : Connective} {mark : α}
    (hw : r.wake.connective = false) (hl : c.leads (top (shed c.yields r.before).1) = false) :
    r.readConnective c mark = ⟨(.connective c, mark) :: (shed c.yields r.before).1, .none,
      r.dropped ++ (shed c.yields r.before).2, r.groups⟩ := by
  simp only [readConnective, hw, hl]
  rfl

theorem readClosing_of_front {r : Reading α} {mark m m' : α} {c : Connective}
    {before : List (Token × α)}
    (h : (shedAll r.before).1 = (.opening, m) :: (.connective c, m') :: before) :
    r.readClosing mark = ⟨before, ⟨true, false⟩,
      r.dropped ++ (shedAll r.before).2 ++ [c], r.groups + 1⟩ := by
  simp only [readClosing, h]

theorem readClosing_of_bare {r : Reading α} {mark m : α} {before : List (Token × α)}
    (h : (shedAll r.before).1 = (.opening, m) :: before)
    (hc : ∀ c, top before ≠ some (.connective c)) :
    r.readClosing mark =
      ⟨before, ⟨true, true⟩, r.dropped ++ (shedAll r.before).2, r.groups + 1⟩ := by
  rw [readClosing, h]
  split
  · next heq =>
    obtain ⟨-, rfl⟩ := List.cons.inj heq
    exact absurd rfl (hc _)
  · next heq => rw [(List.cons.inj heq).2]
  · next heq => exact absurd rfl (heq _ _)

theorem readClosing_of_held {r : Reading α} {mark : α}
    (h : top (shedAll r.before).1 ≠ some .opening) :
    r.readClosing mark = ⟨(.closing, mark) :: (shedAll r.before).1, .none,
      r.dropped ++ (shedAll r.before).2, r.groups⟩ := by
  rw [readClosing]
  split
  · next heq => exact absurd (congrArg top heq) h
  · next heq => exact absurd (congrArg top heq) h
  · rfl

/-- The end of a group finds an empty group behind a connective, another empty group, or
a group that holds something. -/
theorem top_cases (before : List (Token × α)) :
    (∃ m c m' below, before = (.opening, m) :: (.connective c, m') :: below) ∨
    (∃ m below, before = (.opening, m) :: below ∧ ∀ c, top below ≠ some (.connective c)) ∨
    top before ≠ some .opening := by
  rcases before with _ | ⟨⟨t, m⟩, below⟩
  · exact .inr (.inr fun h => nomatch h)
  by_cases ht : t = .opening
  · subst ht
    rcases below with _ | ⟨⟨u, m'⟩, below⟩
    · exact .inr (.inl ⟨m, [], rfl, fun _ h => nomatch h⟩)
    · cases u with
      | connective c => exact .inl ⟨m, c, m', below, rfl⟩
      | seed _ | clause _ | boost _ | opening | closing =>
        exact .inr (.inl ⟨m, _, rfl, fun _ h => by simp [top] at h⟩)
  · exact .inr (.inr fun h => ht (by simpa [top] using h))

/-! ## Order -/

theorem orderly_readConnective {r : Reading α} {c : Connective} {mark : α}
    (h : Orderly (r.before.map Prod.fst)) :
    Orderly ((r.readConnective c mark).before.map Prod.fst) := by
  cases hw : r.wake.connective with
  | true => rw [readConnective_of_wake hw]; exact h
  | false =>
    have hs := orderly_shed c.yields h
    cases hl : c.leads (top (shed c.yields r.before).1) with
    | true => rw [readConnective_of_leads hw hl]; exact hs
    | false =>
      rw [readConnective_of_joins hw hl]
      refine ⟨?_, hs⟩
      rw [← top_eq_head?]
      simp only [Token.mayFollow, hl]
      split
      · next d hd => simp [top_shed hd]
      · rfl

theorem orderly_readClosing {r : Reading α} {mark : α} (h : Orderly (r.before.map Prod.fst)) :
    Orderly ((r.readClosing mark).before.map Prod.fst) := by
  have hs := orderly_shed (fun _ => true) h
  obtain ⟨m, c, m', before, hb⟩ | ⟨m, before, hb, hc⟩ | hb := top_cases (shedAll r.before).1
  · rw [readClosing_of_front hb]
    rw [hb] at hs
    exact hs.2.2
  · rw [readClosing_of_bare hb hc]
    rw [hb] at hs
    exact hs.2
  · rw [readClosing_of_held hb]
    refine ⟨?_, hs⟩
    rw [← top_eq_head?]
    simp only [Token.mayFollow]
    split
    · next ho => exact absurd ho hb
    · next c hc => exact absurd hc (top_shedAll c)
    · rfl

/-- What is left is orderly at every point. -/
theorem orderly_read {r : Reading α} (h : Orderly (r.before.map Prod.fst)) (t : Token × α) :
    Orderly ((r.read t).before.map Prod.fst) := by
  obtain ⟨t, mark⟩ := t
  cases t with
  | connective c => exact orderly_readConnective h
  | closing => exact orderly_readClosing h
  | boost factor =>
    cases hw : r.wake.boost with
    | true => simpa [read, hw] using h
    | false =>
      simp only [read, hw]
      exact ⟨rfl, h⟩
  | seed _ | clause _ | opening => exact ⟨rfl, h⟩

theorem orderly_start : Orderly ((start : Reading α).before.map Prod.fst) := trivial

theorem orderly_readAll {r : Reading α} (h : Orderly (r.before.map Prod.fst))
    (ts : List (Token × α)) : Orderly ((r.readAll ts).before.map Prod.fst) := by
  induction ts generalizing r with
  | nil => exact h
  | cons t ts ih => exact ih (orderly_read h t)

end Reading

/-! ## What is on the stack -/

namespace Reading

theorem sublist_shed (p : Connective → Bool) (before : List (Token × α)) :
    (shed p before).1.Sublist before := by
  fun_induction shed p before with
  | case1 c mark before hp ih => exact ih.trans (List.sublist_cons_self ..)
  | case2 => exact List.Sublist.refl _
  | case3 => exact List.Sublist.refl _

/-- Reading puts the token on top that is read, and no other. -/
theorem sublist_read (r : Reading α) (t : Token × α) :
    (r.read t).before.Sublist (t :: r.before) := by
  obtain ⟨t, m⟩ := t
  cases t with
  | connective c =>
    have hs := sublist_shed c.yields r.before
    rw [read_connective, readConnective]
    split
    · exact List.sublist_cons_self ..
    · dsimp only
      split
      · exact hs.trans (List.sublist_cons_self ..)
      · exact hs.cons_cons _
  | closing =>
    have hs := sublist_shed (fun _ => true) r.before
    rw [read_closing]
    obtain ⟨a, c, a', below, hb⟩ | ⟨a, below, hb, hc⟩ | hb := top_cases (shedAll r.before).1
    · rw [readClosing_of_front hb]
      rw [hb] at hs
      exact (((List.sublist_cons_self ..).trans (List.sublist_cons_self ..)).trans hs).trans
        (List.sublist_cons_self ..)
    · rw [readClosing_of_bare hb hc]
      rw [hb] at hs
      exact ((List.sublist_cons_self ..).trans hs).trans (List.sublist_cons_self ..)
    · rw [readClosing_of_held hb]
      exact hs.cons_cons _
  | boost factor =>
    rw [read]
    split
    · exact List.sublist_cons_self ..
    · exact List.Sublist.refl _
  | seed _ | clause _ | opening => exact List.Sublist.refl _

theorem sublist_readAll (r : Reading α) (ts : List (Token × α)) :
    (r.readAll ts).before.Sublist (ts.reverse ++ r.before) := by
  induction ts generalizing r with
  | nil => exact List.Sublist.refl _
  | cons t ts ih =>
    rw [readAll_cons, List.reverse_cons, List.append_assoc]
    exact (ih (r.read t)).trans ((List.Sublist.refl _).append (sublist_read r t))

end Reading

/-! ## Reading orderly tokens -/

namespace Reading

/-- A token that may follow what is on top is put on top. -/
theorem read_of_mayFollow {r : Reading α} {t : Token × α} (hw : r.wake = .none)
    (h : t.1.mayFollow (top r.before) = true) : r.read t = r.push t := by
  obtain ⟨t, mark⟩ := t
  cases t with
  | connective c =>
    simp only [Token.mayFollow, Bool.and_eq_true, Bool.not_eq_true'] at h
    obtain ⟨hl, hy⟩ := h
    have hs : shed c.yields r.before = (r.before, []) := by
      apply shed_of_top
      intro d hd
      simpa [hd] using hy
    have hc : r.wake.connective = false := by rw [hw]; rfl
    rw [read, readConnective_of_joins hc (by rw [hs, hl]), hs]
    simp [push]
  | closing =>
    have hs : shedAll r.before = (r.before, []) := by
      apply shed_of_top
      intro d hd
      simp [Token.mayFollow, hd] at h
    have ht : top (shedAll r.before).1 ≠ some .opening := by
      rw [hs]
      intro ho
      simp [Token.mayFollow, ho] at h
    rw [read, readClosing_of_held ht, hs]
    simp [push]
  | boost factor =>
    have hb : r.wake.boost = false := by rw [hw]; rfl
    rw [read, if_neg (by simp [hb])]
  | seed _ | clause _ | opening => rfl

/-- Orderly tokens are put on top one after the other. -/
theorem readAll_of_orderly {r : Reading α} (hw : r.wake = .none) {ts : List (Token × α)}
    (h : Orderly ((ts.map Prod.fst).reverse ++ r.before.map Prod.fst)) :
    r.readAll ts = { r with before := ts.reverse ++ r.before } := by
  induction ts generalizing r with
  | nil => rfl
  | cons t ts ih =>
    rw [List.map_cons, List.reverse_cons, List.append_assoc] at h
    have ht : t.1.mayFollow (top r.before) = true := by
      rw [top_eq_head?]
      exact (Orderly.of_append h).1
    have hr := ih (r := r.push t) rfl h
    rw [readAll_cons, read_of_mayFollow hw ht, hr]
    simp [push, hw]

end Reading

/-! ## One reading prunes -/

namespace Pruned

/-- With what was taken out before. -/
def after (p : Pruned α) (dropped : List Connective) (groups : Nat) : Pruned α :=
  ⟨p.kept, dropped ++ p.dropped, groups + p.groups⟩

@[simp] theorem after_nil (p : Pruned α) : p.after [] 0 = p := by
  simp [after]

@[simp] theorem after_after (p : Pruned α) (d d' : List Connective) (g g' : Nat) :
    (p.after d g).after d' g' = p.after (d' ++ d) (g' + g) := by
  simp [after, Nat.add_assoc]

end Pruned

/-- Pruning is one step and, after it, pruning what it left. -/
theorem prune_of_step {ts : List (Token × α)} {p : Pruned α} (h : step? ts = some p) :
    prune ts = (prune p.kept).after p.dropped p.groups :=
  prune_of_step_eq_some h

namespace Reading

/-- Connectives on top of orderly tokens that join nothing go one after the other. -/
theorem prune_shed (p : Connective → Bool) {before : List (Token × α)}
    (rest : List (Token × α)) (hs : Orderly (before.map Prod.fst))
    (hp : ∀ front c, p c = true → isDangling front c (rest.head?.map Prod.fst) = true) :
    prune (before.reverse ++ rest) =
      (prune ((shed p before).1.reverse ++ rest)).after (shed p before).2 0 := by
  fun_induction shed p before with
  | case1 c mark before hc ih =>
    have hstep : step? (before.reverse ++ (.connective c, mark) :: rest) =
        some ⟨before.reverse ++ rest, [c], 0⟩ := by
      rw [step?_of_orderly hs, stepFrom, if_pos (hp _ c hc)]
    rw [List.reverse_cons, List.append_assoc, List.singleton_append, prune_of_step hstep,
      ih hs.2]
    simp
  | case2 => simp
  | case3 => simp

/-- Takes what goes with the last empty group off the tokens to come. -/
def absorb (w : Wake) (ts : List (Token × α)) : List (Token × α) × List Connective :=
  match if w.boost then dropBoost ts else ts with
  | (.connective c, mark) :: rest =>
    if w.connective then (rest, [c]) else ((.connective c, mark) :: rest, [])
  | ts => (ts, [])

theorem absorb_none (ts : List (Token × α)) : absorb .none ts = (ts, []) := by
  rw [absorb]
  split <;> simp_all [Wake.none]

theorem absorb_boost (ts : List (Token × α)) : absorb ⟨true, false⟩ ts = (dropBoost ts, []) := by
  rw [absorb]
  split <;> simp_all

theorem removeGroup_of_bare {before : List (Token × α)} (rest : List (Token × α))
    (hc : ∀ c, top before ≠ some (.connective c)) :
    removeGroup before rest = ⟨before.reverse ++ (absorb ⟨true, true⟩ rest).1,
      (absorb ⟨true, true⟩ rest).2, 1⟩ := by
  rw [removeGroup.eq_def]
  split
  · exact absurd rfl (hc _)
  · next h => simp [absorb, h]
  · next h =>
    have ha : absorb ⟨true, true⟩ rest = (dropBoost rest, []) := by
      rw [absorb]
      split
      · next h' => exact absurd h' (h _ _ _)
      · rfl
    rw [ha]

/-- What pruning ends with from here, if `ts` are the tokens to come. -/
def goesOn (r : Reading α) (ts : List (Token × α)) : Pruned α :=
  (prune (r.before.reverse ++ (absorb r.wake ts).1)).after
    (r.dropped ++ (absorb r.wake ts).2) r.groups

theorem goesOn_push {r : Reading α} {t : Token × α} {ts : List (Token × α)}
    (h : absorb r.wake (t :: ts) = (t :: ts, [])) : r.goesOn (t :: ts) = (r.push t).goesOn ts := by
  simp [goesOn, h, absorb_none, push]

theorem goesOn_readConnective {r : Reading α} {c : Connective} {mark : α}
    {ts : List (Token × α)} (hs : Orderly (r.before.map Prod.fst)) :
    r.goesOn ((.connective c, mark) :: ts) = (r.readConnective c mark).goesOn ts := by
  cases hw : r.wake.connective with
  | true =>
    have ha : absorb r.wake ((.connective c, mark) :: ts) = (ts, [c]) := by
      simp [absorb, dropBoost, hw]
    rw [readConnective_of_wake hw]
    simp [goesOn, absorb_none, ha]
  | false =>
    have ha : absorb r.wake ((.connective c, mark) :: ts) = ((.connective c, mark) :: ts, []) := by
      simp [absorb, dropBoost, hw]
    -- pruning goes from the left: first what yields to the connective, then the connective
    have hshed := prune_shed c.yields ((.connective c, mark) :: ts) hs
      fun front d hd => by simp [isDangling_connective, hd]
    cases hl : c.leads (top (shed c.yields r.before).1) with
    | true =>
      have hstep := prune_of_step (step?_of_leads (orderly_shed c.yields hs) hl mark ts)
      rw [readConnective_of_leads hw hl]
      simp [goesOn, absorb_none, ha, hshed, hstep]
    | false =>
      rw [readConnective_of_joins hw hl]
      simp [goesOn, absorb_none, ha, hshed]

theorem goesOn_readClosing {r : Reading α} {mark : α} {ts : List (Token × α)}
    (hs : Orderly (r.before.map Prod.fst)) :
    r.goesOn ((.closing, mark) :: ts) = (r.readClosing mark).goesOn ts := by
  -- nothing goes with the last group here, and no connective stays in front of the end of this one
  have ha : absorb r.wake ((.closing, mark) :: ts) = ((.closing, mark) :: ts, []) := by
    simp [absorb, dropBoost]
  have hshed := prune_shed (fun _ => true) ((.closing, mark) :: ts) hs
    fun _ _ _ => rfl
  have hs' := orderly_shed (fun _ => true) hs
  obtain ⟨m, c, m', before, hb⟩ | ⟨m, before, hb, hc⟩ | hb := top_cases (shedAll r.before).1
  · -- an empty group, which takes the connective in front
    rw [hb] at hs' hshed
    have hstep := step?_of_orderly hs' ((.closing, mark) :: ts)
    rw [readClosing_of_front hb]
    simp only [goesOn, ha, hshed, absorb_boost, List.reverse_cons, List.append_assoc,
      List.cons_append, List.nil_append] at hstep ⊢
    rw [prune_of_step (hstep.trans (by rw [stepFrom]))]
    simp [removeGroup]
  · -- an empty group with no connective in front
    rw [hb] at hs' hshed
    have hstep := step?_of_orderly hs' ((.closing, mark) :: ts)
    rw [readClosing_of_bare hb hc]
    simp only [goesOn, ha, hshed, List.reverse_cons, List.append_assoc, List.cons_append,
      List.nil_append]
    rw [prune_of_step (hstep.trans (by rw [stepFrom, removeGroup_of_bare ts hc]))]
    simp
  · -- a group that holds something
    rw [readClosing_of_held hb]
    simp [goesOn, absorb_none, ha, hshed]

/-- Reading a token changes nothing about what pruning ends with. -/
theorem goesOn_read {r : Reading α} (hs : Orderly (r.before.map Prod.fst)) (t : Token × α)
    (ts : List (Token × α)) : r.goesOn (t :: ts) = (r.read t).goesOn ts := by
  obtain ⟨t, mark⟩ := t
  cases t with
  | connective c => exact goesOn_readConnective hs
  | closing => exact goesOn_readClosing hs
  | boost factor =>
    cases hw : r.wake.boost with
    | true => simp [goesOn, read, hw, absorb, dropBoost]
    | false =>
      have ha : absorb r.wake ((.boost factor, mark) :: ts) =
          ((.boost factor, mark) :: ts, []) := by
        simp [absorb, hw]
      rw [goesOn_push ha]
      simp [read, hw]
  | seed _ | clause _ | opening => exact goesOn_push (by simp [absorb, dropBoost])

theorem goesOn_readAll {r : Reading α} (hs : Orderly (r.before.map Prod.fst))
    (ts : List (Token × α)) : r.goesOn ts = (r.readAll ts).goesOn [] := by
  induction ts generalizing r with
  | nil => rfl
  | cons t ts ih => rw [goesOn_read hs t ts, ih (orderly_read hs t), readAll_cons]

/-- At the end of the tokens the connectives on top go, and nothing else. -/
theorem goesOn_nil {r : Reading α} (hs : Orderly (r.before.map Prod.fst)) :
    r.goesOn [] = r.outcome := by
  have ha : absorb r.wake ([] : List (Token × α)) = ([], []) := by simp [absorb, dropBoost]
  have hshed := prune_shed (fun _ => true) [] hs fun _ _ _ => rfl
  have hend := step?_eq_none_of_orderly (orderly_shed (fun _ => true) hs)
    fun c mark below h => top_shedAll c (congrArg top h)
  rw [List.append_nil, List.append_nil, prune_of_step_eq_none hend] at hshed
  simp [goesOn, ha, hshed, outcome, Pruned.after]

end Reading

/-- **One reading prunes**: pruning ends with what the tokens leave when they are read once. -/
theorem prune_eq_outcome (ts : List (Token × α)) :
    prune ts = (Reading.start.readAll ts).outcome := by
  have h := Reading.orderly_start (α := α)
  rw [← Reading.goesOn_nil (Reading.orderly_readAll h ts), ← Reading.goesOn_readAll h]
  simp [Reading.goesOn, Reading.start, Reading.absorb_none]

/-- Pruning takes tokens out and leaves the others in their order. -/
theorem sublist_prune (ts : List (Token × α)) : (prune ts).kept.Sublist ts := by
  have h := (Reading.sublist_shed (fun _ => true) _).trans (Reading.start.sublist_readAll ts)
  rw [prune_eq_outcome, Reading.outcome]
  simpa [Reading.start] using h.reverse

end PortalSearch
