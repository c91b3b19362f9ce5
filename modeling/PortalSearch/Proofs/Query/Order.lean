import PortalSearch.Query.Prune

/-!
# Which token may follow which

Whether there is a place to prune can be told from neighbours: a connective may not
follow a connective, except in AND NOT and OR NOT; AND and OR may not begin a query or a
group; a group may not end right behind its opening or behind a connective. A list of
tokens is *orderly* if each of them may follow the one in front of it.

Lists are taken nearest token first here, as pruning holds what it has already passed. Main
result: pruning passes over orderly tokens, so it looks for its first place where they
end (`step?_of_orderly`).
-/

namespace PortalSearch

variable {α : Type}

/-- Whether a connective has to join and yet starts a query or a group. -/
def Connective.leads (front : Option Token) (c : Connective) : Bool :=
  (front == none || front == some .opening) && c != .not

/-- Whether a connective in front of `c` joins nothing. -/
def Connective.yields (c front : Connective) : Bool := front == .not || c != .not

/-- Whether a token may stand right behind another one, or at the start. -/
def Token.mayFollow (front : Option Token) : Token → Bool
  | .connective c =>
    !c.leads front &&
      match front with
      | some (.connective d) => !c.yields d
      | _ => true
  | .closing =>
    match front with
    | some .opening | some (.connective _) => false
    | _ => true
  | _ => true

/-- Each token may follow the one in front of it, nearest token first. -/
def Orderly : List Token → Prop
  | [] => True
  | t :: before => t.mayFollow before.head? = true ∧ Orderly before

theorem Orderly.of_append {ts us : List Token} (h : Orderly (ts ++ us)) : Orderly us := by
  induction ts with
  | nil => exact h
  | cons t ts ih => exact ih h.2

namespace Prune

/-- Whether pruning leaves a token alone, given the tokens in front of it and behind it. -/
def stays (front : Option Token) (t : Token) (behind : Option Token) : Bool :=
  match t with
  | .opening => behind != some .closing
  | .connective c => !isDangling front c behind
  | _ => true

theorem isDangling_of_leads {front : Option Token} {c : Connective} (h : c.leads front = true)
    (behind : Option Token) : isDangling front c behind = true := by
  rw [Connective.leads] at h
  simp only [isDangling, h]
  split <;> simp

theorem isDangling_connective (front : Option Token) (c d : Connective) :
    isDangling front d (some (.connective c)) = (d.leads front || c.yields d) :=
  Bool.or_assoc ..

theorem stepFrom_of_stays {before rest : List (Token × α)} {t : Token × α}
    (h : stays (before.head?.map Prod.fst) t.1 (rest.head?.map Prod.fst) = true) :
    stepFrom before (t :: rest) = stepFrom (t :: before) rest := by
  obtain ⟨t, mark⟩ := t
  cases t with
  | opening =>
    cases rest with
    | nil => simp [stepFrom]
    | cons u rest =>
      obtain ⟨u, mark'⟩ := u
      cases u <;> simp [stepFrom, stays] at h ⊢
  | connective c =>
    simp only [stays, Bool.not_eq_true'] at h
    rw [stepFrom, if_neg (by simp [h])]
  | seed _ | clause _ | boost _ | closing => rfl

/-- A token stays between two that it may stand between. -/
theorem stays_of_mayFollow {front : Option Token} {t u : Token}
    (ht : t.mayFollow front = true) (hu : u.mayFollow (some t) = true) :
    stays front t (some u) = true := by
  cases t with
  | opening => cases u <;> simp_all [Token.mayFollow, stays]
  | connective c =>
    simp only [Token.mayFollow, Bool.and_eq_true, Bool.not_eq_true'] at ht
    cases u with
    | closing => simp [Token.mayFollow] at hu
    | connective d =>
      simp only [Token.mayFollow, Bool.and_eq_true, Bool.not_eq_true'] at hu
      simp only [stays, isDangling_connective, ht.1, hu.2]
      rfl
    | seed _ | clause _ | boost _ | opening =>
      change (!c.leads front) = true
      rw [ht.1]
      rfl
  | seed _ | clause _ | boost _ | closing => rfl

/-- **Orderly tokens are passed over**: the first place to prune is searched from the last
one on. -/
theorem step?_of_orderly {before : List (Token × α)} {t : Token × α}
    (h : Orderly (t.1 :: before.map Prod.fst)) (rest : List (Token × α)) :
    step? (before.reverse ++ t :: rest) = stepFrom before (t :: rest) := by
  -- the search reaches the token nearest to `t` by induction, and that one stays as `t` follows it
  induction before generalizing t rest with
  | nil => rfl
  | cons u before ih =>
    have hstay : stays (before.head?.map Prod.fst) u.1 (some t.1) = true := by
      refine stays_of_mayFollow ?_ h.1
      rw [← List.head?_map]
      exact h.2.1
    rw [List.reverse_cons, List.append_assoc, List.singleton_append, ih h.2,
      stepFrom_of_stays hstay]

/-- Orderly tokens that do not end in a connective have no place to prune. -/
theorem step?_eq_none_of_orderly {before : List (Token × α)}
    (h : Orderly (before.map Prod.fst))
    (hc : ∀ c mark below, before ≠ (.connective c, mark) :: below) :
    step? before.reverse = none := by
  cases before with
  | nil => rfl
  | cons t before =>
    have hstay : stays (before.head?.map Prod.fst) t.1 none = true := by
      obtain ⟨t, mark⟩ := t
      cases t with
      | connective c => exact absurd rfl (hc c mark before)
      | seed _ | clause _ | boost _ | opening | closing => rfl
    rw [List.reverse_cons, step?_of_orderly h, stepFrom_of_stays hstay, stepFrom]

/-- A connective behind orderly tokens that would begin a query or a group goes. -/
theorem step?_of_leads {before : List (Token × α)} {c : Connective}
    (h : Orderly (before.map Prod.fst)) (hl : c.leads (before.head?.map Prod.fst) = true)
    (mark : α) (rest : List (Token × α)) :
    step? (before.reverse ++ (.connective c, mark) :: rest) =
      some ⟨before.reverse ++ rest, [c], 0⟩ := by
  cases before with
  | nil => exact if_pos (isDangling_of_leads hl _)
  | cons t before =>
    obtain ⟨t, mark'⟩ := t
    obtain rfl : t = .opening := by
      simp [Connective.leads] at hl
      exact hl.1
    rw [List.reverse_cons, List.append_assoc, List.singleton_append, step?_of_orderly h,
      stepFrom_of_stays (by rfl), stepFrom, if_pos (isDangling_of_leads hl _)]
    simp

end Prune

end PortalSearch
