import PortalSearch.Query.Token

/-!
# Nesting

How many groups are open behind some tokens, if none is ended that was not started
(`nest`). Only the ends of groups count. A group that is open was started at some place, and
what follows it there leaves no other one open (`exists_opening`); and the depth of a draft
follows the nesting of what is written (`Draft.depth_writeAll`).
-/

namespace PortalSearch

/-- How many groups are open behind a token; nothing if it ends a group that is not open. -/
def Token.nest (depth : Nat) : Token → Option Nat
  | .opening => some (depth + 1)
  | .closing => if depth = 0 then none else some (depth - 1)
  | .seed _ | .clause _ | .boost _ | .connective _ => some depth

/-- How many groups are open behind tokens. -/
def nest (depth : Nat) : List Token → Option Nat
  | [] => some depth
  | t :: ts => (t.nest depth).bind fun d => nest d ts

@[simp] theorem nest_nil (depth : Nat) : nest depth [] = some depth := rfl

@[simp] theorem nest_connective (depth : Nat) (c : Connective) (ts : List Token) :
    nest depth (.connective c :: ts) = nest depth ts := rfl

@[simp] theorem nest_boost (depth : Nat) (factor : Text) (ts : List Token) :
    nest depth (.boost factor :: ts) = nest depth ts := rfl

theorem nest_append (depth : Nat) (ts us : List Token) :
    nest depth (ts ++ us) = (nest depth ts).bind fun d => nest d us := by
  induction ts generalizing depth with
  | nil => rfl
  | cons t ts ih =>
    rw [List.cons_append, nest, nest, Option.bind_assoc]
    exact Option.bind_congr fun d _ => ih d

theorem nest_concat (depth : Nat) (ts : List Token) (t : Token) :
    nest depth (ts ++ [t]) = (nest depth ts).bind fun d => t.nest d := by
  rw [nest_append]
  exact Option.bind_congr fun d _ => by cases t <;> simp [nest]

theorem nest_of_append {depth n : Nat} {ts us : List Token} (h : nest depth (ts ++ us) = some n) :
    ∃ m, nest depth ts = some m ∧ nest m us = some n := by
  rw [nest_append] at h
  exact Option.bind_eq_some_iff.mp h

/-- What is nested is nested inside other groups as well. -/
theorem nest_add {depth n : Nat} {ts : List Token} (h : nest depth ts = some n) (k : Nat) :
    nest (depth + k) ts = some (n + k) := by
  induction ts generalizing depth with
  | nil => rw [Option.some.inj h]; rfl
  | cons t ts ih =>
    obtain ⟨m, hm, ht⟩ := Option.bind_eq_some_iff.mp h
    have hk : t.nest (depth + k) = some (m + k) := by
      cases t <;> simp [Token.nest] at hm ⊢ <;> omega
    rw [nest, hk]
    exact ih ht

theorem nest_enclosed {ts : List Token} (h : nest 0 ts = some 0) (depth : Nat) :
    nest depth (.opening :: ts ++ [.closing]) = some depth := by
  rw [nest_concat, nest, Token.nest, Option.bind_some, Nat.add_comm, ← Nat.zero_add (1 + depth),
    nest_add h]
  simp [Token.nest]

theorem nest_replicate_closing (n : Nat) : nest n (List.replicate n .closing) = some 0 := by
  induction n with
  | zero => rfl
  | succ n ih => exact ih

/-- An open group was started at some place, and what follows it leaves no other one open. -/
theorem exists_opening {n : Nat} {ts : List Token} (h : nest 0 ts = some (n + 1)) :
    ∃ ahead inner, ts = ahead ++ .opening :: inner ∧ nest 0 ahead = some n ∧
      nest 0 inner = some 0 := by
  -- on the length: behind the end of a group, what stands in front of its start is looked at next
  induction hl : ts.length using Nat.strongRecOn generalizing ts n with
  | _ l ih =>
    rcases List.eq_nil_or_concat ts with rfl | ⟨front, t, hts⟩
    · cases h
    rw [List.concat_eq_append] at hts
    subst hts hl
    rw [nest_concat] at h
    obtain ⟨m, hm, ht⟩ := Option.bind_eq_some_iff.mp h
    have hlen : front.length < (front ++ [t]).length := by simp
    cases t with
    | opening =>
      obtain rfl : m = n := Nat.succ.inj (Option.some.inj ht)
      exact ⟨front, [], rfl, hm, rfl⟩
    | closing =>
      -- the group that ends here was started inside the one that is looked for
      obtain rfl : m = n + 2 := by
        simp [Token.nest] at ht
        omega
      obtain ⟨ahead, last, rfl, ha, hlast⟩ := ih _ hlen hm rfl
      obtain ⟨ahead, inner, rfl, ha, hi⟩ := ih _ (by simp) ha rfl
      refine ⟨ahead, inner ++ (.opening :: last ++ [.closing]), by simp, ha, ?_⟩
      rw [nest_append, hi]
      exact nest_enclosed hlast 0
    | seed _ | clause _ | boost _ | connective _ =>
      obtain rfl : m = n + 1 := Option.some.inj ht
      obtain ⟨ahead, inner, rfl, ha, hi⟩ := ih _ hlen hm rfl
      refine ⟨ahead, inner ++ [_], List.append_assoc .., ha, ?_⟩
      rw [nest_concat, hi]
      rfl

/-! ## Drafts -/

namespace Draft

/-- The depth of a draft follows the nesting. -/
theorem depth_writeAll {d : Draft} {n : Nat} {ts : List Token} (h : nest d.depth ts = some n) :
    (d.writeAll ts).depth = n := by
  induction ts generalizing d with
  | nil => exact Option.some.inj h
  | cons t ts ih =>
    obtain ⟨m, hm, ht⟩ := Option.bind_eq_some_iff.mp h
    have hd : (d.write t).depth = m := by
      cases t with
      | closing =>
        simp only [Token.nest] at hm
        split at hm
        · cases hm
        · exact Option.some.inj hm
      | seed _ | clause _ | boost _ | connective _ | opening => exact Option.some.inj hm
    rw [writeAll_cons]
    exact ih (hd ▸ ht)

end Draft

end PortalSearch
