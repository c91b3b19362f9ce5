import Mathlib.Data.List.DropRight
import PortalSearch.Proofs.Query.Floor
import PortalSearch.Query.Builder.Finish

/-!
# Finished tokens

Finishing takes out what joins nothing and, from a query that is nothing but the text it
started from, the connectives at the end of that text. Tokens are *finished* if there is
nothing of either kind: they are orderly, they do not end in a connective, and a seed that
stands alone ends in a word of another kind.

Finished tokens that end in no connective and start no group at their end are a floor: what
finishing leaves of the tokens behind them does not depend on what they are.

Main results: finished tokens are left as they are (`clean_of_finished`), what is left of any
tokens is finished (`finished_clean`), and finishing above a floor leaves the same above any
other (`exists_clean`).
-/

namespace PortalSearch

open Prune

variable {α : Type}

/-! ## Seeds -/

namespace Seed

/-- A text whose last character is no blank and whose last word is no connective, read from
its end, is left as it is. -/
theorem trimBack_of_settled {back : Text} (hb : back.dropWhile Text.isBlank = back)
    (hw : Connective.ofWord? (back.takeWhile fun x => !Text.isBlank x).reverse = none) :
    trimBack back = (back, []) := by
  rw [trimBack]
  dsimp only
  split
  · rw [hb]
  · next c hc =>
    rw [hb, hw] at hc
    cases hc

/-- What is left has no blank at its end. -/
theorem dropWhile_trimBack (back : Text) :
    (trimBack back).1.dropWhile Text.isBlank = (trimBack back).1 := by
  fun_induction trimBack back with
  | case1 back shown h => exact List.dropWhile_idempotent ..
  | case2 back shown c h earlier ih => exact ih

theorem trimBack_trimBack (back : Text) : trimBack (trimBack back).1 = ((trimBack back).1, []) := by
  fun_induction trimBack back with
  | case1 back shown h => exact trimBack_of_settled (List.dropWhile_idempotent ..) h
  | case2 back shown c h earlier ih => exact ih

theorem trim_nil : trim [] = ([], []) := by
  have h : trimBack [] = ([], []) := trimBack_of_settled rfl ofWord_nil
  rw [trim, List.reverse_nil, h]
  rfl

/-- Cutting twice is cutting once. -/
theorem trim_trim (seed : Text) : trim (trim seed).1 = ((trim seed).1, []) := by
  simp [trim, trimBack_trimBack]

/-- What is left has no blank at its end. -/
theorem trimEnd_trim (seed : Text) : Text.trimEnd (trim seed).1 = (trim seed).1 := by
  simp [Text.trimEnd, trim, dropWhile_trimBack]

end Seed

/-! ## Finished tokens -/

/-- Whether finishing finds nothing to take out. -/
structure Finished (ts : List Token) : Prop where
  /-- each token may follow the one in front -/
  orderly : Orderly ts.reverse
  /-- no connective waits for a token behind it -/
  ended : ∀ c, ts.getLast? ≠ some (.connective c)
  /-- a seed that stands alone ends in a word of another kind -/
  trimmed : ∀ seed, ts = [.seed seed] → seed ≠ [] ∧ Seed.trim seed = (seed, [])

namespace Builder

/-- What is left is what pruning leaves, or what trimming leaves of a seed that stands alone. -/
theorem clean_cases (ts : List Token) :
    (∃ seed place, (prune ts.zipIdx).kept = [(.seed seed, place)] ∧
      clean ts = ⟨if (Seed.trim seed).1 = [] then [] else [(.seed (Seed.trim seed).1, place)],
        (prune ts.zipIdx).dropped ++ (Seed.trim seed).2, (prune ts.zipIdx).groups⟩) ∨
    (∀ seed place, (prune ts.zipIdx).kept ≠ [(.seed seed, place)]) ∧
      clean ts = prune ts.zipIdx := by
  rw [clean]
  dsimp only
  split
  · next seed place hseed => exact .inl ⟨seed, place, hseed, rfl⟩
  · next h => exact .inr ⟨h, rfl⟩

/-- Of a query that holds something else than a seed, pruning leaves what finishing does. -/
theorem clean_of_mem {ts : List Token} {t : Token × Nat} (h : t ∈ (prune ts.zipIdx).kept)
    (ht : ∀ seed, t.1 ≠ .seed seed) : clean ts = prune ts.zipIdx := by
  obtain ⟨seed, place, hseed, -⟩ | ⟨-, hc⟩ := clean_cases ts
  · rw [hseed] at h
    exact absurd (congrArg Prod.fst (List.mem_singleton.mp h)) (ht seed)
  · exact hc

/-- What finishing leaves it leaves of what pruning does, seeds apart. -/
theorem mem_clean_iff {ts : List Token} {t : Token × Nat} (ht : ∀ seed, t.1 ≠ .seed seed) :
    t ∈ (clean ts).kept ↔ t ∈ (prune ts.zipIdx).kept := by
  obtain ⟨seed, place, hseed, hc⟩ | ⟨-, hc⟩ := clean_cases ts
  · have hne (u : Text) : t ≠ (.seed u, place) := fun h => ht u (congrArg Prod.fst h)
    rw [hc, hseed]
    dsimp only
    split
    · simp [hne]
    · simp [hne]
  · rw [hc]

/-- Finishing keeps two neighbours if pruning does: what it takes away after that stands alone. -/
theorem kept_clean_iff {ts : List Token} {t u : Token × Nat} :
    (∃ before behind, (clean ts).kept = before ++ t :: u :: behind) ↔
      ∃ before behind, (prune ts.zipIdx).kept = before ++ t :: u :: behind := by
  obtain ⟨seed, place, hseed, hc⟩ | ⟨-, hc⟩ := clean_cases ts
  · rw [hc, hseed]
    refine ⟨?_, ?_⟩
    · rintro ⟨before, behind, h⟩
      have hlen := congrArg List.length h
      dsimp only at hlen
      split at hlen
      · simp at hlen
      · simp at hlen
        omega
    · rintro ⟨before, behind, h⟩
      have hlen := congrArg List.length h
      simp at hlen
      omega
  · rw [hc]

/-- **Finished tokens stay**. -/
theorem clean_of_finished {ts : List Token} (h : Finished ts) : clean ts = ⟨ts.zipIdx, [], 0⟩ := by
  have ho : Orderly (ts.zipIdx.reverse.map Prod.fst) := by
    rw [List.map_reverse, List.zipIdx_map_fst]
    exact h.orderly
  have hl (c : Connective) (mark : Nat) (below : List (Token × Nat)) :
      ts.zipIdx.reverse ≠ (.connective c, mark) :: below := by
    intro hb
    have hm := congrArg (fun us => (us.map Prod.fst).head?) hb
    rw [List.map_reverse, List.zipIdx_map_fst, List.head?_reverse] at hm
    exact h.ended c hm
  have hstep := step?_eq_none_of_orderly ho hl
  rw [List.reverse_reverse] at hstep
  have hp := prune_of_step_eq_none hstep
  obtain ⟨seed, place, hseed, hc⟩ | ⟨-, hc⟩ := clean_cases ts
  · rw [hp] at hseed hc
    have hm := congrArg (List.map Prod.fst) hseed
    rw [List.zipIdx_map_fst] at hm
    obtain ⟨hne, ht⟩ := h.trimmed seed hm
    rw [hc, ht, if_neg hne]
    exact congrArg (Pruned.mk · [] 0) hseed.symm
  · rw [hc, hp]

/-- What a finished builder holds. -/
theorem finish_fst (b : Builder) : b.finish.1 = ofTokens b.finish.1.tokens := rfl

/-- A seed that stands alone without the connectives at its end. -/
def trimSeed : List Token → List Token
  | [.seed seed] => if (Seed.trim seed).1 = [] then [] else [.seed (Seed.trim seed).1]
  | ts => ts

theorem trimSeed_cases (ts : List Token) :
    (∃ seed, ts = [.seed seed] ∧ trimSeed ts =
      if (Seed.trim seed).1 = [] then [] else [.seed (Seed.trim seed).1]) ∨
    (∀ seed, ts ≠ [.seed seed]) ∧ trimSeed ts = ts := by
  rw [trimSeed.eq_def]
  split
  · next seed => exact .inl ⟨seed, rfl, rfl⟩
  · next h => exact .inr ⟨h, rfl⟩

theorem tokens_clean (ts : List Token) : (clean ts).tokens = trimSeed (prune ts.zipIdx).tokens := by
  obtain ⟨seed, place, hseed, hc⟩ | ⟨hk, hc⟩ := clean_cases ts
  · rw [hc, Pruned.tokens, Pruned.tokens, hseed, List.map_cons, List.map_nil, trimSeed]
    dsimp only
    split <;> rfl
  · rw [hc, trimSeed.eq_def]
    split
    · next seed hseed =>
      obtain ⟨⟨t, place⟩, ts, hts, ht, hn⟩ := List.map_eq_cons_iff.mp hseed
      obtain rfl := List.map_eq_nil_iff.mp hn
      obtain rfl : t = .seed seed := ht
      exact absurd hts (hk _ _)
    · rfl

/-- What finishing keeps was there, a seed perhaps with more at its end. -/
theorem mem_clean {ts : List Token} {t : Token} (h : t ∈ (clean ts).tokens) :
    t ∈ ts ∨ ∃ seed, .seed seed ∈ ts ∧ (Seed.trim seed).1 ≠ [] ∧ t = .seed (Seed.trim seed).1 := by
  have hsub := (sublist_prune ts.zipIdx).map Prod.fst
  rw [List.zipIdx_map_fst] at hsub
  rw [tokens_clean] at h
  obtain ⟨seed, hseed, ht⟩ | ⟨-, ht⟩ := trimSeed_cases (prune ts.zipIdx).tokens
  · rw [ht] at h
    split at h
    · cases h
    · next hne =>
      refine .inr ⟨seed, hsub.subset ?_, hne, List.mem_singleton.mp h⟩
      change Token.seed seed ∈ (prune ts.zipIdx).tokens
      rw [hseed]
      exact List.mem_singleton_self _
  · rw [ht] at h
    exact .inl (hsub.subset h)

/-- **What is left is finished**. -/
theorem finished_clean (ts : List Token) : Finished (clean ts).tokens := by
  have ho : Orderly ((Reading.start.readAll ts.zipIdx).before.map Prod.fst) :=
    Reading.orderly_readAll Reading.orderly_start ts.zipIdx
  have hprune : (prune ts.zipIdx).tokens.reverse =
      (Reading.shedAll (Reading.start.readAll ts.zipIdx).before).1.map Prod.fst := by
    rw [prune_eq_outcome, Pruned.tokens, Reading.outcome, List.map_reverse, List.reverse_reverse]
  have horderly : Orderly (prune ts.zipIdx).tokens.reverse := by
    rw [hprune]
    exact Reading.orderly_shed _ ho
  have hended (c : Connective) : (prune ts.zipIdx).tokens.getLast? ≠ some (.connective c) := by
    rw [← List.head?_reverse, hprune, ← Reading.top_eq_head?]
    exact Reading.top_shedAll c
  rw [tokens_clean]
  obtain ⟨seed, -, ht⟩ | ⟨hseed, ht⟩ := trimSeed_cases (prune ts.zipIdx).tokens
  · rw [ht]
    split
    · exact ⟨trivial, by simp, by simp⟩
    · next hne =>
      refine ⟨⟨rfl, trivial⟩, by simp, ?_⟩
      intro t hs
      obtain rfl : (Seed.trim seed).1 = t := by simpa using hs
      exact ⟨hne, Seed.trim_trim seed⟩
  · rw [ht]
    exact ⟨horderly, hended, fun seed hs => absurd hs (hseed seed)⟩

/-! ## Finishing above a floor -/

/-- Whether tokens end in something that is neither a connective nor the start of a group. -/
def EndsFirm (ts : List Token) : Prop :=
  ∃ t, ts.getLast? = some t ∧ t.isConnective = false ∧ t ≠ .opening

theorem EndsFirm.ne_nil {ts : List Token} (h : EndsFirm ts) : ts ≠ [] := by
  rintro rfl
  obtain ⟨t, ht, -⟩ := h
  cases ht

theorem endsFirm_of_finished {ts : List Token} (h : Finished ts) (hn : nest 0 ts = some 0)
    (hne : ts ≠ []) : EndsFirm ts := by
  refine ⟨ts.getLast hne, List.getLast?_eq_some_getLast hne, ?_, ?_⟩
  · have he := h.ended
    rw [List.getLast?_eq_some_getLast hne] at he
    cases hl : ts.getLast hne with
    | connective c => exact absurd (congrArg some hl) (he c)
    | seed _ | clause _ | boost _ | opening | closing => rfl
  · intro ho
    rw [← List.dropLast_concat_getLast hne, ho, nest_concat] at hn
    obtain ⟨d, -, hd⟩ := Option.bind_eq_some_iff.mp hn
    cases hd

/-- Reading finished tokens puts them on the stack, and they are a floor. -/
theorem readAll_of_finished {ts : List Token} (h : Finished ts) :
    Reading.start.readAll ts.zipIdx = ⟨ts.zipIdx.reverse, .none, [], 0⟩ := by
  have ho : Orderly ((ts.zipIdx.map Prod.fst).reverse ++
      (Reading.start : Reading Nat).before.map Prod.fst) := by
    rw [List.zipIdx_map_fst, Reading.start, List.map_nil, List.append_nil]
    exact h.orderly
  rw [Reading.readAll_of_orderly rfl ho, Reading.start, List.append_nil]

theorem firm_of_endsFirm {ts : List Token} (h : EndsFirm ts) :
    Reading.Firm ts.zipIdx.reverse := by
  obtain ⟨t, ht, hc, ho⟩ := h
  refine ⟨t, ?_, hc, ho⟩
  rw [Reading.top_eq_head?, List.map_reverse, List.zipIdx_map_fst, List.head?_reverse, ht]

/-- Finished tokens are not a seed that is trimmed, nor are others behind them. -/
theorem trimSeed_append {ts : List Token} (h : Finished ts) (hne : ts ≠ []) (us : List Token) :
    trimSeed (ts ++ us) = ts ++ us := by
  obtain ⟨seed, hseed, ht⟩ | ⟨-, ht⟩ := trimSeed_cases (ts ++ us)
  · rcases ts with _ | ⟨t, ts⟩
    · exact absurd rfl hne
    obtain ⟨rfl, hnil⟩ := List.cons.inj hseed
    obtain ⟨rfl, rfl⟩ := List.append_eq_nil_iff.mp hnil
    obtain ⟨hs, hseed⟩ := h.trimmed seed rfl
    rw [ht, hseed, if_neg hs]
    rfl
  · exact ht

/-- **Finishing above a floor**: behind finished tokens that end firm, finishing leaves the same,
whichever they are. -/
theorem exists_clean {ts ts' : List Token} (h : Finished ts) (hf : EndsFirm ts)
    (h' : Finished ts') (hf' : EndsFirm ts') (us : List Token) :
    ∃ vs, (clean (ts ++ us)).tokens = ts ++ vs ∧ (clean (ts' ++ us)).tokens = ts' ++ vs := by
  have hl := Reading.level_of_firm (firm_of_endsFirm hf) (firm_of_endsFirm hf')
  have ha : Reading.Alike ts.zipIdx.reverse ts'.zipIdx.reverse [] (Reading.start.readAll ts.zipIdx)
      (Reading.start.readAll ts'.zipIdx) := by
    rw [readAll_of_finished h, readAll_of_finished h']
    exact ⟨⟨[], rfl, rfl⟩, ⟨[], rfl, rfl⟩, rfl⟩
  obtain ⟨V, hV, -⟩ := ha.readAll hl
    (show (us.zipIdx ts.length).map Prod.fst = (us.zipIdx ts'.length).map Prod.fst by
      rw [List.zipIdx_map_fst, List.zipIdx_map_fst])
    fun h0 => absurd h0 (firm_of_endsFirm hf).top_ne_opening
  obtain ⟨vs, hvs, hvs'⟩ := hV.outcome hl
  refine ⟨vs, ?_, ?_⟩
  · rw [tokens_clean, prune_eq_outcome, List.zipIdx_append, Reading.readAll_append, Nat.zero_add,
      hvs, List.map_reverse, List.reverse_reverse, List.zipIdx_map_fst,
      trimSeed_append h hf.ne_nil]
  · rw [tokens_clean, prune_eq_outcome, List.zipIdx_append, Reading.readAll_append, Nat.zero_add,
      hvs', List.map_reverse, List.reverse_reverse, List.zipIdx_map_fst,
      trimSeed_append h' hf'.ne_nil]

end Builder

end PortalSearch
