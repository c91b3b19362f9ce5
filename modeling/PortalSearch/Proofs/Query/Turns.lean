import Mathlib.Algebra.GroupWithZero.Nat
import PortalSearch.Proofs.Query.Invariant
import PortalSearch.Proofs.Query.Words

/-!
# Pruning and trimming in turn

Trimming takes words off a seed at the end of the tokens, and the seed itself if no word is left.
Then there might be more to prune, and after that another seed to trim, so one would go on with both
in turn until there is nothing to trim. But a seed is what building starts from: it stands first, so
if it is at the end, it stands alone, and one turn of each is enough.

Main result: pruning and trimming in turn leaves and takes out what finishing does, for every
builder (`cleanInTurns_eq_clean`).
-/

namespace PortalSearch

open Prune

/-- How much there is to take out: a token, and the characters of a seed. -/
def Token.weight : Token → Nat
  | .seed text => text.length + 1
  | .clause _ | .boost _ | .connective _ | .opening | .closing => 1

/-- How much there is to take out of some tokens. -/
def weight (ts : List (Token × Nat)) : Nat := (ts.map fun t => t.1.weight).sum

theorem weight_append (ts us : List (Token × Nat)) : weight (ts ++ us) = weight ts + weight us := by
  simp [weight]

theorem weight_le_of_sublist {ts us : List (Token × Nat)} (h : ts.Sublist us) :
    weight ts ≤ weight us := by
  induction h with
  | slnil => exact Nat.le_refl _
  | cons t h ih => simp [weight] at ih ⊢; omega
  | cons_cons t h ih => simp [weight] at ih ⊢; omega

theorem Seed.length_trim {seed : Text} (h : (trim seed).1 ≠ seed) :
    (trim seed).1.length < seed.length := by
  obtain ⟨tail, htail, -⟩ := exists_trim seed
  have hne : tail ≠ [] := by
    rintro rfl
    rw [List.append_nil] at htail
    exact h htail.symm
  have hpos := List.length_pos_iff.mpr hne
  have hlen := congrArg List.length htail
  rw [List.length_append] at hlen
  omega

/-- A seed with its end cut off, if anything is left of it. -/
def trimmed (seed : Text) (place : Nat) : List (Token × Nat) :=
  if (Seed.trim seed).1 = [] then [] else [(.seed (Seed.trim seed).1, place)]

/-- A turn leaves less to take out. -/
theorem weight_turn {ts : List (Token × Nat)} {seed : Text} {place : Nat}
    (hlast : (prune ts).kept.getLast? = some (.seed seed, place)) (h : (Seed.trim seed).1 ≠ seed) :
    weight ((prune ts).kept.dropLast ++ trimmed seed place) < weight ts := by
  obtain ⟨front, hfront⟩ := List.getLast?_eq_some_iff.mp hlast
  have hle := weight_le_of_sublist (sublist_prune ts)
  have hlen := Seed.length_trim h
  rw [hfront, weight_append] at hle
  have hcut : weight (trimmed seed place) < weight [(Token.seed seed, place)] := by
    rw [trimmed]
    split
    · simp [weight, Token.weight]
    · simpa [weight, Token.weight] using hlen
  rw [hfront, List.dropLast_concat, weight_append]
  omega

/-- Prunes tokens and trims a seed at their end, in turn, until there is nothing to trim. -/
def cleanInTurns (ts : List (Token × Nat)) : Pruned Nat :=
  match _hlast : (prune ts).kept.getLast? with
  | some (.seed seed, place) =>
    if _h : (Seed.trim seed).1 = seed then prune ts
    else
      (cleanInTurns ((prune ts).kept.dropLast ++ trimmed seed place)).after
        ((prune ts).dropped ++ (Seed.trim seed).2) (prune ts).groups
  | _ => prune ts
termination_by weight ts
decreasing_by exact weight_turn _hlast _h

/-- Nothing is trimmed if trimming would leave the last token as it is. -/
theorem cleanInTurns_of_settled {ts : List (Token × Nat)}
    (h : ∀ seed place, (prune ts).kept.getLast? = some (.seed seed, place) →
      (Seed.trim seed).1 = seed) : cleanInTurns ts = prune ts := by
  rw [cleanInTurns]
  split
  · next seed place hlast => rw [dif_pos (h seed place hlast)]
  · rfl

theorem cleanInTurns_trimmed (seed : Text) (place : Nat) :
    cleanInTurns (trimmed seed place) = ⟨trimmed seed place, [], 0⟩ := by
  have hprune : prune (trimmed seed place) = ⟨trimmed seed place, [], 0⟩ := by
    rw [trimmed]
    split <;> exact prune_of_step_eq_none rfl
  have hsettled (text : Text) (k : Nat)
      (hlast : (prune (trimmed seed place)).kept.getLast? = some (.seed text, k)) :
      (Seed.trim text).1 = text := by
    rw [hprune, trimmed] at hlast
    split at hlast
    · cases hlast
    · obtain ⟨rfl, -⟩ : (Seed.trim seed).1 = text ∧ place = k := by simpa using hlast
      rw [Seed.trim_trim]
  rw [cleanInTurns_of_settled hsettled, hprune]

namespace Builder

/-- Whether building started from no token but the first. -/
def SeedFirst (ts : List Token) : Prop := ∀ text, .seed text ∉ ts.tail

theorem SeedFirst.of_sublist {ts us : List Token} (h : SeedFirst us) (hs : ts.Sublist us) :
    SeedFirst ts := fun text ht => h text (hs.tail.subset ht)

theorem SeedFirst.append {ts us : List Token} (h : SeedFirst ts)
    (hu : ∀ text, .seed text ∉ us) : SeedFirst (ts ++ us) := by
  intro text ht
  rcases ts with _ | ⟨t, ts⟩
  · exact hu text (List.mem_of_mem_tail ht)
  · rcases List.mem_append.mp ht with ht | ht
    · exact h text ht
    · exact hu text ht

/-- A seed that is left at the end stands alone. -/
theorem SeedFirst.alone {ts : List Token} (h : SeedFirst ts) {kept : List (Token × Nat)}
    (hs : kept.Sublist ts.zipIdx) {seed : Text} {place : Nat}
    (hlast : kept.getLast? = some (.seed seed, place)) : kept = [(.seed seed, place)] := by
  obtain ⟨front, rfl⟩ := List.getLast?_eq_some_iff.mp hlast
  rcases front with _ | ⟨t, front⟩
  · rfl
  · have htokens := hs.map Prod.fst
    rw [List.zipIdx_map_fst] at htokens
    refine absurd ?_ (h.of_sublist htokens seed)
    simp

/-- **One turn is enough** where a seed stands first only. -/
theorem cleanInTurns_of_seedFirst {ts : List Token} (h : SeedFirst ts)
    (ht : ∀ t ∈ ts, t.HasText) : cleanInTurns ts.zipIdx = clean ts := by
  have hsub := sublist_prune ts.zipIdx
  obtain ⟨seed, place, hseed, hc⟩ | ⟨hnone, hc⟩ := clean_cases ts
  · have hlast : (prune ts.zipIdx).kept.getLast? = some (.seed seed, place) := by rw [hseed]; rfl
    rw [hc]
    by_cases htrim : (Seed.trim seed).1 = seed
    · have hsettled := Seed.trim_trim seed
      rw [htrim] at hsettled
      have hne : seed ≠ [] := ht (.seed seed) (by
        have hmem : (.seed seed, place) ∈ ts.zipIdx := hsub.subset (by rw [hseed]; simp)
        exact List.fst_mem_of_mem_zipIdx hmem)
      rw [cleanInTurns_of_settled, hsettled, if_neg hne, ← hseed, List.append_nil]
      intro text k hl
      rw [hlast] at hl
      obtain ⟨rfl, -⟩ : seed = text ∧ place = k := by simpa using hl
      exact htrim
    · rw [cleanInTurns]
      split
      · next text k hl =>
        rw [hlast] at hl
        obtain ⟨rfl, rfl⟩ : seed = text ∧ place = k := by simpa using hl
        rw [dif_neg htrim, hseed, List.dropLast_singleton, List.nil_append, cleanInTurns_trimmed]
        simp [Pruned.after, trimmed]
      · next hl => exact absurd hlast (hl _ _)
  · rw [hc]
    apply cleanInTurns_of_settled
    intro seed place hlast
    exact absurd (h.alone hsub hlast) (hnone seed place)

/-! ## Every builder -/

theorem seedFirst_ofSeed (seed : Text) : SeedFirst (ofSeed seed).tokens := by
  rw [ofSeed]
  split
  · exact fun _ => List.not_mem_nil
  · exact fun _ => List.not_mem_nil

theorem seedFirst_commit {b : Builder} (h : SeedFirst b.tokens) (lead : Text) :
    SeedFirst (b.commit lead).tokens := by
  obtain hc | ⟨t, -, hc⟩ := commit_eq b lead
  · rw [hc]
    exact h
  · rw [hc]
    exact h.append (by simp)

theorem seedFirst_edit {b next : Builder} (h : SeedFirst b.tokens) {e : Edit}
    (he : b.edit e = .ok next) : SeedFirst next.tokens := by
  obtain ⟨_, _, rfl⟩ | ⟨-, lead, rfl⟩ | ⟨t, rfl, ht, -⟩ := edit_cases he
  · exact h
  · exact seedFirst_commit h lead
  · apply (seedFirst_commit h []).append
    intro text hmem
    obtain rfl := List.mem_singleton.mp hmem
    exact ht

theorem seedFirst_closedTokens {b : Builder} (h : SeedFirst b.tokens) :
    SeedFirst b.closedTokens :=
  (seedFirst_commit h []).append fun _ ht => by cases List.eq_of_mem_replicate ht

theorem seedFirst_clean {ts : List Token} (h : SeedFirst ts) : SeedFirst (clean ts).tokens := by
  have hsub := (sublist_prune ts.zipIdx).map Prod.fst
  rw [List.zipIdx_map_fst] at hsub
  rw [tokens_clean]
  obtain ⟨seed, -, ht⟩ | ⟨-, ht⟩ := trimSeed_cases (prune ts.zipIdx).tokens
  · rw [ht]
    split
    · exact fun _ => List.not_mem_nil
    · exact fun _ => List.not_mem_nil
  · rw [ht]
    exact h.of_sublist hsub

theorem seedFirst_run (seed : Text) (ks : List Call) :
    SeedFirst ((ofSeed seed).run ks).1.tokens := by
  refine run_preserves (P := fun b => SeedFirst b.tokens) ?_ (seedFirst_ofSeed seed) ks
  intro b k h
  cases k with
  | edit e =>
    cases he : b.edit e with
    | ok next =>
      rw [call, step_of_ok he]
      exact seedFirst_edit h he
    | error m =>
      rw [call, step_of_error he]
      exact h
  | finish => exact seedFirst_clean (seedFirst_closedTokens h)

/-- **Finishing prunes and trims** until there is nothing to do. -/
theorem cleanInTurns_eq_clean (seed : Text) (ks : List Call) :
    let b := ((ofSeed seed).run ks).1
    cleanInTurns b.closedTokens.zipIdx = clean b.closedTokens := by
  intro b
  exact cleanInTurns_of_seedFirst (seedFirst_closedTokens (seedFirst_run seed ks))
    (hasText_closedTokens (isSound_run seed ks))

end Builder

end PortalSearch
