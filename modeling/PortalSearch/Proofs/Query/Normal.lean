import PortalSearch.Proofs.Query.Again
import PortalSearch.Proofs.Query.Invariant
import PortalSearch.Proofs.Query.Words

/-!
# The normal form of a query

A finished query has a normal form that can be told without saying how finishing works: no group is
empty, every connective has something to join on the sides where it needs it, connectives meet only
as AND NOT and OR NOT, and a query that is nothing but a seed ends neither in a blank nor in a
connective.

`Finished` says the same by what may stand in front of each token. Taken at every place of the
tokens (`orderly_reverse_iff`), the two come to the same (`finished_iff`).

Main result: what finishing keeps is in normal form, and tokens are kept as they are exactly if they
are in normal form (`normal_finish`).
-/

namespace PortalSearch

/-- Whether tokens are in normal form. -/
structure IsNormal (ts : List Token) : Prop where
  /-- no group ends right behind its start -/
  filled : ¬ [.opening, .closing] <:+: ts
  /-- something stands behind a connective that does not end a group -/
  joins : ∀ front c rest, ts = front ++ .connective c :: rest →
    ∃ t, rest.head? = some t ∧ t ≠ .closing
  /-- something stands in front of AND and OR that does not start a group -/
  joined : ∀ front c rest, ts = front ++ .connective c :: rest → c ≠ .not →
    ∃ t, front.getLast? = some t ∧ t ≠ .opening
  /-- two connectives meet only as AND NOT and OR NOT -/
  paired : ∀ c d, [.connective c, .connective d] <:+: ts → c ≠ .not ∧ d = .not
  /-- three never meet -/
  unchained : ∀ c d e, ¬ [.connective c, .connective d, .connective e] <:+: ts
  /-- a seed that stands alone does not end in a blank -/
  unblank : ∀ seed, ts = [.seed seed] → ∀ x, seed.getLast? = some x → Text.isBlank x = false
  /-- nor in the word of a connective -/
  unworded : ∀ seed, ts = [.seed seed] → ∀ c : Connective, (Text.words seed).getLast? ≠ some c.word

/-! ## Seeds -/

namespace Seed

variable {seed : Text}

theorem dropWhile_reverse_iff : seed.reverse.dropWhile Text.isBlank = seed.reverse ↔
    ∀ x, seed.getLast? = some x → Text.isBlank x = false := by
  rw [List.dropWhile_eq_self_iff, ← List.head?_reverse]
  cases seed.reverse with
  | nil => simp
  | cons x back => simp

/-- The word that a text ends in is the last of its words. -/
theorem getLast?_words (hb : ∀ x, seed.getLast? = some x → Text.isBlank x = false)
    (hne : seed ≠ []) : (Text.words seed).getLast? =
      some (seed.reverse.takeWhile fun x => !Text.isBlank x).reverse := by
  have hsplit : seed = (seed.reverse.dropWhile fun x => !Text.isBlank x).reverse ++
      (seed.reverse.takeWhile fun x => !Text.isBlank x).reverse := by
    rw [← List.reverse_append, List.takeWhile_append_dropWhile, List.reverse_reverse]
  have hword : (seed.reverse.takeWhile fun x => !Text.isBlank x).reverse ≠ [] := by
    obtain ⟨x, back, hback⟩ := List.exists_cons_of_ne_nil (List.reverse_ne_nil_iff.mpr hne)
    have hx : Text.isBlank x = false := hb x (by rw [← List.head?_reverse, hback]; rfl)
    rw [hback, List.takeWhile_cons_of_pos (by simp [hx])]
    simp
  rw [hsplit, Text.words_append_word _ _ hword, ← hsplit, List.getLast?_concat]
  · intro c hc
    have hhead := List.head?_dropWhile_not (fun x => !Text.isBlank x) seed.reverse
    rw [List.getLast?_reverse] at hc
    simpa [hc] using hhead
  · intro c hc
    have hall := List.mem_takeWhile_imp (List.mem_reverse.mp hc)
    simpa using hall

/-- Trimming leaves a text as it is exactly if it ends neither in a blank nor in a connective. -/
theorem trim_eq_self_iff : trim seed = (seed, []) ↔
    (∀ x, seed.getLast? = some x → Text.isBlank x = false) ∧
      ∀ c : Connective, (Text.words seed).getLast? ≠ some c.word := by
  by_cases hne : seed = []
  · subst hne
    simp [trim_nil]
  constructor
  · intro h
    have hb : ∀ x, seed.getLast? = some x → Text.isBlank x = false := by
      have hback := dropWhile_trimBack seed.reverse
      have htrim : (trimBack seed.reverse).1 = seed.reverse :=
        List.reverse_eq_iff.mp (congrArg Prod.fst h)
      rw [htrim] at hback
      exact dropWhile_reverse_iff.mp hback
    refine ⟨hb, ?_⟩
    intro c hc
    -- a connective at the end would be cut off, and so would not be told of in vain
    rw [getLast?_words hb hne, Option.some.injEq] at hc
    have hcut := congrArg Prod.snd h
    rw [trim, trimBack] at hcut
    dsimp only at hcut
    split at hcut
    · next hnone =>
      rw [dropWhile_reverse_iff.mpr hb, hc, ofWord_word] at hnone
      cases hnone
    · simp at hcut
  · rintro ⟨hb, hw⟩
    have hdrop := dropWhile_reverse_iff.mpr hb
    have hnone : Connective.ofWord?
        (seed.reverse.takeWhile fun x => !Text.isBlank x).reverse = none := by
      rw [Option.eq_none_iff_forall_ne_some]
      intro c hc
      apply hw c
      rw [getLast?_words hb hne, word_of_ofWord hc]
    rw [trim, trimBack_of_settled hdrop hnone, List.reverse_reverse]

end Seed

/-! ## Neighbours -/

/-- Each token may follow the one in front of it, wherever the tokens are divided. -/
theorem orderly_reverse_iff {ts : List Token} : Orderly ts.reverse ↔
    ∀ front t rest, ts = front ++ t :: rest → t.mayFollow front.getLast? = true := by
  constructor
  · rintro h front t rest rfl
    rw [List.reverse_append, List.reverse_cons, List.append_assoc] at h
    rw [← List.head?_reverse]
    exact (Orderly.of_append h).1
  · intro h
    induction ts using List.reverseRecOn with
    | nil => trivial
    | append_singleton ts t ih =>
      rw [List.reverse_append]
      refine ⟨?_, ih ?_⟩
      · change t.mayFollow ts.reverse.head? = true
        rw [List.head?_reverse]
        exact h ts t [] rfl
      · rintro front u rest rfl
        exact h front u (rest ++ [t]) (by simp)

namespace IsNormal

variable {ts : List Token}

theorem orderly (h : IsNormal ts) : Orderly ts.reverse := by
  rw [orderly_reverse_iff]
  rintro front t rest rfl
  cases t with
  | seed _ | clause _ | boost _ | opening => rfl
  | closing =>
    simp only [Token.mayFollow]
    split
    · next ho =>
      obtain ⟨ahead, rfl⟩ := List.getLast?_eq_some_iff.mp ho
      exact absurd ⟨ahead, rest, by simp⟩ h.filled
    · next c hc =>
      obtain ⟨ahead, rfl⟩ := List.getLast?_eq_some_iff.mp hc
      obtain ⟨t, ht, hne⟩ := h.joins ahead c (.closing :: rest) (by simp)
      exact absurd (Option.some.inj ht).symm hne
    · rfl
  | connective c =>
    have hlead : c.leads front.getLast? = false := by
      by_cases hc : c = .not
      · simp [Connective.leads, hc]
      · obtain ⟨t, ht, hne⟩ := h.joined front c rest rfl hc
        simp [Connective.leads, ht, hne]
    simp only [Token.mayFollow, hlead]
    split
    · next d hd =>
      obtain ⟨ahead, rfl⟩ := List.getLast?_eq_some_iff.mp hd
      obtain ⟨hd, rfl⟩ := h.paired d c ⟨ahead, rest, by simp⟩
      simp [Connective.yields, hd]
    · rfl

theorem finished (h : IsNormal ts) (hne : ts ≠ [.seed []]) : Finished ts := by
  refine ⟨h.orderly, ?_, ?_⟩
  · intro c hc
    obtain ⟨front, rfl⟩ := List.getLast?_eq_some_iff.mp hc
    obtain ⟨t, ht, -⟩ := h.joins front c [] rfl
    cases ht
  · rintro seed rfl
    refine ⟨fun hnil => hne (by rw [hnil]), ?_⟩
    exact Seed.trim_eq_self_iff.mpr ⟨h.unblank seed rfl, h.unworded seed rfl⟩

end IsNormal

namespace Finished

variable {ts : List Token}

theorem follows {front rest : List Token} {t : Token} (h : Finished (front ++ t :: rest)) :
    t.mayFollow front.getLast? = true :=
  orderly_reverse_iff.mp h.orderly front t rest rfl

/-- A token may follow the one that it stands behind. -/
theorem mayFollow {t u : Token} (h : Finished ts) (htu : [t, u] <:+: ts) :
    u.mayFollow (some t) = true := by
  obtain ⟨front, rest, rfl⟩ := htu
  have hu := orderly_reverse_iff.mp h.orderly (front ++ [t]) u rest (by simp)
  rwa [List.getLast?_concat] at hu

/-- A connective in front of another one is AND or OR, and the other one is NOT. -/
theorem pair (h : Finished ts) {c d : Connective} (hcd : [.connective c, .connective d] <:+: ts) :
    c ≠ .not ∧ d = .not := by
  have hd := h.mayFollow hcd
  simpa [Token.mayFollow, Connective.leads, Connective.yields] using hd

theorem normal (h : Finished ts) : IsNormal ts where
  filled := by
    intro hempty
    cases h.mayFollow hempty
  joins := by
    rintro front c (_ | ⟨t, rest⟩) rfl
    · exact absurd List.getLast?_concat (h.ended c)
    · refine ⟨t, rfl, ?_⟩
      rintro rfl
      cases h.mayFollow (t := .connective c) (u := .closing) ⟨front, rest, by simp⟩
  joined := by
    rintro front c rest rfl hnot
    have hc := h.follows
    cases hl : front.getLast? with
    | none => simp [hl, Token.mayFollow, Connective.leads, hnot] at hc
    | some t =>
      refine ⟨t, rfl, ?_⟩
      rintro rfl
      simp [hl, Token.mayFollow, Connective.leads, hnot] at hc
  paired := fun _ _ => h.pair
  unchained := by
    rintro c d e ⟨front, rest, rfl⟩
    -- the one in the middle would be NOT, and not NOT
    have hd := (h.pair (c := c) (d := d) ⟨front, .connective e :: rest, by simp⟩).2
    exact (h.pair (c := d) (d := e) ⟨front ++ [.connective c], rest, by simp⟩).1 hd
  unblank := fun seed hseed => (Seed.trim_eq_self_iff.mp (h.trimmed seed hseed).2).1
  unworded := fun seed hseed => (Seed.trim_eq_self_iff.mp (h.trimmed seed hseed).2).2

end Finished

/-- Finishing finds nothing to take out exactly where tokens are in normal form, a seed without text
apart. -/
theorem finished_iff {ts : List Token} : Finished ts ↔ IsNormal ts ∧ ts ≠ [.seed []] := by
  refine ⟨fun h => ⟨h.normal, ?_⟩, fun h => h.1.finished h.2⟩
  intro hseed
  exact (h.trimmed [] hseed).1 rfl

namespace Builder

/-- **A finished query is in normal form**, nothing is pending and no group is open, and its text is
what its tokens are written as, without blanks at the end. Tokens are kept as they are exactly if
they are in normal form. -/
theorem normal_finish (seed : Text) (ks : List Call) :
    let b := ((ofSeed seed).run ks).1
    let done := b.finish.1
    IsNormal done.tokens ∧ (done.tokens = b.closedTokens ↔ IsNormal b.closedTokens) ∧
      done.openGroups = 0 ∧ done.terms = [] ∧ done.lower = none ∧ done.upper = none ∧
      done.pending = none ∧ done.text = Text.trimEnd (Draft.render done.tokens) := by
  intro b done
  have hfinished : Finished done.tokens := finished_clean b.closedTokens
  have hnormal : IsNormal done.tokens := (finished_iff.mp hfinished).1
  refine ⟨hnormal, ⟨fun hkept => hkept ▸ hnormal, ?_⟩, rfl, rfl, rfl, rfl, rfl, rfl⟩
  · intro hnormal
    have hne : b.closedTokens ≠ [.seed []] := by
      intro hseed
      exact hasText_closedTokens (isSound_run seed ks) (.seed []) (by simp [hseed, b]) rfl
    exact tokens_clean_of_finished (finished_iff.mpr ⟨hnormal, hne⟩)

end Builder

end PortalSearch
