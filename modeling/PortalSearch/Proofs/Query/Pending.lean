import PortalSearch.Proofs.Query.Turns
import PortalSearch.Query.Expression

/-!
# What is pending

At most one clause is pending at a time. Terms are refused while an end of a range is pending, and
an end of a range while terms are; half a range stays where a connective or the end of a group
comes before its other half, but it keeps terms away until it is complete or taken back. So what is
written when a clause is committed is what it searches for (`tokens_commit`), which is terms or a
range.

A connective waits for the clause behind it as long as it is the last token. Every token that is
written behind it comes with a commit, which ends the waiting, and so does finishing.

Main result: what is pending and what is written fit together in every state (`isConsistent_run`).
-/

namespace PortalSearch.Builder

variable {b : Builder}

/-! ## The pending clause -/

/-- What the pending clause searches for, if it is complete. -/
def subject? (b : Builder) : Option Subject :=
  match b.terms, b.lower, b.upper with
  | first :: more, _, _ => some (.terms first more)
  | [], some lower, some upper => some (.range lower upper)
  | [], _, _ => none

/-- The pending clause with its field, if it is complete and not written as nothing. -/
def clauseIn (b : Builder) (field : Option Text) : Option Clause :=
  (b.subject?.map (Clause.mk · field)).filter fun c => c.subject.text ≠ []

/-- Terms that are pending alone, or a range, are written as what the clause searches for. -/
theorem clauseText_of_alone (h : b.hasTerms = true → b.hasBound = false) :
    b.clauseText = (b.subject?.map Subject.text).getD [] := by
  rw [clauseText, rangeText, subject?]
  cases ht : b.terms with
  | nil => cases b.lower <;> cases b.upper <;> simp [Subject.text]
  | cons first more =>
    have hbound := h (by rw [hasTerms, ht]; rfl)
    rw [hasBound, Bool.or_eq_false_iff, Option.isSome_eq_false_iff] at hbound
    rw [Option.isNone_iff_eq_none.mp hbound.1]
    rfl

/-- A commit writes the pending clause in its field, and nothing else. -/
theorem tokens_commit (h : b.hasTerms = true → b.hasBound = false) (field : Option Text) :
    (b.commit (fieldLead field)).tokens =
      b.tokens ++ ((b.clauseIn field).map fun c => .clause c.text).toList := by
  rw [commit, clauseText_of_alone h, clauseIn]
  cases b.subject? with
  | none => simp [settled]
  | some s =>
    rw [Option.map_some, Option.map_some, Option.getD_some, Option.filter_some]
    by_cases hs : s.text = []
    · simp [hs, settled]
    · simp [hs, settled, append, Clause.text]

/-! ## Every state -/

/-- Whether the connective that waits and the clauses that were written fit together with what is
pending. -/
structure IsPoised (b : Builder) : Prop where
  /-- terms and an end of a range are never pending together -/
  alone : b.hasTerms = true → b.hasBound = false
  /-- a connective that waits is the last token -/
  last : ∀ c, b.pending = some c → b.tokens.getLast? = some (.connective c)
  /-- and its word ends the text, with a blank behind it -/
  shown : ∀ c, b.pending = some c → c.word ++ [' '] <:+ b.text
  /-- every clause is terms or a range, which are written as something -/
  single : ∀ text, .clause text ∈ b.tokens → ∃ c : Clause, c.text = text ∧ c.subject.text ≠ []

theorem isPoised_ofSeed (seed : Text) : (ofSeed seed).IsPoised := by
  refine ⟨nofun, nofun, nofun, ?_⟩
  intro text h
  rw [ofSeed] at h
  split at h
  · cases h
  · cases List.mem_singleton.mp h

theorem IsPoised.commit (h : b.IsPoised) (field : Option Text) :
    (b.commit (fieldLead field)).IsPoised := by
  have hpending := commit_pending b (fieldLead field)
  have hterms := commit_terms b (fieldLead field)
  refine ⟨?_, ?_, ?_, ?_⟩
  · intro ht
    rw [hasTerms, hterms] at ht
    cases ht
  · intro c hc
    rw [hpending] at hc
    cases hc
  · intro c hc
    rw [hpending] at hc
    cases hc
  · intro text ht
    rw [tokens_commit h.alone] at ht
    rcases List.mem_append.mp ht with ht | ht
    · exact h.single text ht
    · obtain ⟨c, hc, hclause⟩ := Option.map_eq_some_iff.mp (Option.mem_toList.mp ht)
      have hsome := (Option.filter_eq_some_iff.mp hc).2
      exact ⟨c, Token.clause.inj hclause, by simpa using hsome⟩

/-- Behind a token that waits like the builder does, the same holds. -/
theorem IsPoised.append (h : b.IsPoised) {t : Token} (ht : t.IsMark) {p : Option Connective}
    (hp : p = t.waiting) : IsPoised { b.append t with pending := p } := by
  subst hp
  have hwaits {c : Connective} (hc : t.waiting = some c) : t = .connective c := by
    cases t with
    | connective d => rw [Option.some.inj hc]
    | seed _ | clause _ | boost _ | opening | closing => cases hc
  refine ⟨h.alone, ?_, ?_, ?_⟩
  · intro c hc
    rw [hwaits hc]
    exact List.getLast?_concat
  · intro c hc
    rw [hwaits hc]
    exact ⟨Draft.spaced b.text, (List.append_assoc ..).symm⟩
  · intro text hmem
    rcases List.mem_append.mp hmem with hmem | hmem
    · exact h.single text hmem
    · obtain rfl := List.mem_singleton.mp hmem
      exact ht.elim

theorem IsPoised.edit (h : b.IsPoised) {e : Edit} {next : Builder} (he : b.edit e = .ok next) :
    next.IsPoised := by
  have hcommit : (b.commit []).IsPoised := h.commit none
  have hpending := commit_pending b []
  cases done_of_edit he with
  | terms vs hbound => exact ⟨fun _ => hbound, h.last, h.shown, h.single⟩
  | field name _ => exact h.commit name
  | lower v hterms | upper v hterms =>
    refine ⟨?_, h.last, h.shown, h.single⟩
    intro ht
    exact absurd (hterms.symm.trans ht) Bool.false_ne_true
  | startGroup => exact hcommit.append (t := .opening) trivial hpending
  | endGroup _ => exact hcommit.append (t := .closing) trivial hpending
  | connect c _ _ => exact hcommit.append (t := .connective c) trivial rfl
  | boost factor _ => exact hcommit.append (t := .boost factor.toText) trivial hpending

theorem IsPoised.finish (h : b.IsPoised) : b.finish.1.IsPoised := by
  refine ⟨nofun, nofun, nofun, ?_⟩
  intro text ht
  rcases mem_clean ht with ht | ⟨seed, -, -, ht⟩
  · rcases List.mem_append.mp ht with ht | ht
    · exact (h.commit none).single text ht
    · cases List.eq_of_mem_replicate ht
  · cases ht

theorem IsPoised.call (h : b.IsPoised) (k : Call) : (b.call k).1.IsPoised := by
  cases k with
  | edit e =>
    cases he : b.edit e with
    | ok next =>
      rw [Builder.call, step_of_ok he]
      exact h.edit he
    | error m =>
      rw [Builder.call, step_of_error he]
      exact h
  | finish => exact h.finish

/-- Whether what is pending and what is written fit together. -/
structure IsConsistent (b : Builder) : Prop extends b.IsPoised where
  /-- what building started from stands first, and only once -/
  first : ∀ front seed behind, b.tokens = front ++ .seed seed :: behind →
    front = [] ∧ ∀ other, .seed other ∉ behind
  /-- no clause is without text -/
  written : .clause [] ∉ b.tokens

/-- **What is pending and what is written fit together** in every state, and the next commit writes
terms or a range and nothing else. -/
theorem isConsistent_run (seed : Text) (ks : List Call) :
    let b := ((ofSeed seed).run ks).1
    b.IsConsistent ∧ ∀ field, (b.commit (fieldLead field)).tokens =
      b.tokens ++ ((b.clauseIn field).map fun c => .clause c.text).toList := by
  intro b
  have hpoised : b.IsPoised :=
    run_preserves (P := IsPoised) (fun _ k h => h.call k) (isPoised_ofSeed seed) ks
  have hfirst : SeedFirst b.tokens := seedFirst_run seed ks
  refine ⟨⟨hpoised, ?_, ?_⟩, tokens_commit hpoised.alone⟩
  · intro front text behind hts
    rw [hts] at hfirst
    rcases front with _ | ⟨t, front⟩
    · exact ⟨rfl, hfirst⟩
    · exact absurd (List.mem_append_right front (List.mem_cons_self ..)) (hfirst text)
  · intro hnil
    exact (isSound_run seed ks).written _ hnil rfl

end PortalSearch.Builder
