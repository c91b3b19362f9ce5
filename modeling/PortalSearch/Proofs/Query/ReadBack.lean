import PortalSearch.Proofs.Query.Lexing
import PortalSearch.Proofs.Query.Pending

/-!
# Reading a query back

The text of a finished query can be read back if its clauses are plain: each has one term without
quotes, brackets, parentheses and `^`, or a range of whole numbers, perhaps in a field without these
and without blanks, and is not taken for a connective. Such a clause is one word, since blanks in
it stand between quotes or brackets.

What a run writes is told by the builders that answer its calls in order (`clausesBy`, `boostsBy`).
If all of it is plain, the tokens are readable after every call (`IsReadable.run`), and the text of
readable tokens tells each of them (`tokens_render`).

Main result: a run without a seed that writes plainly is finished with a text that is read as its
tokens, so two of them with different tokens have different texts (`read_back`).
-/

namespace PortalSearch

open Lexer

/-! ## Plain clauses -/

/-- Whether a value is a whole number. -/
def Value.isInt : Value → Bool
  | int _ => true
  | null | bool _ | float _ | text _ | bytes _ | date _ | moment _ | list _ | object _ => false

/-- Whether a value is a text with no marks, and not empty. -/
def Value.isPlain : Value → Bool
  | text t => !t.isEmpty && t.all fun c => c ∉ marks
  | null | bool _ | int _ | float _ | bytes _ | date _ | moment _ | list _ | object _ => false

/-- Whether there is one term and it is plain, or a range of whole numbers. -/
def Subject.isPlain : Subject → Bool
  | terms first more => first.isPlain && more.isEmpty
  | range lower upper => lower.isInt && upper.isInt

/-- Whether the text of a clause is one word, for all that it is made of. -/
structure Clause.IsPlain (c : Clause) : Prop where
  /-- it searches for something plain -/
  subject : c.subject.isPlain = true
  /-- its field, if it has one, has no marks and no blanks -/
  field : Unbroken (c.field.getD [])
  /-- it does not read AND, OR or NOT -/
  word : Connective.ofWord? c.text = none

instance (c : Clause) : Decidable c.IsPlain :=
  decidable_of_iff (c.subject.isPlain = true ∧ Unbroken (c.field.getD []) ∧
    Connective.ofWord? c.text = none)
    ⟨fun ⟨h, hf, hw⟩ => ⟨h, hf, hw⟩, fun ⟨h, hf, hw⟩ => ⟨h, hf, hw⟩⟩

theorem Value.eq_int_of_isInt {v : Value} (h : v.isInt = true) : ∃ n, v = .int n := by
  cases v with
  | int n => exact ⟨n, rfl⟩
  | null | bool _ | float _ | text _ | bytes _ | date _ | moment _ | list _ | object _ => cases h

theorem not_mem_marks_of_isDigit {c : Char} (h : c.isDigit = true) : c ∉ marks := by
  intro hc
  simp only [marks, List.mem_cons, List.not_mem_nil, or_false] at hc
  rcases hc with rfl | rfl | rfl | rfl | rfl | rfl <;> cases h

theorem unbroken_ofInt (n : Int) : Unbroken (Text.ofInt n) := by
  have hnat (n : Nat) : Unbroken (Text.ofNat n) := by
    intro c hc
    have hd : c.isDigit = true := Nat.isDigit_of_mem_toDigits (by decide) (by decide) hc
    exact ⟨not_mem_marks_of_isDigit hd, (Text.isSolid_of_isDigit hd).1⟩
  cases n with
  | ofNat n => exact hnat n
  | negSucc n => exact List.forall_mem_cons.mpr ⟨by decide, hnat (n + 1)⟩

/-- A plain term is a word, between quotes if there are blanks in it. -/
theorem isWhole_term {v : Value} (h : v.isPlain = true) :
    IsWhole (Term.text v) ∧ Text.EndsSolid (Term.text v) := by
  cases v with
  | text t =>
    obtain ⟨hne, hall⟩ : t ≠ [] ∧ Unmarked t := by simpa [Value.isPlain, Unmarked] using h
    rw [Term.text]
    split
    · exact ⟨isWhole_quoted hall, Text.EndsSolid.append ⟨'"', rfl, by decide⟩ _⟩
    · next hq =>
      have hb := Term.isBlank_of_plain hq
      have hsolid : Text.AllSolid t := by
        intro c hc
        refine ⟨hb c hc, ?_⟩
        rintro rfl
        exact hall _ hc (by decide)
      exact ⟨isWhole_of_unbroken fun c hc => ⟨hall c hc, hb c hc⟩, hsolid.endsSolid hne⟩
  | null | bool _ | int _ | float _ | bytes _ | date _ | moment _ | list _ | object _ => cases h

/-- A range of whole numbers is a word between brackets. -/
theorem isWhole_range (lower upper : Int) : IsWhole (Term.range (.int lower) (.int upper)) := by
  have hto : Unmarked " TO ".toList := by decide
  have hends {n : Int} : Unmarked (Text.ofInt n) := fun c hc => (unbroken_ofInt n c hc).1
  exact isWhole_bracketed
    (List.forall_mem_append.mpr ⟨List.forall_mem_append.mpr ⟨hends, hto⟩, hends⟩)

theorem Subject.isWhole_text {s : Subject} (h : s.isPlain = true) :
    IsWhole s.text ∧ Text.EndsSolid s.text := by
  cases s with
  | terms first more =>
    rw [isPlain, Bool.and_eq_true, List.isEmpty_iff] at h
    obtain ⟨hfirst, rfl⟩ := h
    rw [text, Term.series_singleton]
    exact isWhole_term hfirst
  | range lower upper =>
    rw [isPlain, Bool.and_eq_true] at h
    obtain ⟨lower, rfl⟩ := Value.eq_int_of_isInt h.1
    obtain ⟨upper, rfl⟩ := Value.eq_int_of_isInt h.2
    exact ⟨isWhole_range lower upper, Text.EndsSolid.append ⟨']', rfl, by decide⟩ _⟩

theorem isWhole_fieldLead {field : Option Text} (h : Unbroken (field.getD [])) :
    IsWhole (Builder.fieldLead field) := by
  have hnil : IsWhole [] := fun rest => rfl
  rw [Builder.fieldLead.eq_def]
  split
  · exact hnil
  · exact hnil
  · next name _ =>
    split
    · exact hnil
    · have hcolon : IsWhole [':'] := isWhole_of_unbroken (by decide)
      exact (isWhole_of_unbroken h).append hcolon

/-- A plain clause is read as it is written. -/
theorem Clause.IsPlain.isReadable {c : Clause} (h : c.IsPlain) :
    (Token.clause c.text).IsReadable := by
  obtain ⟨hwhole, hsolid⟩ := Subject.isWhole_text h.subject
  exact ⟨(isWhole_fieldLead h.field).append hwhole, hsolid.append _, h.word⟩

/-! ## What calls write -/

namespace Builder

/-- The clause that a call writes. -/
def clauseBy (b : Builder) : Call → Option Clause
  | .finish => b.clauseIn none
  | .edit e =>
    match b.edit e with
    | .error _ => none
    | .ok _ =>
      match e with
      | .terms _ | .bound _ _ => none
      | .field name => b.clauseIn name
      | .startGroup | .endGroup | .connect _ | .boost _ => b.clauseIn none

/-- The boost that a call writes. -/
def boostBy (b : Builder) : Call → Option Value
  | .edit (.boost factor) =>
    match b.edit (.boost factor) with
    | .error _ => none
    | .ok _ => some factor
  | _ => none

/-- The clauses that calls write. -/
def clausesBy (b : Builder) : List Call → List Clause
  | [] => []
  | k :: ks => (b.clauseBy k).toList ++ (b.call k).1.clausesBy ks

/-- The boosts that calls write. -/
def boostsBy (b : Builder) : List Call → List Value
  | [] => []
  | k :: ks => (b.boostBy k).toList ++ (b.call k).1.boostsBy ks

/-- Whether every token of a builder is readable, and at most one clause is pending. -/
structure IsReadable (b : Builder) : Prop where
  /-- the tokens -/
  tokens : ∀ t ∈ b.tokens, t.IsReadable
  /-- no end of a range is pending beside terms -/
  alone : b.hasTerms = true → b.hasBound = false

variable {b : Builder}

theorem isReadable_empty : (ofSeed []).IsReadable := ⟨nofun, nofun⟩

theorem IsReadable.append (h : b.IsReadable) {t : Token} (ht : t.IsReadable) :
    (b.append t).IsReadable := by
  refine ⟨?_, h.alone⟩
  exact List.forall_mem_append.mpr ⟨h.tokens, List.forall_mem_singleton.mpr ht⟩

/-- Writing a plain clause leaves readable tokens. -/
theorem IsReadable.commit (h : b.IsReadable) {field : Option Text}
    (hc : ∀ c ∈ b.clauseIn field, c.IsPlain) : (b.commit (fieldLead field)).IsReadable := by
  have hsettled : b.settled.IsReadable := ⟨h.tokens, nofun⟩
  rw [Builder.commit]
  split
  · exact hsettled
  · next hne =>
    apply hsettled.append
    rw [clauseText_of_alone h.alone] at hne ⊢
    cases hs : b.subject? with
    | none => exact absurd (by rw [hs]; rfl) hne
    | some s =>
      rw [hs] at hne
      have hclause : b.clauseIn field = some ⟨s, field⟩ := by
        rw [clauseIn, hs, Option.map_some, Option.filter_some, if_pos (by simpa using hne)]
      exact (hc _ hclause).isReadable

theorem IsReadable.commit_none (h : b.IsReadable) (hc : ∀ c ∈ b.clauseIn none, c.IsPlain) :
    (b.commit []).IsReadable := h.commit hc

/-- An edit that writes a plain clause and a whole number at most leaves readable tokens. -/
theorem IsReadable.edit (h : b.IsReadable) {e : Edit} {next : Builder} (he : b.edit e = .ok next)
    (hc : ∀ c ∈ b.clauseBy (.edit e), c.IsPlain)
    (hv : ∀ v ∈ b.boostBy (.edit e), v.isInt = true) : next.IsReadable := by
  simp only [clauseBy, he] at hc
  cases done_of_edit he with
  | terms vs hb => exact ⟨h.tokens, fun _ => hb⟩
  | field name _ => exact h.commit hc
  | lower v ht | upper v ht =>
    refine ⟨h.tokens, ?_⟩
    intro hterms
    exact absurd (ht.symm.trans hterms) Bool.false_ne_true
  | startGroup => exact (h.commit_none hc).append trivial
  | endGroup _ => exact (h.commit_none hc).append trivial
  | connect c _ _ =>
    have hw := (h.commit_none hc).append (t := .connective c) trivial
    exact ⟨hw.tokens, hw.alone⟩
  | boost factor _ =>
    rw [boostBy, he] at hv
    obtain ⟨n, rfl⟩ := Value.eq_int_of_isInt (hv factor rfl)
    apply (h.commit_none hc).append
    refine ⟨Text.endsSolid_ofInt n, ?_⟩
    intro c hc
    obtain ⟨hmarks, hblank⟩ := unbroken_ofInt n c hc
    exact isStop_of_not_mem_marks hmarks hblank

/-- Finishing takes out tokens only, as there is no seed to trim. -/
theorem IsReadable.finish (h : b.IsReadable) (hc : ∀ c ∈ b.clauseBy .finish, c.IsPlain) :
    b.finish.1.IsReadable := by
  have hclosed : ∀ t ∈ b.closedTokens, t.IsReadable := by
    refine List.forall_mem_append.mpr ⟨(h.commit_none hc).tokens, ?_⟩
    intro t ht
    rw [List.eq_of_mem_replicate ht]
    trivial
  refine ⟨?_, nofun⟩
  intro t ht
  rcases mem_clean ht with ht | ⟨seed, hseed, -, -⟩
  · exact hclosed t ht
  · exact (hclosed _ hseed).elim

/-- **Plain clauses and whole numbers** are readable tokens, through every run. -/
theorem IsReadable.run (h : b.IsReadable) {ks : List Call} (hc : ∀ c ∈ b.clausesBy ks, c.IsPlain)
    (hv : ∀ v ∈ b.boostsBy ks, v.isInt = true) : (b.run ks).1.IsReadable := by
  induction ks generalizing b with
  | nil => exact h
  | cons k ks ih =>
    obtain ⟨hck, hcs⟩ := List.forall_mem_append.mp hc
    obtain ⟨hvk, hvs⟩ := List.forall_mem_append.mp hv
    refine ih ?_ hcs hvs
    simp only [Option.mem_toList] at hck hvk
    cases k with
    | edit e =>
      cases he : b.edit e with
      | ok next =>
        rw [call, step_of_ok he]
        exact h.edit he hck hvk
      | error m =>
        rw [call, step_of_error he]
        exact h
    | finish => exact h.finish hck

/-- The builder that calls without a seed lead to when the query is finished behind them. -/
def finishedBy (ks : List Call) : Builder := ((ofSeed []).run (ks ++ [.finish])).1

/-- Whether all that calls without a seed write is plain, and keeps apart in the query. -/
structure WritesPlainly (ks : List Call) : Prop where
  /-- the clauses that are written, also when the query is finished -/
  clauses : ∀ c ∈ (ofSeed []).clausesBy (ks ++ [.finish]), c.IsPlain
  /-- the boosts -/
  boosts : ∀ v ∈ (ofSeed []).boostsBy (ks ++ [.finish]), v.isInt = true
  /-- no clause of the query stands right behind a clause or a boost -/
  apart : Apart (finishedBy ks).tokens

/-- **The text can be read back**: it is read as the tokens of the query, so two queries with
different tokens never have the same text. -/
theorem read_back {ks : List Call} (h : WritesPlainly ks) :
    Lexer.tokens (finishedBy ks).text = (finishedBy ks).tokens ∧
      ∀ ls, WritesPlainly ls → (finishedBy ls).tokens ≠ (finishedBy ks).tokens →
        (finishedBy ls).text ≠ (finishedBy ks).text := by
  have hread {ms : List Call} (hm : WritesPlainly ms) :
      Lexer.tokens (finishedBy ms).text = (finishedBy ms).tokens := by
    have hrun : finishedBy ms = ((ofSeed []).run ms).1.finish.1 := by
      rw [finishedBy, run_append]
      rfl
    have hts := (isReadable_empty.run hm.clauses hm.boosts).tokens
    have ha := hm.apart
    change ∀ t ∈ (finishedBy ms).tokens, t.IsReadable at hts
    rw [hrun] at hts ha ⊢
    exact Draft.tokens_render (finished_clean _) (isSound_finish (isSound_run [] ms)).nested hts ha
  refine ⟨hread h, ?_⟩
  intro ls hl hne htext
  apply hne
  rw [← hread hl, ← hread h, htext]

/-- Blanks between quotes and brackets, a term that would read AND without its field, a boost, and a
group that is left open. -/
theorem read_back_quoted :
    let edits (es : List Edit) : List Call := es.map .edit
    let ks := edits [.terms [.text "big lake".toList], .field (some "title".toList), .connect .and,
      .startGroup, .connect .not, .bound .lower (.int (-1)), .bound .upper (.int 5),
      .boost (.int 2), .connect .or, .terms [.text "AND".toList], .field (some "tags".toList)]
    let ls := edits [.terms [.text "big".toList], .connect .or, .terms [.text "lake".toList]]
    (WritesPlainly ks ∧ WritesPlainly ls ∧ (finishedBy ls).tokens ≠ (finishedBy ks).tokens) ∧
      (finishedBy ks).text = "title:\"big lake\" AND (NOT [-1 TO 5]^2 OR tags:AND)".toList ∧
      Lexer.tokens (finishedBy ks).text = (finishedBy ks).tokens ∧
      (finishedBy ls).text ≠ (finishedBy ks).text := by
  intro edits ks ls
  have hks : WritesPlainly ks := ⟨by decide +kernel, by decide +kernel, by decide +kernel⟩
  have hls : WritesPlainly ls := ⟨by decide +kernel, by decide +kernel, by decide +kernel⟩
  have hne : (finishedBy ls).tokens ≠ (finishedBy ks).tokens := by decide +kernel
  obtain ⟨hread, hother⟩ := read_back hks
  exact ⟨⟨hks, hls, hne⟩, by decide +kernel, hread, hother ls hls hne⟩

end Builder

end PortalSearch
