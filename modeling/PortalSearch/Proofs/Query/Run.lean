import PortalSearch.Query.Builder.Run

/-!
# Runs

What holds of one call holds of every run: a run of calls followed by others is the one run
and then the other, and what every call preserves is preserved by all of them.
-/

namespace PortalSearch.Builder

variable {b : Builder}

/-! ## One edit -/

theorem step_of_ok {e : Edit} {next : Builder} (h : b.edit e = .ok next) :
    b.step e = (next, []) := by
  rw [step, h]

theorem step_of_error {e : Edit} {m : Misuse} (h : b.edit e = .error m) :
    b.step e = (b, [.misuse m]) := by
  rw [step, h]

theorem run_edit (b : Builder) (e : Edit) : b.run [.edit e] = b.step e := by
  simp [run, call]

/-! ## Several calls -/

theorem run_cons (b : Builder) (k : Call) (ks : List Call) :
    b.run (k :: ks) = (((b.call k).1.run ks).1, (b.call k).2 ++ ((b.call k).1.run ks).2) := rfl

theorem run_append (b : Builder) (ks ls : List Call) :
    b.run (ks ++ ls) = (((b.run ks).1.run ls).1, (b.run ks).2 ++ ((b.run ks).1.run ls).2) := by
  induction ks generalizing b with
  | nil => rfl
  | cons k ks ih => rw [List.cons_append, run_cons, ih, run_cons, List.append_assoc]

/-- What every call preserves, runs preserve. -/
theorem run_preserves {P : Builder → Prop} (hcall : ∀ b k, P b → P (b.call k).1) (h : P b)
    (ks : List Call) : P (b.run ks).1 := by
  induction ks generalizing b with
  | nil => exact h
  | cons k ks ih => exact ih (hcall b k h)

/-- What edits that are not refused preserve, if they are asked for as `Q` says, and finishing does,
runs of such calls preserve. -/
theorem run_preserves_of_edit {P : Builder → Prop} {Q : Call → Prop}
    (hedit : ∀ b e next, Q (.edit e) → P b → b.edit e = .ok next → P next)
    (hfinish : ∀ b, P b → P b.finish.1) (h : P b) {ks : List Call} (hks : ∀ k ∈ ks, Q k) :
    P (b.run ks).1 := by
  induction ks generalizing b with
  | nil => exact h
  | cons k ks ih =>
    rw [List.forall_mem_cons] at hks
    refine ih ?_ hks.2
    cases k with
    | edit e =>
      cases he : b.edit e with
      | ok next =>
        rw [call, step_of_ok he]
        exact hedit b e next hks.1 h he
      | error m =>
        rw [call, step_of_error he]
        exact h
    | finish => exact hfinish b h

end PortalSearch.Builder
