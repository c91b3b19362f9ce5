import PortalSearch.Proofs.Query.Run

/-!
# Refused edits

An edit that is out of place is refused: the builder stays as it is, and one warning says so. So
nothing that comes later can tell whether a refused edit was asked for, as all that it looks at is
the builder. A run may be *heeded* instead, which is what is left of it without the edits that it
refuses. It keeps the calls that finish the query, whose warnings are about the query and not about
the call.

Main result: a refused edit changes nothing and warns once, and a run leads to the same builder, by
way of the same finished queries, as what is heeded of it, whose warnings are all the others
(`heeded_alike`).
-/

namespace PortalSearch

/-- Whether a warning says that an edit was refused. -/
def Warning.isMisuse : Warning → Bool
  | misuse _ => true
  | rangeDiscarded | groupsClosed _ | removed _ _ => false

namespace Builder

variable {b : Builder} {k : Call}

/-- Whether a call is an edit that is warned about. -/
def Refuses (b : Builder) : Call → Bool
  | .edit e => !(b.step e).2.isEmpty
  | .finish => false

/-- The calls of a run without the edits that are warned about. -/
def heeded (b : Builder) : List Call → List Call
  | [] => []
  | k :: ks => if b.Refuses k then (b.call k).1.heeded ks else k :: (b.call k).1.heeded ks

/-- What finishing answers in the course of a run: the queries, each with its warnings. -/
def answers (b : Builder) : List Call → List (Text × List Warning)
  | [] => []
  | .edit e :: ks => (b.step e).1.answers ks
  | .finish :: ks => (b.finish.1.text, b.finish.2) :: b.finish.1.answers ks

/-! ## One call -/

theorem notModified_suffix (message : Text) :
    "Your query was not modified.".toList <:+ notModified message := by
  have hblank : " Your query was not modified.".toList =
      [' '] ++ "Your query was not modified.".toList := by decide
  rw [notModified, hblank, ← List.append_assoc]
  exact List.suffix_append ..

/-- An edit is accepted without a warning, or it is refused. -/
theorem step_cases (b : Builder) (e : Edit) :
    (b.step e).2 = [] ∨ ∃ m, b.step e = (b, [.misuse m]) := by
  cases he : b.edit e with
  | ok next => exact .inl (by rw [step_of_ok he])
  | error m => exact .inr ⟨m, step_of_error he⟩

/-- A refused call changes nothing. -/
theorem call_of_refuses (h : b.Refuses k = true) : ∃ m, b.call k = (b, [.misuse m]) := by
  cases k with
  | finish => cases h
  | edit e =>
    rcases step_cases b e with hs | hs
    · rw [Refuses, hs] at h
      cases h
    · exact hs

/-- No other call warns of a misuse. -/
theorem isMisuse_of_not_refuses (h : b.Refuses k = false) :
    ∀ w ∈ (b.call k).2, w.isMisuse = false := by
  cases k with
  | edit e =>
    have hs : (b.step e).2 = [] := by simpa [Refuses] using h
    rw [call, hs]
    intro w hw
    cases hw
  | finish =>
    intro w hw
    simp only [call, finish, finishWarnings, List.mem_append] at hw
    obtain (hw | hw) | hw := hw
    · split at hw
      · rw [List.mem_singleton.mp hw]
        rfl
      · cases hw
    · split at hw
      · cases hw
      · rw [List.mem_singleton.mp hw]
        rfl
    · split at hw
      · cases hw
      · rw [List.mem_singleton.mp hw]
        rfl

theorem heeded_of_refuses (h : b.Refuses k = true) (ks : List Call) :
    b.heeded (k :: ks) = b.heeded ks := by
  obtain ⟨m, hm⟩ := call_of_refuses h
  rw [heeded, if_pos h, hm]

theorem heeded_of_not_refuses (h : b.Refuses k = false) (ks : List Call) :
    b.heeded (k :: ks) = k :: (b.call k).1.heeded ks := by
  rw [heeded, if_neg (by simp [h])]

/-! ## Runs -/

/-- What is heeded of a run leads where the run does, without the warnings of misuse. -/
theorem run_heeded (b : Builder) (ks : List Call) :
    b.run (b.heeded ks) = ((b.run ks).1, (b.run ks).2.filter fun w => !w.isMisuse) := by
  induction ks generalizing b with
  | nil => rfl
  | cons k ks ih =>
    cases hr : b.Refuses k with
    | true =>
      obtain ⟨m, hm⟩ := call_of_refuses hr
      rw [heeded_of_refuses hr, ih, run_cons, hm]
      rfl
    | false =>
      have hkeep : (b.call k).2.filter (fun w => !w.isMisuse) = (b.call k).2 := by
        rw [List.filter_eq_self]
        intro w hw
        rw [isMisuse_of_not_refuses hr w hw]
        rfl
      rw [heeded_of_not_refuses hr, run_cons, run_cons, ih, List.filter_append, hkeep]

theorem answers_append (b : Builder) (ks ls : List Call) :
    b.answers (ks ++ ls) = b.answers ks ++ (b.run ks).1.answers ls := by
  induction ks generalizing b with
  | nil => rfl
  | cons k ks ih =>
    cases k with
    | edit e => exact ih (b.step e).1
    | finish => exact congrArg (List.cons _) (ih b.finish.1)

/-- It comes by the same finished queries. -/
theorem answers_heeded (b : Builder) (ks : List Call) :
    b.answers (b.heeded ks) = b.answers ks := by
  induction ks generalizing b with
  | nil => rfl
  | cons k ks ih =>
    cases hr : b.Refuses k with
    | true =>
      cases k with
      | finish => cases hr
      | edit e =>
        obtain ⟨m, hm⟩ := call_of_refuses hr
        have hstep : b.step e = (b, [.misuse m]) := hm
        rw [heeded_of_refuses hr, ih, answers, hstep]
    | false =>
      rw [heeded_of_not_refuses hr]
      cases k with
      | finish => exact congrArg (List.cons _) (ih b.finish.1)
      | edit e => exact ih (b.step e).1

/-- Nothing but refused edits is left out, and each of them for one warning. -/
theorem sublist_heeded (b : Builder) (ks : List Call) : (b.heeded ks).Sublist ks ∧
    ks.length = (b.heeded ks).length + (b.run ks).2.countP fun w => w.isMisuse := by
  induction ks generalizing b with
  | nil => exact ⟨List.Sublist.refl _, rfl⟩
  | cons k ks ih =>
    cases hr : b.Refuses k with
    | true =>
      obtain ⟨hsub, hlen⟩ := ih b
      obtain ⟨m, hm⟩ := call_of_refuses hr
      rw [heeded_of_refuses hr, run_cons, hm, List.countP_append]
      refine ⟨hsub.cons k, ?_⟩
      rw [List.length_cons, hlen]
      simp [Warning.isMisuse]
      omega
    | false =>
      obtain ⟨hsub, hlen⟩ := ih (b.call k).1
      have hnone : (b.call k).2.countP (fun w => w.isMisuse) = 0 := by
        rw [List.countP_eq_zero]
        intro w hw
        rw [isMisuse_of_not_refuses hr w hw]
        exact Bool.false_ne_true
      rw [heeded_of_not_refuses hr, run_cons, List.countP_append, hnone]
      refine ⟨hsub.cons_cons k, ?_⟩
      rw [List.length_cons, List.length_cons, hlen]
      omega

/-- **Misuse changes nothing**. Whatever led to a builder, an edit is accepted without a warning, or
it leaves the builder as it is and warns once that the query was not modified. And a run without the
edits that warned leads to the same builder, finishes to the same queries with the same warnings on
the way and at the end, and gives all its other warnings. -/
theorem heeded_alike (seed : Text) (ks : List Call) :
    let start := ofSeed seed
    let b := (start.run ks).1
    (∀ e, (b.step e).2 = [] ∨ ∃ m, b.step e = (b, [.misuse m]) ∧
      "Your query was not modified.".toList <:+ (Warning.misuse m).message) ∧
    ((start.heeded ks).Sublist ks ∧
      ks.length = (start.heeded ks).length + (start.run ks).2.countP fun w => w.isMisuse) ∧
    start.run (start.heeded ks) = (b, (start.run ks).2.filter fun w => !w.isMisuse) ∧
    start.answers (start.heeded ks ++ [.finish]) = start.answers (ks ++ [.finish]) := by
  intro start b
  refine ⟨?_, sublist_heeded start ks, run_heeded start ks, ?_⟩
  · intro e
    rcases step_cases b e with hs | ⟨m, hm⟩
    · exact .inl hs
    · exact .inr ⟨m, hm, notModified_suffix m.reason⟩
  · rw [answers_append, answers_append, answers_heeded, run_heeded]

end Builder

end PortalSearch
