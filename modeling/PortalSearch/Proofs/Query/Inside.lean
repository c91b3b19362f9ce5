import PortalSearch.Proofs.Query.Invariant

/-!
# Building inside a group

An edit inside a group is answered as if the group stood alone. What the guards of edits ask of the
text is how it ends, and what writing asks of it is the same and whether a group is open; inside a
group the text that the group began with answers all of that, and whatever stands in front of the
group does not. This holds as long as the group is not ended.

Main result: edits that end no group but their own, asked for in a group, lead to the same builder
with the same warnings, up to what stands in front (`run_behind`).
-/

namespace PortalSearch

/-! ## Drafts -/

namespace Draft

/-- A draft with another one in front of it. -/
def behind (d front : Draft) : Draft := ⟨front.text ++ d.text, front.depth + d.depth⟩

variable {d : Draft} {t : Token}

theorem getLast?_behind (h : d.text ≠ []) (front : Draft) :
    (d.behind front).text.getLast? = d.text.getLast? := by
  rw [behind, List.getLast?_append, List.getLast?_eq_some_getLast h]
  rfl

theorem spaced_append {t : Text} (h : t ≠ []) (s : Text) : spaced (s ++ t) = s ++ spaced t := by
  rw [spaced, spaced, List.getLast?_append, List.getLast?_eq_some_getLast h, Option.some_or]
  split
  · rfl
  · rfl
  · rfl
  · rw [List.append_assoc]

/-- What is in front makes no difference to what is written, where a group is open or none is open
in front. -/
theorem write_behind {front : Draft} (ht : d.text ≠ []) (hd : front.depth = 0 ∨ 0 < d.depth)
    (t : Token) : (d.behind front).write t = (d.write t).behind front := by
  cases t with
  | seed _ | clause _ | boost _ => simp [write, behind]
  | connective c => simp [write, behind, spaced_append ht]
  | opening =>
    have hlast := getLast?_behind ht front
    have hpos : 0 < front.depth + d.depth ↔ 0 < d.depth := by omega
    change 0 < (d.behind front).depth ↔ 0 < d.depth at hpos
    simp only [write, hlast, hpos]
    split <;> simp [behind, Nat.add_assoc]
  | closing =>
    have hsub : front.depth + d.depth - 1 = front.depth + (d.depth - 1) := by omega
    simp [write, behind, hsub]

theorem spaced_cases (t : Text) : spaced t = t ∨ spaced t = t ++ [' '] := by
  rw [spaced]
  split
  · exact .inl rfl
  · exact .inl rfl
  · exact .inl rfl
  · exact .inr rfl

theorem prefix_spaced (t : Text) : t <+: spaced t := by
  rcases spaced_cases t with h | h
  · exact ⟨[], by rw [List.append_nil, h]⟩
  · exact ⟨[' '], h.symm⟩

/-- Writing goes on from the text. -/
theorem prefix_write (d : Draft) (t : Token) : d.text <+: (d.write t).text := by
  cases t with
  | seed _ | clause _ | boost _ | closing => exact List.prefix_append ..
  | connective c =>
    rw [write, List.append_assoc]
    exact (prefix_spaced d.text).trans (List.prefix_append ..)
  | opening =>
    rw [write]
    split
    · rw [List.append_assoc]
      exact List.prefix_append ..
    · exact List.prefix_append ..

theorem prefix_writeAll (d : Draft) (ts : List Token) : d.text <+: (d.writeAll ts).text := by
  induction ts generalizing d with
  | nil => exact List.prefix_refl _
  | cons t ts ih => exact (prefix_write d t).trans (ih (d.write t))

theorem write_ne_nil (h : d.text ≠ []) (t : Token) : (d.write t).text ≠ [] := by
  intro hnil
  have hprefix := prefix_write d t
  rw [hnil, List.prefix_nil] at hprefix
  exact h hprefix

theorem depth_write {n m : Nat} (hd : d.depth = n + 1) (hn : t.nest n = some m) :
    (d.write t).depth = m + 1 := by
  cases t with
  | closing =>
    have hn' := hn
    simp [Token.nest] at hn'
    simp [write]
    omega
  | seed _ | clause _ | boost _ | connective _ | opening =>
    obtain rfl := Option.some.inj hn
    simp [write, hd]

/-- What is in front makes no difference to all that is written while the group stays open. -/
theorem writeAll_behind {n m : Nat} {ts : List Token} (ht : d.text ≠ []) (hd : d.depth = n + 1)
    (hn : nest n ts = some m) (front : Draft) :
    (d.behind front).writeAll ts = (d.writeAll ts).behind front := by
  induction ts generalizing d n with
  | nil => rfl
  | cons t ts ih =>
    obtain ⟨k, hk, hts⟩ := Option.bind_eq_some_iff.mp hn
    rw [writeAll_cons, write_behind ht (.inr (by omega)) t]
    exact ih (write_ne_nil ht t) (depth_write hd hk) hts

/-- The parenthesis that starts a group is written behind what is in front of it. -/
theorem exists_write_opening (d : Draft) : ∃ front, d.write .opening = behind ⟨['('], 1⟩ front :=
  ⟨⟨(d.write .opening).text.dropLast, d.depth⟩, by simp [write, behind]⟩

end Draft

/-! ## Edits -/

/-- The end of a group that an edit writes. -/
def Edit.groupEnd? : Edit → Option Token
  | startGroup => some .opening
  | endGroup => some .closing
  | terms _ | field _ | bound _ _ | connect _ | boost _ => none

/-- Whether edits end every group that they start, and no other one. -/
def WellNested (es : List Edit) : Prop := nest 0 (es.filterMap Edit.groupEnd?) = some 0

namespace Builder

/-- A builder with a draft and its tokens in front of what it has written. -/
def behind (b : Builder) (front : Draft) (ts : List Token) : Builder :=
  { b with draft := b.draft.behind front, tokens := ts ++ b.tokens }

/-- Whether a builder has written a group that is open, with `n` others open inside. -/
structure IsGroup (b : Builder) (n : Nat) : Prop where
  /-- the text begins with the parenthesis of the group -/
  started : b.text.head? = some '('
  /-- the tokens begin with its start and do not end it -/
  nested : ∃ us, b.tokens = .opening :: us ∧ nest 0 us = some n
  /-- all the groups are counted -/
  counted : b.openGroups = n + 1

/-- A group that was started and stands alone. -/
def group : Builder where
  draft := ⟨['('], 1⟩
  tokens := [.opening]
  terms := []
  lower := none
  upper := none
  pending := none

theorem isGroup_group : group.IsGroup 0 := ⟨rfl, ⟨[], rfl, rfl⟩, rfl⟩

variable {b : Builder} {n m : Nat} {front : Draft} {ts : List Token}

theorem IsGroup.text_ne_nil (h : b.IsGroup n) : b.draft.text ≠ [] := by
  intro hnil
  have hs := h.started
  rw [text, hnil] at hs
  cases hs

theorem IsGroup.depth_pos (h : b.IsGroup n) : 0 < b.draft.depth := by
  have hc : b.draft.depth = n + 1 := h.counted
  omega

theorem IsGroup.openGroups_ne_zero (h : b.IsGroup n) : b.openGroups ≠ 0 := by
  rw [h.counted]
  exact Nat.succ_ne_zero n

theorem IsGroup.append (h : b.IsGroup n) {t : Token} (hn : t.nest n = some m) :
    (b.append t).IsGroup m := by
  obtain ⟨us, hus, hnest⟩ := h.nested
  refine ⟨?_, ⟨us ++ [t], ?_, ?_⟩, Draft.depth_write h.counted hn⟩
  · obtain ⟨rest, hrest⟩ := Draft.prefix_write b.draft t
    have hs := h.started
    rw [Builder.text] at hs ⊢
    rw [Builder.append, ← hrest, List.head?_append, hs]
    rfl
  · rw [Builder.append, hus]
    rfl
  · rw [nest_concat, hnest]
    exact hn

theorem IsGroup.commit (h : b.IsGroup n) (lead : Text) : (b.commit lead).IsGroup n := by
  have hs : b.settled.IsGroup n := ⟨h.started, h.nested, h.counted⟩
  rcases commit_eq b lead with hc | ⟨t, -, hc⟩
  · rwa [hc]
  · rw [hc]
    exact hs.append rfl

theorem append_behind (h : b.IsGroup n) (t : Token) :
    (b.behind front ts).append t = (b.append t).behind front ts := by
  simp [append, behind, Draft.write_behind h.text_ne_nil (.inr h.depth_pos)]

theorem commit_behind (h : b.IsGroup n) (lead : Text) :
    (b.behind front ts).commit lead = (b.commit lead).behind front ts := by
  have hs : b.settled.IsGroup n := ⟨h.started, h.nested, h.counted⟩
  have htext : (b.behind front ts).clauseText = b.clauseText := rfl
  have hsettled : (b.behind front ts).settled = b.settled.behind front ts := rfl
  rw [Builder.commit, Builder.commit, htext, hsettled, append_behind hs]
  split <;> rfl

/-- Inside a group the text is not blank, and ends as it does in the group alone. -/
theorem endsBlank_behind (h : b.IsGroup n) : (b.behind front ts).endsBlank = b.endsBlank := by
  have hparen : '(' ∈ b.text := List.mem_of_mem_head? h.started
  have hblank : Text.allBlank b.text = false := by
    rw [Text.allBlank, List.all_eq_false]
    exact ⟨'(', hparen, by decide⟩
  have hblank' : Text.allBlank (b.behind front ts).text = false := by
    rw [Text.allBlank, List.all_eq_false]
    exact ⟨'(', List.mem_append_right _ hparen, by decide⟩
  have hlast : (b.behind front ts).text.getLast? = b.text.getLast? :=
    Draft.getLast?_behind h.text_ne_nil front
  rw [endsBlank, endsBlank, hblank, hblank', hlast]

/-- **An edit inside a group** does the same whatever stands in front of the group. -/
theorem edit_behind (h : b.IsGroup n) (e : Edit) :
    (b.behind front ts).edit e = (b.edit e).map fun next => next.behind front ts := by
  cases e with
  -- of what the guards test `behind` changes the text and the depth only
  | terms vs =>
    rw [edit, edit]
    change (if b.hasBound = true then _ else _) = _
    split <;> rfl
  | field name =>
    rw [edit, edit, commit_behind h]
    change (if b.hasClause = true then _ else if b.hasBound = true then _ else _) = _
    split
    · rfl
    · split <;> rfl
  | bound side v =>
    cases side with
    | lower =>
      rw [edit, edit]
      change (if b.hasTerms = true then _ else _) = _
      split <;> rfl
    | upper =>
      rw [edit, edit]
      change (if b.hasTerms = true then _ else _) = _
      split <;> rfl
  | startGroup =>
    rw [edit, edit, commit_behind h, append_behind (h.commit [])]
    rfl
  | endGroup =>
    have hopen : (b.behind front ts).openGroups ≠ 0 :=
      Nat.ne_of_gt (Nat.add_pos_right _ h.depth_pos)
    rw [edit_endGroup hopen, edit_endGroup h.openGroups_ne_zero, commit_behind h,
      append_behind (h.commit [])]
    rfl
  | connect c =>
    rw [edit, edit, endsBlank_behind h, commit_behind h, append_behind (h.commit [])]
    have hp : (b.behind front ts).pending = b.pending := rfl
    have hc : (b.behind front ts).hasClause = b.hasClause := rfl
    rw [hp, hc]
    split
    · rfl
    · split <;> rfl
  | boost factor =>
    rw [edit, edit, endsBlank_behind h, commit_behind h, append_behind (h.commit [])]
    change (if (!b.hasClause) = true ∧ (b.pending.isSome = true ∨ b.endsBlank = true)
      then _ else _) = _
    split <;> rfl

theorem step_behind (h : b.IsGroup n) (e : Edit) :
    (b.behind front ts).step e = ((b.step e).1.behind front ts, (b.step e).2) := by
  have hedit : (b.behind front ts).edit e = _ := edit_behind h e
  cases he : b.edit e with
  | ok next =>
    rw [step_of_ok he]
    exact step_of_ok (by rw [hedit, he]; rfl)
  | error m =>
    rw [step_of_error he]
    exact step_of_error (by rw [hedit, he]; rfl)

theorem IsGroup.edit (h : b.IsGroup n) {e : Edit} {next : Builder}
    (hn : nest n e.groupEnd?.toList = some m) (he : b.edit e = .ok next) : next.IsGroup m := by
  have hc := h.commit []
  cases done_of_edit he with
  | startGroup =>
    obtain rfl : n + 1 = m := Option.some.inj hn
    exact hc.append rfl
  | endGroup _ =>
    obtain ⟨k, hk, hm⟩ := Option.bind_eq_some_iff.mp hn
    obtain rfl : k = m := Option.some.inj hm
    exact hc.append hk
  | terms _ _ | lower _ _ | upper _ _ =>
    obtain rfl : n = m := Option.some.inj hn
    exact ⟨h.started, h.nested, h.counted⟩
  | field name _ =>
    obtain rfl : n = m := Option.some.inj hn
    exact h.commit _
  | connect c _ _ =>
    obtain rfl : n = m := Option.some.inj hn
    have hw := hc.append (t := .connective c) rfl
    exact ⟨hw.started, hw.nested, hw.counted⟩
  | boost factor _ =>
    obtain rfl : n = m := Option.some.inj hn
    exact hc.append rfl

/-- An edit that does not end the group leaves it open. -/
theorem IsGroup.step (h : b.IsGroup n) {e : Edit} (hn : nest n e.groupEnd?.toList = some m) :
    (b.step e).1.IsGroup m := by
  cases he : b.edit e with
  | ok next =>
    rw [step_of_ok he]
    exact h.edit hn he
  | error cause =>
    -- neither the start nor the end of a group is refused here
    have hnone : e.groupEnd? = none := by
      cases e with
      | startGroup => cases he
      | endGroup =>
        rw [edit_endGroup h.openGroups_ne_zero] at he
        cases he
      | terms _ | field _ | bound _ _ | connect _ | boost _ => rfl
    rw [hnone] at hn
    obtain rfl : n = m := Option.some.inj hn
    rw [step_of_error he]
    exact h

theorem exists_nest_cons {e : Edit} {es : List Edit}
    (h : nest n ((e :: es).filterMap Edit.groupEnd?) = some m) :
    ∃ k, nest n e.groupEnd?.toList = some k ∧ nest k (es.filterMap Edit.groupEnd?) = some m := by
  apply nest_of_append
  rw [← h, List.filterMap_cons]
  cases e.groupEnd? <;> rfl

theorem IsGroup.run (h : b.IsGroup n) {es : List Edit}
    (hn : nest n (es.filterMap Edit.groupEnd?) = some m) : (b.run (es.map .edit)).1.IsGroup m := by
  induction es generalizing b n with
  | nil =>
    obtain rfl : n = m := Option.some.inj hn
    exact h
  | cons e es ih =>
    obtain ⟨k, hk, hes⟩ := exists_nest_cons hn
    exact ih (h.step hk) hes

/-- **Edits inside a group** do the same whatever stands in front of the group, as long as they do
not end it. -/
theorem run_behind (h : b.IsGroup n) {es : List Edit}
    (hn : nest n (es.filterMap Edit.groupEnd?) = some m) :
    (b.behind front ts).run (es.map .edit) =
      ((b.run (es.map .edit)).1.behind front ts, (b.run (es.map .edit)).2) := by
  induction es generalizing b n with
  | nil => rfl
  | cons e es ih =>
    obtain ⟨k, hk, hes⟩ := exists_nest_cons hn
    rw [List.map_cons, run_cons, run_cons, call, step_behind h]
    dsimp only
    rw [ih (h.step hk) hes]
    rfl

/-- A group that starts with no half of a range pending is the group alone, behind what was written
before. -/
theorem exists_startGroup (h : (b.hasBound && !b.hasRange) = false) :
    ∃ front : Draft, (b.step .startGroup).1 = group.behind front (b.commit []).tokens := by
  have hbound := commit_hasBound b []
  rw [h, hasBound, Bool.or_eq_false_iff, Option.isSome_eq_false_iff, Option.isSome_eq_false_iff,
    Option.isNone_iff_eq_none, Option.isNone_iff_eq_none] at hbound
  obtain ⟨front, hfront⟩ := (b.commit []).draft.exists_write_opening
  refine ⟨front, ?_⟩
  change (b.commit []).append .opening = _
  rw [append, hfront, hbound.1, hbound.2, commit_terms, commit_pending]
  rfl

end Builder

end PortalSearch
