import PortalSearch.Proofs.Query.Account
import PortalSearch.Proofs.Query.Again
import PortalSearch.Proofs.Query.Clone
import PortalSearch.Proofs.Query.Ending
import PortalSearch.Proofs.Query.Inside

/-!
# A group and what surrounds it

What a group means does not depend on what surrounds it. Three things add up to this. Edits inside
a group are answered as in the group alone (`run_behind`), so they write the same tokens. Reading a
group that holds a clause leaves the same of it whatever was read before, with both its ends around
(`exists_isContent`), and leaves that again when it is read again, so finishing any number of times
makes no difference. And what is written behind the parenthesis that starts a group depends on
nothing in front of it.

Which group of the finished query is meant is told by the places of its two ends, which are followed
from where they are written through all later calls (`follow`).

Main result: a group that holds a clause is warned about alike, left alike and written alike in any
two surroundings (`group_alike`).
-/

namespace PortalSearch

open Prune

variable {ts inner : List Token}

/-! ## What is left inside a group -/

/-- Whether reading a group leaves `inner` between its ends, whatever was read before. -/
def ReadsAs (ts inner : List Token) : Prop :=
  ∀ (r : Reading Nat) (us : List (Token × Nat)) (m n : Nat), us.map Prod.fst = ts →
    ∃ held : List (Token × Nat), held.map Prod.fst = inner ∧
      (r.readAll ((.opening, m) :: us ++ [(.closing, n)])).before =
        (.closing, n) :: held.reverse ++ (.opening, m) :: r.before

/-- Whether finishing leaves `inner` of tokens that stand in a group and hold a clause. -/
structure IsContent (ts inner : List Token) : Prop where
  /-- the tokens end every group that they start -/
  nested : nest 0 ts = some 0
  /-- they hold a clause -/
  holds : ∃ text, .clause text ∈ ts
  /-- what is left of them -/
  left : ReadsAs ts inner

namespace Reading

variable {r : Reading Nat} {us : List (Token × Nat)} {Y : List (Token × Nat)} {m : Nat}

/-- A clause in a group stays, so the group is not found empty. -/
theorem not_allConnectives_of_clause (hn : nest 0 (us.map Prod.fst) = some 0)
    (hc : ∃ text, Token.clause text ∈ us.map Prod.fst)
    (hY : ((r.push (.opening, m)).readAll us).before = Y ++ (.opening, m) :: r.before) :
    ¬ AllConnectives Y := by
  intro hall
  obtain ⟨held, -, hw, -⟩ := exists_readAll_group hn hc r m 0
  have hb := (emptied_of_connectives ⟨Y, hY, hall⟩ 0).wake_boost
  rw [hw] at hb
  cases hb

/-- **A group that holds a clause** is read alike above everything. -/
theorem exists_readsAs (hn : nest 0 ts = some 0) (hc : ∃ text, .clause text ∈ ts) :
    ∃ inner, nest 0 inner = some 0 ∧ ReadsAs ts inner := by
  have hmap : ts.zipIdx.map Prod.fst = ts := List.zipIdx_map_fst ..
  have hnest : nest 0 (ts.zipIdx.map Prod.fst) = some 0 := hmap.symm ▸ hn
  obtain ⟨X, hX, hnX⟩ := exists_nested (r := start.push (.opening, 0))
    (top_cons_ne (t := .opening) rfl 0 []) rfl hnest
  refine ⟨((X.map Prod.fst).dropWhile (goes fun _ => true)).reverse,
    (nest_dropWhile_goes _ _).trans hnX, ?_⟩
  rintro r us m n rfl
  have hF := top_cons_ne (t := .opening) rfl 0 ([] : List (Token × Nat))
  have hG := top_cons_ne (t := .opening) rfl m r.before
  have hl : Level [(Token.opening, 0)] ((.opening, m) :: r.before) :=
    ⟨hF, hG, Iff.rfl, by simp [top]⟩
  have ha : Alike [(Token.opening, 0)] ((.opening, m) :: r.before) [] (start.push (.opening, 0))
      (r.push (.opening, m)) := ⟨⟨[], rfl, rfl⟩, ⟨[], rfl, rfl⟩, rfl⟩
  obtain ⟨V, ⟨⟨X', rfl, hb⟩, ⟨Y, hY, hr⟩, -⟩, hV⟩ := ha.readAll hl hmap (by simp [hn])
  obtain rfl : X' = X := List.append_cancel_right (hb.symm.trans hX)
  have hnY : nest 0 (Y.map Prod.fst).reverse = some 0 := hY.symm ▸ hnX
  have hall := not_allConnectives_of_clause hn hc hr
  refine ⟨(shedAll Y).1.reverse, ?_, ?_⟩
  · rw [List.map_reverse, tokens_shed, hY]
  · rw [List.cons_append, readAll_cons, readAll_append, List.reverse_reverse]
    exact (readClosing_of_nested hr hnY hall).1

end Reading

namespace Builder

/-- What finishing leaves of a group that stands alone. -/
theorem tokens_clean_group (h : ReadsAs ts inner) :
    (clean (.opening :: ts ++ [.closing])).tokens = .opening :: inner ++ [.closing] := by
  obtain ⟨held, rfl, hb⟩ := h Reading.start (ts.zipIdx 1) 0 (1 + ts.length) (List.zipIdx_map_fst ..)
  have hprune : (prune (Token.opening :: ts ++ [Token.closing]).zipIdx).kept =
      (.opening, 0) :: held ++ [(.closing, 1 + ts.length)] := by
    rw [prune_eq_outcome, zipIdx_enclosed, Nat.zero_add, Reading.outcome, hb]
    simp [Reading.shed, Reading.start]
  rw [clean_of_mem (t := (.opening, 0)) (by rw [hprune]; simp) (by simp), Pruned.tokens, hprune]
  simp

/-- What is left of a group holds its clauses. -/
theorem mem_of_readsAs (h : ReadsAs ts inner) {text : Text} (hc : .clause text ∈ ts) :
    .clause text ∈ inner := by
  have hkept : .clause text ∈ (clean (.opening :: ts ++ [.closing])).tokens :=
    mem_clean_of_clause (by simp [hc])
  rw [tokens_clean_group h] at hkept
  simpa using hkept

/-- **What is left inside a group** is left as it is when it is finished again. -/
theorem exists_isContent (hn : nest 0 ts = some 0) (hc : ∃ text, .clause text ∈ ts) :
    ∃ inner, IsContent ts inner ∧ IsContent inner inner := by
  obtain ⟨inner, hinner, hread⟩ := Reading.exists_readsAs hn hc
  have hclause : ∃ text, .clause text ∈ inner := hc.imp fun text => mem_of_readsAs hread
  obtain ⟨again, -, hagain⟩ := Reading.exists_readsAs hinner hclause
  -- what finishing leaves is finished, so finishing it again leaves the same
  have hfinished := finished_clean (.opening :: ts ++ [.closing])
  rw [tokens_clean_group hread] at hfinished
  have hsame := tokens_clean_of_finished hfinished
  rw [tokens_clean_group hagain] at hsame
  obtain rfl : again = inner := by simpa using hsame
  exact ⟨again, ⟨hn, hc, hread⟩, hinner, hclause, hagain⟩

/-- A group is kept with both its ends, and what is left of it between them. -/
theorem exists_kept_content (h : ReadsAs ts inner) (ahead behind : List Token) :
    ∃ front held rest, (clean (ahead ++ (.opening :: ts ++ [.closing]) ++ behind)).kept =
      front ++ ((.opening, ahead.length) :: held ++
        [(.closing, ahead.length + 1 + ts.length)]) ++ rest ∧
      held.map Prod.fst = inner := by
  obtain ⟨held, hheld, hb⟩ := h (Reading.start.readAll ahead.zipIdx)
    (ts.zipIdx (ahead.length + 1)) ahead.length (ahead.length + 1 + ts.length)
    (List.zipIdx_map_fst ..)
  obtain ⟨front, rest, hkept⟩ := exists_kept_of_read hb behind
  exact ⟨front, held, rest, hkept, hheld⟩

/-! ## Following a token -/

/-- The place in the query that the token at a place has after more calls, if it is kept. -/
def follow (b : Builder) (place : Nat) : List Call → Option Nat
  | [] => some place
  | .edit e :: ks => (b.step e).1.follow place ks
  | .finish :: ks =>
    ((clean b.closedTokens).kept.findIdx? fun t => t.2 == place).bind (b.finish.1.follow · ks)

theorem follow_append (b : Builder) (place : Nat) (ks ls : List Call) :
    b.follow place (ks ++ ls) = (b.follow place ks).bind ((b.run ks).1.follow · ls) := by
  induction ks generalizing b place with
  | nil => rfl
  | cons k ks ih =>
    cases k with
    | edit e => exact ih (b.step e).1 place
    | finish =>
      rw [List.cons_append, follow, follow, Option.bind_assoc]
      exact congrArg _ (funext fun p => ih b.finish.1 p)

/-- Tokens are kept at most once. -/
theorem nodup_marks_clean (ts : List Token) : ((clean ts).kept.map Prod.snd).Nodup := by
  obtain ⟨seed, place, -, hc⟩ | ⟨-, hc⟩ := clean_cases ts
  · rw [hc]
    dsimp only
    split
    · exact List.nodup_nil
    · simp
  · rw [hc]
    exact (nodup_marks ts).sublist ((sublist_prune _).map _)

/-- A token that is kept is found behind those in front. -/
theorem findIdx?_kept {front rest : List (Token × Nat)} {t : Token} {place : Nat}
    (h : (clean ts).kept = front ++ (t, place) :: rest) :
    ((clean ts).kept.findIdx? fun t => t.2 == place) = some front.length := by
  have hmarks := nodup_marks_clean ts
  rw [h, List.map_append, List.map_cons] at hmarks
  have hfront : (front.findIdx? fun t => t.2 == place) = none := by
    rw [List.findIdx?_eq_none_iff]
    intro u hu
    have hne := (List.nodup_append.mp hmarks).2.2 u.2 (List.mem_map_of_mem hu) place
      List.mem_cons_self
    exact beq_eq_false_iff_ne.mpr hne
  rw [h, List.findIdx?_append, hfront, List.findIdx?_cons]
  simp

/-- Whether tokens have a group, with its ends at the places `start` and `stop`, of which finishing
leaves `inner`. -/
def Encloses (us inner : List Token) (start stop : Nat) : Prop :=
  ∃ ahead ts behind, us = ahead ++ (.opening :: ts ++ [.closing]) ++ behind ∧ IsContent ts inner ∧
    start = ahead.length ∧ stop = ahead.length + 1 + ts.length

variable {b : Builder} {us : List Token} {start stop : Nat}

theorem Encloses.append (h : Encloses us inner start stop) (vs : List Token) :
    Encloses (us ++ vs) inner start stop := by
  obtain ⟨ahead, ts, behind, rfl, hc, rfl, rfl⟩ := h
  exact ⟨ahead, ts, behind ++ vs, List.append_assoc .., hc, rfl, rfl⟩

theorem Encloses.step (h : Encloses b.tokens inner start stop) (e : Edit) :
    Encloses (b.step e).1.tokens inner start stop := by
  obtain ⟨us, hus⟩ := exists_step_onto b e
  have hself := congrArg (fun r => r.1.tokens) (hus b.tokens)
  rw [onto_tokens] at hself
  rw [hself]
  exact h.append us

theorem Encloses.closedTokens (h : Encloses b.tokens inner start stop) :
    Encloses b.closedTokens inner start stop := by
  obtain ⟨us, hus⟩ := exists_closedTokens_onto b
  have hself := hus b.tokens
  rw [onto_tokens] at hself
  rw [hself]
  exact h.append us

/-- **Finishing** keeps the group, and what is left of it between its ends. -/
theorem exists_follow_finish (h : Encloses b.closedTokens inner start stop) :
    ∃ front rest, b.finish.1.tokens = front ++ (.opening :: inner ++ [.closing]) ++ rest ∧
      b.follow start [.finish] = some front.length ∧
      b.follow stop [.finish] = some (front.length + 1 + inner.length) := by
  obtain ⟨ahead, ts, behind, hts, hc, rfl, rfl⟩ := h
  obtain ⟨front, held, rest, hkept, rfl⟩ := exists_kept_content hc.left ahead behind
  rw [← hts] at hkept
  refine ⟨front.map Prod.fst, rest.map Prod.fst, ?_, ?_, ?_⟩
  · change (clean b.closedTokens).tokens = _
    rw [Pruned.tokens, hkept]
    simp
  · have hstart : (clean b.closedTokens).kept = front ++ (.opening, ahead.length) ::
        (held ++ [(.closing, ahead.length + 1 + ts.length)] ++ rest) := by
      rw [hkept]
      simp
    rw [follow, findIdx?_kept hstart, List.length_map]
    rfl
  · have hstop : (clean b.closedTokens).kept = front ++ (.opening, ahead.length) :: held ++
        (.closing, ahead.length + 1 + ts.length) :: rest := by
      rw [hkept]
      simp
    rw [follow, findIdx?_kept hstop]
    simp [follow]
    omega

/-- **Later calls** keep the group, and what finishing leaves of it. -/
theorem exists_follow (h : Encloses b.tokens inner start stop) (hi : IsContent inner inner)
    (ks : List Call) :
    ∃ start' stop', b.follow start ks = some start' ∧ b.follow stop ks = some stop' ∧
      Encloses (b.run ks).1.tokens inner start' stop' := by
  induction ks generalizing b start stop with
  | nil => exact ⟨start, stop, rfl, rfl, h⟩
  | cons k ks ih =>
    cases k with
    | edit e => exact ih (h.step e)
    | finish =>
      obtain ⟨front, rest, hts, hstart, hstop⟩ := exists_follow_finish h.closedTokens
      have hnext : Encloses b.finish.1.tokens inner front.length
          (front.length + 1 + inner.length) :=
        ⟨front, inner, rest, hts, hi, rfl, rfl⟩
      obtain ⟨start', stop', hs, hs', hencloses⟩ := ih hnext
      refine ⟨start', stop', ?_, ?_, hencloses⟩
      · exact (follow_append b start [.finish] ks).trans (by rw [hstart]; exact hs)
      · exact (follow_append b stop [.finish] ks).trans (by rw [hstop]; exact hs')

end Builder

/-! ## How a group is written -/

open Draft in
/-- Whether tokens of a group are written as `text`, wherever the group is. -/
structure WrittenAs (inner : List Token) (text : Text) : Prop where
  /-- they add the text to what is in front of them -/
  adds (front : List Token) :
    render (front ++ .opening :: inner) = render (front ++ [.opening]) ++ text
  /-- no blanks are cut off it -/
  stays (front rest : List Token) : ∃ tail,
    Text.trimEnd (render (front ++ (.opening :: inner ++ [.closing]) ++ rest)) =
      render (front ++ [.opening]) ++ text ++ ')' :: tail

open Draft in
/-- **What is written inside a group** depends on nothing in front of the group. -/
theorem exists_writtenAs (hn : nest 0 inner = some 0) : ∃ text, WrittenAs inner text := by
  obtain ⟨text, htext⟩ := prefix_writeAll ⟨['('], 1⟩ inner
  have hinner (front : List Token) :
      render (front ++ .opening :: inner) = render (front ++ [.opening]) ++ text := by
    obtain ⟨d, hd⟩ := (empty.writeAll front).exists_write_opening
    have hopening : render (front ++ [.opening]) = d.text ++ ['('] := by
      rw [render, writeAll_append, writeAll_cons, hd]
      rfl
    rw [hopening, List.append_assoc, htext, render, writeAll_append, writeAll_cons, hd,
      writeAll_behind (List.cons_ne_nil _ _) rfl hn]
    rfl
  refine ⟨text, hinner, ?_⟩
  intro front rest
  have hclosed : render (front ++ .opening :: inner ++ [.closing]) =
      render (front ++ [.opening]) ++ text ++ [')'] := by
    rw [← hinner front, render, writeAll_append]
    rfl
  have hsolid : Text.EndsSolid (render (front ++ .opening :: inner ++ [.closing])) := by
    rw [hclosed]
    exact Text.EndsSolid.append ⟨')', rfl, by decide⟩ _
  -- writing goes on behind the closing parenthesis, which is not a blank
  obtain ⟨more, hmore⟩ := prefix_writeAll
    (empty.writeAll (front ++ .opening :: inner ++ [.closing])) rest
  refine ⟨Text.trimEnd more, ?_⟩
  have hwhole : render (front ++ (.opening :: inner ++ [.closing]) ++ rest) =
      render (front ++ .opening :: inner ++ [.closing]) ++ more := by
    rw [← List.append_assoc, render, writeAll_append, ← hmore]
    rfl
  rw [hwhole, hsolid.trimEnd_append, hclosed, List.append_assoc, List.append_assoc,
    List.append_assoc]
  rfl

/-! ## Surroundings -/

/-- What surrounds a group. -/
structure Surroundings where
  /-- the text that building starts from -/
  seed : Text
  /-- the calls in front of the group -/
  before : List Builder.Call
  /-- the calls behind its end; without them the group is left open -/
  behind : Option (List Builder.Call)

namespace Surroundings

variable (s : Surroundings) (es : List Edit)

/-- The builder that the group is to start in. -/
def ahead : Builder := ((Builder.ofSeed s.seed).run s.before).1

/-- Whether no half of a range is pending where the group starts. -/
def IsClear : Prop := s.ahead.hasBound = true → s.ahead.hasRange = true

instance : Decidable s.IsClear := inferInstanceAs (Decidable (_ → _))

/-- What edits in the group lead to. -/
def inside : Builder × List Warning := (s.ahead.step .startGroup).1.run (es.map .edit)

/-- The place of the start of the group where it is written. -/
def start : Nat := (s.ahead.commit []).tokens.length

/-- The place of its end, which is behind all that is pending in it. -/
def stop : Nat := ((s.inside es).1.commit []).tokens.length

/-- What is written between the two. -/
def written : List Token := ((s.inside es).1.commit []).tokens.drop (s.start + 1)

/-- The calls that follow on the edits in the group. -/
def after : List Builder.Call :=
  match s.behind with
  | none => []
  | some ks => .edit .endGroup :: ks

/-- The finished query. -/
def finished : Builder := ((s.inside es).1.run s.after).1.finish.1

/-- The place in the finished query of the token at a place, if it is kept. -/
def find (place : Nat) : Option Nat := (s.inside es).1.follow place (s.after ++ [.finish])

/-- Whether the finished query has the group behind `front`, with `inner` inside it that is written
as `text`. -/
structure ShowsBehind (inner : List Token) (text : Text) (front : List Token) : Prop where
  /-- the start of the group is kept -/
  starts : s.find es s.start = some front.length
  /-- so is its end, and what is left of the group is between them -/
  stops : s.find es (s.stop es) = some (front.length + 1 + inner.length)
  /-- the tokens that are left -/
  kept : ∃ rest, (s.finished es).tokens = front ++ (.opening :: inner ++ [.closing]) ++ rest
  /-- how the tokens inside are written where they are -/
  adds : Draft.render (front ++ .opening :: inner) = Draft.render (front ++ [.opening]) ++ text
  /-- the text of the query has that between the parentheses of the group -/
  shown : ∃ tail, (s.finished es).text = Draft.render (front ++ [.opening]) ++ text ++ ')' :: tail

/-- Whether edits in the group leave it open, and write `us` in it. -/
structure Writes (us : List Token) : Prop where
  /-- the group is open -/
  opened : (s.inside es).1.openGroups ≠ 0
  /-- the tokens behind those in front of the group are its start and `us` -/
  tokens : ((s.inside es).1.commit []).tokens = (s.ahead.commit []).tokens ++ .opening :: us

variable {s es} {us : List Token}

/-- **Inside a group** the same is warned about and written in all surroundings. -/
theorem exists_writes (hes : WellNested es) : ∃ ws us, nest 0 us = some 0 ∧
    ∀ s : Surroundings, s.IsClear → (s.inside es).2 = ws ∧ s.Writes es us := by
  have hgroup := Builder.isGroup_group.run hes
  obtain ⟨us, hus, hn⟩ := (hgroup.commit []).nested
  refine ⟨(Builder.group.run (es.map .edit)).2, us, hn, ?_⟩
  intro s hs
  have hclear : (s.ahead.hasBound && !s.ahead.hasRange) = false := by
    cases hb : s.ahead.hasBound with
    | false => rfl
    | true => rw [hs hb]; rfl
  obtain ⟨front, hstart⟩ := Builder.exists_startGroup hclear
  have hinside : s.inside es = ((Builder.group.run (es.map .edit)).1.behind front
      (s.ahead.commit []).tokens, (Builder.group.run (es.map .edit)).2) := by
    rw [inside, hstart, Builder.run_behind Builder.isGroup_group hes]
  refine ⟨by rw [hinside], ?_, ?_⟩
  · rw [hinside]
    exact Nat.ne_of_gt (Nat.add_pos_right _ hgroup.depth_pos)
  · rw [hinside, Builder.commit_behind hgroup, ← hus]
    rfl

/-- What follows on the edits in a group ends it, at the latest when the query is finished. -/
theorem exists_find (h : s.Writes es us) (hc : IsContent us inner) (hi : IsContent inner inner) :
    ∃ start stop, (s.inside es).1.follow s.start s.after = some start ∧
      (s.inside es).1.follow (s.stop es) s.after = some stop ∧
      Builder.Encloses ((s.inside es).1.run s.after).1.closedTokens inner start stop := by
  have hgroup : Builder.Encloses (((s.inside es).1.commit []).tokens ++ [.closing]) inner s.start
      (s.stop es) := by
    refine ⟨(s.ahead.commit []).tokens, us, [], ?_, hc, rfl, ?_⟩
    · rw [h.tokens, List.append_nil, List.append_assoc]
    · rw [stop, h.tokens]
      simp
      omega
  rw [after]
  cases s.behind with
  | none =>
    refine ⟨s.start, s.stop es, rfl, rfl, ?_⟩
    obtain ⟨n, hn⟩ := Nat.exists_eq_succ_of_ne_zero h.opened
    change Builder.Encloses (s.inside es).1.closedTokens _ _ _
    rw [Builder.closedTokens, hn, List.replicate_succ, List.append_cons]
    exact hgroup.append _
  | some ks =>
    have hended : Builder.Encloses ((s.inside es).1.step .endGroup).1.tokens inner s.start
        (s.stop es) := by
      rw [Builder.step_of_ok (Builder.edit_endGroup h.opened)]
      exact hgroup
    obtain ⟨start, stop, hstart, hstop, hencloses⟩ := Builder.exists_follow hended hi ks
    exact ⟨start, stop, hstart, hstop, hencloses.closedTokens⟩

theorem exists_showsBehind {text : Text} (h : s.Writes es us) (hc : IsContent us inner)
    (hi : IsContent inner inner) (ht : WrittenAs inner text) :
    ∃ front, s.ShowsBehind es inner text front := by
  obtain ⟨start, stop, hstart, hstop, hencloses⟩ := exists_find h hc hi
  obtain ⟨front, rest, htokens, hstart', hstop'⟩ := Builder.exists_follow_finish hencloses
  refine ⟨front, ?_, ?_, ⟨rest, htokens⟩, ht.adds front, ?_⟩
  · rw [find, Builder.follow_append, hstart]
    exact hstart'
  · rw [find, Builder.follow_append, hstop]
    exact hstop'
  · obtain ⟨tail, htail⟩ := ht.stays front rest
    refine ⟨tail, ?_⟩
    rw [← htail, ← htokens]
    rfl

/-- **What a group means does not depend on what surrounds it.** Edits that end every group that
they start and no other one, and that write a clause, are warned about alike in any two
surroundings, and what the finished query has between the two ends of the group is the same in both
and is written the same. -/
theorem group_alike (hes : WellNested es) {s s' : Surroundings} (hs : s.IsClear) (hs' : s'.IsClear)
    (hc : ∃ text, .clause text ∈ s.written es) :
    (s.inside es).2 = (s'.inside es).2 ∧ ∃ inner text,
      (∃ front, s.ShowsBehind es inner text front) ∧
      ∃ front, s'.ShowsBehind es inner text front := by
  obtain ⟨ws, us, hn, hinside⟩ := exists_writes hes
  obtain ⟨hws, hw⟩ := hinside s hs
  obtain ⟨hws', hw'⟩ := hinside s' hs'
  have hwritten : s.written es = us := by
    rw [written, hw.tokens, start, List.append_cons]
    simp
  rw [hwritten] at hc
  obtain ⟨inner, hcontent, hi⟩ := Builder.exists_isContent hn hc
  obtain ⟨text, ht⟩ := exists_writtenAs hi.nested
  exact ⟨hws.trans hws'.symm, inner, text, exists_showsBehind hw hcontent hi ht,
    exists_showsBehind hw' hcontent hi ht⟩

/-- A group inside another one, finished early and followed by more, and the same group left open
behind a NOT and a seed; in both, the AND that joins nothing goes. -/
theorem group_alike_finished_early :
    let terms (t : String) : Edit := .terms [.text t.toList]
    let es := [terms "a", .startGroup, .endGroup, .startGroup, terms "b c", .endGroup,
      .connect .and]
    let s : Surroundings := ⟨[], [.edit (terms "x"), .edit (.connect .or), .edit .startGroup],
      some [.finish, .edit (.connect .and), .edit (terms "y")]⟩
    let s' : Surroundings := ⟨"q".toList, [.edit (.connect .not)], none⟩
    (WellNested es ∧ s.IsClear ∧ s'.IsClear ∧ ∃ text, .clause text ∈ s.written es) ∧
      (s.finished es).text = "x OR ( (a (\"b c\"))) AND y".toList ∧
      (s'.finished es).text = "q NOT (a (\"b c\"))".toList ∧
      (s.inside es).2 = (s'.inside es).2 ∧ ∃ inner text,
        (∃ front, s.ShowsBehind es inner text front) ∧
        ∃ front, s'.ShowsBehind es inner text front := by
  intro terms es s s'
  have hes : WellNested es := rfl
  have hs : s.IsClear := by decide +kernel
  have hs' : s'.IsClear := by decide +kernel
  have hc : ∃ text, .clause text ∈ s.written es := ⟨['a'], by decide +kernel⟩
  exact ⟨⟨hes, hs, hs', hc⟩, by decide +kernel, by decide +kernel, group_alike hes hs hs' hc⟩

end Surroundings

end PortalSearch
