import PortalSearch.Proofs.Query.Finished
import PortalSearch.Proofs.Query.Groups
import PortalSearch.Query.Builder.Run

/-!
# Joints

Finishing is not to let operands run into each other: where a connective stood between two of
them, one is to be left. An operand is a floor for all that follows it, so what is left between two
of them depends on nothing but what stands there (`exists_between`), and whether a connective is
left can be told from two clauses that stand alone with it (`Joins`).

Each empty group takes one connective with it: the one in front, which is on top of those piled up
so far, or else the first one behind (`settle`). A group with a connective on one side only takes
this one, and if no other stands there, the operands on both sides run into each other.

Main result: a connective is kept between two operands exactly if pruning leaves one of what stands
between them; if that is nothing but empty groups, connectives and boosts, it is kept if each group
has a connective on both sides, and mostly only then (`connective_kept_iff`).
-/

namespace PortalSearch

open Prune

variable {α : Type}

/-- Whether a connective stands among tokens, outside of the groups among them. -/
def HasJoint (ts : List Token) : Prop :=
  ∃ ahead c behind, ts = ahead ++ .connective c :: behind ∧ nest 0 ahead = some 0

/-- Whether pruning leaves a connective of tokens between two clauses that stand alone with them. -/
def Joins (mid : List Token) : Prop :=
  ∃ left, (prune (Token.clause [] :: mid ++ [Token.clause []]).zipIdx).tokens =
    .clause [] :: left ++ [.clause []] ∧ HasJoint left

/-- An empty group between two operands, and what goes or stands behind it. -/
structure Gap where
  /-- what the group holds -/
  inner : List Token
  /-- its boost, if it has one -/
  boost : Option Text
  /-- the connectives behind it -/
  run : List Connective

/-- The tokens of a gap. -/
def Gap.tokens (g : Gap) : List Token :=
  .opening :: g.inner ++ [.closing] ++ (g.boost.map Token.boost).toList ++ g.run.map .connective

/-- What may stand between two operands: boosts of the first one, connectives, and empty groups. -/
def spread (boosts : List Text) (first : List Connective) (gaps : List Gap) : List Token :=
  boosts.map .boost ++ first.map .connective ++ gaps.flatMap Gap.tokens

/-! ## Connectives in a pile -/

/-- Connectives piled up, nearest first, when more are read: each takes those that yield to it. -/
def pile (cs run : List Connective) : List Connective :=
  run.foldl (fun cs c => c :: cs.dropWhile c.yields) cs

/-- The pile behind empty groups: each takes one connective in front, or else one behind. -/
def settle (cs : List Connective) : List (List Connective) → List Connective
  | [] => cs
  | run :: runs =>
    match cs with
    | [] => settle (pile [] run.tail) runs
    | _ :: cs => settle (pile cs run) runs

theorem pile_ne_nil {cs run : List Connective} (h : run ≠ [] ∨ cs ≠ []) : pile cs run ≠ [] := by
  induction run generalizing cs with
  | nil => exact h.resolve_left fun h0 => h0 rfl
  | cons c run ih => exact ih (.inr (List.cons_ne_nil _ _))

theorem pile_of_length_le {run : List Connective} (h : run.length ≤ 1) : pile [] run = run := by
  rcases run with _ | ⟨c, _ | ⟨d, run⟩⟩
  · rfl
  · rfl
  · simp at h

/-- With a connective in front of each empty group and behind it, one is left. -/
theorem settle_ne_nil {cs : List Connective} {runs : List (List Connective)} (hcs : cs ≠ [])
    (h : ∀ run ∈ runs, run ≠ []) : settle cs runs ≠ [] := by
  induction runs generalizing cs with
  | nil => exact hcs
  | cons run runs ih =>
    rcases cs with _ | ⟨c, cs⟩
    · exact absurd rfl hcs
    · exact ih (pile_ne_nil (.inl (h run (List.mem_cons_self ..))))
        fun run' hr => h run' (List.mem_cons_of_mem _ hr)

/-- If at most one connective stands anywhere, this is the only way that one is left. -/
theorem settle_ne_nil_iff {cs : List Connective} {runs : List (List Connective)}
    (hcs : cs.length ≤ 1) (h : ∀ run ∈ runs, run.length ≤ 1) :
    settle cs runs ≠ [] ↔ cs ≠ [] ∧ ∀ run ∈ runs, run ≠ [] := by
  refine ⟨?_, fun ⟨hne, hall⟩ => settle_ne_nil hne hall⟩
  induction runs generalizing cs with
  | nil => exact fun hne => ⟨hne, nofun⟩
  | cons run runs ih =>
    intro hne
    have hrun := h run (List.mem_cons_self ..)
    have hlater := fun run' hr => h run' (List.mem_cons_of_mem _ hr)
    -- what the group leaves is at most the connective behind it
    have hleft : ∃ cs', settle cs (run :: runs) = settle cs' runs ∧ cs'.length ≤ 1 ∧
        (cs' ≠ [] → cs ≠ [] ∧ run ≠ []) := by
      rcases run with _ | ⟨c, _ | ⟨d, run⟩⟩
      · rcases cs with _ | ⟨e, _ | ⟨f, cs⟩⟩
        · exact ⟨[], rfl, Nat.zero_le _, fun h0 => absurd rfl h0⟩
        · exact ⟨[], rfl, Nat.zero_le _, fun h0 => absurd rfl h0⟩
        · simp at hcs
      · rcases cs with _ | ⟨e, _ | ⟨f, cs⟩⟩
        · exact ⟨[], rfl, Nat.zero_le _, fun h0 => absurd rfl h0⟩
        · exact ⟨[c], rfl, Nat.le_refl _, fun _ => ⟨nofun, nofun⟩⟩
        · simp at hcs
      · simp at hrun
    obtain ⟨cs', heq, hlen, hback⟩ := hleft
    rw [heq] at hne
    obtain ⟨hcs', hall⟩ := ih hlen hlater hne
    obtain ⟨hfirst, hthis⟩ := hback hcs'
    exact ⟨hfirst, List.forall_mem_cons.mpr ⟨hthis, hall⟩⟩

theorem IsOperand.endsFirm {ts : List Token} (h : IsOperand ts) : Builder.EndsFirm ts := by
  cases h with
  | clause text => exact ⟨_, rfl, rfl, nofun⟩
  | seed text => exact ⟨_, rfl, rfl, nofun⟩
  | group hn hc => exact ⟨.closing, List.getLast?_concat, rfl, nofun⟩

namespace Reading

variable {r : Reading α} {F : List (Token × α)}

theorem Firm.leads (hF : Firm F) (c : Connective) : c.leads (top F) = false := by
  simp [Connective.leads, hF.top_ne_none, hF.top_ne_opening]

/-- Whether connectives are piled up on a floor. -/
def Piled (r : Reading α) (F : List (Token × α)) (cs : List Connective) : Prop :=
  ∃ X : List (Token × α), X.map Prod.fst = cs.map .connective ∧ r.before = X ++ F

theorem Piled.readConnective {cs : List Connective} (h : r.Piled F cs) (hF : Firm F)
    (hw : r.wake.connective = false) (c : Connective) (m : α) :
    (r.readConnective c m).Piled F (c :: cs.dropWhile c.yields) := by
  obtain ⟨X, hX, hr⟩ := h
  have hs : (shed c.yields r.before).1 = (shed c.yields X).1 ++ F := by
    rw [hr, shed_append _ _ hF.top_ne]
  have htokens : (shed c.yields X).1.map Prod.fst = (cs.dropWhile c.yields).map .connective := by
    rw [tokens_shed, hX, List.dropWhile_map]
    rfl
  have hleads : c.leads (top (shed c.yields r.before).1) = false := by
    rw [hs]
    rcases hnil : (shed c.yields X).1 with _ | ⟨⟨t, n⟩, Y⟩
    · exact hF.leads c
    · rw [hnil] at htokens
      obtain ⟨d, -, -, rfl, -⟩ := List.map_eq_cons_iff.mp htokens.symm
      rfl
  rw [readConnective_of_joins hw hleads, hs]
  exact ⟨(.connective c, m) :: (shed c.yields X).1, congrArg _ htokens, rfl⟩

/-- Connectives that are read are piled up. -/
theorem Piled.readRun {cs run : List Connective} (h : r.Piled F cs) (hF : Firm F)
    (hw : r.wake.connective = false) {us : List (Token × α)}
    (hus : us.map Prod.fst = run.map .connective) : (r.readAll us).Piled F (pile cs run) := by
  induction run generalizing r cs us with
  | nil =>
    obtain rfl := List.map_eq_nil_iff.mp hus
    exact h
  | cons c run ih =>
    obtain ⟨⟨t, m⟩, us, rfl, ht, hrun⟩ := List.map_eq_cons_iff.mp hus
    obtain rfl : t = .connective c := ht
    refine ih (h.readConnective hF hw c m) ?_ hrun
    rw [wake_readConnective]
    rfl

/-- What goes with an empty group is no boost any more once one is read. -/
theorem readAll_boost (hw : r.wake.boost = true) {boost : Option Text} {us : List (Token × α)}
    (hus : us.map Prod.fst = (boost.map Token.boost).toList) :
    (r.readAll us).before = r.before ∧ (r.readAll us).wake.connective = r.wake.connective := by
  cases boost with
  | none =>
    obtain rfl := List.map_eq_nil_iff.mp hus
    exact ⟨rfl, rfl⟩
  | some factor =>
    obtain ⟨⟨t, m⟩, rfl, ht⟩ := List.map_eq_singleton_iff.mp hus
    obtain rfl : t = .boost factor := ht
    rw [readAll_cons, readAll_nil, read, if_pos hw]
    exact ⟨rfl, rfl⟩

/-- Behind an empty group that has taken no connective in front, the first one goes. -/
theorem Piled.readRun_tail {run : List Connective} (h : r.Piled F []) (hF : Firm F)
    (hw : r.wake.connective = true) {us : List (Token × α)}
    (hus : us.map Prod.fst = run.map .connective) : (r.readAll us).Piled F (pile [] run.tail) := by
  cases run with
  | nil =>
    obtain rfl := List.map_eq_nil_iff.mp hus
    exact h
  | cons c run =>
    obtain ⟨⟨t, m⟩, us, rfl, ht, hrun⟩ := List.map_eq_cons_iff.mp hus
    obtain rfl : t = .connective c := ht
    rw [readAll_cons, read_connective, readConnective_of_wake hw]
    exact Piled.readRun (r := { r with wake := .none, dropped := r.dropped ++ [c] }) h hF rfl hrun

/-- An empty group takes a connective off the pile, or else the first one behind it. -/
theorem Piled.readGap {cs : List Connective} (h : r.Piled F cs) (hF : Firm F) {g : Gap}
    (hg : Hollow g.inner) {us : List (Token × α)} (hus : us.map Prod.fst = g.tokens)
    (runs : List (List Connective)) :
    ∃ cs', (r.readAll us).Piled F cs' ∧ settle cs (g.run :: runs) = settle cs' runs := by
  obtain ⟨vs, runs', rfl, hvs, hrun⟩ := List.map_eq_append_iff.mp hus
  obtain ⟨group, boosts, rfl, hgroup, hboost⟩ := List.map_eq_append_iff.mp hvs
  have hgroup : group.map Prod.fst = [] ++ .opening :: g.inner ++ [.closing] := hgroup
  obtain ⟨as, m, is, n, rfl, has, his⟩ := exists_group_of_map hgroup
  obtain rfl := List.map_eq_nil_iff.mp has
  rw [← his] at hg
  have he := emptied_of_hollow hg r m n
  obtain ⟨hbefore, hwake⟩ := readAll_boost he.wake_boost hboost
  obtain ⟨X, hX, hr⟩ := h
  rw [List.nil_append, readAll_append, readAll_append]
  obtain ⟨⟨c, a, hfront⟩, hw⟩ | ⟨hbare, hsame, hw⟩ := he
  · -- the connective on top of the pile goes
    rcases X with _ | ⟨t, X⟩
    · exact absurd (congrArg top (hr.symm.trans hfront)) (hF.top_ne c)
    · obtain ⟨d, cs, rfl, -, hcs⟩ := List.map_eq_cons_iff.mp hX.symm
      obtain ⟨-, hrest⟩ := List.cons.inj (hr.symm.trans hfront)
      refine ⟨pile cs g.run, ?_, rfl⟩
      refine Piled.readRun ⟨X, hcs.symm, hbefore.trans hrest.symm⟩ hF ?_ hrun
      rw [hwake, hw]
  · -- there is none, so the first one behind goes
    rcases X with _ | ⟨⟨t, k⟩, X⟩
    · obtain rfl := List.map_eq_nil_iff.mp hX.symm
      refine ⟨pile [] g.run.tail, ?_, rfl⟩
      refine Piled.readRun_tail ⟨[], rfl, hbefore.trans (hsame.trans hr)⟩ hF ?_ hrun
      rw [hwake, hw]
    · obtain ⟨d, cs, rfl, ht, -⟩ := List.map_eq_cons_iff.mp hX.symm
      rw [hr] at hbare
      exact absurd (congrArg some ht.symm) (hbare d)

/-- What is left of a spread. -/
theorem Piled.readGaps {cs : List Connective} (h : r.Piled F cs) (hF : Firm F) {gaps : List Gap}
    (hg : ∀ g ∈ gaps, Hollow g.inner) {us : List (Token × α)}
    (hus : us.map Prod.fst = gaps.flatMap Gap.tokens) :
    (r.readAll us).Piled F (settle cs (gaps.map Gap.run)) := by
  induction gaps generalizing r cs us with
  | nil =>
    obtain rfl := List.map_eq_nil_iff.mp hus
    exact h
  | cons g gaps ih =>
    rw [List.flatMap_cons] at hus
    obtain ⟨vs, ws, rfl, hvs, hws⟩ := List.map_eq_append_iff.mp hus
    obtain ⟨cs', hcs', heq⟩ := h.readGap hF (hg g (List.mem_cons_self ..)) hvs (gaps.map Gap.run)
    rw [readAll_append, List.map_cons, heq]
    exact ih hcs' (fun g' hg' => hg g' (List.mem_cons_of_mem _ hg')) hws

/-! ## What is left between two operands -/

/-- What pruning leaves between two clauses that stand alone is what reading puts on the first. -/
theorem joins_iff {mid : List Token} {Y : List (Token × Nat)}
    (h : (((start.push (.clause [], 0)).readAll (mid.zipIdx 1))).before = Y ++ [(.clause [], 0)]) :
    Joins mid ↔ HasJoint (Y.map Prod.fst).reverse := by
  have htokens : (prune (Token.clause [] :: mid ++ [Token.clause []]).zipIdx).tokens =
      .clause [] :: (Y.map Prod.fst).reverse ++ [.clause []] := by
    have hread : (start.readAll (Token.clause [] :: mid ++ [Token.clause []]).zipIdx).before =
        [] ++ (.clause [], 0 + 1 + mid.length) :: (Y ++ [(.clause [], 0)]) := by
      rw [zipIdx_enclosed, List.cons_append, readAll_cons, readAll_append, ← h]
      rfl
    rw [prune_eq_outcome, tokens_outcome (top_cons_ne rfl _ _) hread]
    simp
  rw [Joins, htokens]
  constructor
  · rintro ⟨left, hleft, hj⟩
    rwa [List.cons.inj (List.append_cancel_right hleft) |>.2]
  · exact fun hj => ⟨_, rfl, hj⟩

/-- Boosts on a firm floor are part of it. -/
theorem Firm.boosts (hF : Firm F) {boosts : List Text} {us : List (Token × α)}
    (hus : us.map Prod.fst = boosts.map .boost) : Firm (us.reverse ++ F) := by
  induction boosts generalizing F us with
  | nil =>
    obtain rfl := List.map_eq_nil_iff.mp hus
    exact hF
  | cons factor boosts ih =>
    obtain ⟨⟨t, m⟩, us, rfl, ht, hrest⟩ := List.map_eq_cons_iff.mp hus
    obtain rfl : t = .boost factor := ht
    have hfirm : Firm ((.boost factor, m) :: F) := ⟨.boost factor, rfl, rfl, nofun⟩
    rw [List.reverse_cons, List.append_assoc, List.singleton_append]
    exact ih hfirm hrest

/-- Boosts are put on top. -/
theorem readAll_boosts (hw : r.wake = .none) {boosts : List Text} {us : List (Token × α)}
    (hus : us.map Prod.fst = boosts.map .boost) :
    (r.readAll us).before = us.reverse ++ r.before ∧ (r.readAll us).wake = .none := by
  induction boosts generalizing r us with
  | nil =>
    obtain rfl := List.map_eq_nil_iff.mp hus
    exact ⟨rfl, hw⟩
  | cons factor boosts ih =>
    obtain ⟨⟨t, m⟩, us, rfl, ht, hrest⟩ := List.map_eq_cons_iff.mp hus
    obtain rfl : t = .boost factor := ht
    have hb : r.wake.boost = false := by rw [hw]; rfl
    have hpush : r.read (.boost factor, m) = r.push (.boost factor, m) := by simp [read, hb]
    obtain ⟨hbefore, hwake⟩ := ih (r := r.push (.boost factor, m)) rfl hrest
    rw [readAll_cons, hpush, hbefore]
    exact ⟨by simp, hwake⟩

/-- **Above any firm floor** the same is left of tokens. -/
theorem exists_between (hF : Firm F) (h : r.before = F) (hw : r.wake = .none)
    (ts : List (Token × α)) :
    ∃ X, (r.readAll ts).before = X ++ F ∧ X.Sublist ts.reverse ∧
      (HasJoint (X.map Prod.fst).reverse ↔ Joins (ts.map Prod.fst)) := by
  have hG : Firm [(Token.clause [], 0)] := ⟨.clause [], rfl, rfl, nofun⟩
  have ha : Alike F [(Token.clause [], 0)] [] r (start.push (.clause [], 0)) :=
    ⟨⟨[], rfl, h⟩, ⟨[], rfl, rfl⟩, hw⟩
  obtain ⟨V, ⟨⟨X, hX, hr⟩, ⟨Y, hY, hs⟩, -⟩, -⟩ := ha.readAll (level_of_firm hF hG)
    (show ts.map Prod.fst = ((ts.map Prod.fst).zipIdx 1).map Prod.fst by rw [List.zipIdx_map_fst])
    fun ho => absurd ho hF.top_ne_opening
  refine ⟨X, hr, ?_, ?_⟩
  · have hsub := r.sublist_readAll ts
    rwa [hr, h, List.append_sublist_append_right] at hsub
  · rw [joins_iff hs, hX, hY]

/-- An operand makes a firm floor. -/
theorem firm_of_operand {V ts : List (Token × α)} (h : IsOperand (ts.map Prod.fst))
    (hV : V.getLast? = ts.getLast?) (F : List (Token × α)) : Firm (V.reverse ++ F) := by
  obtain ⟨t, ht, hc, ho⟩ := h.endsFirm
  refine ⟨t, ?_, hc, ho⟩
  rw [List.getLast?_map, ← hV] at ht
  obtain ⟨u, hu, rfl⟩ := Option.map_eq_some_iff.mp ht
  obtain ⟨W, rfl⟩ := List.getLast?_eq_some_iff.mp hu
  simp [top]

end Reading

namespace Builder

/-- Whether some of the tokens are left, among them the first and the last one. -/
structure KeepsEnds (left ts : List (Token × Nat)) : Prop where
  /-- all of them were there -/
  sublist : left.Sublist ts
  /-- the first one is left -/
  head : left.head? = ts.head?
  /-- the last one is -/
  last : left.getLast? = ts.getLast?

/-- What pruning keeps of two operands and of what stands between them. -/
theorem exists_kept_operands {x y : List Token} (hx : IsOperand x) (hy : IsOperand y)
    (front mid behind : List Token) :
    ∃ A X M Y B, (prune (front ++ x ++ mid ++ y ++ behind).zipIdx).kept = A ++ X ++ M ++ Y ++ B ∧
      KeepsEnds X (x.zipIdx front.length) ∧ M.Sublist (mid.zipIdx (front ++ x).length) ∧
      KeepsEnds Y (y.zipIdx (front ++ x ++ mid).length) ∧
      (HasJoint (M.map Prod.fst) ↔ Joins mid) := by
  have hx' : IsOperand ((x.zipIdx front.length).map Prod.fst) := by rwa [List.zipIdx_map_fst]
  have hy' : IsOperand ((y.zipIdx (front ++ x ++ mid).length).map Prod.fst) := by
    rwa [List.zipIdx_map_fst]
  obtain ⟨X, hX, hw, hXsub, hXhead, hXlast⟩ :=
    Reading.exists_readAll_operand hx' (Reading.start.readAll front.zipIdx)
  have hF := Reading.firm_of_operand hx' hXlast (Reading.start.readAll front.zipIdx).before
  obtain ⟨M, hM, hMsub, hjoint⟩ :=
    Reading.exists_between hF hX hw (mid.zipIdx (front ++ x).length)
  obtain ⟨Y, hY, -, hYsub, hYhead, hYlast⟩ := Reading.exists_readAll_operand hy'
    (((Reading.start.readAll front.zipIdx).readAll (x.zipIdx front.length)).readAll
      (mid.zipIdx (front ++ x).length))
  -- the second operand is a floor for what stands behind it
  have hG := Reading.firm_of_operand hy' hYlast (((Reading.start.readAll front.zipIdx).readAll
    (x.zipIdx front.length)).readAll (mid.zipIdx (front ++ x).length)).before
  obtain ⟨Z, hZ⟩ := Reading.exists_above hG.top_ne hY
    (behind.zipIdx (front ++ x ++ mid ++ y).length) fun ho => absurd ho hG.top_ne_opening
  obtain ⟨B, hB⟩ := Reading.exists_kept hG.top_ne hZ
  refine ⟨(Reading.start.readAll front.zipIdx).before.reverse, X, M.reverse, Y, B, ?_,
    ⟨hXsub, hXhead, hXlast⟩, ?_, ⟨hYsub, hYhead, hYlast⟩, ?_⟩
  · rw [prune_eq_outcome]
    simp only [List.zipIdx_append, Reading.readAll_append, Nat.zero_add]
    rw [hB, hM]
    simp
  · have hrev := hMsub.reverse
    rwa [List.reverse_reverse] at hrev
  · rw [List.map_reverse, hjoint, List.zipIdx_map_fst]

theorem KeepsEnds.ne_nil {left : List (Token × Nat)} {ts : List Token} {k : Nat}
    (h : KeepsEnds left (ts.zipIdx k)) (hts : IsOperand ts) : left ≠ [] := by
  rintro rfl
  have hnil : ts.zipIdx k = [] := List.head?_eq_none_iff.mp h.head.symm
  exact hts.endsFirm.ne_nil (List.zipIdx_eq_nil_iff.mp hnil)

/-! ## Empty groups between operands -/

theorem hasJoint_iff (boosts : List Text) (cs : List Connective) :
    HasJoint (boosts.map .boost ++ cs.map .connective) ↔ cs ≠ [] := by
  constructor
  · rintro ⟨ahead, c, behind, h, -⟩ rfl
    rw [List.map_nil, List.append_nil] at h
    have hmem : Token.connective c ∈ boosts.map Token.boost := by simp [h]
    simp at hmem
  · intro hne
    obtain ⟨c, cs, rfl⟩ := List.exists_cons_of_ne_nil hne
    refine ⟨boosts.map .boost, c, cs.map .connective, rfl, ?_⟩
    induction boosts with
    | nil => rfl
    | cons factor boosts ih => exact ih

/-- Between two operands with nothing but boosts of the first, connectives and empty groups, a
connective is left exactly if one is left on the pile. -/
theorem joins_spread_iff (boosts : List Text) (first : List Connective) {gaps : List Gap}
    (h : ∀ g ∈ gaps, Hollow g.inner) :
    Joins (spread boosts first gaps) ↔ settle (pile [] first) (gaps.map Gap.run) ≠ [] := by
  have hmap : ((spread boosts first gaps).zipIdx 1).map Prod.fst = spread boosts first gaps :=
    List.zipIdx_map_fst ..
  obtain ⟨us, gs, hus, hfront, hgs⟩ := List.map_eq_append_iff.mp hmap
  obtain ⟨bs, fs, rfl, hbs, hfs⟩ := List.map_eq_append_iff.mp hfront
  -- the boosts stay on the clause in front, and are a floor with it
  have hread := Reading.readAll_boosts (r := Reading.start.push (.clause [], 0)) rfl hbs
  have hF : Reading.Firm (bs.reverse ++ [(Token.clause [], 0)]) :=
    Reading.Firm.boosts ⟨.clause [], rfl, rfl, nofun⟩ hbs
  have hfirst : (((Reading.start.push (.clause [], 0)).readAll bs).readAll fs).Piled
      (bs.reverse ++ [(.clause [], 0)]) (pile [] first) :=
    Reading.Piled.readRun ⟨[], rfl, hread.1⟩ hF (by rw [hread.2]; rfl) hfs
  obtain ⟨X, hX, hr⟩ := hfirst.readGaps hF h hgs
  have hbefore : ((Reading.start.push (.clause [], 0)).readAll
      ((spread boosts first gaps).zipIdx 1)).before =
        (X ++ bs.reverse) ++ [(.clause [], 0)] := by
    rw [hus, Reading.readAll_append, Reading.readAll_append, hr, List.append_assoc]
  rw [Reading.joins_iff hbefore, List.map_append, List.map_reverse, List.reverse_append,
    List.reverse_reverse, hbs, hX, ← List.map_reverse, hasJoint_iff]
  exact not_congr List.reverse_eq_nil_iff

/-- With a connective in front of every empty group and behind it, one is left; and if at most one
stands in each of these places, only then. -/
theorem joins_of_places (boosts : List Text) (first : List Connective) {gaps : List Gap}
    (h : ∀ g ∈ gaps, Hollow g.inner) :
    ((∀ run ∈ first :: gaps.map Gap.run, run ≠ []) → Joins (spread boosts first gaps)) ∧
      ((∀ run ∈ first :: gaps.map Gap.run, run.length ≤ 1) → Joins (spread boosts first gaps) →
        ∀ run ∈ first :: gaps.map Gap.run, run ≠ []) := by
  rw [joins_spread_iff boosts first h]
  constructor
  · intro hall
    obtain ⟨hfirst, hruns⟩ := List.forall_mem_cons.mp hall
    exact settle_ne_nil (pile_ne_nil (.inl hfirst)) hruns
  · intro hone hleft
    obtain ⟨hfirst, hruns⟩ := List.forall_mem_cons.mp hone
    rw [pile_of_length_le hfirst, settle_ne_nil_iff hfirst hruns] at hleft
    exact List.forall_mem_cons.mpr hleft

/-- **A connective is kept** between two operands exactly if pruning leaves one of what stands
between them, wherever the two stand and whichever they are. If that is nothing but empty groups,
boosts of the first operand and connectives, one is kept if there is one in front of every empty
group and behind it, and, with at most one in each of these places, only then. -/
theorem connective_kept_iff (b : Builder) {front x mid y behind : List Token}
    (h : b.closedTokens = front ++ x ++ mid ++ y ++ behind) (hx : IsOperand x) (hy : IsOperand y) :
    ∃ A X M Y B, (clean b.closedTokens).kept = A ++ X ++ M ++ Y ++ B ∧
      KeepsEnds X (x.zipIdx front.length) ∧ M.Sublist (mid.zipIdx (front ++ x).length) ∧
      KeepsEnds Y (y.zipIdx (front ++ x ++ mid).length) ∧
      (HasJoint (M.map Prod.fst) ↔ Joins mid) ∧
      ∀ boosts first gaps, mid = spread boosts first gaps → (∀ g ∈ gaps, Hollow g.inner) →
        ((∀ run ∈ first :: gaps.map Gap.run, run ≠ []) → HasJoint (M.map Prod.fst)) ∧
        ((∀ run ∈ first :: gaps.map Gap.run, run.length ≤ 1) → HasJoint (M.map Prod.fst) →
          ∀ run ∈ first :: gaps.map Gap.run, run ≠ []) := by
  obtain ⟨A, X, M, Y, B, hkept, hX, hM, hY, hjoint⟩ := exists_kept_operands hx hy front mid behind
  rw [← h] at hkept
  refine ⟨A, X, M, Y, B, ?_, hX, hM, hY, hjoint, ?_⟩
  · obtain ⟨seed, place, hseed, -⟩ | ⟨-, hc⟩ := clean_cases b.closedTokens
    · -- two operands are kept, so a seed does not stand alone
      have hlen := congrArg List.length (hkept.symm.trans hseed)
      have hX0 := List.length_pos_iff.mpr (hX.ne_nil hx)
      have hY0 := List.length_pos_iff.mpr (hY.ne_nil hy)
      simp only [List.length_append, List.length_singleton] at hlen
      omega
    · rw [hc, hkept]
  · rintro boosts first gaps rfl hg
    rw [hjoint]
    exact joins_of_places boosts first hg

/-- With an AND in front of the empty group and an OR behind it, the OR is kept. -/
theorem connective_kept_behind_group :
    let terms (c : Char) : Call := .edit (.terms [.text [c]])
    let calls : List Call := [terms 'a', .edit (.connect .and), .edit .startGroup, .edit .endGroup,
      .edit (.connect .or), terms 'b']
    let b := ((ofSeed []).run calls).1
    let mid : List Token := [.connective .and, .opening, .closing, .connective .or]
    b.closedTokens = [] ++ [.clause ['a']] ++ mid ++ [.clause ['b']] ++ [] ∧
      IsOperand [.clause ['a']] ∧ IsOperand [.clause ['b']] ∧
      (∃ A X M Y B, (clean b.closedTokens).kept = A ++ X ++ M ++ Y ++ B ∧
        KeepsEnds X ([Token.clause ['a']].zipIdx 0) ∧ KeepsEnds Y ([Token.clause ['b']].zipIdx 5) ∧
        HasJoint (M.map Prod.fst)) ∧
      b.finish.1.text = "a OR b".toList := by
  intro terms calls b mid
  have hts : b.closedTokens = [] ++ [.clause ['a']] ++ mid ++ [.clause ['b']] ++ [] := by
    decide +kernel
  obtain ⟨A, X, M, Y, B, hkept, hX, -, hY, -, hplaces⟩ :=
    connective_kept_iff b hts (.clause ['a']) (.clause ['b'])
  have hjoint := (hplaces [] [.and] [⟨[], none, [.or]⟩] rfl (by simpa using Hollow.nil)).1 (by simp)
  exact ⟨hts, .clause _, .clause _, ⟨A, X, M, Y, B, hkept, hX, hY, hjoint⟩, by decide +kernel⟩

/-- With no connective in front, an empty group takes the one behind it, and the clauses on both
sides run into each other. -/
theorem connective_lost_behind_empty_group :
    let terms (c : Char) : Call := .edit (.terms [.text [c]])
    let b := ((ofSeed []).run [terms 'a', .edit (.field none), .edit .startGroup, .edit .endGroup,
      .edit (.connect .and), terms 'b']).1
    b.closedTokens = [.clause ['a'], .opening, .closing, .connective .and, .clause ['b']] ∧
      HasJoint [.opening, .closing, .connective .and] ∧
      (clean b.closedTokens).kept = [(.clause ['a'], 0), (.clause ['b'], 4)] ∧
      b.finish.1.text = "ab".toList := by
  intro terms b
  refine ⟨by decide +kernel, ⟨[.opening, .closing], .and, [], rfl, rfl⟩, ?_, by decide +kernel⟩
  decide +kernel

end Builder

end PortalSearch
