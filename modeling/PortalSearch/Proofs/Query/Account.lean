import PortalSearch.Proofs.Query.Finished
import PortalSearch.Proofs.Query.Groups
import PortalSearch.Proofs.Query.Words

/-!
# What finishing takes out

Finishing tells in one warning how many empty groups it took out and which connectives. Reading
accounts for every token that it passes: the token is put on top of what is left, or it is told of,
or it is a boost or the end of a group that goes with its start (`Reading.accounts_read`). Trimming
a seed accounts for the words that it cuts off (`connectives_seed`).

Main result: what is kept stands in its order, a seed at the end perhaps cut; it holds every clause,
and every group around one with its own ends; and the warning names exactly the connectives that are
gone and counts exactly the groups (`reports_finish`).
-/

namespace PortalSearch

open Prune

variable {α : Type}

/-- Whether a token is a clause. -/
def Token.isClause : Token → Bool
  | .clause _ => true
  | .seed _ | .boost _ | .connective _ | .opening | .closing => false

/-- The connectives that stand in a token: itself, or words of what building started from. -/
def Token.connectives : Token → List Connective
  | .connective c => [c]
  | .seed text => (Text.words text).filterMap Connective.ofWord?
  | .clause _ | .boost _ | .opening | .closing => []

/-- The connectives that stand in some tokens. -/
def connectivesOf (ts : List Token) : List Connective := ts.flatMap Token.connectives

@[simp] theorem connectivesOf_nil : connectivesOf [] = [] := rfl

@[simp] theorem connectivesOf_cons (t : Token) (ts : List Token) :
    connectivesOf (t :: ts) = t.connectives ++ connectivesOf ts := List.flatMap_cons

@[simp] theorem connectivesOf_append (ts us : List Token) :
    connectivesOf (ts ++ us) = connectivesOf ts ++ connectivesOf us := List.flatMap_append

/-- The clauses among some tokens, with their marks. -/
def clausesOf (ts : List (Token × α)) : List (Token × α) := ts.filter fun t => t.1.isClause

@[simp] theorem clausesOf_append (ts us : List (Token × α)) :
    clausesOf (ts ++ us) = clausesOf ts ++ clausesOf us := List.filter_append ..

/-- Whether what is left and what was taken out accounts for all that there was: every clause is
left, and every connective and every group that is not is told of. -/
structure Pruned.Accounts (p : Pruned α) (ts : List (Token × α)) : Prop where
  /-- the clauses are left, in their order -/
  clauses : clausesOf p.kept = clausesOf ts
  /-- a connective is left or told of -/
  connectives : ∀ c, (connectivesOf (ts.map Prod.fst)).count c =
    (connectivesOf p.tokens).count c + p.dropped.count c
  /-- a group is left or counted -/
  groups : (ts.map Prod.fst).count .opening = p.tokens.count .opening + p.groups

namespace Pruned.Accounts

variable {p : Pruned α} {ts : List (Token × α)}

theorem perm (h : p.Accounts ts) :
    (connectivesOf (ts.map Prod.fst)).Perm (connectivesOf p.tokens ++ p.dropped) := by
  apply List.perm_iff_count.mpr
  intro c
  rw [h.connectives, List.count_append]

theorem dropped_ne_nil_iff (h : p.Accounts ts) : p.dropped ≠ [] ↔
    ∃ c, (connectivesOf p.tokens).count c < (connectivesOf (ts.map Prod.fst)).count c := by
  simp only [h.connectives, Nat.lt_add_right_iff_pos, List.count_pos_iff]
  exact ⟨List.exists_mem_of_ne_nil _, fun ⟨_, hc⟩ => List.ne_nil_of_mem hc⟩

theorem groups_ne_zero_iff (h : p.Accounts ts) :
    p.groups ≠ 0 ↔ p.tokens.count .opening < (ts.map Prod.fst).count .opening := by
  rw [h.groups]
  omega

end Pruned.Accounts

/-! ## Reading accounts for what it takes out -/

namespace Reading

/-- What is left so far, and what was taken out. -/
def soFar (r : Reading α) : Pruned α := ⟨r.before.reverse, r.dropped, r.groups⟩

variable {r : Reading α} {ts before : List (Token × α)} {c : Connective} {m : α}
  {dropped : List Connective} {groups : Nat}

theorem accounts_start : (start : Reading α).soFar.Accounts [] := ⟨rfl, fun _ => rfl, rfl⟩

/-- A token that is put on top is left. -/
theorem accounts_push (h : r.soFar.Accounts ts) (t : Token × α) :
    (r.push t).soFar.Accounts (ts ++ [t]) := by
  obtain ⟨hclauses, hconnectives, hgroups⟩ := h
  simp only [soFar, Pruned.tokens] at hclauses hconnectives hgroups
  refine ⟨?_, ?_, ?_⟩
  · simp [soFar, push, hclauses]
  · intro c
    have hc := hconnectives c
    simp [soFar, push, Pruned.tokens, hc]
    omega
  · simp [soFar, push, Pruned.tokens, hgroups]
    omega

/-- A boost may be left out. -/
theorem accounts_skip {p : Pruned α} (h : p.Accounts ts) (factor : Text) (m : α) :
    p.Accounts (ts ++ [(.boost factor, m)]) := by
  obtain ⟨hclauses, hconnectives, hgroups⟩ := h
  refine ⟨?_, ?_, ?_⟩
  · simpa [clausesOf, Token.isClause] using hclauses
  · simpa [Token.connectives] using hconnectives
  · simpa using hgroups

/-- A connective that goes from the top is told of. -/
theorem accounts_drop
    (h : Pruned.Accounts ⟨((.connective c, m) :: before).reverse, dropped, groups⟩ ts) :
    Pruned.Accounts ⟨before.reverse, dropped ++ [c], groups⟩ ts := by
  obtain ⟨hclauses, hconnectives, hgroups⟩ := h
  simp only [Pruned.tokens] at hclauses hconnectives hgroups
  refine ⟨?_, ?_, ?_⟩
  · simpa [clausesOf, Token.isClause] using hclauses
  · intro d
    have hd := hconnectives d
    simp [Pruned.tokens, Token.connectives] at hd ⊢
    omega
  · simpa [Pruned.tokens] using hgroups

/-- So are all that go from the top. -/
theorem accounts_shed (p : Connective → Bool)
    (h : Pruned.Accounts ⟨before.reverse, dropped, groups⟩ ts) :
    Pruned.Accounts ⟨(shed p before).1.reverse, dropped ++ (shed p before).2, groups⟩ ts := by
  fun_induction shed p before generalizing dropped with
  | case1 c m before hp ih =>
    rw [List.append_cons]
    exact ih (accounts_drop h)
  | case2 => simpa using h
  | case3 => simpa using h

/-- A group whose start goes from the top as it ends is counted. -/
theorem accounts_closing
    (h : Pruned.Accounts ⟨((.opening, m) :: before).reverse, dropped, groups⟩ ts) (n : α) :
    Pruned.Accounts ⟨before.reverse, dropped, groups + 1⟩ (ts ++ [(.closing, n)]) := by
  obtain ⟨hclauses, hconnectives, hgroups⟩ := h
  simp only [Pruned.tokens] at hclauses hconnectives hgroups
  refine ⟨?_, ?_, ?_⟩
  · simpa [clausesOf, Token.isClause] using hclauses
  · simpa [Pruned.tokens, Token.connectives] using hconnectives
  · simp [Pruned.tokens] at hgroups ⊢
    omega

theorem accounts_readConnective (h : r.soFar.Accounts ts) (c : Connective) (m : α) :
    (r.readConnective c m).soFar.Accounts (ts ++ [(.connective c, m)]) := by
  cases hw : r.wake.connective with
  | true =>
    rw [readConnective_of_wake hw]
    exact accounts_drop (accounts_push h (.connective c, m))
  | false =>
    have hs := accounts_push (r := ⟨_, .none, _, _⟩) (accounts_shed c.yields h) (.connective c, m)
    cases hl : c.leads (top (shed c.yields r.before).1) with
    | true =>
      rw [readConnective_of_leads hw hl]
      exact accounts_drop hs
    | false =>
      rw [readConnective_of_joins hw hl]
      exact hs

theorem accounts_readClosing (h : r.soFar.Accounts ts) (n : α) :
    (r.readClosing n).soFar.Accounts (ts ++ [(.closing, n)]) := by
  have hs := accounts_shed (fun _ => true) h
  obtain ⟨m, c, m', below, hb⟩ | ⟨m, below, hb, hc⟩ | hb := top_cases (shedAll r.before).1
  · rw [readClosing_of_front hb]
    rw [hb] at hs
    exact accounts_drop (accounts_closing hs n)
  · rw [readClosing_of_bare hb hc]
    rw [hb] at hs
    exact accounts_closing hs n
  · rw [readClosing_of_held hb]
    exact accounts_push (r := ⟨_, .none, _, _⟩) hs (.closing, n)

/-- One more token is accounted for. -/
theorem accounts_read (h : r.soFar.Accounts ts) (t : Token × α) :
    (r.read t).soFar.Accounts (ts ++ [t]) := by
  obtain ⟨t, m⟩ := t
  cases t with
  | connective c => exact accounts_readConnective h c m
  | closing => exact accounts_readClosing h m
  | boost factor =>
    cases hw : r.wake.boost with
    | true =>
      rw [read, if_pos hw]
      exact accounts_skip h factor m
    | false =>
      rw [read, if_neg (by simp [hw])]
      exact accounts_push h (.boost factor, m)
  | seed _ | clause _ | opening => exact accounts_push h (_, m)

theorem accounts_readAll (h : r.soFar.Accounts ts) (us : List (Token × α)) :
    (r.readAll us).soFar.Accounts (ts ++ us) := by
  induction us generalizing r ts with
  | nil => simpa using h
  | cons u us ih =>
    rw [List.append_cons]
    exact ih (accounts_read h u)

end Reading

/-- **Pruning accounts** for what it takes out. -/
theorem accounts_prune (ts : List (Token × α)) : (prune ts).Accounts ts := by
  rw [prune_eq_outcome]
  exact Reading.accounts_shed _ (Reading.accounts_readAll Reading.accounts_start ts)

/-! ## Seeds -/

/-- Trimming a seed accounts for the connectives in it. -/
theorem connectives_seed (seed : Text) : (Token.seed seed).connectives =
    (Token.seed (Seed.trim seed).1).connectives ++ (Seed.trim seed).2 := by
  have hwords : (Seed.trim seed).2.filterMap (Connective.ofWord? ∘ Connective.word) =
      (Seed.trim seed).2 := by
    rw [show Connective.ofWord? ∘ Connective.word = some from funext Seed.ofWord_word]
    exact List.filterMap_some
  rw [Token.connectives, Seed.words_trim, List.filterMap_append, List.filterMap_map, hwords]
  rfl

theorem accounts_trim {seed : Text} {place : α} {dropped : List Connective} {groups : Nat}
    {ts : List (Token × α)} (h : Pruned.Accounts ⟨[(.seed seed, place)], dropped, groups⟩ ts) :
    Pruned.Accounts
      ⟨if (Seed.trim seed).1 = [] then [] else [(.seed (Seed.trim seed).1, place)],
        dropped ++ (Seed.trim seed).2, groups⟩ ts := by
  obtain ⟨hclauses, hconnectives, hgroups⟩ := h
  split
  · next hnil =>
    have hcut : (Token.seed seed).connectives = (Seed.trim seed).2 := by
      rw [connectives_seed, hnil]
      rfl
    refine ⟨hclauses, ?_, hgroups⟩
    intro c
    rw [hconnectives c]
    simp [Pruned.tokens, hcut]
    omega
  · refine ⟨hclauses, ?_, hgroups⟩
    intro c
    rw [hconnectives c]
    simp [Pruned.tokens, connectives_seed seed]
    omega

namespace Builder

/-- **Finishing accounts** for what it takes out. -/
theorem accounts_clean (ts : List Token) : (clean ts).Accounts ts.zipIdx := by
  have hp := accounts_prune ts.zipIdx
  obtain ⟨seed, place, hseed, hc⟩ | ⟨-, hc⟩ := clean_cases ts
  · rw [hc]
    apply accounts_trim
    rw [← hseed]
    exact hp
  · rw [hc]
    exact hp

/-- Every clause is kept. -/
theorem mem_clean_of_clause {ts : List Token} {text : Text} (h : .clause text ∈ ts) :
    .clause text ∈ (clean ts).tokens := by
  have hmarked : .clause text ∈ ts.zipIdx.map Prod.fst := by
    rw [List.zipIdx_map_fst]
    exact h
  obtain ⟨t, ht, hfst⟩ := List.mem_map.mp hmarked
  have hclause : t ∈ clausesOf ts.zipIdx := List.mem_filter.mpr ⟨ht, by rw [hfst]; rfl⟩
  rw [← (accounts_clean ts).clauses] at hclause
  rw [← hfst]
  exact List.mem_map_of_mem (List.mem_of_mem_filter hclause)

/-! ## What is kept, and what is told -/

/-- Whether tokens are left as they are, or connectives are cut off a seed at their end. -/
inductive CutEnd : List (Token × Nat) → List (Token × Nat) → Prop
  /-- nothing is cut off -/
  | whole (ts : List (Token × Nat)) : CutEnd ts ts
  /-- the last words are, and they are connectives -/
  | short (front : List (Token × Nat)) (place : Nat) {text tail : Text} {cs : List Connective}
    (h : Text.words (text ++ tail) = Text.words text ++ cs.map Connective.word) :
    CutEnd (front ++ [(.seed (text ++ tail), place)]) (front ++ [(.seed text, place)])
  /-- there is no other word, and the seed is gone -/
  | gone (front : List (Token × Nat)) (place : Nat) {text : Text} {cs : List Connective}
    (h : Text.words text = cs.map Connective.word) :
    CutEnd (front ++ [(.seed text, place)]) front

/-- Whether finishing `ts` keeps what it should, and tells of the rest in its warnings `ws`. -/
structure Reports (ts : List Token) (kept : List (Token × Nat)) (ws : List Warning) : Prop where
  /-- what is kept was there in the same order, a seed at the end perhaps with more words -/
  order : ∃ left, left.Sublist ts.zipIdx ∧ CutEnd left kept
  /-- every clause is kept -/
  clauses : clausesOf kept = clausesOf ts.zipIdx
  /-- every group that holds a clause is kept with its own ends -/
  groups : ∀ ahead inner behind, ts = ahead ++ (.opening :: inner ++ [.closing]) ++ behind →
    nest 0 inner = some 0 → (∃ text, .clause text ∈ inner) →
    ∃ front held rest, kept = front ++ ((.opening, ahead.length) :: held ++
      [(.closing, ahead.length + 1 + inner.length)]) ++ rest ∧
      nest 0 (held.map Prod.fst) = some 0
  /-- it is warned exactly if a connective or a group is gone -/
  warned : (∃ n cs, .removed n cs ∈ ws) ↔
    (∃ c, (connectivesOf (kept.map Prod.fst)).count c < (connectivesOf ts).count c) ∨
      (kept.map Prod.fst).count .opening < ts.count .opening
  /-- the connectives that are named are those that are gone -/
  named : ∀ n cs, .removed n cs ∈ ws →
    (connectivesOf ts).Perm (connectivesOf (kept.map Prod.fst) ++ cs)
  /-- as many groups are counted as are gone -/
  counted : ∀ n cs, .removed n cs ∈ ws →
    ts.count .opening = (kept.map Prod.fst).count .opening + n

theorem cutEnd_clean (ts : List Token) : CutEnd (prune ts.zipIdx).kept (clean ts).kept := by
  obtain ⟨seed, place, hseed, hc⟩ | ⟨-, hc⟩ := clean_cases ts
  · have hwords := Seed.words_trim seed
    rw [hc, hseed]
    dsimp only
    split
    · next hnil =>
      rw [hnil] at hwords
      exact .gone [] place hwords
    · obtain ⟨tail, htail, -⟩ := Seed.exists_trim seed
      -- the seed is its start and the tail that is cut off
      generalize (Seed.trim seed).1 = start at *
      subst htail
      exact .short [] place hwords
  · rw [hc]
    exact .whole _

/-- A group that is read with both its ends is kept so. -/
theorem exists_kept_of_read {ahead inner : List Token} {held : List (Token × Nat)}
    (hb : ((Reading.start.readAll ahead.zipIdx).readAll ((.opening, ahead.length) ::
        inner.zipIdx (ahead.length + 1) ++ [(.closing, ahead.length + 1 + inner.length)])).before =
      (.closing, ahead.length + 1 + inner.length) :: held.reverse ++
        (.opening, ahead.length) :: (Reading.start.readAll ahead.zipIdx).before)
    (behind : List Token) :
    ∃ front rest, (clean (ahead ++ (.opening :: inner ++ [.closing]) ++ behind)).kept =
      front ++ ((.opening, ahead.length) :: held ++
        [(.closing, ahead.length + 1 + inner.length)]) ++ rest := by
  obtain ⟨rest, hkept⟩ := Reading.exists_kept_above (t := .closing) rfl nofun hb
    (behind.zipIdx (ahead ++ (Token.opening :: inner ++ [Token.closing])).length)
  have hprune :
      (prune (ahead ++ (Token.opening :: inner ++ [Token.closing]) ++ behind).zipIdx).kept =
      (Reading.start.readAll ahead.zipIdx).before.reverse ++ ((.opening, ahead.length) ::
        held ++ [(.closing, ahead.length + 1 + inner.length)]) ++ rest := by
    rw [prune_eq_outcome, List.zipIdx_append, List.zipIdx_append, Nat.zero_add, Nat.zero_add,
      zipIdx_enclosed, Reading.readAll_append, Reading.readAll_append, hkept]
    simp
  refine ⟨(Reading.start.readAll ahead.zipIdx).before.reverse, rest, ?_⟩
  rw [clean_of_mem (t := (.closing, ahead.length + 1 + inner.length)) _ nofun, hprune]
  rw [hprune]
  simp

/-- A group that holds a clause is kept with its own ends. -/
theorem exists_kept_group {inner : List Token} (hn : nest 0 inner = some 0)
    (hc : ∃ text, .clause text ∈ inner) (ahead behind : List Token) :
    ∃ front held rest, (clean (ahead ++ (.opening :: inner ++ [.closing]) ++ behind)).kept =
      front ++ ((.opening, ahead.length) :: held ++
        [(.closing, ahead.length + 1 + inner.length)]) ++ rest ∧
      nest 0 (held.map Prod.fst) = some 0 := by
  have hmap : (inner.zipIdx (ahead.length + 1)).map Prod.fst = inner := List.zipIdx_map_fst ..
  rw [← hmap] at hn hc
  obtain ⟨held, hb, -, hheld, -⟩ := Reading.exists_readAll_group hn hc
    (Reading.start.readAll ahead.zipIdx) ahead.length (ahead.length + 1 + inner.length)
  rw [← List.reverse_reverse held] at hb
  obtain ⟨front, rest, hkept⟩ := exists_kept_of_read hb behind
  exact ⟨front, held.reverse, rest, hkept, by rw [List.map_reverse]; exact hheld⟩

/-- What finishing says that it took out. -/
theorem mem_finish_iff (b : Builder) (n : Nat) (cs : List Connective) :
    .removed n cs ∈ b.finish.2 ↔ (n = (clean b.closedTokens).groups ∧
      cs = (clean b.closedTokens).dropped) ∧ ¬ (n = 0 ∧ cs = []) := by
  have hbound :
      .removed n cs ∉ if b.hasBound && !b.hasRange then [Warning.rangeDiscarded] else [] := by
    split <;> simp
  have hopen :
      .removed n cs ∉ if b.openGroups = 0 then [] else [Warning.groupsClosed b.openGroups] := by
    split <;> simp
  rw [finish, finishWarnings]
  simp only [List.mem_append, hbound, hopen, false_or]
  split
  · next h =>
    simp
    rintro rfl rfl
    exact h
  · next h =>
    simp
    rintro rfl rfl
    simpa using h

/-- It says so exactly if it took anything out. -/
theorem exists_mem_finish_iff (b : Builder) : (∃ n cs, .removed n cs ∈ b.finish.2) ↔
    (clean b.closedTokens).dropped ≠ [] ∨ (clean b.closedTokens).groups ≠ 0 := by
  simp only [mem_finish_iff]
  constructor
  · rintro ⟨n, cs, ⟨rfl, rfl⟩, hsome⟩
    rw [not_and_or] at hsome
    exact hsome.symm
  · intro hsome
    refine ⟨_, _, ⟨rfl, rfl⟩, ?_⟩
    rintro ⟨hgroups, hdropped⟩
    exact hsome.elim (fun h => h hdropped) (fun h => h hgroups)

/-- **Finishing reports** all that it takes out, and keeps all that it is to keep. -/
theorem reports_finish (b : Builder) :
    let kept := (clean b.closedTokens).kept
    b.finish.1.tokens = kept.map Prod.fst ∧ Reports b.closedTokens kept b.finish.2 := by
  intro kept
  have ha := accounts_clean b.closedTokens
  have hdropped := ha.dropped_ne_nil_iff
  have hgroups := ha.groups_ne_zero_iff
  have hmap : b.closedTokens.zipIdx.map Prod.fst = b.closedTokens := List.zipIdx_map_fst ..
  rw [hmap] at hdropped hgroups
  refine ⟨rfl, ?_, ha.clauses, ?_, ?_, ?_, ?_⟩
  · exact ⟨_, sublist_prune _, cutEnd_clean _⟩
  · intro ahead inner behind hts hn hc
    have h := exists_kept_group hn hc ahead behind
    rwa [← hts] at h
  · exact (exists_mem_finish_iff b).trans (or_congr hdropped hgroups)
  · intro n cs h
    obtain ⟨⟨-, rfl⟩, -⟩ := (mem_finish_iff b n cs).mp h
    have hperm := ha.perm
    rwa [hmap] at hperm
  · intro n cs h
    obtain ⟨⟨rfl, -⟩, -⟩ := (mem_finish_iff b n cs).mp h
    have hcount := ha.groups
    rwa [hmap] at hcount

end Builder

end PortalSearch
