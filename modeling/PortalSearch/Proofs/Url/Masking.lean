import Mathlib.Logic.Relation
import PortalSearch.Proofs.Hook.Transparency

/-!
# What masking hides

Masking a text of parameters cuts it at the ampersands and shows every piece that begins as a token
does by the same word. So the value of a token is hidden as far as it goes, which is up to the next
ampersand (`maskParams_token`).

In an address the value is to stand in the query, and it must not move where the query begins or
ends. The query begins at the first question mark, which stands in front of every token: a colon
behind it ends no scheme, as no scheme holds a question mark, and the host ends there at the latest.
It ends at the first number sign. So the other parts of an address do not depend on what its query
holds (`split_query`).

Main result: addresses that are equal but for the values of tokens in their query are masked alike,
and fail alike where they cannot be taken apart (`mask_alike`).
-/

namespace PortalSearch

/-! ## Cutting and joining -/

namespace Text

variable {c : Char} {s t : Text}

theorem splitFirst_append (h : c ∉ s) (t : Text) :
    splitFirst c (s ++ t) = (s ++ (splitFirst c t).1, (splitFirst c t).2) := by
  induction s with
  | nil => rfl
  | cons x s ih =>
    rw [List.mem_cons, not_or] at h
    rw [List.cons_append, splitFirst, if_neg (Ne.symm h.1), ih h.2]
    rfl

theorem splitFirst_append_cons (h : c ∉ s) (t : Text) :
    splitFirst c (s ++ c :: t) = (s, some t) := by
  rw [splitFirst_append h, splitFirst, if_pos rfl, List.append_nil]

theorem splitFirst_of_not_mem (h : c ∉ s) : splitFirst c s = (s, none) := by
  simpa [splitFirst] using splitFirst_append h []

/-- Only the first piece is longer behind a text without a cut. -/
theorem splitOn_append (h : c ∉ s) {piece : Text} {pieces : List Text}
    (ht : t.splitOn c = piece :: pieces) : (s ++ t).splitOn c = (s ++ piece) :: pieces := by
  induction s with
  | nil => exact ht
  | cons x s ih =>
    rw [List.mem_cons, not_or] at h
    rw [List.cons_append, List.splitOn_cons_eq_if_modifyHead, if_neg (by simp [Ne.symm h.1]),
      ih h.2]
    rfl

theorem intercalate_append (separator : Text) {ps qs : List Text} (hp : ps ≠ []) (hq : qs ≠ []) :
    List.intercalate separator (ps ++ qs) =
      List.intercalate separator ps ++ separator ++ List.intercalate separator qs := by
  induction ps with
  | nil => exact absurd rfl hp
  | cons p ps ih =>
    cases ps with
    | nil =>
      rw [List.singleton_append, List.intercalate_cons_of_ne_nil hq, List.intercalate_singleton]
    | cons next ps =>
      rw [List.cons_append, List.intercalate_cons_of_ne_nil (by simp), ih (List.cons_ne_nil _ _),
        List.intercalate_cons_cons]
      simp only [List.append_assoc]

theorem hasPart_iff {part : Text} : hasPart part t = true ↔ part <:+: t := by
  induction t with
  | nil => rw [hasPart, List.isEmpty_iff, List.infix_nil]
  | cons x t ih =>
    rw [hasPart, Bool.or_eq_true, List.isPrefixOf_iff_prefix, ih, List.infix_cons_iff]

end Text

/-! ## Parameters -/

/-- Whether a parameter begins behind some text or bytes. -/
def BeginsParam {α : Type} (separator : α) (front : List α) : Prop :=
  front = [] ∨ ∃ earlier, front = earlier ++ [separator]

/-- Whether parameters become others by a change to what stands behind one beginning `lead`. -/
inductive SwapsValue {α : Type} (separator : α) (lead : List α) : List α → List α → Prop
  /-- what stands there goes on up to the next separator at most -/
  | swap (front v w rest : List α) (hfront : BeginsParam separator front) (hv : separator ∉ v)
    (hw : separator ∉ w) :
    SwapsValue separator lead (front ++ lead ++ v ++ rest) (front ++ lead ++ w ++ rest)

/-- Whether parameters are equal but for what stands behind some beginnings `lead`. -/
def AlikeBut {α : Type} (separator : α) (lead : List α) : List α → List α → Prop :=
  Relation.ReflTransGen (SwapsValue separator lead)

section Parameters

variable {α : Type} {separator : α} {lead s t : List α}

theorem SwapsValue.append (h : SwapsValue separator lead s t) (more : List α) :
    SwapsValue separator lead (s ++ more) (t ++ more) := by
  cases h with
  | swap front v w rest hfront hv hw =>
    rw [List.append_assoc _ rest, List.append_assoc _ rest]
    exact .swap front v w (rest ++ more) hfront hv hw

theorem SwapsValue.lead_infix (h : SwapsValue separator lead s t) : lead <:+: s ∧ lead <:+: t := by
  cases h with
  | swap front v w rest _ _ _ =>
    exact ⟨⟨front, v ++ rest, by simp only [List.append_assoc]⟩,
      ⟨front, w ++ rest, by simp only [List.append_assoc]⟩⟩

theorem AlikeBut.append (h : AlikeBut separator lead s t) (more : List α) :
    AlikeBut separator lead (s ++ more) (t ++ more) :=
  Relation.ReflTransGen.lift (· ++ more) (fun _ _ hst => SwapsValue.append hst more) s t h

/-- Parameters that differ hold one that begins so. -/
theorem AlikeBut.lead_infix (h : AlikeBut separator lead s t) (hne : s ≠ t) :
    lead <:+: s ∧ lead <:+: t := by
  rcases h.cases_head with heq | ⟨_, hfirst, _⟩
  · exact absurd heq hne
  · rcases h.cases_tail with heq | ⟨_, _, hlast⟩
    · exact absurd heq.symm hne
    · exact ⟨hfirst.lead_infix.1, hlast.lead_infix.2⟩

end Parameters

namespace Url

variable {s t v : Text}

theorem maskParams_append_cons (s t : Text) :
    maskParams (s ++ '&' :: t) = maskParams s ++ '&' :: maskParams t := by
  have hs : (s.splitOn '&').map maskPart ≠ [] := by simp
  have ht : (t.splitOn '&').map maskPart ≠ [] := by simp
  rw [maskParams, List.splitOn_append_cons_self, List.map_append, Text.intercalate_append _ hs ht]
  simp [maskParams]

theorem maskPart_token (t : Text) : maskPart (tokenLead ++ t) = "token=***" := by
  rw [maskPart, if_pos (List.isPrefixOf_iff_prefix.mpr (List.prefix_append ..))]

/-- Nothing of a token's value is shown. -/
theorem maskParams_token (hv : '&' ∉ v) (rest : Text) :
    maskParams (tokenLead ++ (v ++ rest)) = maskParams (tokenLead ++ rest) := by
  obtain ⟨piece, pieces, hp⟩ := List.exists_cons_of_ne_nil (List.splitOn_ne_nil '&' rest)
  have hlead : '&' ∉ tokenLead := by decide
  have hcut := Text.splitOn_append hlead (Text.splitOn_append hv hp)
  have hbare := Text.splitOn_append hlead hp
  rw [maskParams, maskParams, hcut, hbare, List.map_cons, List.map_cons, maskPart_token,
    maskPart_token]

theorem maskParams_swap (h : SwapsValue '&' tokenLead s t) : maskParams s = maskParams t := by
  cases h with
  | swap front v w rest hfront hv hw =>
    have hvalue : maskParams (tokenLead ++ (v ++ rest)) = maskParams (tokenLead ++ (w ++ rest)) :=
      (maskParams_token hv rest).trans (maskParams_token hw rest).symm
    simp only [List.append_assoc]
    rcases hfront with rfl | ⟨earlier, rfl⟩
    · exact hvalue
    · simp only [List.append_assoc, List.singleton_append]
      rw [maskParams_append_cons, maskParams_append_cons, hvalue]

/-- Parameters that are equal but for the values of tokens are masked alike. -/
theorem maskParams_alike (h : AlikeBut '&' tokenLead s t) : maskParams s = maskParams t := by
  induction h with
  | refl => rfl
  | tail _ hlast ih => exact ih.trans (maskParams_swap hlast)

/-! ## Addresses -/

/-- Whether two addresses are equal but for the values of tokens in their query, which stands behind
the first question mark and before any number sign. -/
inductive AlikeAddresses : Text → Text → Prop
  /-- equal addresses are -/
  | refl (address : Text) : AlikeAddresses address address
  /-- and so are two with such queries, up to some place in these -/
  | query (path s t rest : Text) (hpath : '?' ∉ path ∧ '#' ∉ path) (hs : '#' ∉ s) (ht : '#' ∉ t)
    (h : AlikeBut '&' tokenLead s t) :
    AlikeAddresses (path ++ '?' :: (s ++ rest)) (path ++ '?' :: (t ++ rest))

/-- Without tabs and line ends. -/
def withoutBreaks (t : Text) : Text := t.filter fun c => c != '\t' && c != '\r' && c != '\n'

theorem dropWhile_append_query {p : Char → Bool} (hp : p '?' = false) (path t : Text) :
    (path ++ '?' :: t).dropWhile p = path.dropWhile p ++ '?' :: t := by
  rw [List.dropWhile_append]
  split
  · next hnil => rw [List.isEmpty_iff.mp hnil, List.dropWhile_cons_of_neg (by simp [hp])]; rfl
  · rfl

theorem takeWhile_append_query {p : Char → Bool} (hp : p '?' = false) (path t : Text) :
    (path ++ '?' :: t).takeWhile p = path.takeWhile p := by
  induction path with
  | nil => exact List.takeWhile_cons_of_neg (by simp [hp])
  | cons c path ih => rw [List.cons_append, List.takeWhile_cons, List.takeWhile_cons, ih]

theorem tidy_query (path t : Text) :
    tidy (path ++ '?' :: t) = tidy path ++ '?' :: withoutBreaks t := by
  rw [tidy, dropWhile_append_query (by decide), List.filter_append]
  rfl

theorem isScheme_of_mem (hs : '?' ∈ s) : isScheme s = false := by
  cases s with
  | nil => rfl
  | cons c s =>
    rw [isScheme, Bool.and_eq_false_iff]
    rcases List.mem_cons.mp hs with rfl | hs
    · exact .inl rfl
    · refine .inr (List.all_eq_false.mpr ⟨'?', hs, by decide⟩)

theorem splitScheme_query (path t : Text) :
    splitScheme (path ++ '?' :: t) = ((splitScheme path).1, (splitScheme path).2 ++ '?' :: t) := by
  by_cases hcolon : ':' ∈ path
  · obtain ⟨scheme, rest, rfl, hscheme⟩ := List.eq_append_cons_of_mem hcolon
    rw [List.append_assoc, List.cons_append, splitScheme, splitScheme,
      Text.splitFirst_append_cons hscheme, Text.splitFirst_append_cons hscheme]
    dsimp only
    split <;> simp
  · have hbare : splitScheme path = ([], path) := by
      rw [splitScheme, Text.splitFirst_of_not_mem hcolon]
    -- a colon behind the question mark does not end a scheme
    have hmem : '?' ∈ (Text.splitFirst ':' (path ++ '?' :: t)).1 := by
      rw [Text.splitFirst_append hcolon]
      exact List.mem_append_right _ (List.mem_cons_self ..)
    rw [hbare, splitScheme]
    split
    · next hsplit =>
      rw [hsplit] at hmem
      rw [if_neg (by simp [isScheme_of_mem hmem])]
    · rfl

theorem splitHost_query (path t : Text) :
    splitHost (path ++ '?' :: t) = ((splitHost path).1, (splitHost path).2 ++ '?' :: t) := by
  rw [splitHost.eq_def path]
  split
  · next rest =>
    rw [List.cons_append, List.cons_append, splitHost, dropWhile_append_query (by decide),
      takeWhile_append_query (by decide)]
  · next hslashes =>
    rw [splitHost.eq_def]
    split
    · next rest heq =>
      -- the two slashes stand in the path then
      rcases path with _ | ⟨a, _ | ⟨b, path⟩⟩
      · cases heq
      · cases heq
      · cases heq
        exact absurd rfl (hslashes path)
    · rfl

theorem mem_of_mem_splitHost_snd {c : Char} (hc : c ∈ (splitHost t).2) : c ∈ t := by
  rw [splitHost.eq_def] at hc
  split at hc
  · exact List.mem_cons_of_mem _ (List.mem_cons_of_mem _ ((List.dropWhile_suffix _).subset hc))
  · exact hc

/-- **What stands behind the first question mark** is the query and the fragment, and nothing else
of an address depends on it. -/
theorem split_query {path : Text} (hpath : '?' ∉ path ∧ '#' ∉ path) (t : Text) :
    split (path ++ '?' :: t) = (split path).map fun p =>
      { p with
        query := (Text.splitFirst '#' (withoutBreaks t)).1
        fragment := (Text.splitFirst '#' (withoutBreaks t)).2.getD [] } := by
  have hmem {c : Char} (hc : c ∈ (splitHost (splitScheme (tidy path)).2).2) : c ∈ path :=
    mem_of_mem_tidy (mem_of_mem_splitScheme (mem_of_mem_splitHost_snd hc))
  have hmark := fun h => hpath.1 (hmem h)
  have hsign := fun h => hpath.2 (hmem h)
  rw [split, split, tidy_query, splitScheme_query]
  dsimp only
  rw [splitHost_query]
  dsimp only
  cases checkHost (splitHost (splitScheme (tidy path)).2).1 with
  | error e => rfl
  | ok _ =>
    rw [Text.splitFirst_append hsign, Text.splitFirst_of_not_mem hsign, Text.splitFirst,
      if_neg (by decide)]
    dsimp only
    rw [Text.splitFirst_append_cons hmark, Text.splitFirst_of_not_mem hmark]
    rfl

theorem withoutBreaks_append (s t : Text) :
    withoutBreaks (s ++ t) = withoutBreaks s ++ withoutBreaks t := List.filter_append ..

theorem not_mem_withoutBreaks {c : Char} (hc : c ∉ t) : c ∉ withoutBreaks t :=
  fun h => hc (List.mem_filter.mp h).1

theorem withoutBreaks_swap (h : SwapsValue '&' tokenLead s t) :
    SwapsValue '&' tokenLead (withoutBreaks s) (withoutBreaks t) := by
  cases h with
  | swap front v w rest hfront hv hw =>
    have hlead : withoutBreaks tokenLead = tokenLead := by decide
    have hbegins : BeginsParam '&' (withoutBreaks front) := by
      rcases hfront with rfl | ⟨earlier, rfl⟩
      · exact .inl rfl
      · exact .inr ⟨withoutBreaks earlier, withoutBreaks_append ..⟩
    simp only [withoutBreaks_append, hlead]
    exact .swap _ _ _ _ hbegins (not_mem_withoutBreaks hv) (not_mem_withoutBreaks hw)

theorem withoutBreaks_alike (h : AlikeBut '&' tokenLead s t) :
    AlikeBut '&' tokenLead (withoutBreaks s) (withoutBreaks t) :=
  Relation.ReflTransGen.lift withoutBreaks (fun _ _ => withoutBreaks_swap) s t h

/-- **Addresses that are equal but for the values of tokens** in their query are masked alike, and
fail alike. -/
theorem mask_alike {a b : Text} (h : AlikeAddresses a b) : mask a = mask b := by
  cases h with
  | refl => rfl
  | query path s t rest hpath hs ht hst =>
    by_cases heq : s = t
    · rw [heq]
    have hpart {u : Text} (hu : tokenLead <:+: u) :
        Text.hasPart tokenLead (path ++ '?' :: (u ++ rest)) = true :=
      Text.hasPart_iff.mpr (hu.trans ⟨path ++ ['?'], rest, by simp⟩)
    have hquery {u : Text} (hu : '#' ∉ u) : Text.splitFirst '#' (withoutBreaks (u ++ rest)) =
        (withoutBreaks u ++ (Text.splitFirst '#' (withoutBreaks rest)).1,
          (Text.splitFirst '#' (withoutBreaks rest)).2) := by
      rw [withoutBreaks_append, Text.splitFirst_append (not_mem_withoutBreaks hu)]
    have hparams := maskParams_alike ((withoutBreaks_alike hst).append
      (Text.splitFirst '#' (withoutBreaks rest)).1)
    rw [mask, mask, if_pos (hpart (hst.lead_infix heq).1), if_pos (hpart (hst.lead_infix heq).2),
      split_query hpath, split_query hpath, hquery hs, hquery ht]
    cases split path with
    | error e => rfl
    | ok p =>
      simp only [Except.map]
      rw [hparams]

end Url

end PortalSearch
