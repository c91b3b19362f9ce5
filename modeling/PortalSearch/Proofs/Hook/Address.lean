import Mathlib.Data.Bool.AllAny
import PortalSearch.Proofs.Url.Segment

/-!
# The address in the log

To mask the tokens in an address, a hook takes it apart and puts it together again. For an ordinary
address of the web that has a query this changes nothing: its parts are found where they were
written (`split_text`), and each is put back behind the mark that was in front of it
(`join_parts`). An address in which no token is found is not taken apart, and holds no parameter
that would be masked.

So in the log nothing is changed but the parameters that are tokens: `records_brief`.
-/

namespace PortalSearch

namespace Text

variable {c : Char} {pieces : List Text}

theorem infix_intercalate {piece : Text} (h : piece ∈ pieces) (separator : Text) :
    piece <:+: List.intercalate separator pieces := by
  induction pieces with
  | nil => cases h
  | cons first pieces ih =>
    cases pieces with
    | nil =>
      rw [List.intercalate_singleton]
      exact List.mem_singleton.mp h ▸ List.infix_refl _
    | cons next rest =>
      rw [List.intercalate_cons_cons, List.append_assoc]
      rcases List.mem_cons.mp h with rfl | h
      · exact (List.prefix_append ..).isInfix
      · exact (ih h).trans ((List.suffix_append ..).trans (List.suffix_append ..)).isInfix

theorem eq_nil_of_intercalate (h : List.intercalate [c] pieces = []) :
    pieces = [] ∨ pieces = [[]] := by
  cases pieces with
  | nil => exact .inl rfl
  | cons piece pieces =>
    cases pieces with
    | nil =>
      rw [List.intercalate_singleton] at h
      exact .inr (congrArg ([·]) h)
    | cons next rest =>
      rw [List.intercalate_cons_cons] at h
      simp at h

end Text

/-! ## Addresses of the web -/

/-- An address of the web with a query, part by part. -/
structure WebAddress where
  /-- what stands before the first colon -/
  scheme : Text
  /-- the host, and what goes with it -/
  host : Text
  /-- the path -/
  path : Text
  /-- the parameters between ampersands -/
  params : List Text
  /-- what stands behind the number sign, if there is one -/
  fragment : Option Text

namespace WebAddress

/-- The query. -/
def query (a : WebAddress) : Text := List.intercalate ['&'] a.params

/-- What stands before the question mark. -/
def front (a : WebAddress) : Text := a.scheme ++ "://" ++ a.host ++ a.path

/-- The fragment with its mark. -/
def back (a : WebAddress) : Text := a.fragment.elim [] ('#' :: ·)

/-- The address. -/
def text (a : WebAddress) : Text := a.front ++ '?' :: (a.query ++ a.back)

/-- With each parameter that begins as a token does replaced, and nothing else. -/
def masked (a : WebAddress) : WebAddress :=
  { a with params := a.params.map fun p =>
      if "token=".toList <+: p then "token=***".toList else p }

/-- Whether the parts of an address are such that each ends where it does. -/
structure IsOrdinary (a : WebAddress) : Prop where
  /-- the scheme is written in lower case -/
  scheme : a.scheme ∈ (["http", "https"] : List Text)
  /-- there is a host, in the basic set -/
  host : a.host ≠ [] ∧ ∀ c ∈ a.host, c.toNat < 0x80
  /-- and it has neither brackets nor marks that end it -/
  host_bare : ∀ c ∈ a.host, c ∉ ['[', ']', '/', '?', '#']
  /-- the path is empty or begins with a slash -/
  path : a.path.head? ∈ [none, some '/']
  /-- and it has no marks that end it -/
  path_bare : ∀ c ∈ a.path, c ∉ ['?', '#']
  /-- there is a query, which no number sign ends -/
  query : a.query ≠ [] ∧ '#' ∉ a.query
  /-- its parameters are those between all ampersands -/
  params : ∀ p ∈ a.params, '&' ∉ p
  /-- the fragment is not empty if there is one -/
  fragment : a.fragment ≠ some []
  /-- no tabs and no line ends, which would not be kept -/
  unbroken : ∀ c ∈ a.text, c ∉ ['\t', '\r', '\n']

variable {a : WebAddress}

/-! ### Taking apart -/

theorem IsOrdinary.scheme_cases (h : a.IsOrdinary) : a.scheme = "http" ∨ a.scheme = "https" := by
  simpa using h.scheme

theorem IsOrdinary.not_mem_front (h : a.IsOrdinary) : '?' ∉ a.front ∧ '#' ∉ a.front := by
  have hscheme : ∀ c ∈ ['?', '#'], c ∉ a.scheme ++ "://" := by
    rcases h.scheme_cases with hs | hs
    · rw [hs]
      exact List.all_iff_forall_prop.mp (by decide)
    · rw [hs]
      exact List.all_iff_forall_prop.mp (by decide)
  have hfront : ∀ c ∈ ['?', '#'], c ∉ a.front := by
    intro c hc hmem
    rw [front, List.mem_append, List.mem_append] at hmem
    rcases hmem with (hmem | hmem) | hmem
    · exact hscheme c hc hmem
    · exact h.host_bare c hmem (List.mem_of_mem_drop (i := 3) hc)
    · exact h.path_bare c hmem hc
  exact ⟨hfront '?' (by decide), hfront '#' (by decide)⟩

theorem tidy_front (h : a.IsOrdinary) : Url.tidy a.front = a.front := by
  have hunbroken : ∀ c ∈ a.front, c ∉ ['\t', '\r', '\n'] := fun c hc =>
    h.unbroken c (List.mem_append_left _ hc)
  have hhead : a.front.dropWhile (fun c => c.toNat ≤ 0x20) = a.front := by
    rcases h.scheme_cases with hs | hs
    · rw [front, hs]
      rfl
    · rw [front, hs]
      rfl
  rw [Url.tidy, hhead, List.filter_eq_self]
  intro c hc
  simpa [and_assoc] using hunbroken c hc

theorem splitScheme_front (h : a.IsOrdinary) :
    Url.splitScheme a.front = (a.scheme, '/' :: '/' :: (a.host ++ a.path)) := by
  have hfront : a.front = a.scheme ++ ':' :: '/' :: '/' :: (a.host ++ a.path) := by simp [front]
  have hcolon : ':' ∉ a.scheme ∧ Url.isScheme a.scheme = true ∧
      a.scheme.map Char.toLower = a.scheme := by
    rcases h.scheme_cases with hs | hs
    · rw [hs]
      decide
    · rw [hs]
      decide
  rw [hfront, Url.splitScheme, Text.splitFirst_append_cons hcolon.1]
  dsimp only
  rw [if_pos hcolon.2.1, hcolon.2.2]

theorem splitHost_front (h : a.IsOrdinary) :
    Url.splitHost ('/' :: '/' :: (a.host ++ a.path)) = (a.host, a.path) := by
  have hhost : ∀ c ∈ a.host, (!Url.endsHost c) = true := by
    intro c hc
    have hbare := h.host_bare c hc
    simp only [List.mem_cons, List.not_mem_nil, or_false, not_or] at hbare
    simp [Url.endsHost, hbare]
  have hpath : a.path.takeWhile (fun c => !Url.endsHost c) = [] ∧
      a.path.dropWhile (fun c => !Url.endsHost c) = a.path := by
    have hhead := h.path
    cases hp : a.path with
    | nil => exact ⟨rfl, rfl⟩
    | cons c path =>
      obtain rfl : c = '/' := by simpa [hp] using hhead
      exact ⟨rfl, rfl⟩
  rw [Url.splitHost, List.takeWhile_append_of_pos hhost, List.dropWhile_append_of_pos hhost,
    hpath.1, hpath.2, List.append_nil]

theorem split_front (h : a.IsOrdinary) :
    Url.split a.front = .ok ⟨a.scheme, a.host, a.path, [], []⟩ := by
  have hmarks : '#' ∉ a.path ∧ '?' ∉ a.path :=
    ⟨fun hmem => h.path_bare '#' hmem (by decide), fun hmem => h.path_bare '?' hmem (by decide)⟩
  have hhost : Url.checkHost a.host = .ok () := by
    refine Url.checkHost_of_plain ?_ ?_ ?_
    · exact fun hmem => h.host_bare '[' hmem (by decide)
    · exact fun hmem => h.host_bare ']' hmem (by decide)
    · intro c hc hdisguised
      have hall : Url.disguisedSeparators.all (fun c => 0x80 ≤ c.toNat) = true := by decide
      have hbeyond := List.all_eq_true.mp hall c hdisguised
      have hbasic := h.host.2 c hc
      simp only [decide_eq_true_eq] at hbeyond
      omega
  rw [Url.split, tidy_front h, splitScheme_front h]
  dsimp only
  rw [splitHost_front h]
  dsimp only
  rw [hhost]
  dsimp only
  rw [Text.splitFirst_of_not_mem hmarks.1, Text.splitFirst_of_not_mem hmarks.2]
  rfl

/-- The parts of an address are found where they were written. -/
theorem split_text (h : a.IsOrdinary) :
    Url.split a.text = .ok ⟨a.scheme, a.host, a.path, a.query, a.fragment.getD []⟩ := by
  have hbehind : Url.withoutBreaks (a.query ++ a.back) = a.query ++ a.back := by
    rw [Url.withoutBreaks, List.filter_eq_self]
    intro c hc
    have hunbroken := h.unbroken c (List.mem_append_right _ (List.mem_cons_of_mem _ hc))
    simpa [and_assoc] using hunbroken
  have hback : Text.splitFirst '#' a.back = ([], a.fragment) := by
    rw [back]
    cases a.fragment with
    | none => rfl
    | some fragment => rfl
  rw [text, Url.split_query h.not_mem_front, split_front h, hbehind,
    Text.splitFirst_append h.query.2, hback, List.append_nil]
  rfl

/-! ### Putting together -/

/-- Parts that are found in an ordinary address are put back where they were, whatever the query
is. -/
theorem join_parts (h : a.IsOrdinary) {query : Text} (hquery : query ≠ []) :
    Url.Parts.join ⟨a.scheme, a.host, a.path, query, a.fragment.getD []⟩ =
      a.front ++ '?' :: (query ++ a.back) := by
  have hscheme : a.scheme ≠ [] := by
    rcases h.scheme_cases with hs | hs
    · rw [hs]
      decide
    · rw [hs]
      decide
  have hhost : Url.joinHost ⟨a.scheme, a.host, a.path, query, a.fragment.getD []⟩ =
      ['/', '/'] ++ a.host ++ a.path := by
    rw [Url.joinHost, if_pos (.inl h.host.1), if_neg]
    rintro ⟨hne, hhead⟩
    have hpath := h.path
    cases hp : a.path with
    | nil => exact hne hp
    | cons c path =>
      simp only [hp] at hpath hhead
      simp_all
  have hfragment : Url.marked '#' (a.fragment.getD []) = a.back := by
    have hne := h.fragment
    rw [back]
    cases hf : a.fragment with
    | none => rfl
    | some fragment =>
      rw [hf] at hne
      have hnil : fragment ≠ [] := fun hnil => hne (congrArg some hnil)
      exact if_neg hnil
  rw [Url.Parts.join, hhost, hfragment]
  dsimp only
  rw [if_neg hscheme, Url.marked, if_neg hquery, front]
  simp

/-! ### Masking -/

theorem maskPart_eq (p : Text) : Url.maskPart p =
    if "token=".toList <+: p then "token=***".toList else p := by
  rw [Url.maskPart]
  simp only [List.isPrefixOf_iff_prefix]
  rfl

theorem query_masked (h : a.IsOrdinary) : Url.maskParams a.query = a.masked.query := by
  have hne : a.params ≠ [] := by
    intro hnil
    exact h.query.1 (by rw [query, hnil]; rfl)
  rw [Url.maskParams, query, List.splitOn_intercalate _ h.params hne, masked, query]
  exact congrArg (List.intercalate ['&']) (List.map_congr_left fun p _ => maskPart_eq p)

/-- Nothing is replaced by nothing. -/
theorem query_masked_ne_nil (h : a.IsOrdinary) : a.masked.query ≠ [] := by
  intro hmasked
  have hsame : a.masked.params = a.params := by
    rcases Text.eq_nil_of_intercalate hmasked with hnil | hone
    · rw [hnil, List.map_eq_nil_iff.mp hnil]
    · obtain ⟨p, hp, hshown⟩ := List.map_eq_singleton_iff.mp hone
      have hempty : p = [] := by
        split at hshown
        · cases hshown
        · exact hshown
      rw [hone, hp, hempty]
  exact h.query.1 (by rw [query, ← hsame]; exact hmasked)

/-- Where no token is found there is none to replace. -/
theorem masked_eq (h : Text.hasPart Url.tokenLead a.text = false) : a.masked = a := by
  have hplain : ∀ p ∈ a.params, ¬ "token=".toList <+: p := by
    intro p hp htoken
    have hquery : p <:+: a.text := by
      rw [text, query]
      refine (Text.infix_intercalate hp ['&']).trans ⟨a.front ++ ['?'], a.back, by simp⟩
    have hpart : Text.hasPart Url.tokenLead a.text = true :=
      Text.hasPart_iff.mpr (htoken.isInfix.trans hquery)
    rw [h] at hpart
    cases hpart
  have hparams : a.masked.params = a.params := by
    refine (List.map_congr_left fun p hp => ?_).trans (List.map_id a.params)
    exact if_neg (hplain p hp)
  exact congrArg (fun params => { a with params }) hparams

theorem mask_text (h : a.IsOrdinary) : Url.mask a.text = .ok a.masked.text := by
  rw [Url.mask]
  split
  · rw [split_text h]
    dsimp only [Except.map]
    rw [query_masked h, join_parts h (query_masked_ne_nil h)]
    rfl
  · next htoken => rw [masked_eq (Bool.eq_false_iff.mpr htoken)]

end WebAddress

/-! ## The record -/

/-- **In the log** an ordinary address is as it was, but for each parameter that begins as a token
does. -/
theorem Hook.records_brief (r : Response) {a : WebAddress} (h : a.IsOrdinary)
    (haddress : r.address = some a.text) :
    Hook.brief.records r = .ok [⟨.hooks, .debug,
      "Networking: " ++ Text.ofInt r.status ++ " response for " ++ a.masked.text ++ "."⟩] := by
  rw [Hook.records, haddress, Hook.shownAddress, WebAddress.mask_text h]
  rfl

/-- An address with tokens in its host, its path, its query and its fragment, and with empty
parameters and a second question mark: two parameters are replaced. -/
theorem Hook.records_brief_of_tokens :
    let a : WebAddress := ⟨"https", "token=u@h:80", "//token=p;x", ["token=a", "", "x=token=b?y",
      "token=", ""], some "f?token=c&token=d"⟩
    let r : Response := ⟨404, none, some a.text, [], ⟨none, none, .null⟩⟩
    a.IsOrdinary ∧
      a.text = "https://token=u@h:80//token=p;x?token=a&&x=token=b?y&token=&#f?token=c&token=d" ∧
      Hook.brief.records r = .ok [⟨.hooks, .debug,
        "Networking: " ++ Text.ofInt 404 ++ " response for " ++
          "https://token=u@h:80//token=p;x?token=***&&x=token=b?y&token=***&#f?token=c&token=d" ++
          "."⟩] := by
  intro a r
  have ha : a.IsOrdinary :=
    { scheme := by decide
      host := ⟨by decide, List.all_iff_forall_prop.mp (by decide)⟩
      host_bare := List.all_iff_forall_prop.mp (by decide)
      path := by decide
      path_bare := List.all_iff_forall_prop.mp (by decide)
      query := by decide
      params := by decide
      fragment := by decide
      unbroken := List.all_iff_forall_prop.mp (by decide) }
  have hmasked : a.masked.text =
      "https://token=u@h:80//token=p;x?token=***&&x=token=b?y&token=***&#f?token=c&token=d" := by
    decide
  have hrecords := records_brief r ha rfl
  rw [hmasked] at hrecords
  exact ⟨ha, by decide, hrecords⟩

end PortalSearch
