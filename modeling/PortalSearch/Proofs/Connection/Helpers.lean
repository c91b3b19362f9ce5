import Mathlib.Data.Bool.AllAny
import Mathlib.Data.List.DropRight
import PortalSearch.Connection
import PortalSearch.Group
import PortalSearch.Proofs.Search.Kinds
import PortalSearch.Proofs.Url.Masking

/-!
# Helpers through a connection

A helper that searches or changes a group looks the portal up itself and hands the connection a
whole address. The connection decides again whether an address needs its portal, and it goes by how
the address begins, letter by letter. The two agree on a portal whose scheme is written in lower
case: then the address is left alone. In any other case the letters of the scheme do not match, the
address counts as a path, and the portal is put in front of it once more.

Main result: `sent_once_iff` says for which portals a helper asks at the address that it means.
-/

namespace PortalSearch

/-! ## Portals on the web -/

/-- The address of a portal on the web, part by part. -/
structure WebPortal where
  /-- what stands before the first colon -/
  scheme : Text
  /-- the host, and what goes with it -/
  host : Text
  /-- what stands behind the host, slashes at the end apart -/
  rest : Text
  /-- how many slashes stand at the end -/
  slashes : Nat

namespace WebPortal

/-- The address without the slashes at its end. -/
def base (p : WebPortal) : Text := p.scheme ++ "://" ++ p.host ++ p.rest

/-- The address. -/
def text (p : WebPortal) : Text := p.base ++ List.replicate p.slashes '/'

/-- Whether the parts are those of an address on the web: a scheme in any letter case and a host. -/
structure IsWeb (p : WebPortal) : Prop where
  /-- the scheme is one of the web's -/
  scheme : p.scheme.map Char.toLower ∈ (["http", "https"] : List Text)
  /-- there is a host, with no mark in it that ends it -/
  host : p.host ≠ [] ∧ ∀ c ∈ p.host, Url.endsHost c = false
  /-- the slashes at the end are counted apart -/
  rest : p.rest.getLast? ≠ some '/'

/-- Whether the scheme is written in lower case. -/
def IsLower (p : WebPortal) : Prop := p.scheme ∈ (["http", "https"] : List Text)

variable {p : WebPortal}

/-- A scheme has letters only. -/
theorem IsWeb.not_mem_scheme (h : p.IsWeb) : ':' ∉ p.scheme ∧ '/' ∉ p.scheme := by
  have hlower : ∀ s ∈ (["http", "https"] : List Text), ':' ∉ s ∧ '/' ∉ s := by decide
  obtain ⟨hcolon, hslash⟩ := hlower _ h.scheme
  refine ⟨fun hmem => hcolon ?_, fun hmem => hslash ?_⟩
  · exact List.mem_map_of_mem (f := Char.toLower) hmem
  · exact List.mem_map_of_mem (f := Char.toLower) hmem

theorem IsWeb.scheme_ne_nil (h : p.IsWeb) : p.scheme ≠ [] := by
  intro hnil
  have hscheme := h.scheme
  rw [hnil] at hscheme
  exact absurd hscheme (by decide)

theorem base_ne_nil (h : p.IsWeb) : p.base ≠ [] := by
  simp [base, h.scheme_ne_nil]

theorem getLast?_base (h : p.IsWeb) : p.base.getLast? ≠ some '/' := by
  have hrest := h.rest
  rw [base, List.getLast?_append]
  cases hlast : p.rest.getLast? with
  | some c => simpa [hlast] using hrest
  | none =>
    obtain ⟨c, hc⟩ : ∃ c, p.host.getLast? = some c :=
      Option.isSome_iff_exists.mp (by simpa using h.host.1)
    rw [List.getLast?_append, hc]
    rintro hslash
    obtain rfl : c = '/' := by simpa using hslash
    have hends := h.host.2 '/' (List.mem_of_getLast? hc)
    cases hends

/-- Without the slashes at the end it is what they were put behind. -/
theorem trimSlashes_text (h : p.IsWeb) : Portal.trimSlashes p.text = p.base := by
  have hslashes : ∀ c ∈ List.replicate p.slashes '/', (c == '/') = true := by
    intro c hc
    rw [(List.mem_replicate.mp hc).2]
    rfl
  have hbase : p.base.rdropWhile (· == '/') = p.base := by
    rw [List.rdropWhile_eq_self_iff]
    intro hne hslash
    refine getLast?_base h ?_
    rw [List.getLast?_eq_some_getLast hne, beq_iff_eq.mp hslash]
  rw [Portal.trimSlashes, text, List.reverse_append, List.reverse_replicate,
    List.dropWhile_append_of_pos hslashes]
  exact hbase

theorem address_text (h : p.IsWeb) (env : Environment) (who : Credentials) :
    Portal.address env (.text p.text) who = .ok p.base := by
  have hgiven : (Value.text p.text).isGiven = true := by
    simp [Value.isGiven, text, base_ne_nil h]
  rw [Portal.address, Value.orElse, Value.orElse, if_pos hgiven, if_pos hgiven,
    ← trimSlashes_text h]

end WebPortal

/-! ## Addresses -/

namespace Connection

/-- What stands before the first colon is a part of how a text begins. -/
theorem prefix_colon_iff {s t u v : Text} (hs : ':' ∉ s) (ht : ':' ∉ t) :
    s ++ ':' :: u <+: t ++ ':' :: v ↔ s = t ∧ u <+: v := by
  constructor
  · rintro ⟨w, hw⟩
    have hsplit := congrArg (Text.splitFirst ':') hw
    rw [List.append_assoc, List.cons_append, Text.splitFirst_append_cons hs,
      Text.splitFirst_append_cons ht, Prod.mk.injEq, Option.some.injEq] at hsplit
    exact ⟨hsplit.1, w, hsplit.2⟩
  · rintro ⟨rfl, w, rfl⟩
    exact ⟨w, by simp⟩

variable {p : WebPortal}

/-- An address in a portal needs no portal exactly if the scheme is in lower case. -/
theorem isAbsolute_iff (h : p.IsWeb) (path : Text) :
    isAbsolute (p.base ++ path) = true ↔ p.IsLower := by
  have hbegins {s : Text} (hs : ':' ∉ s) :
      (s ++ "://").isPrefixOf (p.base ++ path) = true ↔ p.scheme = s := by
    have haddress : p.base ++ path = p.scheme ++ ':' :: ("//" ++ p.host ++ p.rest ++ path) := by
      simp [WebPortal.base]
    have hfront : s ++ "://" = s ++ ':' :: "//".toList := rfl
    rw [List.isPrefixOf_iff_prefix, haddress, hfront, prefix_colon_iff hs h.not_mem_scheme.1,
      List.append_assoc, List.append_assoc, and_iff_left (List.prefix_append ..), eq_comm]
  have hhttp : "http://".toList = "http" ++ "://" := rfl
  have hhttps : "https://".toList = "https" ++ "://" := rfl
  rw [isAbsolute, Bool.or_eq_true, hhttp, hhttps, hbegins (by decide), hbegins (by decide),
    WebPortal.IsLower]
  simp

theorem resolve_of_isLower {c : Connection} (h : p.IsWeb) (hlower : p.IsLower) (path : Text) :
    c.resolve (p.base ++ path) = p.base ++ path :=
  if_pos ((isAbsolute_iff h path).mpr hlower)

theorem resolve_of_not_isLower {c : Connection} (h : p.IsWeb) (hlower : ¬ p.IsLower)
    (path : Text) : c.resolve (p.base ++ path) = c.portal ++ ['/'] ++ (p.base ++ path) := by
  obtain ⟨x, scheme, hscheme⟩ := List.exists_cons_of_ne_nil h.scheme_ne_nil
  have hx : x ≠ '/' := by
    rintro rfl
    exact h.not_mem_scheme.2 (hscheme ▸ List.mem_cons_self)
  have hdrop : (p.base ++ path).dropWhile (· == '/') = p.base ++ path := by
    rw [WebPortal.base, hscheme]
    exact List.dropWhile_cons_of_neg (by simpa using hx)
  rw [resolve, if_neg (fun habsolute => hlower ((isAbsolute_iff h path).mp habsolute)), hdrop]

/-! ## Parameters -/

/-- The token as a parameter, if there is one. -/
def tokenParams : Option Text → Params
  | none | some [] => []
  | some token => [("token", .text token)]

theorem putField_of_not_mem {name : Text} {fields : List (Text × Value)}
    (h : name ∉ fields.map Prod.fst) (v : Value) :
    Value.putField name v fields = fields ++ [(name, v)] := by
  induction fields with
  | nil => rfl
  | cons f fields ih =>
    rw [List.map_cons, List.mem_cons, not_or] at h
    rw [Value.putField, if_neg (Ne.symm h.1), ih h.2]
    rfl

/-- Parameters that ask for JSON and hold no token get the token at their end. -/
theorem complete_eq {c : Connection} {params : Params}
    (hformat : Value.field? "f" params = some (.text "json"))
    (htoken : "token".toList ∉ params.map Prod.fst) :
    c.complete params = params ++ tokenParams c.token := by
  have hasked : (Value.field? "f" params).isSome = true := by
    rw [hformat]
    rfl
  rw [complete, if_pos hasked]
  cases c.token with
  | none => exact (List.append_nil _).symm
  | some token =>
    cases token with
    | nil => exact (List.append_nil _).symm
    | cons x token => exact putField_of_not_mem htoken _

end Connection

/-! ## Helpers -/

/-- A call of a helper, but for the portal. -/
inductive Helper where
  /-- a search -/
  | search (query : SearchQuery) (kind group : Value) (o : SearchOptions)
  /-- something that is done to a group -/
  | operate (op : GroupOperation) (group : Value)

namespace Helper

/-- Makes the call. -/
def run (helper : Helper) (send : Transport) (env : Environment) (portal : Value)
    (who : Credentials) : Exchange :=
  match helper with
  | search query kind group o => Search.run send env query kind group o portal who
  | operate op group => op.run send env group portal who

/-- Whether nothing is missing that the call needs. -/
def IsComplete : Helper → Prop
  | search _ kind group o => Search.HasJson o ∧ Text.lower kind.toText ∈ Search.allNames ∧
      (Text.lower kind.toText = Search.groupContentName → group.isGiven = true)
  | operate _ group => group.isGiven = true

/-- What the call asks a portal for: a request with a path in the portal for its address. -/
def asked : Helper → Except Error Request
  | search query kind group o => do
    let params ← Search.contentParams query.finished.1 o
    let kind ← Search.kindOf (Text.lower kind.toText) group
    return ⟨.get, Search.address [] kind group, Search.paramsOf kind params⟩
  | operate op group =>
    if group.isGiven then
      .ok ⟨.post, "/community/groups/" ++ Url.encode group.toText ++ "/" ++ op.word,
        [("f", .text "json")]⟩
    else .error .noGroup

variable {helper : Helper} {r : Request} {env : Environment} {portal : Value} {who : Credentials}
  {base : Text}

/-! ### What a search asks for -/

theorem exists_kindOf {name : Text} {group : Value} (hname : name ∈ Search.allNames)
    (hgroup : name = Search.groupContentName → group.isGiven = true) :
    ∃ k, Search.kindOf name group = .ok k := by
  simp only [Search.allNames, List.mem_append, List.mem_singleton] at hname
  rcases hname with ((hname | hname) | hname) | hname
  · exact ⟨_, Search.kindOf_content hname group⟩
  · exact ⟨.groupContent, by rw [hname, Search.kindOf_groupContent, if_pos (hgroup hname)]⟩
  · exact ⟨_, Search.kindOf_users hname group⟩
  · exact ⟨_, Search.kindOf_groups hname group⟩

/-- The parameters that a kind of search takes of those that it starts from. -/
theorem sublist_paramsOf (kind : SearchKind) (params : Params) :
    (Search.paramsOf kind params).Sublist params := by
  cases kind with
  | content | groupContent => exact List.Sublist.refl _
  | users | groups => exact List.filter_sublist

theorem not_mem_names_of_search (query : Text) (o : SearchOptions) (kind : SearchKind) :
    "token".toList ∉ (Search.paramsOf kind
      (Search.required query o ++ Search.given (Search.optionals o))).map Prod.fst := by
  intro hmem
  have hall := ((sublist_paramsOf kind _).map Prod.fst).subset hmem
  exact absurd (Search.mem_names hall) (by decide)

theorem field?_format_of_search (query : Text) (o : SearchOptions) (kind : SearchKind) :
    Value.field? "f" (Search.paramsOf kind
      (Search.required query o ++ Search.given (Search.optionals o))) =
        some (.text "json") := by
  cases kind with
  | content | groupContent => rfl
  | users | groups =>
    have hkept : Search.isCommunity ("f", .text "json") = true := by decide
    rw [Search.paramsOf, Search.required, List.cons_append, List.filter_cons_of_pos hkept]
    rfl

theorem address_eq_append (base : Text) (kind : SearchKind) (group : Value) :
    Search.address base kind group = base ++ Search.address [] kind group := by
  cases kind with
  | content | users | groups => rfl
  | groupContent => simp [Search.address]

/-! ### What a helper asks for -/

/-- What is asked for through a connection. -/
structure AsksFor (helper : Helper) (r : Request) : Prop where
  /-- it is what the helper asks for -/
  asked : helper.asked = .ok r
  /-- in whatever portal -/
  asks : ∀ (env : Environment) (portal : Value) (who : Credentials) (base : Text),
    Portal.address env portal who = .ok base →
      Search.Asks (fun send => helper.run send env portal who)
        ⟨r.method, base ++ r.address, r.params⟩
  /-- it asks for JSON -/
  format : Value.field? "f" r.params = some (.text "json")
  /-- and has no token by itself -/
  tokenless : "token".toList ∉ r.params.map Prod.fst

theorem exists_asksFor_search {query : SearchQuery} {kind group : Value} {o : SearchOptions}
    (h : IsComplete (.search query kind group o)) :
    ∃ r, AsksFor (.search query kind group o) r := by
  obtain ⟨hcategories, hname, hgroup⟩ := h
  obtain ⟨k, hk⟩ := exists_kindOf hname hgroup
  have hparams := Search.contentParams_eq query.finished.1 hcategories
  refine ⟨⟨.get, Search.address [] k group, Search.paramsOf k (Search.required query.finished.1 o ++
    Search.given (Search.optionals o))⟩, ?_, ?_, ?_, ?_⟩
  · rw [asked, hparams]
    dsimp only [bind, Except.bind]
    rw [hk]
    rfl
  · intro env portal who base hbase
    dsimp only
    rw [← address_eq_append]
    exact Search.asks_of_kindOf hparams hbase hk
  · exact field?_format_of_search query.finished.1 o k
  · exact not_mem_names_of_search query.finished.1 o k

theorem exists_asksFor_operate {op : GroupOperation} {group : Value} (h : group.isGiven = true) :
    ∃ r, AsksFor (.operate op group) r := by
  have hformat : "token".toList ∉ (["f"] : List Text) := by decide
  refine ⟨⟨.post, "/community/groups/" ++ Url.encode group.toText ++ "/" ++ op.word,
    [("f", .text "json")]⟩, if_pos h, ?_, rfl, hformat⟩
  intro env portal who base hbase
  have hrequest : op.request env group portal who =
      .ok ⟨.post, base ++ ("/community/groups/" ++ Url.encode group.toText ++ "/" ++ op.word),
        [("f", .text "json")]⟩ := by
    rw [GroupOperation.request, Portal.groupAddress, h, hbase]
    simp [Except.map]
  refine ⟨.record (op.record group), fun send => ?_⟩
  change op.run send env group portal who = _
  rw [GroupOperation.run, hrequest]

/-- A call that nothing is missing for asks for something. -/
theorem exists_asksFor (h : helper.IsComplete) : ∃ r, helper.AsksFor r := by
  cases helper with
  | search => exact exists_asksFor_search h
  | operate => exact exists_asksFor_operate h

/-! ### What is sent -/

variable {p : WebPortal} {hooks : List Hook} {token : Option Text}

theorem new_eq (hp : p.IsWeb) (env : Environment) (token : Option Text) :
    Connection.new env (.text p.text) token = .ok ⟨p.base, token, []⟩ := by
  rw [Connection.new, WebPortal.address_text hp]
  rfl

/-- One request is sent, at the address that the connection makes of the one that is asked for. -/
theorem AsksFor.sent_eq (h : helper.AsksFor r) (hp : p.IsWeb) (c : Connection) (client : Client)
    (network : Request → Response) (env : Environment) (who : Credentials) :
    (helper.run (c.send client network) env (.text p.text) who).sent = [⟨r.method,
      c.resolve (p.base ++ r.address), r.params ++ Connection.tokenParams c.token⟩] := by
  obtain ⟨told, hsends⟩ := h.asks env (.text p.text) who p.base (WebPortal.address_text hp env who)
  rw [← Connection.complete_eq h.format h.tokenless]
  exact congrArg Exchange.sent (hsends (c.send client network))

/-- **A helper asks at the address that it means**, the one in the portal without the slashes at its
end, exactly if the scheme of the portal is written in lower case. Else the portal stands twice in
front of the path. In both cases one request is sent, with the parameters of the helper, which ask
for JSON, and the token. -/
theorem sent_once_iff (env : Environment) (who : Credentials) (token : Option Text)
    (hooks : List Hook) (client : Client) (network : Request → Response) (hp : p.IsWeb)
    (h : helper.IsComplete) :
    ∃ c r, Connection.new env (.text p.text) token = .ok c ∧ helper.asked = .ok r ∧
      Value.field? "f" r.params = some (.text "json") ∧
      let sent :=
        (helper.run (Connection.send { c with hooks } client network) env (.text p.text) who).sent
      let params := r.params ++ Connection.tokenParams token
      (sent = [⟨r.method, p.base ++ r.address, params⟩] ↔ p.IsLower) ∧
        (¬ p.IsLower → sent = [⟨r.method, p.base ++ "/" ++ p.base ++ r.address, params⟩]) := by
  obtain ⟨r, hr⟩ := exists_asksFor h
  refine ⟨_, r, new_eq hp env token, hr.asked, hr.format, ?_⟩
  have hsent := hr.sent_eq hp ⟨p.base, token, hooks⟩ client network env who
  dsimp only
  rw [hsent]
  by_cases hlower : p.IsLower
  · rw [Connection.resolve_of_isLower hp hlower]
    exact ⟨iff_of_true rfl hlower, fun hnot => absurd hlower hnot⟩
  · rw [Connection.resolve_of_not_isLower hp hlower]
    refine ⟨iff_of_false (fun hsame => ?_) hlower, fun _ => ?_⟩
    · -- the portal in front makes the address longer
      have haddress := congrArg Request.address (List.head_eq_of_cons_eq hsame)
      have hlength := congrArg List.length haddress
      simp only [List.length_append, List.length_singleton] at hlength
      omega
    · simp

/-- A group is protected in a portal with slashes at its end, through a connection with a token and
a hook. -/
theorem sent_once_iff_for_group :
    let p : WebPortal := ⟨"https", "h", "/r", 2⟩
    let helper : Helper := .operate .protect (.text "a/b")
    let network : Request → Response := fun _ => ⟨200, none, none, "{}", ⟨none, none, .null⟩⟩
    p.IsWeb ∧ helper.IsComplete ∧ p.text = "https://h/r//" ∧
      ∃ c, Connection.new Environment.initial (.text p.text) (some "t") = .ok c ∧
        (helper.run (Connection.send { c with hooks := [.brief] } .standard network)
          Environment.initial (.text p.text) .none).sent =
            [⟨.post, "https://h/r/community/groups/a%2Fb/protect",
              [("f", .text "json"), ("token", .text "t")]⟩] := by
  intro p helper network
  have hp : p.IsWeb :=
    ⟨by decide, ⟨by decide, List.all_iff_forall_prop.mp (by decide)⟩, by decide⟩
  have hcomplete : helper.IsComplete := rfl
  have hscheme : p.IsLower := List.mem_cons_of_mem _ List.mem_cons_self
  obtain ⟨c, r, hc, hasked, -, hlower, -⟩ :=
    sent_once_iff Environment.initial .none (some "t") [.brief] .standard network hp hcomplete
  obtain rfl := Except.ok.inj hasked
  exact ⟨hp, hcomplete, rfl, c, hc, hlower.mpr hscheme⟩

/-- A search in a portal whose scheme is in upper case asks below the portal in the portal. -/
theorem portal_stands_twice :
    let portal : Value := .text "HTTPS://h/r"
    let network : Request → Response := fun _ => ⟨200, none, none, "{}", ⟨none, none, .null⟩⟩
    let params : Params := [("f", .text "json"), ("q", .text "x"), ("start", .int 1),
      ("num", .int 10)]
    let call (send : Transport) : Exchange :=
      Search.items send Environment.initial (.text "x") {} portal .none
    ∃ c, Connection.new Environment.initial portal none = .ok c ∧
      (call (c.send .standard network)).sent =
        [⟨.get, "HTTPS://h/r/HTTPS://h/r/search", params⟩] ∧
      (call (c.send .standard network)).sent ≠ [⟨.get, "HTTPS://h/r/search", params⟩] := by
  intro portal network params call
  have hsent : (call (Connection.send ⟨"HTTPS://h/r", none, []⟩ .standard network)).sent =
      [⟨.get, "HTTPS://h/r/HTTPS://h/r/search", params⟩] := rfl
  refine ⟨⟨"HTTPS://h/r", none, []⟩, rfl, hsent, fun hsame => ?_⟩
  have haddress := congrArg Request.address (List.head_eq_of_cons_eq (hsent.symm.trans hsame))
  exact absurd haddress (by decide)

end Helper

end PortalSearch
