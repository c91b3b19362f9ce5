import Mathlib.Data.List.Nodup
import PortalSearch.Proofs.Query.Ending
import PortalSearch.Search

/-!
# Kinds of search

A search either fails before anything is sent, or hands one request over and gives the answer back
as it is. Which of the two it does shows in the name of its kind, in lower case, and in the group
that a search of a group's content needs. All kinds start from the same parameters: the query and
the page are always among them, and of the other options those that count as given. Users and groups
take some of these parameters and leave out the rest; no kind adds or changes one.

Main result: for equal query and options, `search_by_kind` says for every name what is sent.
-/

namespace PortalSearch.Search

/-! ## What a search comes to -/

/-- Whether a call fails, whatever the transport, with nothing sent. -/
def Refuses (call : Transport → Exchange) (e : Error) : Prop :=
  ∃ told, ∀ send, call send = .after told (.failed e)

/-- Whether a call sends one request, whatever the transport, and gives back what comes of it. -/
def Asks (call : Transport → Exchange) (r : Request) : Prop :=
  ∃ told, ∀ send, call send = .after told (send r)

variable {call : Transport → Exchange} {e e' : Error} {r r' : Request}

theorem Refuses.error_eq (h : Refuses call e) (h' : Refuses call e') : e = e' := by
  obtain ⟨told, hfails⟩ := h
  obtain ⟨told', hfails'⟩ := h'
  have hanswer := congrArg Exchange.answer
    ((hfails (Transport.always .null)).symm.trans (hfails' (Transport.always .null)))
  exact Except.error.inj hanswer

theorem Asks.not_refuses (h : Asks call r) : ¬ Refuses call e := by
  rintro ⟨told', hfails⟩
  obtain ⟨told, hsends⟩ := h
  have hsent := congrArg Exchange.sent
    ((hsends (Transport.always .null)).symm.trans (hfails (Transport.always .null)))
  exact List.cons_ne_nil r [] hsent

theorem Asks.request_eq (h : Asks call r) (h' : Asks call r') : r = r' := by
  obtain ⟨told, hsends⟩ := h
  obtain ⟨told', hsends'⟩ := h'
  have hsent := congrArg Exchange.sent
    ((hsends (Transport.always .null)).symm.trans (hsends' (Transport.always .null)))
  exact List.head_eq_of_cons_eq hsent

/-! ## Names -/

/-- The names of a search for items. -/
def contentNames : List Text := ["content", "item", "items"]

/-- The names of a search for users. -/
def userNames : List Text := ["user", "users"]

/-- The names of a search for groups. -/
def groupNames : List Text := ["group", "groups"]

/-- The name of a search for the items of a group. -/
def groupContentName : Text := "group_content"

variable {name : Text} {group : Value}

theorem kindOf_content (h : name ∈ contentNames) (group : Value) :
    kindOf name group = .ok .content := by
  simp only [contentNames, List.mem_cons, List.not_mem_nil, or_false] at h
  rcases h with rfl | rfl | rfl <;> rfl

theorem kindOf_users (h : name ∈ userNames) (group : Value) : kindOf name group = .ok .users := by
  simp only [userNames, List.mem_cons, List.not_mem_nil, or_false] at h
  rcases h with rfl | rfl <;> rfl

theorem kindOf_groups (h : name ∈ groupNames) (group : Value) :
    kindOf name group = .ok .groups := by
  simp only [groupNames, List.mem_cons, List.not_mem_nil, or_false] at h
  rcases h with rfl | rfl <;> rfl

theorem kindOf_groupContent (group : Value) : kindOf groupContentName group =
    if group.isGiven then .ok .groupContent else .error .noGroupToSearch := rfl

/-- All names that a search may have. -/
def allNames : List Text := contentNames ++ [groupContentName] ++ userNames ++ groupNames

theorem kindOf_unknown (h : name ∉ allNames) (group : Value) :
    kindOf name group = .error (.unknownSearch name) := by
  have hnone : SearchKind.ofName? name = none := by
    rw [SearchKind.ofName?, Option.map_eq_none_iff, List.find?_eq_none]
    intro n hn hname
    refine h (eq_of_beq hname ▸ ?_)
    clear hname
    revert n
    decide
  rw [kindOf, hnone]

/-! ## Parameters -/

/-- An option that is only sent if it counts as given. -/
structure Optional where
  /-- the name of its parameter -/
  name : Text
  /-- the option -/
  option : Value
  /-- the form in which it is sent -/
  sent : Value

/-- The options that are only sent if they count as given. -/
def optionals (o : SearchOptions) : List Optional :=
  [⟨"sortField", o.sortField, o.sortField⟩, ⟨"sortOrder", o.sortOrder, o.sortOrder⟩,
    ⟨"categories", o.categories, .ofText? (Json.write o.categories)⟩,
    ⟨"categoryFilters", o.categoryFilter, o.categoryFilter⟩,
    ⟨"countFields", o.countFields, o.countFields⟩, ⟨"countSize", o.countSize, o.countSize⟩,
    ⟨"bbox", o.bbox, bboxValue o.bbox⟩]

/-- The parameters of those options that count as given. -/
def given (os : List Optional) : Params :=
  (os.filter fun r => r.option.isGiven).map fun r => (r.name, r.sent)

/-- The parameters that all searches have. -/
def required (query : Text) (o : SearchOptions) : Params :=
  [("f", .text "json"), ("q", .text query), ("start", o.start), ("num", o.num)]

/-- Whether the categories can be sent: none are given, or they have a JSON text. -/
def HasJson (o : SearchOptions) : Prop :=
  o.categories.isGiven = true → (Json.write o.categories).isSome = true

variable {o : SearchOptions}

theorem given_nil : given [] = [] := rfl

theorem given_cons (r : Optional) (os : List Optional) :
    given (r :: os) = (if r.option.isGiven then [(r.name, r.sent)] else []) ++ given os := by
  rw [given, List.filter_cons]
  split <;> rfl

theorem write_ne_nil {v : Value} {t : Text} (h : Json.write v = some t) : t ≠ [] := by
  cases v with
  | null | text =>
    rw [Json.write] at h
    obtain rfl := Option.some.inj h
    nofun
  | bool b =>
    rw [Json.write] at h
    obtain rfl := Option.some.inj h
    cases b <;> nofun
  | int n =>
    rw [Json.write] at h
    obtain rfl := Option.some.inj h
    obtain ⟨c, hc, -⟩ := Text.endsSolid_ofInt n
    exact List.ne_nil_of_mem (List.mem_of_getLast? hc)
  | float x =>
    rw [Json.write, Json.writeFloat] at h
    obtain rfl := Option.some.inj h
    obtain ⟨c, hc, -⟩ := Decimal.Layout.endsSolid_text Value.layout x
    have htext := List.ne_nil_of_mem (List.mem_of_getLast? hc)
    split
    · nofun
    · split
      · split <;> nofun
      · exact htext
  | list | object =>
    rw [Json.write, Option.map_eq_some_iff] at h
    obtain ⟨parts, -, rfl⟩ := h
    nofun
  | bytes | date | moment =>
    rw [Json.write] at h
    cases h

/-- Categories are sent as their JSON text, which is never empty. -/
theorem exists_categoriesValue (h : HasJson o) :
    ∃ v, categoriesValue o.categories = .ok v ∧ optional "categories" v =
      if o.categories.isGiven then
        [("categories".toList, Value.ofText? (Json.write o.categories))] else [] := by
  rw [categoriesValue]
  cases hgiven : o.categories.isGiven with
  | false => exact ⟨.null, rfl, rfl⟩
  | true =>
    obtain ⟨t, ht⟩ := Option.isSome_iff_exists.mp (h hgiven)
    refine ⟨.text t, by rw [ht]; rfl, ?_⟩
    have htext : (Value.text t).isGiven = true := by simpa [Value.isGiven] using write_ne_nil ht
    rw [optional, htext, ht]
    rfl

/-- The parameters of a search for items: those that all have, then the options that count as
given. -/
theorem contentParams_eq (query : Text) (h : HasJson o) :
    contentParams query o = .ok (required query o ++ given (optionals o)) := by
  obtain ⟨categories, hvalue, hcategories⟩ := exists_categoriesValue h
  rw [contentParams, hvalue, optionals]
  repeat rw [given_cons]
  rw [given_nil, List.append_nil]
  refine congrArg Except.ok ?_
  dsimp only
  rw [hcategories]
  repeat rw [List.append_assoc]
  rfl

/-- The names of the options that are only sent if they count as given. -/
def optionalNames : List Text :=
  ["sortField", "sortOrder", "categories", "categoryFilters", "countFields", "countSize", "bbox"]

/-- The names of the parameters that all searches have. -/
def requiredNames : List Text := ["f", "q", "start", "num"]

theorem map_name_optionals (o : SearchOptions) :
    (optionals o).map Optional.name = optionalNames := rfl

theorem map_fst_required (query : Text) (o : SearchOptions) :
    (required query o).map Prod.fst = requiredNames := rfl

/-- A search for items sends no parameters of other names. -/
theorem mem_names {query name : Text}
    (h : name ∈ (required query o ++ given (optionals o)).map Prod.fst) :
    name ∈ requiredNames ++ optionalNames := by
  rw [List.map_append, List.mem_append, map_fst_required, given, List.map_map] at h
  rcases h with hrequired | hgiven
  · exact List.mem_append_left _ hrequired
  · obtain ⟨r, hr, rfl⟩ := List.mem_map.mp hgiven
    refine List.mem_append_right _ ?_
    rw [← map_name_optionals o]
    exact List.mem_map_of_mem (List.mem_filter.mp hr).1

/-- Under the name of an option nothing else is sent than that option, if it counts as given. -/
theorem mem_params_iff (query : Text) {r : Optional} (hr : r ∈ optionals o) {v : Value} :
    (r.name, v) ∈ required query o ++ given (optionals o) ↔
      r.option.isGiven = true ∧ v = r.sent := by
  have hnodup : ((optionals o).map Optional.name).Nodup := by
    rw [map_name_optionals]
    decide
  have hother : ∀ name ∈ optionalNames, name ∉ requiredNames := by decide
  constructor
  · intro hmem
    rcases List.mem_append.mp hmem with hmem | hmem
    · refine absurd ?_ (hother r.name (map_name_optionals o ▸ List.mem_map_of_mem hr))
      exact map_fst_required query o ▸ List.mem_map_of_mem hmem
    · obtain ⟨s, hs, heq⟩ := List.mem_map.mp hmem
      obtain ⟨hs, hgiven⟩ := List.mem_filter.mp hs
      obtain ⟨hname, rfl⟩ := Prod.mk.inj heq
      obtain rfl := List.inj_on_of_nodup_map hnodup hs hr hname
      exact ⟨hgiven, rfl⟩
  · rintro ⟨hgiven, rfl⟩
    exact List.mem_append_right _ (List.mem_map.mpr ⟨r, List.mem_filter.mpr ⟨hr, hgiven⟩, rfl⟩)

/-- An option that does not count as given is not sent, under its name or any other. -/
theorem not_mem_names (query : Text) {r : Optional} (hr : r ∈ optionals o)
    (h : r.option.isGiven = false) :
    r.name ∉ (required query o ++ given (optionals o)).map Prod.fst := by
  intro hmem
  obtain ⟨⟨name, v⟩, hmem, hname⟩ := List.mem_map.mp hmem
  obtain rfl : name = r.name := hname
  obtain ⟨hgiven, -⟩ := (mem_params_iff query hr).mp hmem
  rw [h] at hgiven
  cases hgiven

/-! ## By name -/

/-- The names of the parameters that users and groups take. -/
def takenNames : List Text := ["q", "start", "num", "sortField", "sortOrder", "f"]

/-- What a search does by its name: it fails, or it sends parameters, or those of them that users
and groups take, to an address of its kind. -/
structure GoesBy (name : Text) (group : Value) (base : Text) (params : Params)
    (search : Transport → Exchange) : Prop where
  /-- it fails exactly if the name is unknown, or names a group's content without a group -/
  refuses : (∃ e, Refuses search e) ↔
    name ∉ allNames ∨ name = groupContentName ∧ group.isGiven = false
  /-- the two causes of failure -/
  cause : ∀ e, Refuses search e →
    e = if name = groupContentName then .noGroupToSearch else .unknownSearch name
  /-- a search for items -/
  content : name ∈ contentNames → Asks search ⟨.get, base ++ "/search", params⟩
  /-- a search for the items of a group -/
  groupContent : name = groupContentName → group.isGiven = true →
    Asks search ⟨.get, base ++ "/content/groups/" ++ group.toText ++ "/search", params⟩
  /-- a search for users -/
  users : name ∈ userNames →
    Asks search ⟨.get, base ++ "/community/users", params.filter fun p => p.1 ∈ takenNames⟩
  /-- a search for groups -/
  groups : name ∈ groupNames →
    Asks search ⟨.get, base ++ "/community/groups", params.filter fun p => p.1 ∈ takenNames⟩

variable {base : Text} {params : Params}

/-- A search that does what its kind asks for goes by its name. -/
theorem goesBy_of_kindOf
    (hasks : ∀ k, kindOf name group = .ok k →
      Asks call ⟨.get, address base k group, paramsOf k params⟩)
    (hrefuses : ∀ e, kindOf name group = .error e → Refuses call e) :
    GoesBy name group base params call := by
  have hcontent (hname : name ∈ contentNames) : Asks call ⟨.get, base ++ "/search", params⟩ :=
    hasks _ (kindOf_content hname group)
  have hgroupContent (hname : name = groupContentName) (hgiven : group.isGiven = true) :
      Asks call ⟨.get, base ++ "/content/groups/" ++ group.toText ++ "/search", params⟩ :=
    hasks .groupContent (by rw [hname, kindOf_groupContent, if_pos hgiven])
  have htaken : params.filter isCommunity = params.filter fun p => p.1 ∈ takenNames := by
    refine List.filter_congr fun p _ => ?_
    rw [isCommunity, List.contains_eq_mem]
    rfl
  have husers (hname : name ∈ userNames) :
      Asks call ⟨.get, base ++ "/community/users", params.filter fun p => p.1 ∈ takenNames⟩ := by
    rw [← htaken]
    exact hasks _ (kindOf_users hname group)
  have hgroups (hname : name ∈ groupNames) :
      Asks call ⟨.get, base ++ "/community/groups", params.filter fun p => p.1 ∈ takenNames⟩ := by
    rw [← htaken]
    exact hasks _ (kindOf_groups hname group)
  have hunknown (hname : name ∉ allNames) : Refuses call (.unknownSearch name) :=
    hrefuses _ (kindOf_unknown hname group)
  have hnoGroup (hname : name = groupContentName) (hgiven : group.isGiven = false) :
      Refuses call .noGroupToSearch :=
    hrefuses _ (by rw [hname, kindOf_groupContent, hgiven]; rfl)
  have hrefused {e : Error} (he : Refuses call e) :
      name ∉ allNames ∨ name = groupContentName ∧ group.isGiven = false := by
    by_cases hknown : name ∈ allNames
    · simp only [allNames, List.mem_append, List.mem_singleton] at hknown
      rcases hknown with ((hname | hname) | hname) | hname
      · exact absurd he (hcontent hname).not_refuses
      · refine .inr ⟨hname, Bool.eq_false_iff.mpr fun hgiven => ?_⟩
        exact (hgroupContent hname hgiven).not_refuses he
      · exact absurd he (husers hname).not_refuses
      · exact absurd he (hgroups hname).not_refuses
    · exact .inl hknown
  refine ⟨⟨fun ⟨e, he⟩ => hrefused he, ?_⟩, ?_, hcontent, hgroupContent, husers, hgroups⟩
  · rintro (hname | ⟨hname, hgiven⟩)
    · exact ⟨_, hunknown hname⟩
    · exact ⟨_, hnoGroup hname hgiven⟩
  · intro e he
    rcases hrefused he with hname | ⟨hname, hgiven⟩
    · have hother : name ≠ groupContentName := fun heq => hname (heq ▸ by decide)
      rw [if_neg hother]
      exact he.error_eq (hunknown hname)
    · rw [if_pos hname]
      exact he.error_eq (hnoGroup hname hgiven)

variable {env : Environment} {query : SearchQuery} {kind portal : Value} {who : Credentials}
  {k : SearchKind}

/-- A search of a known kind sends its request. -/
theorem asks_of_kindOf (hparams : contentParams query.finished.1 o = .ok params)
    (hbase : Portal.address env portal who = .ok base)
    (hkind : kindOf (Text.lower kind.toText) group = .ok k) :
    Asks (fun send => run send env query kind group o portal who)
      ⟨.get, address base k group, paramsOf k params⟩ := by
  obtain ⟨told, hrequest⟩ : ∃ told, request env query.finished.1 kind group o portal who =
      .ok (⟨.get, address base k group, paramsOf k params⟩, told) := by
    rw [request, hparams, hbase]
    dsimp only [bind, Except.bind]
    rw [hkind]
    exact ⟨_, rfl⟩
  refine ⟨query.finished.2 ++ told, fun send => ?_⟩
  change run send env query kind group o portal who = _
  rw [run, hrequest, Exchange.after_append]

theorem refuses_of_contentParams (hparams : contentParams query.finished.1 o = .error e) :
    Refuses (fun send => run send env query kind group o portal who) e := by
  have hrequest : request env query.finished.1 kind group o portal who = .error e := by
    rw [request, hparams]
    rfl
  refine ⟨query.finished.2, fun send => ?_⟩
  change run send env query kind group o portal who = _
  rw [run, hrequest]

theorem refuses_of_kindOf (hparams : contentParams query.finished.1 o = .ok params)
    (hbase : Portal.address env portal who = .ok base)
    (hkind : kindOf (Text.lower kind.toText) group = .error e) :
    Refuses (fun send => run send env query kind group o portal who) e := by
  have hrequest : request env query.finished.1 kind group o portal who = .error e := by
    rw [request, hparams, hbase]
    dsimp only [bind, Except.bind]
    rw [hkind]
  refine ⟨query.finished.2, fun send => ?_⟩
  change run send env query kind group o portal who = _
  rw [run, hrequest]

/-- **What a search sends** shows in the name of its kind. For equal query and options all kinds
draw on the same parameters, which hold the query and the page, and the options that count as
given. -/
theorem search_by_kind (env : Environment) (query : SearchQuery) (o : SearchOptions)
    (portal : Value) (who : Credentials) (hbase : Portal.address env portal who = .ok base)
    (hcategories : HasJson o) :
    let params := required query.finished.1 o ++ given (optionals o)
    (∀ r ∈ optionals o, r.option.isGiven = false → r.name ∉ params.map Prod.fst) ∧
      ∀ kind group : Value, GoesBy (Text.lower kind.toText) group base params
        fun send => run send env query kind group o portal who := by
  intro params
  have hparams : contentParams query.finished.1 o = .ok params :=
    contentParams_eq query.finished.1 hcategories
  refine ⟨fun r => not_mem_names query.finished.1, ?_⟩
  intro kind group
  refine goesBy_of_kindOf ?_ ?_
  · exact fun k => asks_of_kindOf hparams hbase
  · exact fun e => refuses_of_kindOf hparams hbase

/-- A query under construction, sorted, in an area and without a number of counted values: users are
searched without the area, a group's content not at all as long as no group is named. -/
theorem search_by_kind_of_builder :
    let env : Environment := ⟨.text Portal.standard, true⟩
    let b := ((Builder.ofSeed []).run [.edit .startGroup, .edit (.terms [.text "a b"])]).1
    let o : SearchOptions :=
      { sortField := .text "title", bbox := .list [.int 1, .int 2], countSize := .int 0,
        categories := .list [.text "é", .list [.null]] }
    let search (kind : Value) : Transport → Exchange := fun send =>
      run send env (.builder b none) kind .null o (.text "https://h/r//") .none
    Portal.address env (.text "https://h/r//") .none = .ok "https://h/r".toList ∧ HasJson o ∧
      "countSize".toList ∉ (required "(\"a b\")" o ++ given (optionals o)).map Prod.fst ∧
      Asks (search (.text "USERS")) ⟨.get, "https://h/r/community/users",
        [("f", .text "json"), ("q", .text "(\"a b\")"), ("start", .int 1), ("num", .int 10),
          ("sortField", .text "title")]⟩ ∧
      Refuses (search (.text "Group_Content")) .noGroupToSearch := by
  intro env b o search
  have hbase : Portal.address env (.text "https://h/r//") .none = .ok "https://h/r".toList := rfl
  have hcategories : HasJson o := fun _ => by decide
  have hquery : (SearchQuery.builder b none).finished.1 = "(\"a b\")".toList := by decide +kernel
  obtain ⟨habsent, hgoes⟩ :=
    search_by_kind env (.builder b none) o (.text "https://h/r//") .none hbase hcategories
  rw [hquery] at habsent hgoes
  refine ⟨hbase, hcategories, ?_, ?_, ?_⟩
  · exact habsent ⟨"countSize", .int 0, .int 0⟩ (by simp [optionals, o]) (by decide)
  · exact (hgoes (.text "USERS") .null).users (by decide)
  · have hgroup := hgoes (.text "Group_Content") .null
    obtain ⟨e, he⟩ := hgroup.refuses.mpr (.inr (by decide))
    have hcause : e = .noGroupToSearch := (hgroup.cause e he).trans (if_pos (by decide))
    exact hcause ▸ he

end PortalSearch.Search
