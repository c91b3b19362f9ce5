import PortalSearch.Json.Writer
import PortalSearch.Portal
import PortalSearch.Query.Builder.Run
import PortalSearch.Request
import PortalSearch.Text.LowerCase

/-!
# Searching

A search ends in one request for a page of results. There are four kinds: for items, for
the items of one group, for groups and for users. Items take all options; groups and users
take only where to start, how many results to give and how to sort them, and each option
that is given in spite of that is dropped with a record of it. An option that does not
count as given is not sent.

The query is finished first, whatever comes of the search; then the parameters are made,
the portal is looked up, and only then the kind of search is checked.
-/

namespace PortalSearch

/-- What is searched. -/
inductive SearchKind where
  /-- items -/
  | content
  /-- the items of a group -/
  | groupContent
  /-- users -/
  | users
  /-- groups -/
  | groups
  deriving DecidableEq

/-- The kind that a name in lower case stands for. -/
def SearchKind.ofName? (name : Text) : Option SearchKind :=
  let names : List (Text × SearchKind) :=
    [("content", .content), ("item", .content), ("items", .content),
      ("group_content", .groupContent), ("user", .users), ("users", .users), ("group", .groups),
      ("groups", .groups)]
  (names.find? fun n => n.1 == name).map Prod.snd

/-- The options of a search. -/
structure SearchOptions where
  /-- the position of the first result, counted from one -/
  start : Value := .int 1
  /-- how many results to give at most -/
  num : Value := .int 10
  /-- the field to sort by -/
  sortField : Value := .null
  /-- the direction to sort in -/
  sortOrder : Value := .null
  /-- the area to search in, as a text or as its four bounds -/
  bbox : Value := .null
  /-- categories to search in -/
  categories : Value := .null
  /-- terms that a category has to hold -/
  categoryFilter : Value := .null
  /-- fields whose values are counted -/
  countFields : Value := .null
  /-- how many values of each are counted -/
  countSize : Value := .null

/-- What is searched for. -/
inductive SearchQuery where
  /-- a query text -/
  | text (t : Text)
  /-- a query under construction, whose warnings go to a receiver -/
  | builder (b : Builder) (receiver : Option Receiver)

/-- The finished query, and what finishing told. -/
def SearchQuery.finished : SearchQuery → Text × Journal
  | text t => (t, .empty)
  | builder b receiver => (b.finish.1.text, b.finishJournal receiver)

namespace Search

/-! ## Parameters -/

/-- An area as one text: the bounds with commas between them. -/
def bboxValue : Value → Value
  | .list vs => .text (List.intercalate [','] (vs.map Value.toText))
  | v => v

/-- A parameter, if its value counts as given. -/
def optional (name : Text) (v : Value) : Params := if v.isGiven then [(name, v)] else []

/-- Categories as a JSON text; nothing if they do not count as given. -/
def categoriesValue (v : Value) : Except Error Value :=
  if !v.isGiven then .ok .null
  else match Json.write v with
    | some t => .ok (.text t)
    | none => .error .categoriesNotJson

/-- The parameters of a search for items. -/
def contentParams (query : Text) (o : SearchOptions) : Except Error Params :=
  (categoriesValue o.categories).map fun categories =>
    ([("f", .text "json"), ("q", .text query), ("start", o.start), ("num", o.num)] : Params) ++
      optional "sortField" o.sortField ++ optional "sortOrder" o.sortOrder ++
      optional "categories" categories ++ optional "categoryFilters" o.categoryFilter ++
      optional "countFields" o.countFields ++ optional "countSize" o.countSize ++
      (if o.bbox.isGiven then ([("bbox", bboxValue o.bbox)] : Params) else [])

/-- The parameters that a search for users or groups takes. -/
def communityNames : List Text := ["q", "start", "num", "sortField", "sortOrder", "f"]

/-- Whether a search for users or groups takes a parameter. -/
def isCommunity (p : Text × Value) : Bool := communityNames.contains p.1

/-- The parameters that a kind of search takes. -/
def paramsOf (kind : SearchKind) (params : Params) : Params :=
  match kind with
  | .content | .groupContent => params
  | .users | .groups => params.filter isCommunity

/-! ## The request -/

/-- Where a kind of search is sent in a portal. The address of a group's content holds the
identifier of the group as it is. -/
def address (base : Text) (kind : SearchKind) (group : Value) : Text :=
  match kind with
  | .content => base ++ "/search"
  | .groupContent => base ++ "/content/groups/" ++ group.toText ++ "/search"
  | .users => base ++ "/community/users"
  | .groups => base ++ "/community/groups"

/-- A record of a parameter that was dropped. -/
def droppedRecord (name : Text) (p : Text × Value) : Record :=
  ⟨.search, .debug, "Dropping " ++ p.1 ++ ", it is not supported when searching " ++ name⟩

/-- The record of a search. -/
def searchRecord (name query : Text) (o : SearchOptions) : Record :=
  ⟨.search, .debug, "Searching " ++ name ++ " (q=" ++ query ++ ", start=" ++ o.start.toText ++
    ", num=" ++ o.num.toText ++ ")"⟩

/-- The kind that a name stands for in any letter case; a group's content needs a group. -/
def kindOf (name : Text) (group : Value) : Except Error SearchKind :=
  match SearchKind.ofName? name with
  | none => .error (.unknownSearch name)
  | some .groupContent => if group.isGiven then .ok .groupContent else .error .noGroupToSearch
  | some kind => .ok kind

/-- The request of a search for a finished query, and what is told about it. -/
def request (env : Environment) (query : Text) (kind group : Value) (o : SearchOptions)
    (portal : Value) (who : Credentials) : Except Error (Request × Journal) := do
  let params ← contentParams query o
  let base ← Portal.address env portal who
  let name := Text.lower kind.toText
  let kind ← kindOf name group
  let taken := paramsOf kind params
  let dropped := match kind with
    | .content | .groupContent => []
    | .users | .groups => params.filter fun p => !isCommunity p
  return (⟨.get, address base kind group, taken⟩,
    ⟨[], dropped.map (droppedRecord name) ++ [searchRecord name query o]⟩)

/-- Searches through a transport. -/
def run (send : Transport) (env : Environment) (query : SearchQuery) (kind group : Value)
    (o : SearchOptions) (portal : Value) (who : Credentials) : Exchange :=
  let finished := query.finished
  .after finished.2 <|
    match request env finished.1 kind group o portal who with
    | .error e => .failed e
    | .ok (r, told) => .after told (send r)

/-! ## By kind -/

/-- Searches for items. -/
def items (send : Transport) (env : Environment) (query : SearchQuery) (o : SearchOptions)
    (portal : Value) (who : Credentials) : Exchange :=
  run send env query (.text "content") .null o portal who

/-- Searches for the items of a group. -/
def groupContent (send : Transport) (env : Environment) (query : SearchQuery) (group : Value)
    (o : SearchOptions) (portal : Value) (who : Credentials) : Exchange :=
  run send env query (.text "group_content") group o portal who

/-- Searches for groups. -/
def groups (send : Transport) (env : Environment) (query : SearchQuery) (o : SearchOptions)
    (portal : Value) (who : Credentials) : Exchange :=
  run send env query (.text "groups") .null o portal who

/-- Searches for users. -/
def users (send : Transport) (env : Environment) (query : SearchQuery) (o : SearchOptions)
    (portal : Value) (who : Credentials) : Exchange :=
  run send env query (.text "users") .null o portal who

end Search

end PortalSearch
