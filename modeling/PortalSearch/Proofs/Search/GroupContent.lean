import PortalSearch.Group
import PortalSearch.Proofs.Search.Kinds
import PortalSearch.Proofs.Url.Segment

/-!
# The address of a group's content

Two addresses hold the identifier of a group. The address of the group itself, and so the addresses
of what is done to it, hold it in encoded form, as one segment. The address of its content holds it
as it is: every slash in it begins another segment, and a question mark or a number sign begins a
query or a fragment.

Main result: `groupContent_encodes_iff` says for which identifiers the two agree.
-/

namespace PortalSearch.Search

variable {env : Environment} {query : SearchQuery} {o : SearchOptions} {portal : Value}
  {who : Credentials} {base id : Text} {r : Request}

/-! ## Parts of the addresses -/

theorem splitOn_groupContent (base id : Text) :
    List.splitOn '/' (base ++ "/content/groups/" ++ id ++ "/search") =
      List.splitOn '/' base ++ (["content", "groups"] : List Text) ++ List.splitOn '/' id ++
        (["search"] : List Text) := by
  have haddress : base ++ "/content/groups/" ++ id ++ "/search" =
      base ++ (["content", "groups", id, "search"] : List Text).flatMap ('/' :: ·) := by simp
  rw [haddress, Url.splitOn_below]
  simp [List.splitOn_cons_eq_if_modifyHead]

theorem splitOn_group (base id : Text) :
    List.splitOn '/' (base ++ "/community/groups/" ++ Url.encode id) =
      List.splitOn '/' base ++ (["community", "groups", Url.encode id] : List Text) := by
  have haddress : base ++ "/community/groups/" ++ Url.encode id =
      base ++ (["community", "groups", Url.encode id] : List Text).flatMap ('/' :: ·) := by simp
  rw [haddress, Url.splitOn_below]
  simp [Url.splitOn_encode, List.splitOn_cons_eq_if_modifyHead]

/-- The characters that begin a query and a fragment. -/
def openers : List Char := ['?', '#']

theorem mem_groupContent_iff {mark : Char} (h : mark ∈ openers) (base id : Text) :
    mark ∈ base ++ "/content/groups/" ++ id ++ "/search" ↔ mark ∈ base ∨ mark ∈ id := by
  have hfixed : mark ∉ "/content/groups/".toList ∧ mark ∉ "/search".toList := by
    simp only [openers, List.mem_cons, List.not_mem_nil, or_false] at h
    rcases h with rfl | rfl
    · decide
    · decide
  rw [List.mem_append, List.mem_append, List.mem_append, or_iff_left hfixed.2,
    or_iff_left hfixed.1]

theorem mem_group_iff {mark : Char} (h : mark ∈ openers) (base id : Text) :
    mark ∈ base ++ "/community/groups/" ++ Url.encode id ↔ mark ∈ base := by
  have hfixed : mark ∉ "/community/groups/".toList ∧ mark ∈ Url.separators := by
    simp only [openers, List.mem_cons, List.not_mem_nil, or_false] at h
    rcases h with rfl | rfl
    · decide
    · decide
  have hencoded := Url.not_mem_encode_of_separator (t := id) hfixed.2
  rw [List.mem_append, List.mem_append, or_iff_left hencoded, or_iff_left hfixed.1]

/-! ## What is asked for -/

theorem isGiven_text (hid : id ≠ []) : (Value.text id).isGiven = true := by
  simpa [Value.isGiven] using hid

theorem kindOf_groupText (hid : id ≠ []) :
    kindOf (Text.lower (Value.text "group_content").toText) (.text id) = .ok .groupContent := by
  have hname : Text.lower (Value.text "group_content").toText = groupContentName := by decide
  rw [hname, kindOf_groupContent, if_pos (isGiven_text hid)]

theorem groupAddress_text (hbase : Portal.address env portal who = .ok base) (hid : id ≠ []) :
    Portal.groupAddress env (.text id) portal who =
      .ok (base ++ "/community/groups/" ++ Url.encode id) := by
  rw [Portal.groupAddress, isGiven_text hid, hbase]
  rfl

/-- A search of a group's content asks at one address, if it asks at all. -/
theorem address_of_asks (hbase : Portal.address env portal who = .ok base) (hid : id ≠ [])
    (h : Asks (fun send => groupContent send env query (.text id) o portal who) r) :
    r.address = base ++ "/content/groups/" ++ id ++ "/search" := by
  cases hparams : contentParams query.finished.1 o with
  | error e => exact absurd (refuses_of_contentParams hparams) h.not_refuses
  | ok params =>
    rw [h.request_eq (asks_of_kindOf hparams hbase (kindOf_groupText hid))]
    rfl

theorem exists_asks (hbase : Portal.address env portal who = .ok base) (hid : id ≠ [])
    (hcategories : HasJson o) :
    ∃ r, Asks (fun send => groupContent send env query (.text id) o portal who) r :=
  ⟨_, asks_of_kindOf (contentParams_eq query.finished.1 hcategories) hbase (kindOf_groupText hid)⟩

/-- **The address of a group's content** holds the identifier in the same form as that of the group
exactly if all its characters are unreserved. The identifier adds a segment for each of its slashes,
and its question marks and number signs stand in the address as they are, while it is always one
segment in the address of the group, and adds no query and no fragment there. -/
theorem groupContent_encodes_iff (env : Environment) (query : SearchQuery) (o : SearchOptions)
    (portal : Value) (who : Credentials) (hbase : Portal.address env portal who = .ok base)
    (hid : id ≠ []) :
    let search : Transport → Exchange := fun send =>
      groupContent send env query (.text id) o portal who
    let group := base ++ "/community/groups/" ++ Url.encode id
    (HasJson o → ∃ r, Asks search r) ∧
      (∀ r, Asks search r →
        (r.address = base ++ "/content/groups/" ++ Url.encode id ++ "/search" ↔
          ∀ c ∈ id, Url.isUnreserved c = true) ∧
        List.splitOn '/' r.address = List.splitOn '/' base ++ (["content", "groups"] : List Text) ++
          List.splitOn '/' id ++ (["search"] : List Text) ∧
        ∀ mark ∈ openers, mark ∈ r.address ↔ mark ∈ base ∨ mark ∈ id) ∧
      Portal.groupAddress env (.text id) portal who = .ok group ∧
      (∀ op : GroupOperation, op.request env (.text id) portal who =
        .ok ⟨.post, group ++ ['/'] ++ op.word, [("f", .text "json")]⟩) ∧
      List.splitOn '/' group =
        List.splitOn '/' base ++ (["community", "groups", Url.encode id] : List Text) ∧
      ∀ mark ∈ openers, mark ∈ group ↔ mark ∈ base := by
  intro search group
  have hgroup : Portal.groupAddress env (.text id) portal who = .ok group :=
    groupAddress_text hbase hid
  refine ⟨exists_asks hbase hid, fun r hr => ?_, hgroup, fun op => ?_, splitOn_group base id,
    fun mark hmark => mem_group_iff hmark base id⟩
  · rw [address_of_asks hbase hid hr]
    refine ⟨?_, splitOn_groupContent base id, fun mark hmark => mem_groupContent_iff hmark base id⟩
    rw [List.append_left_inj, List.append_right_inj, eq_comm]
    exact Url.encode_eq_self_iff
  · rw [GroupOperation.request, hgroup]
    rfl

/-- A search for the items of a group whose identifier names a folder: the address of the content
goes two segments on for it, and that of the group itself one. -/
theorem groupContent_encodes_iff_in_folder :
    let env : Environment := ⟨.text "https://h", false⟩
    let search : Transport → Exchange := fun send =>
      groupContent send env (.text "x") (.text "a/b?") {} .null .none
    Portal.address env .null .none = .ok "https://h".toList ∧ "a/b?".toList ≠ [] ∧
      (∃ r, Asks search r ∧
        r.address ≠ "https://h" ++ "/content/groups/" ++ Url.encode "a/b?" ++ "/search" ∧
        List.splitOn '/' r.address = (["https:", "", "h"] : List Text) ++
          (["content", "groups"] : List Text) ++ (["a", "b?"] : List Text) ++
          (["search"] : List Text) ∧ '?' ∈ r.address) ∧
      Portal.groupAddress env (.text "a/b?") .null .none =
        .ok ("https://h" ++ "/community/groups/" ++ Url.encode "a/b?") := by
  intro env search
  have hbase : Portal.address env .null .none = .ok "https://h".toList := rfl
  have hid : "a/b?".toList ≠ [] := by decide
  obtain ⟨hasks, haddress, hgroup, -⟩ :=
    groupContent_encodes_iff env (.text "x") {} .null .none hbase hid
  obtain ⟨r, hr⟩ := hasks fun hgiven => by cases hgiven
  obtain ⟨hencoded, hsegments, hmarks⟩ := haddress r hr
  refine ⟨hbase, hid, ⟨r, hr, ?_, hsegments, ?_⟩, hgroup⟩
  · exact fun h => absurd (hencoded.mp h '/' (by decide)) (by decide)
  · exact (hmarks '?' (by decide)).mpr (.inr (by decide))

/-- A group's content is asked for at an address that goes one segment on for a slash in the
identifier, which the address of the group itself holds in encoded form. -/
theorem groupContent_below_slash :
    ¬ ∀ (id : Text), id ≠ [] → ∃ params, Asks
      (fun send => groupContent send Environment.initial (.text "x") (.text id) {} .null .none)
      ⟨.get, Portal.standard ++ "/content/groups/" ++ Url.encode id ++ "/search", params⟩ := by
  intro hall
  have hid : "a/b".toList ≠ [] := by decide
  obtain ⟨params, hasks⟩ := hall "a/b" hid
  have haddress := address_of_asks rfl hid hasks
  dsimp only at haddress
  exact absurd haddress (by decide)

end PortalSearch.Search
