import PortalSearch.Proofs.Json.Writing
import PortalSearch.Proofs.Search.Kinds

/-!
# Categories that are sent

The categories of a search for items are one parameter, a JSON text, while all other options are
sent as they are. Whoever reads that text finds the list that was given: its texts with every
character they have, its numbers with every digit, and its lists as deeply nested as they were.

Main result: `categories_read_back`.
-/

namespace PortalSearch.Search

variable {query : Text} {o : SearchOptions} {k : SearchKind} {vs : List Value} {t : Text}

/-- Searches for items, a group's or not, take all parameters. -/
theorem paramsOf_of_items (hk : k = .content ∨ k = .groupContent) (params : Params) :
    paramsOf k params = params := by
  rcases hk with rfl | rfl <;> rfl

/-- Under the name of the categories their JSON text is sent, and nothing else. -/
theorem mem_categories_iff (hgiven : o.categories.isGiven = true)
    (ht : Json.write o.categories = some t) {v : Value} :
    ("categories".toList, v) ∈ required query o ++ given (optionals o) ↔ v = .text t := by
  have hmem : (⟨"categories", o.categories, .text t⟩ : Optional) ∈ optionals o := by
    simp [optionals, ht, Value.ofText?]
  exact (mem_params_iff query hmem).trans (and_iff_right hgiven)

variable {base : Text}

/-- **Categories survive**: a search for items sends a list of nulls, truth values, whole numbers,
texts and lists of these as one text of printable characters of the basic set. That text is JSON for
the list and for nothing else, so a reader of JSON gives the list back. -/
theorem categories_read_back (env : Environment) (query : SearchQuery) (o : SearchOptions)
    (kind group portal : Value) (who : Credentials)
    (hcategories : o.categories = .list vs) (hne : vs ≠ []) (hplain : ∀ v ∈ vs, Json.IsPlain v)
    (hbase : Portal.address env portal who = .ok base)
    (hkind : kindOf (Text.lower kind.toText) group = .ok k)
    (hitems : k = .content ∨ k = .groupContent) :
    ∃ r t, Asks (fun send => run send env query kind group o portal who) r ∧
      (∀ v, ("categories".toList, v) ∈ r.params ↔ v = .text t) ∧ Json.IsTextOf t (.list vs) := by
  obtain ⟨t, ht, hread⟩ := Json.exists_isTextOf (.list hplain)
  rw [← hcategories] at ht
  have hgiven : o.categories.isGiven = true := by simpa [hcategories, Value.isGiven] using hne
  have hparams : contentParams query.finished.1 o =
      .ok (required query.finished.1 o ++ given (optionals o)) :=
    contentParams_eq query.finished.1 fun _ => by rw [ht]; rfl
  refine ⟨_, t, asks_of_kindOf hparams hbase hkind, fun v => ?_, hread⟩
  rw [paramsOf_of_items hitems]
  exact mem_categories_iff hgiven ht

/-- Categories with a quote and a character outside the basic plane in a text, a number beyond 64
bits and a list in a list. -/
theorem categories_read_back_of_nested :
    let vs : List Value :=
      [.text "é\"𝄞", .int (-18446744073709551616), .bool false, .null, .list [.list []]]
    let o : SearchOptions := { categories := .list vs, num := .int 0 }
    let env : Environment := ⟨.text "https://h/r", false⟩
    vs ≠ [] ∧ (∀ v ∈ vs, Json.IsPlain v) ∧
      Portal.address env .null .none = .ok "https://h/r".toList ∧
      kindOf (Text.lower (Value.text "Items").toText) .null = .ok .content ∧
      ∃ r t, Asks (fun send => run send env (.text "x") (.text "Items") .null o .null .none) r ∧
        ("categories".toList, .text t) ∈ r.params ∧ (∀ w, Json.IsJsonOf t w ↔ w = .list vs) ∧
        Json.read ⟨20, 3⟩ t = .ok (.list vs) := by
  intro vs o env
  have hne : vs ≠ [] := List.cons_ne_nil _ _
  have hnested : Json.IsPlain (.list [.list []]) :=
    .list (List.forall_mem_singleton.mpr (.list nofun))
  have hplain : ∀ v ∈ vs, Json.IsPlain v := by
    simp only [vs, List.forall_mem_cons]
    exact ⟨.text _, .int _, .bool _, .null, hnested, nofun⟩
  have hbase : Portal.address env .null .none = .ok "https://h/r".toList := rfl
  have hkind : kindOf (Text.lower (Value.text "Items").toText) .null = .ok .content :=
    kindOf_content (by decide) .null
  obtain ⟨r, t, hasks, hcategories, hread⟩ := categories_read_back env (.text "x") o (.text "Items")
    .null .null .none rfl hne hplain hbase hkind (.inl rfl)
  have hfits : Json.Fits 20 3 (.list vs) := by
    refine .list ?_
    simp only [vs, List.forall_mem_cons]
    refine ⟨.text _, .int (by decide), .bool _, .null, ?_, nofun⟩
    exact .list (List.forall_mem_singleton.mpr (.list nofun))
  exact ⟨hne, hplain, hbase, hkind, r, t, hasks, (hcategories _).mpr rfl, hread.only,
    hread.read ⟨20, 3⟩ hfits⟩

end PortalSearch.Search
