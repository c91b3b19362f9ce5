import PortalSearch.Text.Basic

/-!
# What the library shows of itself

Its version, and the names that it gives out, those in capitals first.
-/

namespace PortalSearch

/-- The version of the library. -/
def version : Text := "1.0.0"

/-- The names that the library gives out. -/
def publicNames : List Text :=
  ["BuilderState", "PortalHttpResponseError", "PortalRequestError", "SearchQueryBuilder", "env",
    "get_group_url", "get_portal_url", "get_user_url", "protect_group", "search_group_content",
    "search_groups", "search_items", "search_users", "unprotect_group"]

end PortalSearch
