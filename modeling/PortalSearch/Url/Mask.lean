import PortalSearch.Url.Parts

/-!
# Masking tokens

A token in the query of an address or in a request body is not for the log: each
parameter that begins with `token=` is shown as `token=***`. A text without such a
beginning anywhere is left as it is, not even taken apart.
-/

namespace PortalSearch.Url

/-- How a token parameter begins. -/
def tokenLead : Text := "token="

/-- One parameter, masked if it is a token. -/
def maskPart (part : Text) : Text := if tokenLead.isPrefixOf part then "token=***" else part

/-- Parameters between ampersands, the tokens among them masked. -/
def maskParams (params : Text) : Text :=
  List.intercalate ['&'] ((params.splitOn '&').map maskPart)

/-- An address with the tokens of its query masked. -/
def mask (url : Text) : Except UrlError Text :=
  if Text.hasPart tokenLead url then
    (split url).map fun p => { p with query := maskParams p.query }.join
  else .ok url

end PortalSearch.Url
