import PortalSearch.Value
import PortalSearch.Url.Host

/-!
# Errors

Why a call fails. The first causes are found before anything is sent; the others come
from a response, or from writing it to the log. `Error.message` is what is said about a
cause. An error that the portal itself reports carries the portal's own message, which may
be any value.
-/

namespace PortalSearch

/-- A cause of failure. -/
inductive Error where
  /-- the address of the portal is not a text -/
  | portalNotText
  /-- the credentials name no user -/
  | noUsername
  /-- no group is named -/
  | noGroup
  /-- a group's content is searched and no group is named -/
  | noGroupToSearch
  /-- there is no such kind of search -/
  | unknownSearch (kind : Text)
  /-- the categories have no JSON text -/
  | categoriesNotJson
  /-- an address cannot be taken apart -/
  | url (cause : Url.UrlError)
  /-- the status of a response is that of an error -/
  | http (message status : Value)
  /-- the body of a response is not JSON -/
  | bodyNotJson
  /-- the body of a response holds a whole number with more digits than the machine has for one -/
  | numberTooLong (limit digits : Nat)
  /-- the lists and objects in the body of a response are nested too deeply -/
  | bodyTooDeep
  /-- a response reports an error that is no object -/
  | errorNotObject
  /-- the portal reports an error -/
  | portal (message code details : Value)

namespace Error

/-- A text that may be missing, as a message shows it. -/
def shown (t : Option Text) : Text := t.getD "None"

/-- What is said about a cause. -/
def message : Error → Value
  | portalNotText => .text "The portal is not a text."
  | noUsername => .text "The session does not have a username."
  | noGroup => .text "A group id is required."
  | noGroupToSearch => .text "A group_id is required to search group content."
  | unknownSearch kind => .text ("Invalid search type: " ++ kind)
  | categoriesNotJson => .text "The categories have no JSON text."
  | url cause => .text cause.message
  | http message _ => message
  | bodyNotJson => .text "The response body is not JSON."
  | numberTooLong limit digits =>
    .text ("Exceeds the limit (" ++ Text.ofNat limit ++
      " digits) for integer string conversion: value has " ++ Text.ofNat digits ++
      " digits; use sys.set_int_max_str_digits() to increase the limit")
  | bodyTooDeep => .text "The response body is nested too deeply."
  | errorNotObject => .text "The reported error is not an object."
  | portal message _ _ => message

/-- An error that the portal reports. Details that do not count as given are none. -/
def reported (message code details : Value) : Error :=
  .portal message code (details.orElse (.list []))

end Error

end PortalSearch
