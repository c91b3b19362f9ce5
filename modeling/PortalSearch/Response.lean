import PortalSearch.Error

/-!
# Responses

A response comes with a status, a reason and a body. A body that is an object may report an
error; in all other cases a decoded body is the answer. How the status and the text of the
body are dealt with before goes by the client, `Response.answer`.
-/

namespace PortalSearch

/-- What is remembered of the request that a response answers. -/
structure RequestTrace where
  /-- how it was sent -/
  method : Option Text
  /-- where it was sent -/
  address : Option Text
  /-- its body -/
  body : Value

/-- A response. -/
structure Response where
  /-- the status code -/
  status : Int
  /-- the reason behind the status -/
  reason : Option Text
  /-- where it came from -/
  address : Option Text
  /-- the body -/
  body : Text
  /-- the request it answers -/
  request : RequestTrace

namespace Response

/-- What is said where the portal gives no message. -/
def unknownMessage : Value := .text "Unknown portal error."

/-- The error that the value under the name `error` reports. -/
def errorOf : Value → Error
  | .object fields =>
    .reported ((Value.field? "message" fields).getD unknownMessage)
      ((Value.field? "code" fields).getD .null) ((Value.field? "details" fields).getD .null)
  | _ => .errorNotObject

/-- The value under the name `error` of an object, if it counts as given. -/
def reported? : Value → Option Value
  | .object fields => (Value.field? "error" fields).filter Value.isGiven
  | _ => none

/-- The answer that a decoded body gives. -/
def answerOf (body : Value) : Except Error Value :=
  match reported? body with
  | some e => .error (errorOf e)
  | none => .ok body

end Response

end PortalSearch
