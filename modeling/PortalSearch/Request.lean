import PortalSearch.Error
import PortalSearch.Journal

/-!
# Requests

A request names a method, an address and parameters. Whoever sends it is a `Transport`: it
tells which requests really went out, what came back and what was logged on the way.
Helpers that end in one request are given the transport to send it through.
-/

namespace PortalSearch

/-- How a request is sent. -/
inductive Method where
  /-- parameters in the address -/
  | get
  /-- parameters in the body -/
  | post
  deriving DecidableEq

/-- The word for a method. -/
def Method.word : Method → Text
  | .get => "get"
  | .post => "post"

/-- Parameters in order, each name once. -/
abbrev Params := List (Text × Value)

/-- A request. -/
structure Request where
  /-- how it is sent -/
  method : Method
  /-- where it is sent -/
  address : Text
  /-- what is sent with it -/
  params : Params

/-- What came of a call. -/
structure Exchange where
  /-- the requests that went out, in order -/
  sent : List Request
  /-- the answer -/
  answer : Except Error Value
  /-- what was told -/
  journal : Journal

/-- Something that sends requests. -/
abbrev Transport := Request → Exchange

namespace Exchange

/-- A call that failed before anything was sent. -/
def failed (e : Error) : Exchange := ⟨[], .error e, .empty⟩

/-- With something told before. -/
def after (j : Journal) (x : Exchange) : Exchange := { x with journal := j ++ x.journal }

theorem after_append (a b : Journal) (x : Exchange) : x.after (a ++ b) = (x.after b).after a := by
  rw [after, after, after, Journal.append_assoc]

end Exchange

/-- A transport that always gives the same answer. -/
def Transport.always (answer : Value) : Transport := fun r => ⟨[r], .ok answer, .empty⟩

end PortalSearch
