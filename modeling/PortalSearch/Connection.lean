import PortalSearch.Hook
import PortalSearch.Portal
import PortalSearch.Request

/-!
# Connections

A connection sends requests to one portal. An address that does not begin with `http://`
or `https://` is a path in the portal. Every request asks for JSON unless it says
otherwise, and carries the token of the connection if there is one. The response goes
through the hooks first; if they all succeed, what they hand on is answered as
`Response.answer` says.

What the network does is not modelled: it is a function from the request that is handed
to it to the response that comes back. Nor is the client that the connection goes through,
which is a `Client` with the laws it keeps to.
-/

namespace PortalSearch

/-- A connection to a portal. -/
structure Connection where
  /-- the address of the portal -/
  portal : Text
  /-- the token, if there is one -/
  token : Option Text
  /-- the hooks on responses, in the order in which they run -/
  hooks : List Hook

namespace Connection

/-- A connection without hooks to a portal, or to that of the environment. -/
def new (env : Environment) (portal : Value) (token : Option Text) : Except Error Connection :=
  (Portal.address env portal .none).map fun address => ⟨address, token, []⟩

/-- How a connection is shown. -/
def describe (c : Connection) : Text := "< Connection @ " ++ c.portal ++ " >"

/-- With one more hook, which runs last. -/
def addHook (c : Connection) (hook : Hook) : Connection := { c with hooks := c.hooks ++ [hook] }

/-- Without hooks. -/
def clearHooks (c : Connection) : Connection := { c with hooks := [] }

/-! ## Requests -/

/-- Whether an address needs no portal. -/
def isAbsolute (address : Text) : Bool :=
  "http://".toList.isPrefixOf address || "https://".toList.isPrefixOf address

/-- An address, looked up in the portal if it is a path. -/
def resolve (c : Connection) (address : Text) : Text :=
  if isAbsolute address then address
  else c.portal ++ ['/'] ++ address.dropWhile (· == '/')

/-- Parameters with the format and the token. -/
def complete (c : Connection) (params : Params) : Params :=
  let asked := if (Value.field? "f" params).isSome then params
    else Value.putField "f" (.text "json") params
  match c.token with
  | none | some [] => asked
  | some token => Value.putField "token" (.text token) asked

/-- The request that is handed to the network. -/
def prepare (c : Connection) (r : Request) : Request :=
  ⟨r.method, c.resolve r.address, c.complete r.params⟩

/-- The record of a request. -/
def requestRecord (r : Request) : Record :=
  ⟨.requests, .debug, "REQUEST (" ++ r.method.word ++ "): " ++ r.address⟩

/-- Sends a request through a client over a network. -/
def send (c : Connection) (client : Client) (network : Request → Response) : Transport := fun r =>
  let prepared := c.prepare r
  let handled := client.runHooks (c.hooks.map Hook.run) (network prepared)
  { sent := [prepared]
    answer := match handled.result with
      | .error e => .error (.url e)
      | .ok response => response.answer client
    journal := ⟨[], requestRecord prepared :: handled.records⟩ }

/-- Asks for an address by GET. -/
def get (c : Connection) (client : Client) (network : Request → Response) (address : Text)
    (params : Params) : Exchange :=
  c.send client network ⟨.get, address, params⟩

/-- Sends to an address by POST. -/
def post (c : Connection) (client : Client) (network : Request → Response) (address : Text)
    (params : Params) : Exchange :=
  c.send client network ⟨.post, address, params⟩

end Connection

end PortalSearch
