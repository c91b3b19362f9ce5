import PortalSearch.Client
import PortalSearch.Url.Mask

/-!
# Hooks

A hook looks at a response before the connection does, logs it, and hands it on as it is.
Tokens are masked in addresses and in bodies that are texts. A hook fails if an address that
may hold a token cannot be taken apart; then it logs nothing.
-/

namespace PortalSearch

/-- A hook on responses. -/
inductive Hook where
  /-- logs the status of every response -/
  | brief
  /-- logs every response with its request -/
  | detailed
  /-- logs the responses that are neither a success nor a redirection, with their requests -/
  | failures
  deriving DecidableEq

namespace Hook

/-- An address that may be missing, masked, as a record shows it. -/
def shownAddress : Option Text → Except Url.UrlError Text
  | none => .ok (Error.shown none)
  | some address => Url.mask address

/-- A request body, masked if it is a text with a token. -/
def shownBody : Value → Text
  | .text t => if Text.hasPart Url.tokenLead t then Url.maskParams t else t
  | v => v.toText

/-- A response with its request, line by line. -/
def description (r : Response) : Except Url.UrlError Text := do
  let address ← shownAddress r.address
  let asked ← shownAddress r.request.address
  let status := Text.ofInt r.status
  return "Networking: " ++ status ++ " response for " ++ address ++ "\n" ++
    "Request details:\n" ++
    "Method: " ++ Error.shown r.request.method ++ "\n" ++
    "URL: " ++ asked ++ "\n" ++
    "Body: " ++ shownBody r.request.body ++ "\n" ++
    "Response: " ++ status ++ " " ++ Error.shown r.reason ++ "\n" ++
    "Response Text: " ++ r.body ++ "\n"

/-- What is said about a response that some firewall may have given. -/
def firewallHint : Text :=
  "Networking: A 403 FORBIDDEN response indicates the requests may be " ++
      "getting blocked. Check any firewalls that may be blocking this."

/-- What a hook logs about a response. -/
def records (hook : Hook) (r : Response) : Except Url.UrlError (List Record) :=
  match hook with
  | brief => (shownAddress r.address).map fun address =>
    [⟨.hooks, .debug,
      "Networking: " ++ Text.ofInt r.status ++ " response for " ++ address ++ "."⟩]
  | detailed => (description r).map fun text => [⟨.hooks, .debug, text⟩]
  | failures =>
    if r.status = 200 ∨ r.status = 302 then .ok []
    else (description r).map fun text =>
      ⟨.hooks, .warning, text⟩ ::
        if r.status = 403 ∧ r.reason = some "FORBIDDEN".toList then
          [⟨.hooks, .warning, firewallHint⟩]
        else []

/-- What a hook makes of a response: it logs it and hands it on. -/
def run (hook : Hook) (r : Response) : Handled :=
  match hook.records r with
  | .error e => ⟨[], .error e⟩
  | .ok rs => ⟨rs, .ok r⟩

end Hook

end PortalSearch
