import PortalSearch.Journal
import PortalSearch.Json.Reader
import PortalSearch.Response

/-!
# Clients

Between a connection and the network stands a client: a package that calls the hooks on what
comes back and tells which statuses are errors, on a machine with limits. None of this belongs
to the library, so a client is a parameter wherever a response is dealt with. What the library
relies on is that the client keeps to what it documents: the statuses from 400 to 599 are
errors, and hooks are called one after the other, each with the response that the one before
handed on, up to the first that fails.

`Client.standard` is a client that does so.
-/

namespace PortalSearch

/-- What a hook made of a response. -/
structure Handled where
  /-- what was logged -/
  records : List Record
  /-- the response that is handed on, unless the hook failed -/
  result : Except Url.UrlError Response

/-- With something logged before. -/
def Handled.after (rs : List Record) (h : Handled) : Handled :=
  { h with records := rs ++ h.records }

/-- Why a hook failed, if it did. -/
def Handled.failure? (h : Handled) : Option Url.UrlError :=
  match h.result with
  | .ok _ => none
  | .error e => some e

/-- What a connection relies on to deal with responses. -/
structure Client where
  /-- the limits of the machine -/
  limits : Limits
  /-- what is said about a response with the status of an error -/
  statusMessage? : Response → Option Text
  /-- what hooks in a row make of a response -/
  runHooks : List (Response → Handled) → Response → Handled
  /-- the errors are the statuses from 400 to 599 -/
  isSome_statusMessage? (r : Response) :
    (statusMessage? r).isSome = true ↔ 400 ≤ r.status ∧ r.status ≤ 599
  /-- without hooks the response is handed on as it is -/
  runHooks_nil (r : Response) : runHooks [] r = ⟨[], .ok r⟩
  /-- the hooks behind one that fails are not called -/
  runHooks_of_error (hook : Response → Handled) (hooks : List (Response → Handled))
    (r : Response) (e : Url.UrlError) (h : (hook r).result = .error e) :
    runHooks (hook :: hooks) r = hook r
  /-- the others are called with what it hands on -/
  runHooks_of_ok (hook : Response → Handled) (hooks : List (Response → Handled))
    (r s : Response) (h : (hook r).result = .ok s) :
    runHooks (hook :: hooks) r = (runHooks hooks s).after (hook r).records

/-! ## A client -/

namespace Client

/-- What is said about the status of an error: below 500 the fault is the client's. -/
def standardMessage? (r : Response) : Option Text :=
  if 400 ≤ r.status ∧ r.status ≤ 599 then
    some (Text.ofInt r.status ++
      (if r.status < 500 then " Client Error: " else " Server Error: ") ++ Error.shown r.reason ++
      " for url: " ++ Error.shown r.address)
  else none

/-- Calls hooks one after the other, up to the first that fails. -/
def callHooks : List (Response → Handled) → Response → Handled
  | [], r => ⟨[], .ok r⟩
  | hook :: hooks, r =>
    match (hook r).result with
    | .error _ => hook r
    | .ok s => (callHooks hooks s).after (hook r).records

/-- A client on a machine with the limits that are usual: 4300 digits, and room on the stack for
988 lists in one another. -/
def standard : Client where
  limits := ⟨4300, 988⟩
  statusMessage? := standardMessage?
  runHooks := callHooks
  isSome_statusMessage? r := by
    rw [standardMessage?]
    split
    · next h => exact iff_of_true rfl h
    · next h => exact iff_of_false nofun h
  runHooks_nil _ := rfl
  runHooks_of_error _ _ _ _ h := by rw [callHooks, h]
  runHooks_of_ok _ _ _ _ h := by rw [callHooks, h]

end Client

/-! ## Answers -/

/-- The answer that a response gives: an error if its status is one, else if its body is not read
as JSON, else if the body is an object that reports an error; in all other cases the body. It is
the body unchanged but for what is no text: a half surrogate pair in it is read as the replacement
character. -/
def Response.answer (client : Client) (r : Response) : Except Error Value :=
  match client.statusMessage? r with
  | some message => .error (.http (.text message) (.int r.status))
  | none =>
    match Json.read client.limits r.body with
    | .error .malformed => .error .bodyNotJson
    | .error (.tooManyDigits n) => .error (.numberTooLong client.limits.digits n)
    | .error .tooDeep => .error .bodyTooDeep
    | .ok body => answerOf body

end PortalSearch
