import PortalSearch.Portal
import PortalSearch.Request

/-!
# Protecting groups

A protected group cannot be deleted. Both protecting a group and lifting the protection
are one request to an address below that of the group.
-/

namespace PortalSearch

/-- What is done to a group. -/
inductive GroupOperation where
  /-- it cannot be deleted any more -/
  | protect
  /-- it can be deleted again -/
  | unprotect
  deriving DecidableEq

namespace GroupOperation

/-- The last segment of the address of an operation. -/
def word : GroupOperation → Text
  | protect => "protect"
  | unprotect => "unprotect"

/-- The request of an operation. -/
def request (op : GroupOperation) (env : Environment) (group portal : Value) (who : Credentials) :
    Except Error Request :=
  (Portal.groupAddress env group portal who).map fun address =>
    ⟨.post, address ++ ['/'] ++ op.word, [("f", .text "json")]⟩

/-- The record of an operation. -/
def record (op : GroupOperation) (group : Value) : Record :=
  ⟨.groups, .debug, "Sending " ++ op.word ++ " for group " ++ group.toText⟩

/-- Carries an operation out through a transport. -/
def run (op : GroupOperation) (send : Transport) (env : Environment) (group portal : Value)
    (who : Credentials) : Exchange :=
  match op.request env group portal who with
  | .error e => .failed e
  | .ok r => .after (.record (op.record group)) (send r)

end GroupOperation

end PortalSearch
