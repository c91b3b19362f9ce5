import PortalSearch.Query.Term
import PortalSearch.Query.Token

/-!
# Warnings of a query builder

A call that is out of place is a `Misuse`: it is reported and the query stays as it was.
Finishing a query gives warnings of its own, about what it had to discard, close or
remove. The causes are values; what is said about each is in `Misuse.message` and
`Warning.message`.
-/

namespace PortalSearch

/-- The two ends of a range. -/
inductive RangeEnd where
  /-- where it begins -/
  | lower
  /-- where it ends -/
  | upper
  deriving DecidableEq

/-- Why a call is refused. -/
inductive Misuse where
  /-- terms while a range is pending -/
  | termsDuringRange
  /-- a field while only one end of a range is known -/
  | incompleteRange (field : Option Text)
  /-- a field with nothing to search for -/
  | nothingToSearch (field : Option Text)
  /-- an end of a range while terms are pending -/
  | boundAfterTerms (side : RangeEnd)
  /-- the end of a group that was not started -/
  | noOpenGroup
  /-- a boost with no clause in front -/
  | nothingToBoost (factor : Value)
  /-- a connective behind a connective -/
  | connectiveAfter (c previous : Connective)
  /-- a connective with nothing in front -/
  | nothingToJoin (c : Connective)

/-- What a builder warns about. -/
inductive Warning where
  /-- a call was refused -/
  | misuse (m : Misuse)
  /-- half of a range was given up -/
  | rangeDiscarded
  /-- so many groups were closed -/
  | groupsClosed (count : Nat)
  /-- so many empty groups and these connectives were taken out -/
  | removed (groups : Nat) (dropped : List Connective)

/-! ## How a call is quoted -/

/-- An argument as a message shows it. -/
def quotedArgument : Value → Text
  | .text t => '"' :: t ++ ['"']
  | v => v.toText

/-- A call as a message shows it. -/
def quotedCall (method : Text) (arguments : List Value) : Text :=
  '`' :: method ++ ['('] ++ List.intercalate ", " (arguments.map quotedArgument) ++ [')', '`']

/-- The call that names the field of a clause. An empty field is not shown. -/
def quotedField : Option Text → Text
  | none | some [] => quotedCall "in_" []
  | some field => quotedCall "in_" [.text field]

/-- The call that adds a connective. -/
def Connective.quoted : Connective → Text
  | .and => quotedCall "and_" []
  | .or => quotedCall "or_" []
  | .not => quotedCall "not_" []

/-- The call that sets an end of a range, with its argument left open. -/
def RangeEnd.quoted : RangeEnd → Text
  | .lower => "`from_(...)`"
  | .upper => "`to(...)`"

/-! ## Wording -/

/-- A message about a call that changed nothing. -/
def notModified (message : Text) : Text := message ++ " Your query was not modified."

namespace Misuse

/-- What is wrong with the call. -/
def reason : Misuse → Text
  | termsDuringRange =>
    "`match(...)` is not allowed while a range from `from_(...)`/`to(...)` is pending. " ++
      "Finish the range with `in_(...)` first."
  | incompleteRange field =>
    quotedField field ++ " was called with an incomplete range. Call both " ++
      "`from_(...)` and `to(...)` before `in_(...)`."
  | nothingToSearch field =>
    quotedField field ++ " was called with no call to `match(...)` or `from_(...)`/`to(...)`."
  | boundAfterTerms side =>
    side.quoted ++ " is not allowed after `match(...)`, try using " ++
      "`.from_(...).to(...).in_(...)`. Dates should be `datetime.date` " ++
      "or `datetime.datetime` objects or numbers in milliseconds."
  | noOpenGroup => "`end_group()` was called without calling `start_group()` first."
  | nothingToBoost factor =>
    quotedCall "boost" [factor] ++ " was called without a clause to boost."
  | connectiveAfter c previous =>
    "You have called " ++ c.quoted ++ " after " ++ previous.quoted ++ "."
  | nothingToJoin c =>
    "You have called " ++ c.quoted ++ " without calling another method to modify " ++
      "your query first. Try calling `match()` first."

/-- What the caller is told. -/
def message (m : Misuse) : Text := notModified m.reason

end Misuse

namespace Warning

/-- Connectives between backquotes. -/
def quotedWords (cs : List Connective) : Text :=
  List.intercalate ", " (cs.map fun c => '`' :: c.word ++ ['`'])

/-- What was taken out: groups first, then connectives. -/
def removedParts (groups : Nat) (dropped : List Connective) : List Text :=
  (if groups = 0 then [] else [Text.ofNat groups ++ " empty group(s)"]) ++
    if dropped = [] then [] else ["dangling " ++ quotedWords dropped]

/-- What the caller is told. -/
def message : Warning → Text
  | misuse m => m.message
  | rangeDiscarded =>
    "Discarding an incomplete range. Call both `from_(...)` and `to(...)` " ++
      "followed by `in_(...)` to search a range."
  | groupsClosed count =>
    "Automatically closing " ++ Text.ofNat count ++ " group(s). You can use " ++
      "`end_group()` to remove this warning."
  | removed groups dropped =>
    "Removed " ++ List.intercalate " and " (removedParts groups dropped) ++
      " with no clause to join. Call `match(...)` after `and_()`, `or_()`, `not_()` or " ++
      "`start_group()` to remove this warning."

end Warning

end PortalSearch
