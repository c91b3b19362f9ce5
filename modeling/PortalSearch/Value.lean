import PortalSearch.Text.Quoted
import PortalSearch.Decimal.Shortest
import PortalSearch.Time.Moment

/-!
# Values

What a caller may hand over as a term, a bound, an option or a parameter, and what a
response body holds: the values of JSON together with dates, moments and bytes. Two
notions belong to every value: whether it counts as given (`isGiven`), which decides
whether an option is sent at all, and its text (`toText`).
-/

namespace PortalSearch

/-- A value. -/
inductive Value where
  /-- nothing -/
  | null
  /-- a truth value -/
  | bool (b : Bool)
  /-- a whole number of any size -/
  | int (n : Int)
  /-- a number of the double format -/
  | float (x : Binary64)
  /-- a text -/
  | text (t : Text)
  /-- bytes, as a request body may be -/
  | bytes (bs : List UInt8)
  /-- a day -/
  | date (d : Date)
  /-- a moment -/
  | moment (t : Moment)
  /-- values in order -/
  | list (vs : List Value)
  /-- values under names -/
  | object (fields : List (Text × Value))

namespace Value

instance : Inhabited Value := ⟨null⟩

/-- Whether a value counts as given: not nothing, not false, not zero and not empty. -/
def isGiven : Value → Bool
  | null => false
  | bool b => b
  | int n => n != 0
  | float x => !x.isZero
  | text t => !t.isEmpty
  | bytes bs => !bs.isEmpty
  | date _ => true
  | moment _ => true
  | list vs => !vs.isEmpty
  | object fields => !fields.isEmpty

/-- The first of two values that counts as given, else the second. -/
def orElse (v w : Value) : Value := if v.isGiven then v else w

/-- A text that may be missing, as a value. -/
def ofText? : Option Text → Value
  | some t => text t
  | none => null

/-- The value under a name. -/
def field? (name : Text) (fields : List (Text × Value)) : Option Value :=
  (fields.find? fun f => f.1 == name).map Prod.snd

/-- Puts a value under a name: in the place of the one that is there, else at the end. -/
def putField (name : Text) (v : Value) : List (Text × Value) → List (Text × Value)
  | [] => [(name, v)]
  | f :: fields => if f.1 = name then (name, v) :: fields else f :: putField name v fields

/-! ## Text

Doubles are written positionally from `1e-04` up to below `1e+16`, and an exponent has
two digits at least. Inside a list or an object every part is written in the form in which
it could be typed in: texts are quoted, dates and moments are written as calls. -/

/-- How doubles are laid out. -/
def layout : Decimal.Layout := ⟨-4, 16, 2⟩

/-- The text of a truth value. -/
def truthText (b : Bool) : Text := if b then "True" else "False"

/-- A span of time as a call: days, seconds of the day and microseconds, those that are zero
left out. -/
def spanCall (microseconds : Int) : Text :=
  let days := microseconds / 86400000000
  let rest := (microseconds % 86400000000).toNat
  let parts := [("days=".toList, days), ("seconds=".toList, (rest / 1000000 : Nat)),
    ("microseconds=".toList, (rest % 1000000 : Nat))].filter (·.2 != 0)
  "datetime.timedelta(" ++
    (if parts.isEmpty then ['0']
      else List.intercalate ", " (parts.map fun p => p.1 ++ Text.ofInt p.2)) ++ ")"

/-- A distance from universal time as a call. -/
def offsetCall (microseconds : Int) : Text :=
  if microseconds = 0 then "datetime.timezone.utc"
  else "datetime.timezone(" ++ spanCall microseconds ++ ")"

/-- A day as a call. -/
def dateCall (d : Date) : Text :=
  "datetime.date(" ++ List.intercalate ", " ([d.year, d.month, d.day].map Text.ofNat) ++ ")"

/-- A moment as a call: the microsecond is left out if it is zero, and the second too if
both are. -/
def momentCall (t : Moment) : Text :=
  let small := if t.microsecond ≠ 0 then [t.second, t.microsecond]
    else if t.second ≠ 0 then [t.second] else []
  let numbers := [t.date.year, t.date.month, t.date.day, t.hour, t.minute] ++ small
  "datetime.datetime(" ++ List.intercalate ", " (numbers.map Text.ofNat) ++
    (t.offset.map fun o => ", tzinfo=" ++ offsetCall o).getD [] ++ ")"

mutual

/-- The form of a value inside a list or an object. -/
def nested : Value → Text
  | null => "None"
  | bool b => truthText b
  | int n => Text.ofInt n
  | float x => layout.text x
  | text t => Text.quoted t
  | bytes bs => Text.quotedBytes bs
  | date d => dateCall d
  | moment t => momentCall t
  | list vs => '[' :: List.intercalate ", " (nestedAll vs) ++ [']']
  | object fields => '{' :: List.intercalate ", " (nestedFields fields) ++ ['}']

/-- The forms of several values. -/
def nestedAll : List Value → List Text
  | [] => []
  | v :: vs => nested v :: nestedAll vs

/-- The forms of several values under their names. -/
def nestedFields : List (Text × Value) → List Text
  | [] => []
  | f :: fields => (Text.quoted f.1 ++ ": " ++ nested f.2) :: nestedFields fields

end

/-- The text of a value, as a machine without limits writes it. -/
def toText : Value → Text
  | text t => t
  | date d => d.text
  | moment t => t.text
  | v => nested v

end Value

end PortalSearch
