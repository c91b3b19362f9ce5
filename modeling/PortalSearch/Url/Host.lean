import PortalSearch.Text.Quoted

/-!
# Hosts

Two checks on the host part of an address, which may name a user, a machine and a port. If
there are brackets in it, the machine has to be an address of the sixth version of the
internet protocol, or begin with `v` and name a future version; the addresses of the fourth
version are recognised only to be refused there. And outside the basic set no character may
have a compatibility form that holds one of the marks which separate the parts of an address.

Taking addresses apart is left to the standard library, and its releases differ. The rules
here and in `Url.Parts` are those of a 3.11 build with the later fixes to the checks on
brackets, which refuse a text beside them; builds without these fixes let it pass.
-/

namespace PortalSearch.Url

/-! ## Addresses in brackets -/

/-- Whether a text is a number from 0 to 255 without needless zeros. -/
def isOctet (t : Text) : Bool :=
  !t.isEmpty && t.length ≤ 3 && t.all Char.isDigit && (t == ['0'] || t.head? != some '0') &&
    Nat.ofDigitChars 10 t 0 ≤ 255

/-- Whether a text is an address of the fourth version. -/
def isFourthVersion (t : Text) : Bool :=
  (t.splitOn '.').length == 4 && (t.splitOn '.').all isOctet

/-- Whether a text is one group of an address of the sixth version. -/
def isGroup (t : Text) : Bool := !t.isEmpty && t.length ≤ 4 && t.all Text.isHexDigit

/-- How many groups are written in a list of parts, if all of them are groups. The last one
may be an address of the fourth version, which counts for two. -/
def countGroups (lastMayBeFourth : Bool) : List Text → Option Nat
  | [] => some 0
  | [t] =>
    if isGroup t then some 1
    else if lastMayBeFourth && isFourthVersion t then some 2
    else none
  | t :: rest => if isGroup t then (countGroups lastMayBeFourth rest).map (· + 1) else none

/-- What stands before the first `::`, and what stands after it if there is one. -/
def splitGap : Text → Text × Option Text
  | ':' :: ':' :: rest => ([], some rest)
  | [] => ([], none)
  | c :: rest => (c :: (splitGap rest).1, (splitGap rest).2)

/-- The parts between colons; an empty text has none. -/
def colonParts (t : Text) : List Text := if t = [] then [] else t.splitOn ':'

/-- Whether a text is an address of the sixth version, a zone apart: eight groups, or at most
seven with one gap. -/
def isSixthVersionBody (t : Text) : Bool :=
  match splitGap t with
  | (all, none) => countGroups true (colonParts all) == some 8
  | (front, some back) =>
    match countGroups false (colonParts front), countGroups true (colonParts back) with
    | some m, some n => m + n ≤ 7
    | _, _ => false

/-- Whether a text is an address of the sixth version, perhaps with a zone behind a percent
sign. -/
def isSixthVersion (t : Text) : Bool :=
  match Text.splitFirst '%' t with
  | (body, none) => isSixthVersionBody body
  | (body, some zone) => isSixthVersionBody body && !zone.isEmpty && !zone.contains '%'

/-- Whether a text that begins with `v` names a future version: hexadecimal digits, a point,
and something behind it. -/
def isFutureVersion (t : Text) : Bool :=
  match t.drop 1 |>.span Text.isHexDigit with
  | (_ :: _, '.' :: _ :: _) => true
  | _ => false

/-- Why an address is not taken apart. -/
inductive UrlError where
  /-- a bracket without its partner -/
  | unpairedBracket
  /-- something in front of brackets, or something behind them that is no port -/
  | textBesideBrackets
  /-- an ill-formed future version in brackets -/
  | badFutureVersion
  /-- an address of the fourth version in brackets -/
  | fourthVersionInBrackets
  /-- no address in brackets -/
  | noAddress (host : Text)
  /-- a host with a character that looks like a separator -/
  | separatorInHost (host : Text)
  deriving DecidableEq

/-- What is said about the cause. -/
def UrlError.message : UrlError → Text
  | unpairedBracket | textBesideBrackets => "Invalid IPv6 URL"
  | badFutureVersion => "IPvFuture address is invalid"
  | fourthVersionInBrackets => "An IPv4 address cannot be in brackets"
  | noAddress host => Text.quoted host ++ " does not appear to be an IPv4 or IPv6 address"
  | separatorInHost host =>
    "netloc '" ++ host ++ "' contains invalid characters under NFKC normalization"

/-! ## The machine -/

/-- The machine with its port: what stands behind the last `@`, if there is one. -/
def afterUser (host : Text) : Text := (host.reverse.takeWhile (· != '@')).reverse

/-- The machine without its port: what stands between the brackets, else before the first
colon. Nothing may stand in front of the brackets, and only a port behind them: this is the
check that not every build makes. -/
def machine (t : Text) : Except UrlError Text :=
  match Text.splitFirst '[' t with
  | ([], some inside) =>
    match Text.splitFirst ']' inside with
    | (name, none) | (name, some []) | (name, some (':' :: _)) => .ok name
    | _ => .error .textBesideBrackets
  | (_, some _) => .error .textBesideBrackets
  | (_, none) => .ok (Text.splitFirst ':' t).1

/-- Checks the machine of a host with brackets. -/
def checkMachine (t : Text) : Except UrlError Unit :=
  if t.head? = some 'v' then
    if isFutureVersion t then .ok () else .error .badFutureVersion
  else if isFourthVersion t then .error .fourthVersionInBrackets
  else if isSixthVersion t then .ok ()
  else .error (.noAddress t)

/-! ## Separators in disguise -/

/-- The characters outside the basic set whose compatibility form holds one of `/?#@:`. -/
def disguisedSeparators : Text :=
  ['\u2047', '\u2048', '\u2049', '\u2100', '\u2101', '\u2105', '\u2106', '\u2A74', '\uFE13',
    '\uFE16', '\uFE55', '\uFE56', '\uFE5F', '\uFE6B', '\uFF03', '\uFF0F', '\uFF1A', '\uFF1F',
    '\uFF20']

/-- Checks the part of an address that names the host. -/
def checkHost (host : Text) : Except UrlError Unit := do
  if host.contains '[' != host.contains ']' then
    .error .unpairedBracket
  if host.contains '[' then
    checkMachine (← machine (afterUser host))
  if host.any disguisedSeparators.contains then
    .error (.separatorInHost host)

end PortalSearch.Url
