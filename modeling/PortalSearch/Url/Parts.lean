import PortalSearch.Url.Host

/-!
# The parts of an address

Taking an address apart into scheme, host, path, query and fragment, and putting the parts
together again. Before an address is taken apart, controls and blanks in front are dropped
and tabs and line ends are removed everywhere. Putting together is the inverse for ordinary
addresses; where it is not, the differences are: the scheme in lower case, an empty query
or fragment without its mark, two slashes for a missing host behind a scheme that usually
has one, and no slashes for an empty host before a path that begins with two of them.

The last of these goes by the release. The rules are those of the build that `Url.Host`
names; newer releases write two slashes more in front of such a path.
-/

namespace PortalSearch.Url

/-- The parts of an address. -/
structure Parts where
  /-- what stands before the first colon -/
  scheme : Text
  /-- the host, and what goes with it -/
  host : Text
  /-- the path -/
  path : Text
  /-- what stands behind the question mark -/
  query : Text
  /-- what stands behind the number sign -/
  fragment : Text
  deriving DecidableEq

/-! ## Taking apart -/

/-- Without controls and blanks in front, and without tabs and line ends. -/
def tidy (t : Text) : Text :=
  (t.dropWhile fun c => c.toNat ≤ 0x20).filter fun c => c != '\t' && c != '\r' && c != '\n'

/-- Whether a text can be a scheme: a letter, then letters, digits, plus, minus and points. -/
def isScheme : Text → Bool
  | [] => false
  | c :: rest => c.isAlpha && rest.all fun x => x.isAlphanum || "+-.".toList.contains x

/-- The scheme in lower case and what stands behind its colon; no scheme and the whole text if
it has none. -/
def splitScheme (t : Text) : Text × Text :=
  match Text.splitFirst ':' t with
  | (scheme, some rest) => if isScheme scheme then (scheme.map Char.toLower, rest) else ([], t)
  | (_, none) => ([], t)

/-- Whether a character ends the host. -/
def endsHost (c : Char) : Bool := c == '/' || c == '?' || c == '#'

/-- The host between two slashes and the next separator, and what follows it. -/
def splitHost : Text → Text × Text
  | '/' :: '/' :: rest =>
    (rest.takeWhile fun c => !endsHost c, rest.dropWhile fun c => !endsHost c)
  | t => ([], t)

/-- Takes an address apart. -/
def split (t : Text) : Except UrlError Parts :=
  let (scheme, rest) := splitScheme (tidy t)
  let (host, rest) := splitHost rest
  match checkHost host with
  | .error e => .error e
  | .ok _ =>
    let (rest, fragment) := Text.splitFirst '#' rest
    let (path, query) := Text.splitFirst '?' rest
    .ok ⟨scheme, host, path, query.getD [], fragment.getD []⟩

/-! ## Putting together -/

/-- The schemes that have a host. -/
def schemesWithHost : List Text :=
  ["ftp", "http", "gopher", "nntp", "telnet", "imap", "wais", "file", "mms", "https", "shttp",
    "snews", "prospero", "rtsp", "rtspu", "rsync", "svn", "svn+ssh", "sftp", "nfs", "git",
    "git+ssh", "ws", "wss"]

/-- Host and path. Two slashes mark the host; they stand there too if it is empty but its
scheme has one, unless the path itself begins with two slashes: newer releases write them
there as well. -/
def joinHost (p : Parts) : Text :=
  if p.host ≠ [] ∨ p.scheme ∈ schemesWithHost ∧ p.path.take 2 ≠ ['/', '/'] then
    ['/', '/'] ++ p.host ++
      (if p.path ≠ [] ∧ p.path.head? ≠ some '/' then '/' :: p.path else p.path)
  else p.path

/-- A part behind its mark; nothing if it is empty. -/
def marked (mark : Char) (part : Text) : Text := if part = [] then [] else mark :: part

/-- Puts an address together. -/
def Parts.join (p : Parts) : Text :=
  (if p.scheme = [] then [] else p.scheme ++ [':']) ++ joinHost p ++ marked '?' p.query ++
    marked '#' p.fragment

end PortalSearch.Url
