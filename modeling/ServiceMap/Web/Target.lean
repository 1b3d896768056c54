import ServiceMap.Text.Blank
import ServiceMap.Text.Bytes
import ServiceMap.Text.Find
import ServiceMap.Text.Lines

/-!
# Targets of requests

Which path a target names. A target is a path with or without a slash in front, or a whole address
with a scheme and an authority; a query and a fragment may follow and do not count. Dots are taken
out of the path, and then escapes are read, twice: an escaped percent sign may be the start of
another escape.
-/

namespace ServiceMap.Web

open Text

/-- Why a target names no path. -/
inductive TargetFault where
  /-- It does not follow the rules of targets. -/
  | malformed
  /-- Its scheme is not one of requests. -/
  | scheme (name : List Char)
deriving DecidableEq, Repr

/-- A target in its parts. -/
structure Target where
  /-- The scheme, in small letters; empty if there is none. -/
  scheme : List Char
  /-- What stands between two slashes and the path; empty if there is nothing. -/
  authority : List Char
  path : List Char
deriving DecidableEq, Repr

namespace Target

/-- The most characters in a target. -/
def longest : Nat := 65536

/-- Whether a character may stand in a scheme. -/
def isSchemeChar (c : Char) : Bool :=
  c.isAlphanum || c == '+' || c == '.' || c == '-'

/-- The scheme at the front of a target, and what follows its colon. -/
def splitScheme (text : List Char) : List Char × List Char :=
  let name := text.takeWhile isSchemeChar
  match text.dropWhile isSchemeChar with
  | ':' :: rest => if name.head?.all Char.isAlpha then (name.map Char.toLower, rest) else ([], text)
  | _ => ([], text)

/-- The authority at the front of a target without its scheme, and the path after it. -/
def splitAuthority (text : List Char) : List Char × List Char :=
  match text with
  | '/' :: '/' :: rest => (rest.takeWhile (· != '/'), rest.dropWhile (· != '/'))
  | _ => ([], text)

/-- The parts of a target. -/
def ofText (text : List Char) : Target :=
  let (scheme, rest) := splitScheme (text.takeWhile fun c => c != '?' && c != '#')
  let (authority, path) := splitAuthority rest
  ⟨scheme, authority, path⟩

/-- The host of an authority, and its port if there is one. -/
def hostAndPort (authority : List Char) : List Char × List Char :=
  let place := afterLast '@' authority
  (place.takeWhile (· != ':'), (place.dropWhile (· != ':')).drop 1)

/-- The host that a target names; empty if it names none. -/
def host (t : Target) : List Char :=
  (hostAndPort t.authority).1

/-- Whether a target is a whole address, and not only a path. -/
def isAddress (t : Target) : Bool :=
  !t.scheme.isEmpty && !t.host.isEmpty

/-- Whether a path may stand in a target without an authority: it does not start with two slashes,
nor, where there is no scheme, with a colon. -/
def standsAlone (scheme path : List Char) : Bool :=
  match path with
  | '/' :: '/' :: _ => false
  | ':' :: _ => !scheme.isEmpty
  | _ => true

/-- Whether the parts of a target may stand together, and its port is a number. -/
def isWellFormed (t : Target) : Bool :=
  (hostAndPort t.authority).2.all Char.isDigit
    && (!t.authority.isEmpty || standsAlone t.scheme t.path)

/-- The names of a path without single dots, and with two dots taken out together with the name
before them, if there is one. -/
def withoutDots (names : List (List Char)) : List (List Char) :=
  names.foldl (fun kept name =>
    if name == ['.'] then kept
    else if name == ['.', '.'] then kept.dropLast
    else kept ++ [name]) []

/-- A text with every escape of an ASCII character read. Other escapes are parts of characters that
stand in no path of the service. -/
def unescape : List Char → List Char
  | '%' :: a :: b :: rest =>
    match hexDigit? a, hexDigit? b with
    | some high, some low =>
      if high < 8 then Char.ofNat (16 * high + low) :: unescape rest
      else '%' :: a :: b :: unescape rest
    | _, _ => '%' :: unescape (a :: b :: rest)
  | c :: rest => c :: unescape rest
  | [] => []

/-- The path that the parts of a target name. -/
def plainPath (t : Target) : List Char :=
  let path := if t.isAddress then t.path.drop 1 else t.path.dropWhile (· == '/')
  unescape (unescape ('/' :: join ['/'] (withoutDots (splitOn (· == '/') path))))

/-- The schemes of requests. -/
def schemes : List String := ["http", "https"]

/-- The path that a target names. -/
def path? (text : String) : Except TargetFault (List Char) :=
  let t := ofText text.toList
  if longest < text.length || text.toList.any (fun c => c.toNat < 32 || c.toNat == 127)
      || !t.isWellFormed then
    .error .malformed
  else if t.isAddress && !schemes.contains (String.ofList t.scheme) then .error (.scheme t.scheme)
  else .ok t.plainPath

end Target

end ServiceMap.Web
