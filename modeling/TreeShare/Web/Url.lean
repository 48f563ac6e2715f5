import TreeShare.Web.Host

/-! URLs: reading them from text, and giving them further path segments. -/
namespace TreeShare.Web

structure Url where
  scheme : String
  /-- Encoded user name and password, or nothing. -/
  user : String
  host : Option Host
  /-- None for the port that the scheme implies. -/
  port : Option UInt16
  /-- Encoded segments; each follows a slash. -/
  path : List String
  query : Option String
  fragment : Option String
deriving DecidableEq

inductive Reference where
  | url (u : Url)
  /-- A URL without a path, such as a mail address, as its text. -/
  | pathless (text : String)

namespace Url

def defaultPort? : String → Option UInt16
  | "http" | "ws" => some 80
  | "https" | "wss" => some 443
  | "ftp" => some 21
  | _ => none

def isFile (scheme : String) : Bool := scheme = "file"

/-- Whether a scheme has hosts, ports and backslashes as the web has them. -/
def isSpecial (scheme : String) : Bool := isFile scheme || (defaultPort? scheme).isSome

def pathText (path : List String) : String := String.join (path.map fun s => "/" ++ s)

def tailText (query fragment : Option String) : String :=
  ((query.map fun q => "?" ++ q).getD "") ++ ((fragment.map fun f => "#" ++ f).getD "")

def target (u : Url) : String := pathText u.path ++ tailText u.query none

def text (u : Url) : String :=
  let authority := match u.host with
    | some h => "//" ++ u.user ++ h.text ++ ((u.port.map fun p => s!":{p}").getD "")
    | none => ""
  u.scheme ++ ":" ++ authority ++ pathText u.path ++ tailText u.query u.fragment

/-! ## Paths -/

def isSingleDot (segment : String) : Bool :=
  [".", "%2e"].contains (segment.map Char.toLower)

def isDoubleDot (segment : String) : Bool :=
  ["..", ".%2e", "%2e.", "%2e%2e"].contains (segment.map Char.toLower)

/-- Goes one segment on: one dot stays, two dots go back. A path that ends so ends in a slash. -/
def walk (path : List String) (segment : String) (last : Bool) : List String :=
  if isDoubleDot segment then path.dropLast ++ (if last then [""] else [])
  else if isSingleDot segment then path ++ (if last then [""] else [])
  else path ++ [segment]

def walkAll (path : List String) : List String → List String
  | [] => path
  | [segment] => walk path segment true
  | segment :: segments => walkAll (walk path segment false) segments

/-- Splits at slashes, and at backslashes if the scheme is special. -/
def segments (special : Bool) (chars : List Char) : List (List Char) :=
  chars.splitOnP fun c => c = '/' || (special && c = '\\')

def parsePath (special : Bool) (chars : List Char) : List String :=
  let inner := match chars with
    | '/' :: rest => rest
    | '\\' :: rest => if special then rest else chars
    | _ => chars
  walkAll [] ((segments special inner).map (encoded inPathSet))

def withoutEmptyEnd (path : List String) : List String :=
  if 1 < path.length ∧ path.getLast? = some "" then path.dropLast else path

def isRemoved (c : Char) : Bool := c = '\t' || c = '\n' || c = '\x0d'

/-- Adds one segment given as plain text. A lone empty segment is replaced. A text of one or two dots is
left out; one that becomes so without its tabs and line breaks still counts as dots. -/
def addSegment (special : Bool) (path : List String) (plain : String) : List String :=
  if plain = "." ∨ plain = ".." then path
  else
    let segment := encoded (inSegmentSet special) (plain.toList.filter fun c => !isRemoved c)
    walk (if path = [""] then [] else path) segment true

def descend (u : Url) (plain : List String) : Url :=
  { u with path := plain.foldl (addSegment (isSpecial u.scheme)) (withoutEmptyEnd u.path) }

/-! ## Reading -/

def isPadding (c : Char) : Bool := c ≤ ' '

def cleaned (s : String) : List Char :=
  let inner := ((s.toList.dropWhile isPadding).reverse.dropWhile isPadding).reverse
  inner.filter fun c => !isRemoved c

def isSchemeChar (c : Char) : Bool := c.isAlphanum || "+-.".contains c

def scheme? (chars : List Char) : Option (String × List Char) :=
  match chars.head?, chars.span isSchemeChar with
  | some first, (name, ':' :: rest) =>
    if first.isAlpha then some (String.ofList (name.map Char.toLower), rest) else none
  | _, _ => none

def splitTail (special : Bool) (chars : List Char) : List Char × Option String × Option String :=
  let (front, fragment) := chars.span (· ≠ '#')
  let (path, query) := front.span (· ≠ '?')
  let part (inSet : Char → Bool) (cs : List Char) : Option String :=
    match cs with
    | _ :: cs => some (encoded inSet cs)
    | [] => none
  (path, part (inQuerySet special) query, part inFragmentSet fragment)

def userText (chars : List Char) : String :=
  let (name, rest) := chars.span (· ≠ ':')
  let password := rest.drop 1
  let shown := encoded inUserSet name
    ++ (if password.isEmpty then "" else ":" ++ encoded inUserSet password)
  if shown = "" then "" else shown ++ "@"

def splitUser (chars : List Char) : Option (List Char) × List Char :=
  match chars.reverse.span (· ≠ '@') with
  | (host, _ :: user) => (some user.reverse, host.reverse)
  | _ => (none, chars)

def splitPort (inside : Bool) : List Char → List Char × List Char
  | [] => ([], [])
  | c :: rest =>
    if c = ':' ∧ !inside then ([], c :: rest)
    else
      let (host, port) := splitPort (if c = '[' then true else if c = ']' then false else inside) rest
      (c :: host, port)

def parsePort (scheme : String) (chars : List Char) :
    Except UrlError (Option UInt16 × List Char) :=
  match chars with
  | ':' :: rest =>
    let (digits, rest) := rest.span Char.isDigit
    let n := digits.foldl (fun n c => 10 * n + (c.toNat - '0'.toNat)) 0
    if 65535 < n ∨ (rest ≠ [] ∧ rest.head? ≠ some '\\') then .error .badPort
    else
      let port := UInt16.ofNat n
      let implied := digits = [] ∨ defaultPort? scheme = some port
      .ok (if implied then none else some port, rest)
  | _ => .ok (none, chars)

def parseAuthority (scheme : String) (chars : List Char) : Except UrlError Url := do
  let special := isSpecial scheme
  let (authority, rest) :=
    chars.span fun c => c ≠ '/' ∧ c ≠ '?' ∧ c ≠ '#' ∧ ¬(special ∧ c = '\\')
  let (user, place) := splitUser authority
  if user = some [] ∧ place = [] ∧ rest ≠ [] then throw .emptyHost
  let user := userText (user.getD [])
  let (hostText, portText) := splitPort false place
  if special ∧ hostText = [] then throw .emptyHost
  let host ← if special then Host.parse hostText else Host.parsePlain hostText
  if hostText = [] ∧ (portText ≠ [] ∨ user ≠ "") then throw .emptyHost
  let (port, more) ← parsePort scheme portText
  let (path, query, fragment) := splitTail special (more ++ rest)
  let path := if !special ∧ path = [] then [] else parsePath special path
  pure ⟨scheme, user, some host, port, path, query, fragment⟩

def isDriveLetter (chars : List Char) : Bool :=
  match chars with
  | [c, d] => c.isAlpha && (d = ':' || d = '|')
  | _ => false

/-- Reads on in a URL of a local file, whose host may be missing. -/
def parseFile (chars : List Char) : Except UrlError Url := do
  let isSlash (c : Char) : Bool := c = '/' || c = '\\'
  let plain (host : Option Host) (chars : List Char) : Url :=
    let (path, query, fragment) := splitTail true chars
    ⟨"file", "", host, none, parsePath true path, query, fragment⟩
  match chars with
  | c :: d :: rest =>
    if isSlash c ∧ isSlash d then
      let (hostText, after) := rest.span fun c => !isSlash c && c ≠ '?' && c ≠ '#'
      if isDriveLetter hostText then pure (plain none rest)
      else if hostText = [] then pure (plain none after)
      else
        let host ← Host.parse hostText
        pure (plain (if host = .name "localhost" then none else some host) after)
    else pure (plain none chars)
  | _ => pure (plain none chars)

def parse (s : String) : Except UrlError Reference :=
  match scheme? (cleaned s) with
  | none => .error .relative
  | some (scheme, rest) =>
    if isFile scheme then (parseFile rest).map .url
    else if isSpecial scheme then
      (parseAuthority scheme (rest.dropWhile fun c => c = '/' || c = '\\')).map .url
    else match rest with
      | '/' :: '/' :: rest => (parseAuthority scheme rest).map .url
      | '/' :: _ =>
        let (path, query, fragment) := splitTail false rest
        .ok (.url ⟨scheme, "", none, none, parsePath false path, query, fragment⟩)
      | _ =>
        let (path, query, fragment) := splitTail false rest
        .ok (.pathless (scheme ++ ":" ++ encoded inControlSet path ++ tailText query fragment))

end Url
end TreeShare.Web
