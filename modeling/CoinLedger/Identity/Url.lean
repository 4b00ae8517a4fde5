import CoinLedger.Text.Percent
/-!
# URLs of the identity service

The base URL says where the service is; its path is extended by the segments of an endpoint. The
path is kept as it is written. In a base URL, segments that mean "here" and "one up" are resolved
while it is read. A segment that is added is escaped so that it stays one segment; tabs and line
ends in it vanish, and one that then means "here" or "one up" is none.

Some URLs have no path that could be extended: those whose scheme is no web scheme and that have no
slash after it.

## Main definitions

* `Url`, `Base` — a URL with a path, and a base URL of either kind.
* `Base.ofText?` — reading a base URL.
* `Url.extend` — adding the segments of an endpoint.
-/

namespace CoinLedger.Identity

open Text

/-- A URL with a path. The path begins with a slash; all parts are written as they are sent. -/
structure Url where
  /-- The scheme and the host. -/
  origin : List Char
  path : List Char := ['/']
  query : Option (List Char) := none
  deriving DecidableEq, Repr

/-- What a request to a URL names in its first line. -/
def Url.target (u : Url) : List Char :=
  u.path ++ (match u.query with
    | some q => '?' :: q
    | none => [])

/-! ## Escapes -/

/-- Whether a byte is a control character or no ASCII character. -/
def isControl (b : UInt8) : Bool := b.toNat < 0x20 || 0x7E < b.toNat

/-- Whether a byte is among some characters. -/
def isAmong (s : String) (b : UInt8) : Bool := s.toList.any fun c => c.toNat = b.toNat

def escapedInPath (b : UInt8) : Bool := isControl b || isAmong " \"<>`#?\x7b\x7d" b

/-- The bytes that are escaped in a segment that is added to a path. -/
def escapedInSegment (b : UInt8) : Bool := escapedInPath b || isAmong "/%\\" b

def escapedInQuery (b : UInt8) : Bool := isControl b || isAmong " \"#<>'" b

/-- A text with escapes. -/
def escapeText (special : UInt8 → Bool) (s : List Char) : List Char :=
  (Percent.encode special (Utf8.encode s)).map fun b => Char.ofNat b.toNat

/-- Whether a character vanishes from a URL. -/
def vanishes (c : Char) : Bool := c = '\t' || c = '\n' || c = '\r'

/-! ## Paths -/

def upToSlash (path : List Char) : List Char := (path.reverse.dropWhile (· ≠ '/')).reverse

/-- Whether a text begins with the letter of a drive, a colon, and nothing or a mark. -/
def beginsWithDrive : List Char → Bool
  | letter :: ':' :: rest =>
    letter.isAlpha &&
      (match rest with
        | [] => true
        | c :: _ => c = '/' || c = '\\' || c = '?' || c = '#')
  | _ => false

/-- A path that ends in a slash, without its last segment. The root stays, and so does a drive. -/
def oneUp (path : List Char) : List Char :=
  let front := path.dropLast
  let last := (front.reverse.takeWhile (· ≠ '/')).reverse
  if front.contains '/' && !beginsWithDrive (last ++ ['/']) then upToSlash front
  else path

/-- The spellings of the segment that means "here". -/
def isHere (segment : List Char) : Bool :=
  segment.map Char.toLower = ['.'] || segment.map Char.toLower = "%2e".toList

/-- The spellings of the segment that means "one up". -/
def isOneUp (segment : List Char) : Bool :=
  ["..", "%2e%2e", "%2e.", ".%2e"].any fun s => segment.map Char.toLower = s.toList

/-- A path that ends in a slash, with one more segment, behind which a slash follows or not. -/
def addSegment (path : List Char) (closed : Bool) (segment : List Char) : List Char :=
  if isOneUp segment then oneUp path
  else if isHere segment then path
  else path ++ segment ++ (if closed then ['/'] else [])

def addSegments (path : List Char) : List (List Char) → List Char
  | [] => path
  | [segment] => addSegment path false segment
  | segment :: rest => addSegments (addSegment path true segment) rest

namespace Url

/-- A URL without the empty segment at the end of its path. -/
def dropEmptyEnd (u : Url) : Url :=
  if (u.path.drop 1).getLast? = some '/' then { u with path := u.path.dropLast } else u

def push (u : Url) (segment : List Char) : Url :=
  if segment = ['.'] ∨ segment = ['.', '.'] then u
  else
    let path := if u.path = ['/'] then u.path else u.path ++ ['/']
    let written := escapeText escapedInSegment (segment.filter fun c => !vanishes c)
    { u with path := addSegment path false written }

/-- The URL of an endpoint below a URL. -/
def extend (u : Url) (segments : List (List Char)) : Url :=
  segments.foldl push u.dropEmptyEnd

end Url

/-! ## Base URLs -/

/-- A base URL. -/
inductive Base where
  /-- One with a path. -/
  | located (url : Url)
  /-- One whose path cannot be extended. -/
  | pathless (text : String)
  deriving DecidableEq, Repr

/-- The schemes whose URLs have a path always. -/
def webSchemes : List String := ["http", "https", "ws", "wss", "ftp", "file"]

/-- Whether a character may stand in a scheme after its first letter. -/
def isSchemeChar (c : Char) : Bool := c.isAlphanum || c = '+' || c = '-' || c = '.'

/-- A text without the control characters and spaces around it, and without what vanishes. -/
def tidy (s : List Char) : List Char :=
  let outer := fun (c : Char) => decide (c.toNat ≤ 0x20)
  (((s.dropWhile outer).reverse.dropWhile outer).reverse).filter fun c => !vanishes c

/-- Cuts a text at each slash of either kind. -/
def cutAtSlashes : List Char → List (List Char)
  | [] => [[]]
  | c :: rest =>
    match cutAtSlashes rest with
    | [] => [[c]]
    | first :: others =>
      if c = '/' || c = '\\' then [] :: first :: others else (c :: first) :: others

/-- A URL from its origin and what is written behind that. -/
def Url.ofParts (origin rest : List Char) : Url :=
  let beforeFragment := rest.takeWhile (· ≠ '#')
  let path := beforeFragment.takeWhile (· ≠ '?')
  let query := beforeFragment.dropWhile (· ≠ '?')
  let segments := (cutAtSlashes path).map (escapeText escapedInPath)
  { origin
    path := addSegments ['/'] (match segments with
      | [] :: rest@(_ :: _) => rest
      | all => all)
    query := match query with
      | [] => none
      | _ :: q => some (escapeText escapedInQuery q) }

/-- Whether a character ends the host of a URL. -/
def endsHost (c : Char) : Bool := c = '/' || c = '\\' || c = '?' || c = '#'

/-- A URL without a path that could be extended, as it is written out. -/
def pathlessText (scheme rest : List Char) : String :=
  let beforeFragment := rest.takeWhile (· ≠ '#')
  let fragment := rest.dropWhile (· ≠ '#')
  let path := beforeFragment.takeWhile (· ≠ '?')
  let query := beforeFragment.dropWhile (· ≠ '?')
  String.ofList (scheme ++ [':'] ++ escapeText isControl path ++
    escapeText (fun b => isControl b || isAmong " \"#<>" b) query ++
    (match fragment with
      | [] => []
      | mark :: text => mark :: escapeText (fun b => isControl b || isAmong " \"<>`" b) text))

/-- Reads a base URL. -/
def Base.ofText? (s : List Char) : Option Base :=
  let s := tidy s
  let scheme := (s.takeWhile (· ≠ ':')).map Char.toLower
  match s.dropWhile (· ≠ ':'), scheme with
  | ':' :: rest, c :: cs =>
    if c.isAlpha && cs.all isSchemeChar then
      if String.ofList scheme ∈ webSchemes then
        let behind := rest.dropWhile fun c => c = '/' || c = '\\'
        let host := behind.takeWhile (!endsHost ·)
        some (.located (Url.ofParts (scheme ++ "://".toList ++ host)
          (behind.dropWhile (!endsHost ·))))
      else if rest.head? = some '/' then
        let behind := if rest.take 2 = ['/', '/'] then rest.drop 2 else rest
        let host := behind.takeWhile (!endsHost ·)
        some (.located (Url.ofParts (scheme ++ "://".toList ++ host)
          (behind.dropWhile (!endsHost ·))))
      else some (.pathless (pathlessText scheme rest))
    else none
  | _, _ => none

end CoinLedger.Identity
