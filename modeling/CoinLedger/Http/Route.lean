import CoinLedger.Http.Message
import CoinLedger.Text.Percent
/-!
# Routes

A route is chosen by the method and the path of the target. The path is decoded before it is
compared, all but the escapes of `%`, `/` and `+`, so that an escaped slash does not part segments;
the name of an item is one segment that is not empty, decoded to the end. Case counts, and what
follows `?` or `#` does not.
-/

namespace CoinLedger.Http

open Text

/-- What a request asks for. -/
inductive Route where
  | info
  | sendCoin
  | buy (item : String)
  | ready
  | live
  deriving DecidableEq, Repr

namespace Route

/-- A text up to the first query or fragment mark. -/
def beforeQuery (s : List Char) : List Char := s.takeWhile fun c => c ≠ '?' && c ≠ '#'

/-- The part of a target behind the scheme, if it has one. -/
def afterScheme? : List Char → Option (List Char)
  | [] => none
  | c :: rest =>
    if c = ':' then if rest.take 2 = ['/', '/'] then some (rest.drop 2) else none
    else if c = '/' then none
    else afterScheme? rest

/-- The path of a target: of an absolute one, what follows the authority. -/
def path (target : List Char) : List Char :=
  match afterScheme? target with
  | some rest =>
    match beforeQuery (rest.dropWhile fun c => c ≠ '/' && c ≠ '?' && c ≠ '#') with
    | [] => ['/']
    | p => p
  | none => beforeQuery target

/-- The bytes whose escapes are left for the last decoding. -/
def isKept (b : UInt8) : Bool := b = 0x25 || b = 0x2F || b = 0x2B

/-- Decodes escapes, except those of kept bytes; what is no text becomes U+FFFD. -/
def decodeText (keep : UInt8 → Bool) (s : List Char) : List Char :=
  Utf8.decodeLossy (Percent.decode keep (Utf8.encode s))

def comparedPath (target : List Char) : List Char := decodeText isKept (path target)

/-- The text behind a fixed beginning. -/
def behind? (start s : List Char) : Option (List Char) :=
  if s.take start.length = start then some (s.drop start.length) else none

/-- The item that a path asks to buy. -/
def item? (p : List Char) : Option String := do
  let segment ← behind? "/api/buy/".toList p
  if segment ≠ [] ∧ '/' ∉ segment then
    some (String.ofList (decodeText (fun _ => false) segment))
  else none

/-- The route of a request, if there is one for its method and path. -/
def ofRequest? (r : Request) : Option Route :=
  let p := comparedPath r.target
  if r.method = "GET" then
    if p = "/api/info".toList then some .info
    else if p = "/health/ready".toList then some .ready
    else if p = "/health/live".toList then some .live
    else (item? p).map .buy
  else if r.method = "POST" then
    if p = "/api/sendCoin".toList then some .sendCoin else none
  else none

end Route

end CoinLedger.Http
