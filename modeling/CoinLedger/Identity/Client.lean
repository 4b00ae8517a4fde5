import CoinLedger.Identity.Payload
import CoinLedger.Identity.Url
/-!
# The identity client

The service is asked for the id of a name by one request, and for the names of ids by another. Its
answer is read as far as its status allows: an unknown name is no failure. A request that gets no
complete answer fails, whatever its status would have been.

## Main definitions

* `lookupRequest`, `namesRequest` — the two requests.
* `foundUser`, `foundNames` — what an answer means.
-/

namespace CoinLedger.Identity

open Text

/-- A request to the service. -/
structure Outgoing where
  method : String
  url : Url
  accept : String
  contentType : Option String := none
  body : String := ""
  deriving DecidableEq, Repr

/-- What comes of sending a request. -/
inductive Reception where
  /-- A complete answer. -/
  | answered (status : Nat) (body : List UInt8)
  /-- No complete answer. -/
  | broken
  /-- No answer in time. -/
  | late
  deriving DecidableEq, Repr

def endpoint (base : Base) (segments : List String) : Except IdentityFailure Url :=
  match base with
  | .located url => .ok (url.extend (segments.map String.toList))
  | .pathless text =>
    .error (.transport ("identity base url `" ++ text ++ "` cannot carry a path"))

/-- The request for the id of a user. -/
def lookupRequest (base : Base) (name : Username) : Except IdentityFailure Outgoing :=
  (endpoint base ["users", "by-name", name.text]).map fun url =>
    { method := "GET", url, accept := "application/json" }

/-- The members of the request for names. -/
def namesBody (users : List UserId) : Json.Value :=
  .obj [("ids", .array ((ascending users).map fun u => .number (.whole u.toInt)))]

def namesRequest (base : Base) (users : List UserId) : Except IdentityFailure Outgoing :=
  (endpoint base ["users", "names"]).map fun url =>
    { method := "POST", url, accept := "*/*", contentType := some "application/json",
      body := (namesBody users).render }

def isSuccess (status : Nat) : Bool := 200 ≤ status && status < 300

/-- Whether an answer of a status comes without a body. -/
def hasNoBody (status : Nat) : Bool := status = 204 || status = 304

/-- The body of an answer. -/
def bodyOf (status : Nat) (body : List UInt8) : List UInt8 :=
  if hasNoBody status then [] else body

/-- What comes of a request whose answer ends before its body is complete. -/
def Reception.ofTruncated (status : Nat) : Reception :=
  if hasNoBody status then .answered status [] else .broken

/-- The failure that a status is. -/
def unexpectedStatus (status : Nat) (body : List UInt8) : IdentityFailure :=
  .status status (String.ofList (preview body))

/-- The failure of a request without a complete answer. -/
def brokenOff : IdentityFailure := .transport "the connection ended before the answer was complete"

/-- The failure of a request that takes too long. -/
def tooLate : IdentityFailure := .timeout "the time limit has passed"

/-- The user that was asked for. -/
def foundUser : Reception → Except IdentityFailure (Option UserId)
  | .broken => .error brokenOff
  | .late => .error tooLate
  | .answered status body =>
    let body := bodyOf status body
    if status = 404 then .ok none
    else if isSuccess status then
      match userId? body with
      | some id => .ok (some id)
      | none => .error (.decode "invalid user id payload")
    else .error (unexpectedStatus status body)

/-- The names that were asked for. -/
def foundNames : Reception → Except IdentityFailure Names
  | .broken => .error brokenOff
  | .late => .error tooLate
  | .answered status body =>
    let body := bodyOf status body
    if isSuccess status then
      match entries? body with
      | none => .error (.decode "invalid usernames payload")
      | some entries => (namesOf entries).mapError .decode
    else .error (unexpectedStatus status body)

end CoinLedger.Identity
