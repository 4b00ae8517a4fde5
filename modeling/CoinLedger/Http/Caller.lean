import CoinLedger.Http.ApiError
import CoinLedger.Text.Decimal
/-!
# The caller of a request

Authentication happens at the gateway, which forwards the verified caller in two headers. The id
is required: a signed decimal numeral, blanks around it aside, whose value is positive and fits an
id. The name is only taken along; one that is no username is dropped.
-/

namespace CoinLedger.Http

/-- The verified caller. -/
structure Caller where
  id : UserId
  username : Option Username
  deriving DecidableEq

namespace Caller

/-- The header with the caller's id. -/
def idHeader : String := "x-user-id"

/-- The header with the caller's name. -/
def nameHeader : String := "x-username"

/-- No id was forwarded. -/
def missing : ApiError := .unauthenticated "missing caller identity"

/-- What was forwarded as the id is none. -/
def malformed : ApiError := .unauthenticated "malformed caller identity"

def idOfText? (s : List Char) : Option UserId := do
  let n ← Text.Decimal.readInt? (Text.trim s)
  if 0 < n then UserId.ofInt? n else none

def nameOfText? (s : List Char) : Option Username :=
  (Username.ofString (String.ofList s)).toOption

def ofRequest (r : Request) : Except ApiError Caller :=
  match r.header? idHeader with
  | none => .error missing
  | some value =>
    match (readable? value).bind idOfText? with
    | none => .error malformed
    | some id => .ok ⟨id, (r.headerText? nameHeader).bind nameOfText?⟩

end Caller

end CoinLedger.Http
