import CoinLedger.Http.Message
import CoinLedger.Json
import CoinLedger.LedgerError
/-!
# Failed requests

A request fails because a use case failed, because the caller is not known, or because the request
could not be read. The client is told the wording of the failure, except for faults of the service
itself, which are worded alike whatever went wrong.

## Main results

* `publicMessage_internal` — every fault has the same public wording.
* `status_internal` — and the same status.
-/

namespace CoinLedger.Http

/-- Why a request failed. -/
inductive ApiError where
  | ledger (cause : LedgerError)
  /-- The caller's identity is missing or malformed. -/
  | unauthenticated (message : String)
  /-- The request could not be read. -/
  | badRequest (message : String)
  deriving DecidableEq, Repr

namespace ApiError

/-- The wording of a failed request, for the service's own eyes. -/
def message : ApiError → String
  | ledger cause => cause.message
  | unauthenticated m => m
  | badRequest m => m

/-- The wording that a client gets in the place of internals. -/
def redacted : String := "internal error"

/-- The wording of a failed request for the client. -/
def publicMessage : ApiError → String
  | ledger cause => if cause.category = .internalError then redacted else cause.message
  | unauthenticated m => m
  | badRequest m => m

/-- The status of a class of failures. -/
def statusOf : Category → Nat
  | .invalidRequest => 400
  | .notFound => 400
  | .failedPrecondition => 400
  | .deadlineExceeded => 504
  | .internalError => 500

/-- The status of a failed request. -/
def status : ApiError → Nat
  | ledger cause => statusOf cause.category
  | unauthenticated _ => 401
  | badRequest _ => 400

/-- The body of a failed request: an object with the public wording. -/
def body (e : ApiError) : Json.Value := .obj [("errors", .str e.publicMessage)]

def jsonResponse (status : Nat) (v : Json.Value) : Response :=
  ({ status, body := v.render } : Response).setHeader "content-type" "application/json"

/-- The response to a failed request; it carries the trace id that is current, if there is one. -/
def response (trace : Option TraceId) (e : ApiError) : Response :=
  let r := jsonResponse e.status e.body
  match trace with
  | some t => r.setHeader traceHeader t.text
  | none => r

@[simp] theorem publicMessage_internal (f : Fault) :
    (ledger (.internal f)).publicMessage = redacted := rfl

@[simp] theorem status_internal (f : Fault) : (ledger (.internal f)).status = 500 := rfl

end ApiError

end CoinLedger.Http
