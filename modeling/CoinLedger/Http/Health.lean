import CoinLedger.Http.Message
/-!
# Health probes

The service starts alive but not ready. It becomes ready once it can serve, and it stops being
alive when it shuts down. A probe answers with an empty body that must not be cached.
-/

namespace CoinLedger.Http

/-- What the probes report. -/
structure Health where
  ready : Bool := false
  alive : Bool := true
  deriving DecidableEq, Repr

namespace Health

/-- The service can serve. -/
def markReady (h : Health) : Health := { h with ready := true }

/-- The service is shutting down. -/
def markUnhealthy (h : Health) : Health := { h with alive := false }

/-- The answer to a probe. -/
def probe (passes : Bool) : Response :=
  ({ status := if passes then 200 else 503 } : Response).setHeader "cache-control" "no-store"

end Health

end CoinLedger.Http
