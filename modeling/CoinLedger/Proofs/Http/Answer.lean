import CoinLedger.Http.App

/-!
# From a handler's answer to the response

Whatever a handler answers is sealed in the same way: a failure becomes a response of its own, and
the trace id is set.

## Main results

* `respond_eq` — a response is the sealed answer of the handler of its route.
* `ApiError.status_mem` — the statuses of failed requests.
-/

namespace CoinLedger.Http

/-- The trace id of zeros. -/
def zeroTrace : TraceId := ⟨List.replicate 32 ⟨0, Nat.zero_lt_succ 15⟩, rfl⟩

/-- The response that a handler's answer becomes. -/
def sealed (trace : TraceId) (answer : Except ApiError Response) : Response :=
  (match answer with
    | .ok response => response
    | .error e => e.response (some trace)).setHeader traceHeader trace.text

/-- A response is the sealed answer of the handler, and the world is as the handler left it. -/
theorem respond_eq {ω : Type} (services : Services ω) (health : Health) (fresh : TraceId)
    (r : Request) (w : ω) :
    respond services health fresh r w =
      (sealed (r.trace?.getD fresh) (handle services health (Route.ofRequest? r) r w).1,
        (handle services health (Route.ofRequest? r) r w).2) := rfl

/-- The statuses of failed requests. -/
theorem ApiError.status_mem (e : ApiError) : e.status ∈ [400, 401, 500, 504] := by
  cases e with
  | ledger cause =>
    show ApiError.statusOf cause.category ∈ _
    cases cause.category <;> decide
  | unauthenticated m =>
    show (401 : Nat) ∈ _
    decide
  | badRequest m =>
    show (400 : Nat) ∈ _
    decide

@[simp] theorem status_sealed_ok (trace : TraceId) (response : Response) :
    (sealed trace (.ok response)).status = response.status := rfl

@[simp] theorem status_sealed_error (trace : TraceId) (e : ApiError) :
    (sealed trace (.error e)).status = e.status := rfl

end CoinLedger.Http
