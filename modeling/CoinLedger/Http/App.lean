import CoinLedger.Http.AccountBody
import CoinLedger.Http.Caller
import CoinLedger.Http.Health
import CoinLedger.Http.Route
import CoinLedger.Http.TransferRequest
import CoinLedger.Script
/-!
# The application

A request is matched to a route; on a store route its caller is identified and provisioned before
the use case runs. Every use case call, provisioning included, has the request timeout to itself.
Whatever the answer, it carries the request's trace id.

The handlers see the use cases only as `Services` over some world, so that one application serves
the store in memory under a script, the database, or fixed answers. What decodes encoded bodies
comes with the services.

For a transfer, the caller and the body are read at the same time. An identity that fails at once
wins; a bad body is answered without waiting for a provisioning that takes time, which is then
dropped without effect.

## Main definitions

* `Services`, `Services.scripted`, `Services.fixed` — the use cases as the handlers see them.
* `respond` — the answer to a request.
-/

namespace CoinLedger.Http

/-! ## Services -/

/-- The answer of a use case over a world `ω`, the world after it, and whether the caller had to
wait for it. -/
structure Served (ω α : Type) where
  outcome : Except LedgerError α
  world : ω
  delayed : Bool := false

/-- What the handlers call: the use cases, and what decodes bodies. -/
structure Services (ω : Type) where
  decode : ContentDecoder
  ensureCreated : UserId → ω → Served ω Unit
  accountInfo : UserId → ω → Served ω AccountInfo
  sendCoins : UserId → Username → Coins → ω → Served ω Unit
  buyItem : UserId → String → ω → Served ω Unit

/-- A store together with the number of calls made for the current request. -/
structure Scripted where
  store : Store
  calls : Nat := 0
  deriving DecidableEq

/-- Runs a use case on a scripted store until the limit. -/
def Scripted.serve {α : Type} (e : Stage) (u : UseCase α) (w : Scripted) : Served Scripted α :=
  match u.play e w.store ⟨0, w.calls⟩ with
  | .finished r s c => ⟨r, ⟨s, c.calls⟩, 0 < c.time⟩
  | .cut s => ⟨.error .deadlineExceeded, ⟨s, w.calls⟩, true⟩

/-- The use cases over a store in memory, against a script. -/
def Services.scripted (decode : ContentDecoder) (e : Stage) (seed : Coins) : Services Scripted where
  decode := decode
  ensureCreated u := Scripted.serve e (UseCase.ensureCreated seed u)
  accountInfo u := Scripted.serve e (UseCase.accountInfo u)
  sendCoins u name amount := Scripted.serve e (UseCase.sendCoins seed u name amount)
  buyItem u name := Scripted.serve e (UseCase.buyItem u name)

/-- Fixed answers: every command is accepted and every account is fresh. -/
def Services.fixed (decode : ContentDecoder) (ω : Type) : Services ω where
  decode := decode
  ensureCreated _ w := ⟨.ok (), w, false⟩
  accountInfo _ w := ⟨.ok { balance := UseCase.startBalance }, w, false⟩
  sendCoins _ _ _ w := ⟨.ok (), w, false⟩
  buyItem _ _ w := ⟨.ok (), w, false⟩

/-- The time a request may take unless another one is set, in milliseconds. -/
def defaultTimeout : Nat := 3000

/-! ## Handlers -/

variable {ω : Type}

/-- Identifies the caller and creates the caller's balance row. Without services to call, the
application is not set up. -/
def authenticate (services : Option (Services ω)) (r : Request) (w : ω) :
    Except ApiError Caller × ω :=
  match Caller.ofRequest r with
  | .error e => (.error e, w)
  | .ok caller =>
    match services with
    | none => (.error (.ledger (.internal .unconfigured)), w)
    | some s =>
      let served := s.ensureCreated caller.id w
      match served.outcome with
      | .error e => (.error (.ledger e), served.world)
      | .ok () => (.ok caller, served.world)

/-- The body of a transfer could not be read. The client is not told why. -/
def unreadableBody (_ : BodyFailure) : ApiError := .badRequest "invalid request body"

/-- Identifies and provisions the caller of a transfer while its body is read. -/
def authenticateTransfer (services : Services ω) (r : Request) (w : ω) :
    Except ApiError (Caller × TransferRequest) × ω :=
  match Caller.ofRequest r with
  | .error e => (.error e, w)
  | .ok caller =>
    let served := services.ensureCreated caller.id w
    match TransferRequest.ofRequest services.decode r with
    | .ok t =>
      match served.outcome with
      | .error e => (.error (.ledger e), served.world)
      | .ok () => (.ok (caller, t), served.world)
    | .error failure =>
      if served.delayed then (.error (unreadableBody failure), w)
      else
        match served.outcome with
        | .error e => (.error (.ledger e), served.world)
        | .ok () => (.error (unreadableBody failure), served.world)

/-- The account view of the caller. -/
def handleInfo (services : Services ω) (r : Request) (w : ω) : Except ApiError Response × ω :=
  match authenticate (some services) r w with
  | (.error e, w) => (.error e, w)
  | (.ok caller, w) =>
    let served := services.accountInfo caller.id w
    match served.outcome with
    | .error e => (.error (.ledger e), served.world)
    | .ok a => (.ok (ApiError.jsonResponse 200 (accountValue a)), served.world)

/-- An answer without a body. -/
def done : Response := { status := 200 }

def handleBuy (services : Services ω) (item : String) (r : Request) (w : ω) :
    Except ApiError Response × ω :=
  match authenticate (some services) r w with
  | (.error e, w) => (.error e, w)
  | (.ok caller, w) =>
    let served := services.buyItem caller.id item w
    match served.outcome with
    | .error e => (.error (.ledger e), served.world)
    | .ok () => (.ok done, served.world)

/-- Sends coins from the caller. -/
def handleSend (services : Services ω) (r : Request) (w : ω) : Except ApiError Response × ω :=
  match authenticateTransfer services r w with
  | (.error e, w) => (.error e, w)
  | (.ok (caller, t), w) =>
    match Username.ofString t.toUser with
    | .error e => (.error (.ledger (.invalidArguments (.recipientName e))), w)
    | .ok name =>
      let served := services.sendCoins caller.id name t.amount w
      match served.outcome with
      | .error e => (.error (.ledger e), served.world)
      | .ok () => (.ok done, served.world)

/-- No route fits the request. -/
def notFound : Response := { status := 404 }

/-- The handler of a route. -/
def handle (services : Services ω) (health : Health) (route : Option Route) (r : Request) (w : ω) :
    Except ApiError Response × ω :=
  match route with
  | none => (.ok notFound, w)
  | some .info => handleInfo services r w
  | some .sendCoin => handleSend services r w
  | some (.buy item) => handleBuy services item r w
  | some .ready => (.ok (Health.probe health.ready), w)
  | some .live => (.ok (Health.probe health.alive), w)

/-- The answer to a request, and the world after it. The trace id is the one that the request
brings along, or else the fresh one. -/
def respond (services : Services ω) (health : Health) (fresh : TraceId) (r : Request) (w : ω) :
    Response × ω :=
  let trace := r.trace?.getD fresh
  let (answer, w') := handle services health (Route.ofRequest? r) r w
  let response :=
    match answer with
    | .ok response => response
    | .error e => e.response (some trace)
  (response.setHeader traceHeader trace.text, w')

end CoinLedger.Http
