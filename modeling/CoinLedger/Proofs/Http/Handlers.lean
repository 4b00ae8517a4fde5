import CoinLedger.Proofs.Http.Answer

/-!
# What the handlers read of a request

A handler is a chain of steps that stops at the first error: the caller is identified, provisioned
and served, and the world is handed on from step to step (`andThen`).  Of its request it reads the
route, who the caller is, and for a transfer what is to be sent.  Here the handlers are written as
such chains over these three (`attend`), and are proved to be them (`handle_eq_attend`).

Two requests that read alike thus get the same answer, whatever else is in them.

## Main definitions

* `Request.caller` — the id of the caller, or why there is none.
* `andThen`, `Served.answer` — the steps of a handler.
* `attend` — the handler of a route, given what it reads.

## Main results

* `respond_eq_attend` — a response depends on the route, the caller's id, the transfer and the
  trace id of its request.
-/

namespace CoinLedger.Http

variable {ω α β : Type}

/-- The id of the caller of a request, or why there is none. -/
def Request.caller (r : Request) : Except ApiError UserId := (Caller.ofRequest r).map Caller.id

/-- Goes on from a success in the world it left; an error ends the handler. -/
def andThen (x : Except ApiError α × ω) (f : α → ω → Except ApiError β × ω) :
    Except ApiError β × ω :=
  match x.1 with
  | .ok a => f a x.2
  | .error e => (.error e, x.2)

/-- What a use case came to, as a step of a handler. -/
def Served.answer (x : Served ω α) : Except ApiError α × ω := (x.outcome.mapError .ledger, x.world)

theorem Served.answer_ok {x : Served ω α} {a : α} (h : x.outcome = .ok a) :
    x.answer = (.ok a, x.world) := by
  unfold answer
  rw [h]
  rfl

theorem Served.answer_error {x : Served ω α} {e : LedgerError} (h : x.outcome = .error e) :
    x.answer = (.error (.ledger e), x.world) := by
  unfold answer
  rw [h]
  rfl

/-- A handler behind the gate. -/
def behindGate (services : Services ω) (caller : Except ApiError UserId)
    (rest : UserId → ω → Except ApiError Response × ω) (w : ω) : Except ApiError Response × ω :=
  andThen (caller, w) fun u w => andThen (services.ensureCreated u w).answer fun _ w => rest u w

/-- A transfer behind the gate.  If the body cannot be read, nobody waits for the provisioning. -/
def transferBehindGate (services : Services ω) (caller : Except ApiError UserId)
    (body : Except BodyFailure TransferRequest) (w : ω) : Except ApiError Response × ω :=
  andThen (caller, w) fun u w =>
    match body with
    | .error failure =>
      if (services.ensureCreated u w).delayed then (.error (unreadableBody failure), w)
      else
        andThen (services.ensureCreated u w).answer fun _ w => (.error (unreadableBody failure), w)
    | .ok t =>
      andThen (services.ensureCreated u w).answer fun _ w =>
        match Username.ofString t.toUser with
        | .error e => (.error (.ledger (.invalidArguments (.recipientName e))), w)
        | .ok name =>
          andThen (services.sendCoins u name t.amount w).answer fun _ w => (.ok done, w)

/-- The handler of a route, given who the caller is and what is to be sent. -/
def attend (services : Services ω) (health : Health) (caller : Except ApiError UserId)
    (body : Except BodyFailure TransferRequest) : Option Route → ω → Except ApiError Response × ω
  | none, w => (.ok notFound, w)
  | some .info, w =>
    behindGate services caller (fun u w => andThen (services.accountInfo u w).answer fun view w =>
      (.ok (ApiError.jsonResponse 200 (accountValue view)), w)) w
  | some .sendCoin, w => transferBehindGate services caller body w
  | some (.buy item), w =>
    behindGate services caller (fun u w => andThen (services.buyItem u item w).answer fun _ w =>
      (.ok done, w)) w
  | some .ready, w => (.ok (Health.probe health.ready), w)
  | some .live, w => (.ok (Health.probe health.alive), w)

/-! ## The handlers are these chains -/

variable (services : Services ω) (r : Request) (w : ω)

/-- What follows the authentication sees the caller's id only. -/
theorem andThen_authenticate (rest : UserId → ω → Except ApiError Response × ω) :
    andThen (authenticate (some services) r w) (fun caller w => rest caller.id w) =
      behindGate services r.caller rest w := by
  unfold authenticate behindGate Request.caller
  cases Caller.ofRequest r with
  | error e => rfl
  | ok caller =>
    dsimp only [Except.map, andThen, Served.answer]
    cases (services.ensureCreated caller.id w).outcome <;> rfl

theorem handleInfo_eq_behindGate :
    handleInfo services r w = behindGate services r.caller (fun u w =>
      andThen (services.accountInfo u w).answer fun view w =>
        (.ok (ApiError.jsonResponse 200 (accountValue view)), w)) w := by
  rw [← andThen_authenticate, handleInfo, andThen]
  rcases authenticate (some services) r w with ⟨e | caller, w'⟩
  · rfl
  · dsimp only [andThen, Served.answer]
    cases (services.accountInfo caller.id w').outcome <;> rfl

theorem handleBuy_eq_behindGate (item : String) :
    handleBuy services item r w = behindGate services r.caller (fun u w =>
      andThen (services.buyItem u item w).answer fun _ w => (.ok done, w)) w := by
  rw [← andThen_authenticate, handleBuy, andThen]
  rcases authenticate (some services) r w with ⟨e | caller, w'⟩
  · rfl
  · dsimp only [andThen, Served.answer]
    cases (services.buyItem caller.id item w').outcome <;> rfl

theorem handleSend_eq_transferBehindGate :
    handleSend services r w =
      transferBehindGate services r.caller (TransferRequest.ofRequest services.decode r) w := by
  unfold handleSend authenticateTransfer transferBehindGate Request.caller
  cases Caller.ofRequest r with
  | error e => rfl
  | ok caller =>
    dsimp only [Except.map, andThen]
    cases TransferRequest.ofRequest services.decode r with
    | error failure =>
      dsimp only
      rcases services.ensureCreated caller.id w with ⟨outcome, world, delayed⟩
      cases delayed <;> cases outcome <;> rfl
    | ok t =>
      dsimp only
      cases provisioned : (services.ensureCreated caller.id w).outcome with
      | error e =>
        rw [Served.answer_error provisioned]
      | ok x =>
        rw [Served.answer_ok provisioned]
        dsimp only
        cases Username.ofString t.toUser with
        | error e => rfl
        | ok name =>
          dsimp only
          cases sent : (services.sendCoins caller.id name t.amount
              (services.ensureCreated caller.id w).world).outcome with
          | error e => rw [Served.answer_error sent]
          | ok x => rw [Served.answer_ok sent]

/-- **A handler reads its request through the route, the caller's id and the transfer.** -/
theorem handle_eq_attend (health : Health) (route : Option Route) :
    handle services health route r w =
      attend services health r.caller (TransferRequest.ofRequest services.decode r) route w := by
  rcases route with _ | ⟨⟨⟩ | ⟨⟩ | item | ⟨⟩ | ⟨⟩⟩
  · rfl
  · exact handleInfo_eq_behindGate services r w
  · exact handleSend_eq_transferBehindGate services r w
  · exact handleBuy_eq_behindGate services r w item
  · rfl
  · rfl

/-- A response depends on the route, the caller's id, the transfer and the trace id. -/
theorem respond_eq_attend (health : Health) (fresh : TraceId) :
    respond services health fresh r w =
      Prod.map (sealed (r.trace?.getD fresh)) id
        (attend services health r.caller (TransferRequest.ofRequest services.decode r)
          (Route.ofRequest? r) w) := by
  rw [respond_eq, handle_eq_attend]
  rfl

/-! ## Requests that differ in some headers -/

/-- Names that a third one sets apart are not the same. -/
theorem sameName_eq_false {a b c : String} (hab : sameName a b = true)
    (hbc : sameName b c = false) : sameName a c = false := by
  unfold sameName at *
  rw [beq_iff_eq] at hab
  rw [hab]
  exact hbc

/-- A header is found among those that are kept, if headers of its name are kept. -/
theorem Request.header?_filter (r : Request) {keep : Header → Bool} {name : String}
    (kept : ∀ h : Header, sameName h.name name = true → keep h = true) :
    ((r.headers.filter keep).find? fun h => sameName h.name name).map Header.value =
      r.header? name := by
  rw [List.find?_filter, Request.header?]
  congr 2
  funext h
  cases hn : sameName h.name name with
  | false => simp
  | true => simp [kept h hn]

/-- The caller of a request is read off the caller's id header. -/
theorem Request.caller_congr {r r' : Request}
    (same : r.header? Caller.idHeader = r'.header? Caller.idHeader) : r.caller = r'.caller := by
  unfold Request.caller Caller.ofRequest
  rw [same]
  cases r'.header? Caller.idHeader with
  | none => rfl
  | some value =>
    dsimp only
    cases (readable? value).bind Caller.idOfText? <;> rfl

end CoinLedger.Http
