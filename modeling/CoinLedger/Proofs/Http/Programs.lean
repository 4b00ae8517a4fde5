import CoinLedger.Proofs.Http.Answer
import CoinLedger.Proofs.Ledger.Quiet

/-!
# Requests as programs

The handlers call the use cases one after the other, each with a world to itself.  Here a whole
request is a single program over the store (`program`), so that it can be one of many at work at
the same time: identification and decoding come in between the calls of the use cases, and every
ending is a response.

Run over a store in memory, that program is the application itself (`respond_runOn`).

## Main definitions

* `UseCase.andThen` — a program that goes on from every outcome of another one.
* `handling`, `program` — the handler of a route, and a whole request.

## Main results

* `respond_runOn` — responding to a request without failures is running its program.
-/

namespace CoinLedger

namespace UseCase

variable {α β : Type}

/-- Goes on from the outcome of a program, be it a success or an error. -/
def andThen : UseCase α → (Except LedgerError α → UseCase β) → UseCase β
  | done r, k => k r
  | call c next, k => call c fun r => (next r).andThen k
  | transact w next, k => transact w fun r => (next r).andThen k
  | gather u next, k => gather u fun r => (next r).andThen k

theorem runOn_andThen {σ : Type} (b : Backing σ) (p : UseCase α)
    (k : Except LedgerError α → UseCase β) (w : σ) :
    (p.andThen k).runOn b w = (k (p.runOn b w).1).runOn b (p.runOn b w).2 := by
  induction p generalizing w with
  | done r => rfl
  | call c next ih => exact ih _ _
  | transact u next ih => exact ih _ _
  | gather u next ih => exact ih _ _

end UseCase

namespace Http

/-! ## The handlers -/

/-- The answer of a handler whose use case has come to its end. -/
def answered {α : Type} (render : α → Response) :
    Except LedgerError α → UseCase (Except ApiError Response)
  | .ok a => pure (.ok (render a))
  | .error e => pure (.error (.ledger e))

/-- Identifies and provisions the caller, and goes on if both succeed. -/
def admission (seed : Coins) (r : Request)
    (rest : Caller → UseCase (Except ApiError Response)) : UseCase (Except ApiError Response) :=
  match Caller.ofRequest r with
  | .error e => pure (.error e)
  | .ok caller => (UseCase.ensureCreated seed caller.id).andThen fun
    | .error e => pure (.error (.ledger e))
    | .ok () => rest caller

/-- Sends coins from a caller, if the body can be read and names a user. -/
def sending (decode : ContentDecoder) (seed : Coins) (r : Request) (caller : Caller) :
    UseCase (Except ApiError Response) :=
  match TransferRequest.ofRequest decode r with
  | .error failure => pure (.error (unreadableBody failure))
  | .ok t =>
    match Username.ofString t.toUser with
    | .error e => pure (.error (.ledger (.invalidArguments (.recipientName e))))
    | .ok name => (UseCase.sendCoins seed caller.id name t.amount).andThen (answered fun _ => done)

/-- The handler of a route as a program. -/
def handling (decode : ContentDecoder) (seed : Coins) (health : Health) (r : Request) :
    Option Route → UseCase (Except ApiError Response)
  | none => pure (.ok notFound)
  | some .info => admission seed r fun caller =>
      (UseCase.accountInfo caller.id).andThen
        (answered fun a => ApiError.jsonResponse 200 (accountValue a))
  | some .sendCoin => admission seed r (sending decode seed r)
  | some (.buy item) => admission seed r fun caller =>
      (UseCase.buyItem caller.id item).andThen (answered fun _ => done)
  | some .ready => pure (.ok (Health.probe health.ready))
  | some .live => pure (.ok (Health.probe health.alive))

/-- A request as a program, which gives its response. -/
def program (decode : ContentDecoder) (seed : Coins) (health : Health) (fresh : TraceId)
    (r : Request) : UseCase Response :=
  (handling decode seed health r (Route.ofRequest? r)).andThen fun answer =>
    .done (answer.map (sealed (r.trace?.getD fresh)))

/-! ## The application without failures -/

section
variable {decode : ContentDecoder} {e : Stage} (quiet : e.script = .quiet)
include quiet

/-- A service that nothing disturbs runs its use case, and nobody has to wait. -/
theorem serve_quiet {α : Type} (u : UseCase α) (w : Scripted) :
    ∃ n, Scripted.serve e u w =
      ⟨(u.runOn (.memory e.directory) w.store).1,
        ⟨(u.runOn (.memory e.directory) w.store).2, n⟩, false⟩ := by
  have intime : e.allows 0 = true := by
    unfold Stage.allows
    cases e.limit with
    | none => rfl
    | some limit => exact decide_eq_true (Nat.zero_le limit)
  obtain ⟨n, hn⟩ := u.play_quiet quiet (c := ⟨0, w.calls⟩) intime w.store
  refine ⟨n, ?_⟩
  unfold Scripted.serve
  rw [hn]
  rfl

/-- A provisioning that nothing disturbs succeeds at once. -/
theorem serve_ensureCreated_quiet (seed : Coins) (u : UserId) (w : Scripted) :
    ∃ n, Scripted.serve e (UseCase.ensureCreated seed u) w =
      ⟨.ok (), ⟨w.store.insertIfAbsent u seed, n⟩, false⟩ :=
  serve_quiet quiet (UseCase.ensureCreated seed u) w

omit quiet in
/-- Behind the gate a program begins where its caller has been provisioned. -/
theorem runOn_admission {r : Request} {caller : Caller} (hcaller : Caller.ofRequest r = .ok caller)
    (d : Directory) (seed : Coins) (rest : Caller → UseCase (Except ApiError Response))
    (s : Store) :
    (admission seed r rest).runOn (.memory d) s =
      (rest caller).runOn (.memory d) (s.insertIfAbsent caller.id seed) := by
  unfold admission
  rw [hcaller]
  rfl

omit quiet in
/-- A caller that is not known is turned away before anything is done. -/
theorem runOn_admission_error {r : Request} {err : ApiError}
    (hcaller : Caller.ofRequest r = .error err) (d : Directory) (seed : Coins)
    (rest : Caller → UseCase (Except ApiError Response)) (s : Store) :
    (admission seed r rest).runOn (.memory d) s = (.ok (.error err), s) := by
  unfold admission
  rw [hcaller]
  rfl

theorem authenticate_quiet {r : Request} {caller : Caller}
    (hcaller : Caller.ofRequest r = .ok caller) (seed : Coins) (w : Scripted) :
    ∃ n, authenticate (some (.scripted decode e seed)) r w =
      (.ok caller, ⟨w.store.insertIfAbsent caller.id seed, n⟩) := by
  obtain ⟨n, provisioned⟩ := serve_ensureCreated_quiet quiet seed caller.id w
  refine ⟨n, ?_⟩
  unfold authenticate
  simp only [hcaller, Services.scripted, provisioned]

omit quiet in
theorem authenticate_error {r : Request} {err : ApiError}
    (hcaller : Caller.ofRequest r = .error err) (seed : Coins) (w : Scripted) :
    authenticate (some (.scripted decode e seed)) r w = (.error err, w) := by
  unfold authenticate
  rw [hcaller]

theorem handleInfo_runOn (seed : Coins) (health : Health) (r : Request) (w : Scripted) :
    (handling decode seed health r (some .info)).runOn (.memory e.directory) w.store =
      (.ok (handleInfo (.scripted decode e seed) r w).1,
        (handleInfo (.scripted decode e seed) r w).2.store) := by
  show (admission seed r _).runOn _ _ = _
  unfold handleInfo
  cases hcaller : Caller.ofRequest r with
  | error err => rw [runOn_admission_error hcaller, authenticate_error hcaller]
  | ok caller =>
    obtain ⟨n, admitted⟩ := authenticate_quiet quiet hcaller seed w
    obtain ⟨m, viewed⟩ := serve_quiet quiet (UseCase.accountInfo caller.id)
      ⟨w.store.insertIfAbsent caller.id seed, n⟩
    rw [runOn_admission hcaller, UseCase.runOn_andThen, admitted]
    simp only [Services.scripted, viewed]
    rcases (UseCase.accountInfo caller.id).runOn (.memory e.directory)
      (w.store.insertIfAbsent caller.id seed) with ⟨result | result, s'⟩ <;> rfl

theorem handleBuy_runOn (seed : Coins) (health : Health) (item : String) (r : Request)
    (w : Scripted) :
    (handling decode seed health r (some (.buy item))).runOn (.memory e.directory) w.store =
      (.ok (handleBuy (.scripted decode e seed) item r w).1,
        (handleBuy (.scripted decode e seed) item r w).2.store) := by
  show (admission seed r _).runOn _ _ = _
  unfold handleBuy
  cases hcaller : Caller.ofRequest r with
  | error err => rw [runOn_admission_error hcaller, authenticate_error hcaller]
  | ok caller =>
    obtain ⟨n, admitted⟩ := authenticate_quiet quiet hcaller seed w
    obtain ⟨m, bought⟩ := serve_quiet quiet (UseCase.buyItem caller.id item)
      ⟨w.store.insertIfAbsent caller.id seed, n⟩
    rw [runOn_admission hcaller, UseCase.runOn_andThen, admitted]
    simp only [Services.scripted, bought]
    rcases (UseCase.buyItem caller.id item).runOn (.memory e.directory)
      (w.store.insertIfAbsent caller.id seed) with ⟨result | result, s'⟩ <;> rfl

theorem handleSend_runOn (seed : Coins) (health : Health) (r : Request) (w : Scripted) :
    (handling decode seed health r (some .sendCoin)).runOn (.memory e.directory) w.store =
      (.ok (handleSend (.scripted decode e seed) r w).1,
        (handleSend (.scripted decode e seed) r w).2.store) := by
  show (admission seed r _).runOn _ _ = _
  unfold handleSend authenticateTransfer
  cases hcaller : Caller.ofRequest r with
  | error err => exact runOn_admission_error hcaller _ _ _ _
  | ok caller =>
    obtain ⟨n, provisioned⟩ := serve_ensureCreated_quiet quiet seed caller.id w
    rw [runOn_admission hcaller]
    simp only [Services.scripted, provisioned]
    unfold sending
    cases TransferRequest.ofRequest decode r with
    | error failure => rfl
    | ok t =>
      dsimp only
      cases Username.ofString t.toUser with
      | error err => rfl
      | ok name =>
        obtain ⟨m, sent⟩ := serve_quiet quiet
          (UseCase.sendCoins seed caller.id name t.amount)
          ⟨w.store.insertIfAbsent caller.id seed, n⟩
        dsimp only
        rw [UseCase.runOn_andThen]
        simp only [sent]
        rcases (UseCase.sendCoins seed caller.id name t.amount).runOn (.memory e.directory)
          (w.store.insertIfAbsent caller.id seed) with ⟨result | result, s'⟩ <;> rfl

theorem handle_runOn (seed : Coins) (health : Health) (route : Option Route) (r : Request)
    (w : Scripted) :
    (handling decode seed health r route).runOn (.memory e.directory) w.store =
      (.ok (handle (.scripted decode e seed) health route r w).1,
        (handle (.scripted decode e seed) health route r w).2.store) := by
  rcases route with _ | _ | _ | item | _ | _
  · rfl
  · exact handleInfo_runOn quiet seed health r w
  · exact handleSend_runOn quiet seed health r w
  · exact handleBuy_runOn quiet seed health item r w
  · rfl
  · rfl

/-- **Responding to a request without failures is running its program.** -/
theorem respond_runOn (seed : Coins) (health : Health) (fresh : TraceId) (r : Request)
    (w : Scripted) :
    (program decode seed health fresh r).runOn (.memory e.directory) w.store =
      (.ok (respond (.scripted decode e seed) health fresh r w).1,
        (respond (.scripted decode e seed) health fresh r w).2.store) := by
  rw [respond_eq, program, UseCase.runOn_andThen, handle_runOn quiet]
  rfl

end

end Http

end CoinLedger
