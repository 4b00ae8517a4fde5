import CoinLedger.Proofs.Concurrency.Serializability
import CoinLedger.Proofs.Http.Programs

/-!
# Concurrent requests are serial

Requests that buy or send coins may be served at the same time: what a client is told, and what the
store is in the end, could have come about by serving them one at a time.  The requests whose units
of work ran keep the order of these units, and the others may be put anywhere.

A request is a direct program (`direct_program`), so the general statement about interleaved
programs applies; serving a request by itself is running this program to its end
(`respond_runOn`).

## Main results

* `requests_serializable` — the statement for the application.
-/

namespace CoinLedger

namespace UseCase

variable {α β : Type} {d : Directory} {seed : Coins} {goods : List Good}

/-- A direct program stays direct if nothing but its outcome is changed. -/
theorem Direct.andThen {p : UseCase α} {did : List UserId} (hp : p.Direct d seed goods did)
    {k : Except LedgerError α → UseCase β} (last : ∀ r, ∃ r', k r = done r') :
    (p.andThen k).Direct d seed goods did := by
  induction p generalizing did with
  | done r =>
    obtain ⟨r', hr'⟩ := last r
    show (k r).Direct d seed goods did
    rw [hr']
    trivial
  | call c next ih =>
    obtain ⟨a, steady, rest⟩ := hp
    exact ⟨a, steady, ih _ rest⟩
  | transact w next ih =>
    refine ⟨hp.1, fun r => ?_⟩
    obtain ⟨r', hr'⟩ := hp.2 r
    obtain ⟨r'', hr''⟩ := last r'
    refine ⟨r'', ?_⟩
    show (next r).andThen k = done r''
    rw [hr']
    exact hr''
  | gather u next ih => exact hp.elim

end UseCase

namespace Http

open Interleaving UseCase

/-! ## Requests are direct -/

variable {decode : ContentDecoder} {d : Directory} {seed : Coins} {goods : List Good}

theorem answered_done {α : Type} (render : α → Response) (r : Except LedgerError α) :
    ∃ r', answered render r = .done r' := by
  cases r with
  | ok a => exact ⟨_, rfl⟩
  | error e => exact ⟨_, rfl⟩

/-- Behind the gate the caller has been provisioned. -/
theorem direct_admission (r : Request) {rest : Caller → UseCase (Except ApiError Response)}
    (hrest : ∀ caller, (rest caller).Direct d seed goods [caller.id]) :
    (admission seed r rest).Direct d seed goods [] := by
  unfold admission
  cases Caller.ofRequest r with
  | error e => trivial
  | ok caller => exact ⟨(), steady_insertIfAbsent caller.id, hrest caller⟩

theorem direct_sending (r : Request) (caller : Caller) :
    (sending decode seed r caller).Direct d seed goods [caller.id] := by
  unfold sending
  cases TransferRequest.ofRequest decode r with
  | error failure => trivial
  | ok t =>
    dsimp only
    cases Username.ofString t.toUser with
    | error e => trivial
    | ok name =>
      have own : caller.id ∈ [caller.id] := List.mem_singleton.2 rfl
      exact (direct_sendCoins own name t.amount).andThen (answered_done _)

/-- Every request but the account view is a direct program. -/
theorem direct_program (health : Health) (fresh : TraceId) {r : Request}
    (spends : Route.ofRequest? r ≠ some .info) :
    (program decode seed health fresh r).Direct d seed goods [] := by
  refine Direct.andThen ?_ fun answer => ⟨_, rfl⟩
  rcases hroute : Route.ofRequest? r with _ | _ | _ | item | _ | _
  · trivial
  · exact (spends hroute).elim
  · exact direct_admission r (direct_sending r)
  · refine direct_admission r fun caller => ?_
    have own : caller.id ∈ [caller.id] := List.mem_singleton.2 rfl
    exact (direct_buyItem own item).andThen (answered_done _)
  · trivial
  · trivial

/-! ## Serving one request after the other -/

/-- The responses to requests that are served one at a time in a given order, with the number of
the request, and the world in the end.  Each request comes with a fresh trace id. -/
def respondInTurn {ω : Type} (services : Services ω) (health : Health)
    (requests : List (TraceId × Request)) : List Nat → ω → List (Nat × Response) × ω
  | [], w => ([], w)
  | i :: order, w =>
    match requests[i]? with
    | none => respondInTurn services health requests order w
    | some (fresh, r) =>
      let (response, w₁) := respond services health fresh r w
      let (responses, w₂) := respondInTurn services health requests order w₁
      ((i, response) :: responses, w₂)

/-- Requests as programs. -/
def programs (decode : ContentDecoder) (seed : Coins) (health : Health)
    (requests : List (TraceId × Request)) : List (UseCase Response) :=
  requests.map fun (fresh, r) => program decode seed health fresh r

/-- Without failures, serving requests in turn is running their programs in turn. -/
theorem serially_programs {e : Stage} (quiet : e.script = .quiet) (seed : Coins) (health : Health)
    (requests : List (TraceId × Request)) (order : List Nat) (w : Scripted) :
    System.serially e.directory (programs decode seed health requests) order w.store =
      ((respondInTurn (.scripted decode e seed) health requests order w).1.map
          fun entry => (entry.1, .ok entry.2),
        (respondInTurn (.scripted decode e seed) health requests order w).2.store) := by
  induction order generalizing w with
  | nil => rfl
  | cons i rest ih =>
    simp only [System.serially, respondInTurn, programs, List.getElem?_map]
    cases requests[i]? with
    | none => exact ih w
    | some request =>
      obtain ⟨fresh, r⟩ := request
      simp only [Option.map_some, respond_runOn quiet seed health fresh r w]
      have tail := ih (respond (.scripted decode e seed) health fresh r w).2
      unfold programs at tail
      rw [tail]
      rfl

/-! ## Serving requests at the same time -/

/-- **Concurrent requests are serial.**  Any number of requests that do not view an account are
served at the same time over one store, and nothing fails.  Then there are orders that keep the
order of the units of work, and in each of them the application, serving one request after the
other under any limit, gives every request the same response and leaves the same store. -/
theorem requests_serializable (decode : ContentDecoder) (e : Stage) (quiet : e.script = .quiet)
    (seed : Coins) (health : Health) (requests : List (TraceId × Request))
    (spend : ∀ request ∈ requests, Route.ofRequest? request.2 ≠ some .info) (s : Store)
    (schedule : Schedule) (calm : ∀ t ∈ schedule, t.move.Calm) {y : System Response}
    (run : y =
      (System.starting (programs decode seed health requests) s).after e.directory schedule)
    (finished : y.Finished) :
    (∃ order, System.SerialOrder requests.length y.units order) ∧
    ∀ order, System.SerialOrder requests.length y.units order → ∀ calls : Nat,
      let served := respondInTurn (.scripted decode e seed) health requests order ⟨s, calls⟩
      served.2.store = y.store ∧ served.1.map Prod.fst = order ∧
      ∀ entry ∈ served.1, y.result? entry.1 = some (.ok entry.2) := by
  have direct : ∀ p ∈ programs decode seed health requests,
      p.Direct e.directory seed s.goods [] := by
    intro p hp
    obtain ⟨request, hrequest, rfl⟩ := List.mem_map.1 hp
    exact direct_program health request.1 (spend request hrequest)
  obtain ⟨orders, serial⟩ := System.serial_of_finished direct calm run finished
  have count : (programs decode seed health requests).length = requests.length := List.length_map _
  rw [count] at orders serial
  refine ⟨orders, fun order horder calls => ?_⟩
  obtain ⟨store, callers, results⟩ := serial order horder
  rw [serially_programs quiet seed health requests order ⟨s, calls⟩] at store callers results
  refine ⟨store, ?_, fun entry hentry => ?_⟩
  · rw [List.map_map] at callers
    exact callers
  · exact results _ (List.mem_map_of_mem hentry)

/-- A user who buys a cup, and another one who sends coins to the first. -/
def marketRequests : List (TraceId × Request) :=
  [(zeroTrace,
      { method := "GET"
        target := "/api/buy/cup".toList
        headers := [⟨Caller.idHeader, [0x37]⟩]
        body := [] }),
    (zeroTrace,
      { method := "POST"
        target := "/api/sendCoin".toList
        headers := [⟨Caller.idHeader, [0x38]⟩,
          ⟨"content-type", Text.Utf8.encode "application/json".toList⟩]
        body := Text.Utf8.encode "[\"bob\",30]".toList })]

/-- A directory that knows the first of the two users. -/
def marketStage : Stage where
  directory := Directory.ofList [(⟨7⟩, "bob")]
  limit := some defaultTimeout

/-- The transfer creates both rows, the purchase comes in between, and then the coins are sent. -/
def marketSchedule : Schedule := [1, 1, 1, 0, 0, 0, 1].map fun caller => ⟨caller, .go .quiet⟩

theorem calm_marketSchedule : ∀ t ∈ marketSchedule, t.move.Calm := by
  intro t ht
  obtain ⟨caller, -, rfl⟩ := List.mem_map.1 ht
  exact .go

/-- The market after its schedule. -/
def market : System Response :=
  (System.starting (programs decodeStored ⟨1000⟩ {} marketRequests)
    { goods := Store.standardCatalog }).after marketStage.directory marketSchedule

/-- On the market the purchase and the transfer interleave; both came about as if the purchase had
been served before the transfer. -/
theorem requests_serializable_market :
    (∀ request ∈ marketRequests, Route.ofRequest? request.2 ≠ some .info) ∧
    (∀ t ∈ marketSchedule, t.move.Calm) ∧ market.Finished ∧ market.units = [0, 1] ∧
    market.store.purchases = [⟨⟨7⟩, ⟨2⟩⟩] ∧ market.store.transfers = [⟨⟨8⟩, ⟨7⟩, ⟨30⟩⟩] ∧
    let served := respondInTurn (.scripted decodeStored marketStage ⟨1000⟩) {} marketRequests [0, 1]
      ⟨{ goods := Store.standardCatalog }, 0⟩
    served.2.store = market.store ∧ served.1.map Prod.fst = [0, 1] ∧
    ∀ entry ∈ served.1, market.result? entry.1 = some (.ok entry.2) := by
  have spend : ∀ request ∈ marketRequests, Route.ofRequest? request.2 ≠ some .info := by
    decide +kernel
  have finished : ∀ t ∈ market.tasks, t.result?.isSome := by decide +kernel
  have units : market.units = [0, 1] := by decide +kernel
  have order : System.SerialOrder marketRequests.length market.units [0, 1] := by
    rw [units]
    exact ⟨List.Perm.refl _, rfl⟩
  obtain ⟨-, serial⟩ := requests_serializable decodeStored marketStage rfl ⟨1000⟩ {} marketRequests
    spend { goods := Store.standardCatalog } marketSchedule calm_marketSchedule rfl finished
  exact ⟨spend, calm_marketSchedule, finished, units, by decide +kernel, by decide +kernel,
    serial [0, 1] order 0⟩

end Http

end CoinLedger
