import CoinLedger.Proofs.Http.Programs
import CoinLedger.Proofs.Ledger.Refusals

/-!
# No server error without a failure

A status from `500` on says that the service is at fault, or that it was too slow.  As long as
nothing fails, no request gets such a status, whatever it asks for and whatever the store holds.

Behind the gate a use case succeeds or refuses (`OnlyRefuses`), and refusals have statuses below
that.  The rest is what the handlers answer by themselves: requests that cannot be read or that
nobody is behind, and requests for which there is no route.

The probes are left out (`respondStore`), since a service that is not ready says so with a `503`.

## Main definitions

* `respondStore`, `respondAll` — the application without its probes, and a sequence of requests.

## Main results

* `handling_isMild` — the answer of every handler.
* `no_server_error` — the statuses of every sequence of requests.
-/

namespace CoinLedger.Http

open UseCase

/-! ## The store routes -/

/-- Whether a route leads to the store. -/
def Route.isStore : Route → Bool
  | .ready => false
  | .live => false
  | _ => true

/-- The answer of the application that has the store routes only. -/
def respondStore {ω : Type} (services : Services ω) (fresh : TraceId) (r : Request) (w : ω) :
    Response × ω :=
  let (answer, w') := handle services {} ((Route.ofRequest? r).filter Route.isStore) r w
  (sealed (r.trace?.getD fresh) answer, w')

/-- The answers to a sequence of requests, each of which comes with a fresh trace id. -/
def respondAll {ω : Type} (services : Services ω) :
    List (TraceId × Request) → ω → List Response × ω
  | [], w => ([], w)
  | (fresh, r) :: rest, w =>
    let (response, w₁) := respondStore services fresh r w
    let (responses, w₂) := respondAll services rest w₁
    (response :: responses, w₂)

/-- A request that is not a probe gets the answer that the whole application gives. -/
theorem respondStore_eq_respond {ω : Type} (services : Services ω) (health : Health)
    (fresh : TraceId) {r : Request} (store : ∀ route ∈ Route.ofRequest? r, route.isStore = true)
    (w : ω) : respondStore services fresh r w = respond services health fresh r w := by
  rw [respond_eq, respondStore]
  rcases hroute : Route.ofRequest? r with _ | route
  · rfl
  · have h := store route hroute
    cases route with
    | ready => cases h
    | live => cases h
    | _ => rfl

/-! ## Answers without a server error -/

/-- Whether the response that a handler's answer becomes is no server error. -/
def Mild (answer : Except ApiError Response) : Prop := ∀ trace, (sealed trace answer).status < 500

/-- Whether a handler, as a program, comes to its end with such an answer. -/
def IsMild (r : Except LedgerError (Except ApiError Response)) : Prop :=
  ∃ answer, r = .ok answer ∧ Mild answer

theorem isMild_error {e : ApiError} (h : e.status < 500) : IsMild (.ok (.error e)) :=
  ⟨.error e, rfl, fun _ => h⟩

theorem isMild_ok {response : Response} (h : response.status < 500) : IsMild (.ok (.ok response)) :=
  ⟨.ok response, rfl, fun _ => h⟩

theorem ApiError.status_lt_of_isRefusal {e : LedgerError} (h : e.IsRefusal) :
    (ApiError.ledger e).status < 500 := by
  obtain ⟨own, late⟩ := h
  show ApiError.statusOf e.category < 500
  cases hc : e.category with
  | internalError => exact absurd hc own
  | deadlineExceeded => exact absurd hc late
  | _ => decide

variable {α : Type} {decode : ContentDecoder} {d : Directory} {seed : Coins} {s : Store}

/-- A use case that only refuses gives no server error. -/
theorem answered_isMild {p : UseCase α} {render : α → Response}
    (h : OnlyRefuses (p.runOn (.memory d) s).1) (rendered : ∀ a, (render a).status < 500) :
    IsMild ((p.andThen (answered render)).runOn (.memory d) s).1 := by
  rw [runOn_andThen]
  cases hr : (p.runOn (.memory d) s).1 with
  | ok a => exact isMild_ok (rendered a)
  | error e =>
    rw [hr] at h
    exact isMild_error (ApiError.status_lt_of_isRefusal h)

/-- The gate turns callers away without a server error, and lets the others in with a row. -/
theorem admission_isMild (r : Request) {rest : Caller → UseCase (Except ApiError Response)}
    (h : ∀ caller s balance, s.balance? caller.id = some balance →
      IsMild ((rest caller).runOn (.memory d) s).1) :
    IsMild ((admission seed r rest).runOn (.memory d) s).1 := by
  cases hcaller : Caller.ofRequest r with
  | error err =>
    rw [runOn_admission_error hcaller]
    have turnedAway : err = Caller.missing ∨ err = Caller.malformed := by
      unfold Caller.ofRequest at hcaller
      split at hcaller
      · cases hcaller
        exact .inl rfl
      · split at hcaller <;> cases hcaller
        exact .inr rfl
    rcases turnedAway with rfl | rfl <;> exact isMild_error (by decide)
  | ok caller =>
    rw [runOn_admission hcaller]
    exact h caller _ _ (s.balance?_insertIfAbsent_self caller.id seed)

theorem sending_isMild (r : Request) {caller : Caller} {balance : Coins}
    (provisioned : s.balance? caller.id = some balance) :
    IsMild ((sending decode seed r caller).runOn (.memory d) s).1 := by
  unfold sending
  cases TransferRequest.ofRequest decode r with
  | error failure => exact isMild_error (show (400 : Nat) < 500 by decide)
  | ok t =>
    dsimp only
    cases Username.ofString t.toUser with
    | error e => exact isMild_error (ApiError.status_lt_of_isRefusal ⟨nofun, nofun⟩)
    | ok name =>
      exact answered_isMild (sendCoins_refuses d provisioned seed name t.amount)
        fun _ => by decide

/-- No handler of the store gives a server error. -/
theorem handling_isMild (decode : ContentDecoder) (d : Directory) (seed : Coins) (health : Health)
    (r : Request) {route : Option Route} (store : ∀ x ∈ route, x.isStore = true) (s : Store) :
    IsMild ((handling decode seed health r route).runOn (.memory d) s).1 := by
  rcases route with _ | route
  · exact isMild_ok (by decide)
  · have hroute := store route rfl
    cases route with
    | info =>
      refine admission_isMild r fun caller s balance provisioned => ?_
      obtain ⟨view, viewed⟩ := accountInfo_answers d provisioned
      refine answered_isMild ?_ fun a => ?_
      · rw [viewed]
        trivial
      · show (200 : Nat) < 500
        decide
    | sendCoin =>
      exact admission_isMild r fun caller s balance provisioned => sending_isMild r provisioned
    | buy item =>
      refine admission_isMild r fun caller s balance provisioned => ?_
      exact answered_isMild (buyItem_refuses d provisioned item) fun _ => by decide
    | ready => cases hroute
    | live => cases hroute

/-! ## Sequences of requests -/

theorem respondStore_status {e : Stage} (quiet : e.script = .quiet) (seed : Coins)
    (fresh : TraceId) (r : Request) (w : Scripted) :
    (respondStore (.scripted decode e seed) fresh r w).1.status < 500 := by
  have store : ∀ x ∈ (Route.ofRequest? r).filter Route.isStore, x.isStore = true := by
    intro x hx
    rw [Option.mem_def, Option.filter_eq_some_iff] at hx
    exact hx.2
  obtain ⟨answer, came, mild⟩ := handling_isMild decode e.directory seed {} r store w.store
  rw [handle_runOn quiet] at came
  cases came
  exact mild _

theorem respondAll_status {e : Stage} (quiet : e.script = .quiet) (seed : Coins)
    (requests : List (TraceId × Request)) (w : Scripted) :
    ∀ response ∈ (respondAll (.scripted decode e seed) requests w).1, response.status < 500 := by
  induction requests generalizing w with
  | nil => exact fun response h => nomatch h
  | cons request rest ih =>
    obtain ⟨fresh, r⟩ := request
    intro response h
    rcases List.mem_cons.1 h with rfl | h
    · exact respondStore_status quiet seed fresh r w
    · exact ih _ response h

/-- **There is no server error without a failure.**  However requests follow each other, no response
has a status from `500` on.  In particular no row is found missing behind the gate, and past the
checks of a purchase or a transfer neither the debit nor the credit nor the record fails.  The
responses are those of the whole application, as long as nobody probes it. -/
theorem no_server_error (decode : ContentDecoder) (e : Stage) (quiet : e.script = .quiet)
    (seed : Coins) (requests : List (TraceId × Request)) (w : Scripted) :
    (∀ response ∈ (respondAll (.scripted decode e seed) requests w).1, response.status < 500) ∧
    (∀ (c : Command) (s : Store) (u : UserId),
      ((c.admitted seed).runOn (.memory e.directory) s).1 ≠ .error (.balanceNotFound u)) ∧
    (∀ (u : UserId) (g : Good) (s s₀ : Store) (balance : Coins),
      (Work.lock u).runOn Store.statement s = (.ok balance, s₀) →
      (balance.sub? g.price).isSome →
      ∃ s₁, (Work.debit u g.price).runOn Store.statement s₀ = (.ok (), s₁) ∧
        (Work.recordPurchase ⟨u, g.id⟩).runOn Store.statement s₁ =
          (.ok (), s₁.addPurchase ⟨u, g.id⟩)) ∧
    (∀ (u v : UserId) (amount : Coins) (s s₀ : Store) (source target : Coins),
      (Work.lockPair u v).runOn Store.statement s = (.ok (source, target), s₀) →
      (source.sub? amount).isSome → (target.add? amount).isSome →
      ∃ s₁ s₂, (Work.debit u amount).runOn Store.statement s₀ = (.ok (), s₁) ∧
        (Work.credit v amount).runOn Store.statement s₁ = (.ok (), s₂) ∧
        (Work.recordTransfer ⟨u, v, amount⟩).runOn Store.statement s₂ =
          (.ok (), s₂.addTransfer ⟨u, v, amount⟩)) ∧
    ∀ (health : Health) (fresh : TraceId) (r : Request) (w : Scripted),
      (∀ route ∈ Route.ofRequest? r, route.isStore = true) →
      respondStore (.scripted decode e seed) fresh r w =
        respond (.scripted decode e seed) health fresh r w := by
  refine ⟨respondAll_status quiet seed requests w, ?_, ?_, ?_, ?_⟩
  · exact fun c s u => (c.admitted_refuses e.directory seed s).ne_balanceNotFound u
  · intro u g s s₀ balance locked covered
    obtain ⟨rest, hrest⟩ := Option.isSome_iff_exists.1 covered
    exact purchase_settles locked hrest
  · intro u v amount s s₀ source target locked covered held
    obtain ⟨rest, hrest⟩ := Option.isSome_iff_exists.1 covered
    obtain ⟨sum, hsum⟩ := Option.isSome_iff_exists.1 held
    exact movement_settles locked hrest hsum
  · exact fun health fresh r w store => respondStore_eq_respond _ health fresh store w

/-- A user who has spent everything, and one whose account is full. -/
def extremes : Store where
  balances := SortedMap.ofList [(⟨7⟩, ⟨0⟩), (⟨8⟩, ⟨18446744073709551615⟩)]
  goods := Store.standardCatalog

def extremeStage : Stage where
  directory := Directory.ofList [(⟨8⟩, "bob")]
  limit := some 0

/-- A purchase by nobody, two purchases, and a coin for the full account from a fresh user. -/
def extremeRequests : List (TraceId × Request) :=
  [(zeroTrace, { method := "GET", target := "/api/buy/cup".toList, headers := [], body := [] }),
    (zeroTrace,
      { method := "GET"
        target := "/api/buy/cup".toList
        headers := [⟨Caller.idHeader, [0x37]⟩]
        body := [] }),
    (zeroTrace,
      { method := "GET"
        target := "/api/buy/cup".toList
        headers := [⟨Caller.idHeader, [0x38]⟩]
        body := [] }),
    (zeroTrace,
      { method := "POST"
        target := "/api/sendCoin".toList
        headers := [⟨Caller.idHeader, [0x39]⟩,
          ⟨"content-type", Text.Utf8.encode "application/json".toList⟩]
        body := Text.Utf8.encode "[\"bob\",30]".toList })]

/-- Even at the ends of the range users are served or refused. -/
theorem no_server_error_extremes :
    extremeStage.script = .quiet ∧
    (respondAll (.scripted decodeStored extremeStage ⟨1000⟩) extremeRequests ⟨extremes, 0⟩).1.map
      Response.status = [401, 400, 200, 400] ∧
    ∀ response ∈ (respondAll (.scripted decodeStored extremeStage ⟨1000⟩) extremeRequests
        ⟨extremes, 0⟩).1,
      response.status < 500 :=
  ⟨rfl, by decide +kernel,
    (no_server_error decodeStored extremeStage rfl ⟨1000⟩ extremeRequests ⟨extremes, 0⟩).1⟩

end CoinLedger.Http
