import CoinLedger.Proofs.Http.Serializability
import CoinLedger.Proofs.Ledger.Independence

/-!
# Requests of different users commute

A request is about its caller and, if it is a transfer that comes to resolving its recipient, about
that user (`Request.parties`).  Its program is confined to these users whatever comes of it: a
request that fails may still have provisioned them, and a request without a caller does nothing.

So two requests about different users do not notice one another.  Either may be served first: the
responses are the same, and of the order nothing is left but which of them wrote to the logs first.

## Main definitions

* `Request.recipient?`, `Request.parties` — the users a request is about.

## Main results

* `confined_program` — a request reads and writes what belongs to its parties.
* `requests_commute` — requests about different users may change places.
-/

namespace CoinLedger

namespace UseCase

variable {α β : Type} {d : Directory} {users : List UserId}

theorem confined_andThen {p : UseCase α} {k : Except LedgerError α → UseCase β}
    (hp : Store.Confined users (p.runOn (.memory d)))
    (hk : ∀ r, Store.Confined users ((k r).runOn (.memory d))) :
    Store.Confined users ((p.andThen k).runOn (.memory d)) := by
  have inTurn : (p.andThen k).runOn (.memory d) = fun s =>
      (k (p.runOn (.memory d) s).1).runOn (.memory d) (p.runOn (.memory d) s).2 :=
    funext fun s => runOn_andThen _ p k s
  rw [inTurn]
  exact hp.seq (g := fun r => (k r).runOn (.memory d)) fun s => hk _

end UseCase

namespace Http

open UseCase
open Store (Confined Swapped)

/-- The user that a request resolves as the recipient of coins.  Nobody is looked for if the request
is no transfer, or one that is refused before. -/
def Request.recipient? (decode : ContentDecoder) (d : Directory) (r : Request) : Option UserId :=
  match Route.ofRequest? r, TransferRequest.ofRequest decode r with
  | some .sendCoin, .ok t =>
    match Username.ofString t.toUser with
    | .ok name => if t.amount.isZero then none else d.idOf? name
    | .error _ => none
  | _, _ => none

/-- The users that a request is about: the caller, and the recipient if there is one. -/
def Request.parties (decode : ContentDecoder) (d : Directory) (r : Request) : List UserId :=
  match Caller.ofRequest r with
  | .ok caller => caller.id :: (r.recipient? decode d).toList
  | .error _ => []

variable {decode : ContentDecoder} {d : Directory} {seed : Coins} {users : List UserId}

theorem confined_answered {α : Type} {p : UseCase α} (render : α → Response)
    (hp : Confined users (p.runOn (.memory d))) :
    Confined users ((p.andThen (answered render)).runOn (.memory d)) := by
  refine confined_andThen hp fun r => ?_
  cases r <;> exact confined_done _

/-- Behind the gate a request is about its caller. -/
theorem confined_admission {r : Request} {rest : Caller → UseCase (Except ApiError Response)}
    (hrest : ∀ caller, Caller.ofRequest r = .ok caller →
      caller.id ∈ users ∧ Confined users ((rest caller).runOn (.memory d))) :
    Confined users ((admission seed r rest).runOn (.memory d)) := by
  unfold admission
  cases hcaller : Caller.ofRequest r with
  | error e => exact confined_done _
  | ok caller =>
    obtain ⟨own, hrest⟩ := hrest caller hcaller
    refine confined_andThen (confined_ensureCreated own) fun provisioned => ?_
    cases provisioned with
    | ok _ => exact hrest
    | error e => exact confined_done _

theorem confined_sending {r : Request} {caller : Caller} (own : caller.id ∈ users)
    (hroute : Route.ofRequest? r = some .sendCoin)
    (hrecipient : ∀ v, r.recipient? decode d = some v → v ∈ users) :
    Confined users ((sending decode seed r caller).runOn (.memory d)) := by
  unfold sending
  cases hbody : TransferRequest.ofRequest decode r with
  | error failure => exact confined_done _
  | ok t =>
    dsimp only
    cases hname : Username.ofString t.toUser with
    | error e => exact confined_done _
    | ok name =>
      refine confined_answered _ (confined_sendCoins own fun positive v found => ?_)
      have resolved : r.recipient? decode d = some v := by
        simp only [Request.recipient?, hroute, hbody, hname, positive, found]
        rfl
      exact hrecipient v resolved

/-- The handler of a request reads and writes what belongs to its parties. -/
theorem confined_handling (health : Health) (r : Request) :
    Confined (r.parties decode d)
      ((handling decode seed health r (Route.ofRequest? r)).runOn (.memory d)) := by
  have own : ∀ caller, Caller.ofRequest r = .ok caller → caller.id ∈ r.parties decode d := by
    intro caller hcaller
    rw [Request.parties, hcaller]
    exact List.mem_cons_self ..
  have recipient : ∀ caller, Caller.ofRequest r = .ok caller →
      ∀ v, r.recipient? decode d = some v → v ∈ r.parties decode d := by
    intro caller hcaller v hv
    rw [Request.parties, hcaller, hv]
    exact List.mem_cons_of_mem _ (List.mem_singleton.2 rfl)
  rcases hroute : Route.ofRequest? r with _ | _ | _ | item | _ | _
  · exact confined_done _
  · refine confined_admission fun caller hcaller => ⟨own caller hcaller, ?_⟩
    exact confined_answered _ (confined_accountInfo (own caller hcaller))
  · refine confined_admission fun caller hcaller => ⟨own caller hcaller, ?_⟩
    exact confined_sending (own caller hcaller) hroute (recipient caller hcaller)
  · refine confined_admission fun caller hcaller => ⟨own caller hcaller, ?_⟩
    exact confined_answered _ (confined_buyItem (own caller hcaller) item)
  · exact confined_done _
  · exact confined_done _

/-- A request reads and writes what belongs to its parties. -/
theorem confined_program (decode : ContentDecoder) (seed : Coins) (health : Health)
    (fresh : TraceId) (r : Request) :
    Confined (r.parties decode d) ((program decode seed health fresh r).runOn (.memory d)) :=
  confined_andThen (confined_handling health r) fun _ => confined_done _

/-- **Requests about different users may change places.**  Whatever the two requests ask for and
whatever comes of them, each of them gets the same response before the other one and after it, and
the stores differ in the order of the records of the two requests only. -/
theorem requests_commute (decode : ContentDecoder) (e : Stage) (quiet : e.script = .quiet)
    (seed : Coins) (health : Health) (fresh fresh' : TraceId) (r r' : Request)
    (apart : ∀ u ∈ r.parties decode e.directory, u ∉ r'.parties decode e.directory) (w : Scripted) :
    let serve := respond (.scripted decode e seed) health
    let first := serve fresh r w
    let second := serve fresh' r' w
    let forth := serve fresh' r' first.2
    let back := serve fresh r second.2
    first.1 = back.1 ∧ forth.1 = second.1 ∧
      Swapped e.directory w.store first.2.store second.2.store forth.2.store back.2.store := by
  intro serve first second forth back
  have alone : ∀ (fresh : TraceId) (r : Request) (w : Scripted),
      (program decode seed health fresh r).runOn (.memory e.directory) w.store =
        (.ok (serve fresh r w).1, (serve fresh r w).2.store) :=
    fun fresh r w => respond_runOn quiet seed health fresh r w
  obtain ⟨same, same', swapped⟩ :=
    Confined.swapped e.directory (confined_program decode seed health fresh r)
      (confined_program decode seed health fresh' r') apart w.store
  rw [alone fresh r w, alone fresh' r' w] at same same' swapped
  rw [alone fresh r second.2] at same swapped
  rw [alone fresh' r' first.2] at same' swapped
  exact ⟨Except.ok.inj same, Except.ok.inj same', swapped⟩

/-- A user who buys a cup. -/
def cupBuyer : Request where
  method := "GET"
  target := "/api/buy/cup".toList
  headers := [⟨Caller.idHeader, [0x37]⟩]
  body := []

/-- Another user, who sends coins to a third one. -/
def coinSender : Request where
  method := "POST"
  target := "/api/sendCoin".toList
  headers := [⟨Caller.idHeader, [0x38]⟩,
    ⟨"content-type", Text.Utf8.encode "application/json".toList⟩]
  body := Text.Utf8.encode "[\"carol\",30]".toList

/-- A directory that knows the third of the three users. -/
def fairStage : Stage where
  directory := Directory.ofList [(⟨9⟩, "carol")]
  limit := some defaultTimeout

/-- On a shop without rows both requests succeed, in either order, and leave three rows, one receipt
and one transfer. -/
theorem requests_commute_fair :
    fairStage.script = .quiet ∧ cupBuyer.parties decodeStored fairStage.directory = [⟨7⟩] ∧
    coinSender.parties decodeStored fairStage.directory = [⟨8⟩, ⟨9⟩] ∧
    let shop : Scripted := { store := { goods := Store.standardCatalog } }
    let serve := respond (.scripted decodeStored fairStage ⟨1000⟩) {}
    let first := serve zeroTrace cupBuyer shop
    let second := serve zeroTrace coinSender shop
    let forth := serve zeroTrace coinSender first.2
    let back := serve zeroTrace cupBuyer second.2
    first.1.status = 200 ∧ second.1.status = 200 ∧
    forth.2.store.balances.entries = [(⟨7⟩, ⟨980⟩), (⟨8⟩, ⟨970⟩), (⟨9⟩, ⟨1030⟩)] ∧
    first.1 = back.1 ∧ forth.1 = second.1 ∧
      Swapped fairStage.directory shop.store first.2.store second.2.store forth.2.store
        back.2.store := by
  have buyer : cupBuyer.parties decodeStored fairStage.directory = [⟨7⟩] := by decide +kernel
  have parties : coinSender.parties decodeStored fairStage.directory = [⟨8⟩, ⟨9⟩] := by
    decide +kernel
  have apart : ∀ u ∈ cupBuyer.parties decodeStored fairStage.directory,
      u ∉ coinSender.parties decodeStored fairStage.directory := by
    rw [buyer, parties]
    decide
  exact ⟨rfl, buyer, parties, by decide +kernel, by decide +kernel, by decide +kernel,
    requests_commute decodeStored fairStage rfl ⟨1000⟩ {} zeroTrace zeroTrace cupBuyer coinSender
      apart _⟩

end Http

end CoinLedger
