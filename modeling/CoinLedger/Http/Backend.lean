import CoinLedger.Http.App
import CoinLedger.Identity.Client
import CoinLedger.Backing
/-!
# Use cases over a backing

The application over any backing of the use cases, such as the database: each use case runs to its
end. Who calls a service over a network has to wait, and so may be dropped while waiting.

An identity service that answers everything alike is one way in which that call may fail.
-/

namespace CoinLedger

/-- The same backing with an identity service that gives one answer to every request. -/
def Backing.withReception {σ : Type} (p : Backing σ) (r : Identity.Reception) : Backing σ :=
  { p with
    call := fun c w =>
      match c with
      | .resolveUser _ => (Identity.foundUser r, w)
      | .resolveNames _ => (Identity.foundNames r, w)
      | c => p.call c w }

namespace Http

/-- Runs a use case over its backing. -/
def serveOver {σ α : Type} (p : Backing σ) (delayed : Bool) (u : UseCase α) (w : σ) : Served σ α :=
  ⟨(u.runOn p w).1, (u.runOn p w).2, delayed⟩

/-- The use cases over a backing, with or without waiting. -/
def Services.over {σ : Type} (decode : ContentDecoder) (p : Backing σ) (seed : Coins)
    (delayed : Bool) : Services σ where
  decode := decode
  ensureCreated u := serveOver p delayed (UseCase.ensureCreated seed u)
  accountInfo u := serveOver p delayed (UseCase.accountInfo u)
  sendCoins u name amount := serveOver p delayed (UseCase.sendCoins seed u name amount)
  buyItem u name := serveOver p delayed (UseCase.buyItem u name)

end Http

end CoinLedger
