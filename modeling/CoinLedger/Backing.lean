import CoinLedger.Join
import CoinLedger.Store
/-!
# Running use cases over a world

`Backing σ` is what use cases rest on in a world `σ`: what each call answers and what it leaves, and
how a unit of work runs in its transaction. A use case runs over any such world, one call
after the other. The store in memory and the database are two worlds for the same use cases.

## Main definitions

* `Backing`, `Backing.memory` — what use cases call, and the store in memory as such.
* `Work.runOn`, `UseCase.runOn` — running over them.
-/

namespace CoinLedger

/-- When each of three reads that are issued together is finished. -/
structure Arrivals where
  balance : Nat := 0
  inventory : Nat := 0
  transfers : Nat := 0
  deriving DecidableEq, Repr

/-- What use cases call, over a world. -/
structure Backing (σ : Type) where
  call : (c : Call) → σ → Except c.Failure c.Answer × σ
  transact : Work LedgerError Unit → σ → Except LedgerError Unit × σ
  arrivals : Arrivals := {}

namespace Work

/-- The statements of a unit in turn. -/
def runOn {σ ε α : Type} (statement : (s : Statement) → σ → Except StorageFailure s.Answer × σ) :
    Work ε α → σ → Except ε α × σ
  | done r, w => (r, w)
  | ask s next, w => (next (statement s w).1).runOn statement (statement s w).2

/-- A unit of work in memory: what it wrote counts only if it succeeds. -/
def commitIfOk {ε α : Type} (w : Work ε α) (s : Store) : Except ε α × Store :=
  match w.runOn Store.statement s with
  | (.ok a, s') => (.ok a, s')
  | (.error e, _) => (.error e, s)

end Work

/-- The store in memory, with a directory for the identity service. -/
def Backing.memory (d : Directory) : Backing Store where
  call := Store.call d
  transact := Work.commitIfOk

/-- The three reads of an account, in the order of the reads; each sees what the one before it
left. -/
def Backing.gather {σ : Type} (p : Backing σ) (user : UserId) (w : σ) :
    Except LedgerError Holdings × σ :=
  let (balance, w₁) := p.call (.findBalance user) w
  let (inventory, w₂) := p.call (.inventory user) w₁
  let (transfers, w₃) := p.call (.transfers user) w₂
  ((gatherReads user ⟨balance, p.arrivals.balance⟩ ⟨inventory, p.arrivals.inventory⟩
    ⟨transfers, p.arrivals.transfers⟩).value, w₃)

/-- Runs a use case over a world. -/
def UseCase.runOn {σ α : Type} (p : Backing σ) : UseCase α → σ → Except LedgerError α × σ
  | done r, w => (r, w)
  | call c next, w => (next (p.call c w).1).runOn p (p.call c w).2
  | transact u next, w => (next (p.transact u w).1).runOn p (p.transact u w).2
  | gather user next, w => (next (p.gather user w).1).runOn p (p.gather user w).2

end CoinLedger
