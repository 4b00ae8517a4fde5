import CoinLedger.LedgerError
/-!
# The connection pool

Connections are taken out of one pool. If the database cannot be reached, a pool that is to keep
connections idle cannot be set up; one that need not is set up, and taking a connection out of it
runs into the time limit.
-/

namespace CoinLedger.Database

/-- How a pool is set up. Times are in milliseconds. -/
structure PoolConfig where
  url : String
  maxSize : Nat := 10
  minIdle : Option Nat := some 1
  connectionTimeout : Nat := 5000
  deriving DecidableEq, Repr

/-- A pool, and whether the database behind it can be reached. -/
structure Pool where
  config : PoolConfig
  reachable : Bool := true
  deriving DecidableEq, Repr

namespace Pool

/-- What the pool says when the time limit has passed. -/
def timedOut : String := "Timed out in bb8"

/-- Sets a pool up. -/
def build (reachable : Bool) (config : PoolConfig) : Except PoolFailure Pool :=
  if !reachable && 0 < config.minIdle.getD 0 then .error (.build timedOut)
  else .ok ⟨config, reachable⟩

/-- Takes a connection out. -/
def checkout (p : Pool) : Except PoolFailure Unit :=
  if p.reachable then .ok () else .error (.checkout timedOut)

end Pool

end CoinLedger.Database
