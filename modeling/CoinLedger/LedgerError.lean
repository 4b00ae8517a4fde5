import CoinLedger.UserId
import CoinLedger.Username
/-!
# Failures

Errors are kept as causes. A call fails with a `StorageFailure` (or an `IdentityFailure`), a use
case with a `LedgerError`; each has one function that words it. `LedgerError.category` is the
coarse class by which an adapter picks its answer.

## Main definitions

* `StorageFailure`, `IdentityFailure` — how calls fail.
* `LedgerError`, `LedgerError.message` — how use cases fail, and in which words.
* `LedgerError.category` — the class of a failure.
-/

namespace CoinLedger

/-! ## Failures of calls -/

/-- How the storage fails. -/
inductive StorageFailure where
  /-- There was no connection. -/
  | connection (message : String)
  /-- A statement failed. -/
  | query (message : String)
  deriving DecidableEq, Repr

/-- The parts of the storage, which word their failures differently. -/
inductive Storage where
  | balances
  | goods
  | history
  | unitOfWork
  | transaction
  deriving DecidableEq, Repr

/-- The wording of a failure of a part. -/
def StorageFailure.text : Storage → StorageFailure → String
  | .balances, .connection m => "balance repository connection failed: " ++ m
  | .balances, .query m => "balance repository query failed: " ++ m
  | .goods, .connection m => "goods repository connection failed: " ++ m
  | .goods, .query m => "goods repository query failed: " ++ m
  | .history, .connection m => "history repository connection failed: " ++ m
  | .history, .query m => "history repository query failed: " ++ m
  | .unitOfWork, .connection m => "unit of work connection failed: " ++ m
  | .unitOfWork, .query m => "unit of work query failed: " ++ m
  | .transaction, .connection m => "transaction connection failed: " ++ m
  | .transaction, .query m => "transaction failed: " ++ m

/-- How the identity service fails. -/
inductive IdentityFailure where
  /-- It did not answer in time. -/
  | timeout (message : String)
  /-- It could not be reached. -/
  | transport (message : String)
  /-- It answered with an unexpected status. -/
  | status (code : Nat) (message : String)
  /-- Its answer could not be read. -/
  | decode (message : String)
  deriving DecidableEq, Repr

/-- The wording of a failure of the identity service. -/
def IdentityFailure.text : IdentityFailure → String
  | .timeout m => "identity service timed out: " ++ m
  | .transport m => "identity service unreachable: " ++ m
  | .status code m => "identity service returned " ++ toString code ++ ": " ++ m
  | .decode m => "identity service response invalid: " ++ m

/-- How the connection pool fails. -/
inductive PoolFailure where
  /-- No connection could be taken out. -/
  | checkout (message : String)
  /-- The pool could not be set up. -/
  | build (message : String)
  deriving DecidableEq, Repr

namespace PoolFailure

/-- The message as the pool gave it. -/
def message : PoolFailure → String
  | checkout m => m
  | build m => m

/-- The wording of a failure of the pool. -/
def text : PoolFailure → String
  | checkout m => "failed to get connection from pool: " ++ m
  | build m => "failed to build connection pool: " ++ m

/-- To a repository, a pool without a connection is a lost connection. -/
def toStorage (f : PoolFailure) : StorageFailure := .connection f.message

end PoolFailure

/-! ## Failures of the use cases -/

/-- What went wrong inside the service. -/
inductive Fault where
  | balances (cause : StorageFailure)
  | goods (cause : StorageFailure)
  | history (cause : StorageFailure)
  | statement (cause : StorageFailure)
  | transaction (cause : StorageFailure)
  | identity (cause : IdentityFailure)
  /-- The adapter runs without the use cases it should call. -/
  | unconfigured
  | other (message : String)
  deriving DecidableEq, Repr

/-- The wording of a fault, in the terms of the use cases. -/
def Fault.message : Fault → String
  | .balances (.connection m) => "balance repository unavailable: " ++ m
  | .balances (.query m) => "balance repository error: " ++ m
  | .goods (.connection m) => "goods repository unavailable: " ++ m
  | .goods (.query m) => "goods repository error: " ++ m
  | .history (.connection m) => "history repository unavailable: " ++ m
  | .history (.query m) => "history repository error: " ++ m
  | .statement (.connection m) => "ledger connection lost: " ++ m
  | .statement (.query m) => "ledger statement failed: " ++ m
  | .transaction (.connection m) => "transaction unavailable: " ++ m
  | .transaction (.query m) => "transaction failed: " ++ m
  | .identity cause => cause.text
  | .unconfigured => "http state not configured"
  | .other m => m

/-- What is wrong with the arguments of a request. -/
inductive Objection where
  /-- Zero coins cannot be sent. -/
  | amountZero
  /-- Nobody sends coins to themselves. -/
  | sameParties
  /-- The sum would leave the range of amounts. -/
  | recipientFull
  /-- The recipient's name is no username. -/
  | recipientName (cause : UsernameError)
  | other (message : String)
  deriving DecidableEq, Repr

/-- The wording of an objection. -/
def Objection.message : Objection → String
  | .amountZero => "amount must be positive"
  | .sameParties => "sender and recipient must differ"
  | .recipientFull => "recipient balance cannot hold the amount"
  | .recipientName cause => "toUser: " ++ cause.message
  | .other m => m

/-- The closed set of failures of the use cases. -/
inductive LedgerError where
  /-- The identity service knows no user of this name. -/
  | userNotFound (username : String)
  /-- The catalog has no good of this name. -/
  | goodNotFound (name : String)
  /-- A user who should have a balance row has none. -/
  | balanceNotFound (user : UserId)
  /-- The balance does not cover the debit. -/
  | insufficientBalance (user : UserId)
  /-- The caller asked for something that makes no sense. -/
  | invalidArguments (objection : Objection)
  /-- The request took too long; its open unit of work was abandoned. -/
  | deadlineExceeded
  /-- Storage or transport failed. -/
  | internal (fault : Fault)
  deriving DecidableEq, Repr

/-- The class of a failure, independent of any transport. -/
inductive Category where
  | invalidRequest
  | notFound
  | failedPrecondition
  | deadlineExceeded
  | internalError
  deriving DecidableEq, Repr

namespace LedgerError

/-- The wording of a failed use case. -/
def message : LedgerError → String
  | userNotFound name => "user `" ++ name ++ "` not found"
  | goodNotFound name => "item `" ++ name ++ "` not found"
  | balanceNotFound user => "balance for user " ++ user.text ++ " not found"
  | insufficientBalance user => "user " ++ user.text ++ " has insufficient funds"
  | invalidArguments objection => objection.message
  | deadlineExceeded => "deadline exceeded"
  | internal fault => "internal error: " ++ fault.message

/-- The class of a failed use case. A missing balance row is the service's own fault, because
provisioning should have created it. -/
def category : LedgerError → Category
  | userNotFound _ => .notFound
  | goodNotFound _ => .invalidRequest
  | balanceNotFound _ => .internalError
  | insufficientBalance _ => .failedPrecondition
  | invalidArguments _ => .invalidRequest
  | deadlineExceeded => .deadlineExceeded
  | internal _ => .internalError

end LedgerError

end CoinLedger
