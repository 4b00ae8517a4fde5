import CoinLedger.UnitOfWork
/-!
# Use cases

A use case is a program over its backing: single calls, units of work, and the three reads of an
account, which are issued together. Like `Work` it is kept as data, so that one text serves the
store in memory, the database, scripts of failures and delays, and any interleaving of many
callers, and so that the points at which a caller may be abandoned are visible in it.

## Main definitions

* `Call`, `Call.Answer`, `Call.Failure` — what is called outside a unit of work.
* `UseCase` — programs over them.
* `ensureCreated`, `balance`, `buyItem`, `sendCoins`, `accountInfo` — the use cases.
-/

namespace CoinLedger

/-- The names the identity service gives for ids. -/
abbrev Names := SortedMap UserId Username

/-- A call outside any unit of work. -/
inductive Call where
  /-- Create a balance row unless there is one. -/
  | insertIfAbsent (user : UserId) (seed : Coins)
  /-- Read a balance without a lock. -/
  | findBalance (user : UserId)
  /-- Look a good up by its name. -/
  | findGood (name : String)
  /-- Count a user's receipts by good. -/
  | inventory (user : UserId)
  /-- List a user's transfers. -/
  | transfers (user : UserId)
  /-- Ask the identity service for the id of a name. -/
  | resolveUser (name : Username)
  /-- Ask the identity service for the names of ids. -/
  | resolveNames (users : List UserId)

/-- What a call answers. Unknown names and ids are missing from the answer. -/
abbrev Call.Answer : Call → Type
  | .insertIfAbsent _ _ => Unit
  | .findBalance _ => Option Coins
  | .findGood _ => Option Good
  | .inventory _ => Inventory
  | .transfers _ => History
  | .resolveUser _ => Option UserId
  | .resolveNames _ => Names

/-- How a call fails. -/
abbrev Call.Failure : Call → Type
  | .insertIfAbsent _ _ => StorageFailure
  | .findBalance _ => StorageFailure
  | .findGood _ => StorageFailure
  | .inventory _ => StorageFailure
  | .transfers _ => StorageFailure
  | .resolveUser _ => IdentityFailure
  | .resolveNames _ => IdentityFailure

/-- The fault that the failure of a call is to a use case. -/
def Call.fault : (c : Call) → c.Failure → Fault
  | .insertIfAbsent _ _, f => .balances f
  | .findBalance _, f => .balances f
  | .findGood _, f => .goods f
  | .inventory _, f => .history f
  | .transfers _, f => .history f
  | .resolveUser _, f => .identity f
  | .resolveNames _, f => .identity f

/-- What the three reads of an account give. -/
structure Holdings where
  balance : Coins
  inventory : Inventory
  history : History
  deriving DecidableEq

/-- A program over what backs it. -/
inductive UseCase (α : Type) : Type where
  /-- The use case is over. -/
  | done (result : Except LedgerError α)
  /-- Make one call and go on from its answer or failure. -/
  | call (c : Call) (next : Except c.Failure c.Answer → UseCase α)
  /-- Run a unit of work in a transaction. -/
  | transact (w : Work LedgerError Unit) (next : Except LedgerError Unit → UseCase α)
  /-- Read balance, inventory and transfers of one user, all three at the same time. -/
  | gather (user : UserId) (next : Except LedgerError Holdings → UseCase α)

namespace UseCase

variable {α β : Type}

/-- Goes on after a success; an error ends the use case. -/
def bind : UseCase α → (α → UseCase β) → UseCase β
  | done (.ok a), f => f a
  | done (.error e), _ => done (.error e)
  | call c next, f => call c fun r => (next r).bind f
  | transact w next, f => transact w fun r => (next r).bind f
  | gather u next, f => gather u fun r => (next r).bind f

instance : Monad UseCase where
  pure a := done (.ok a)
  bind := bind

/-- Ends the use case with an error. -/
def fail (e : LedgerError) : UseCase α := done (.error e)

@[simp] theorem pure_eq (a : α) : (pure a : UseCase α) = done (.ok a) := rfl
@[simp] theorem fail_eq (e : LedgerError) : (fail e : UseCase α) = done (.error e) := rfl
@[simp] theorem done_ok_bind (a : α) (f : α → UseCase β) : (done (.ok a) >>= f) = f a := rfl
@[simp] theorem done_error_bind (e : LedgerError) (f : α → UseCase β) :
    (done (.error e) >>= f) = done (.error e) := rfl
@[simp] theorem call_bind (c : Call) (next : Except c.Failure c.Answer → UseCase α)
    (f : α → UseCase β) : (call c next >>= f) = call c fun r => next r >>= f := rfl
@[simp] theorem transact_bind (w : Work LedgerError Unit)
    (next : Except LedgerError Unit → UseCase α) (f : α → UseCase β) :
    (transact w next >>= f) = transact w fun r => next r >>= f := rfl
@[simp] theorem gather_bind (u : UserId) (next : Except LedgerError Holdings → UseCase α)
    (f : α → UseCase β) : (gather u next >>= f) = gather u fun r => next r >>= f := rfl

/-- Makes a call; its failure is a fault of the service. -/
def ask (c : Call) : UseCase c.Answer :=
  call c fun
    | .ok a => done (.ok a)
    | .error f => done (.error (.internal (c.fault f)))

/-- Runs a unit of work. -/
def inTransaction (w : Work LedgerError Unit) : UseCase Unit := transact w done

/-! ## Provisioning and reading a balance -/

/-- The balance with which an account starts unless another one is set. -/
def startBalance : Coins := ⟨1000⟩

/-- Creates a user's row with the seed amount unless it exists. Repeating it is harmless. -/
def ensureCreated (seed : Coins) (user : UserId) : UseCase Unit :=
  ask (.insertIfAbsent user seed)

/-- A user's balance, which a provisioned user has. -/
def balance (user : UserId) : UseCase Coins := do
  match ← ask (.findBalance user) with
  | some amount => pure amount
  | none => fail (.balanceNotFound user)

/-! ## Buying -/

/-- The unit of work of a purchase: debit and receipt, together or not at all. -/
def purchase (user : UserId) (good : Good) : Work LedgerError Unit := do
  let balance ← Work.lock user
  if (balance.sub? good.price).isNone then
    Work.fail (.insufficientBalance user)
  else
    Work.debit user good.price
    Work.recordPurchase ⟨user, good.id⟩

/-- Buys one piece of the good with a given name. The good is looked up before the transaction
opens. -/
def buyItem (user : UserId) (name : String) : UseCase Unit := do
  match ← ask (.findGood name) with
  | some good => inTransaction (purchase user good)
  | none => fail (.goodNotFound name)

/-! ## Sending -/

/-- The unit of work of a transfer: both movements and the entry, together or not at all. -/
def movement (sender recipient : UserId) (amount : Coins) : Work LedgerError Unit := do
  let (source, target) ← Work.lockPair sender recipient
  if (source.sub? amount).isNone then
    Work.fail (.insufficientBalance sender)
  else if (target.add? amount).isNone then
    Work.fail (.invalidArguments .recipientFull)
  else
    Work.debit sender amount
    Work.credit recipient amount
    Work.recordTransfer ⟨sender, recipient, amount⟩

/-- Sends coins to the user with a given name. The recipient's row is created before the
transaction opens and stays even if the transfer fails. -/
def sendCoins (seed : Coins) (sender : UserId) (name : Username) (amount : Coins) :
    UseCase Unit := do
  if amount.isZero then
    fail (.invalidArguments .amountZero)
  else
    match ← ask (.resolveUser name) with
    | none => fail (.userNotFound name.text)
    | some recipient =>
      if recipient = sender then
        fail (.invalidArguments .sameParties)
      else
        ensureCreated seed recipient
        inTransaction (movement sender recipient amount)

/-! ## The account view -/

/-- Puts names in place of ids; an id without a name is shown by the empty text. -/
def named (names : Names) (entries : List Entry) : List NamedEntry :=
  entries.map fun e => ⟨((names.get? e.counterpart).map Username.text).getD "", e.amount⟩

/-- The view of an account from its reads and the names of the other parties. -/
def assemble (h : Holdings) (names : Names) : AccountInfo where
  balance := h.balance
  inventory := h.inventory
  incoming := named names h.history.incoming
  outgoing := named names h.history.outgoing

/-- Balance, inventory and named transfers of a user. Names are asked for once, and only if there
is somebody to name. -/
def accountInfo (user : UserId) : UseCase AccountInfo :=
  gather user fun
    | .error e => done (.error e)
    | .ok h =>
      if h.history.counterparts = [] then done (.ok (assemble h SortedMap.empty))
      else do pure (assemble h (← ask (.resolveNames h.history.counterparts)))

end UseCase

end CoinLedger
