import CoinLedger.Database.Connection
import CoinLedger.Database.Pool
import CoinLedger.Backing
/-!
# The database as a backing

Every call takes a connection out of the pool and sends one statement. A unit of work runs on one
connection between `begin` and `commit` or `rollback`. Amounts are converted on the way: one that
cannot be stored fails before anything is sent, and a negative number among the rows read fails
the read. What the database says about a failure is replaced by fixed words.

## Main definitions

* `Database.statement` — the statements of a unit of work.
* `Database.transact` — a unit of work in its transaction.
* `Database.call`, `Database.backing` — the calls, and all of it as `Backing`.
-/

namespace CoinLedger.Database

/-! ## Conversions -/

/-- The failure of a statement as the use cases learn of it. -/
def Failure.toStorage : Failure → StorageFailure
  | .closed => .query "database error"
  | .state code =>
    if code = checkViolation then .query "ledger constraint violated"
    else if code = serializationFailure then .query "transaction serialization failure"
    else .query "database error"

/-- An amount on its way into the database. -/
def store (c : Coins) : Except StorageFailure Stored :=
  match toStored? c with
  | some n => .ok n
  | none => .error (.query "amount exceeds storable range")

/-- A number on its way out of the database. -/
def load (n : Stored) : Except StorageFailure Coins :=
  match ofStored? n with
  | some c => .ok c
  | none => .error (.query "negative amount stored")

/-- The number read for a row that may be missing. -/
def loadOptional : Option Stored → Except StorageFailure (Option Coins)
  | some n => (load n).map some
  | none => .ok none

/-- Rows of balances; the first negative one fails. -/
def loadRows : List (UserId × Stored) → Except StorageFailure (List (UserId × Coins))
  | [] => .ok []
  | (u, n) :: rest => do
    let c ← load n
    let cs ← loadRows rest
    pure ((u, c) :: cs)

/-- A row of the catalog. -/
def loadGood (r : GoodRow) : Except StorageFailure Good := do
  pure ⟨r.id, r.name, ← load r.price⟩

/-- Puts the counts of receipts into an inventory. -/
def loadInventory : List (String × Int) → Except StorageFailure Inventory
  | [] => .ok SortedMap.empty
  | (name, n) :: rest =>
    if n < 0 then .error (.query "negative purchase count")
    else do
      let i ← loadInventory rest
      pure (i.insert name n.toNat)

/-- Splits rows into the two directions as a user sees them, keeping their order. A row from the
user to the user goes out. -/
def splitTransfers (user : UserId) : List TransferRow → Except StorageFailure History
  | [] => .ok {}
  | r :: rest => do
    let amount ← load r.amount
    let h ← splitTransfers user rest
    if r.sender = user then pure { h with outgoing := ⟨r.recipient, amount⟩ :: h.outgoing }
    else if r.recipient = user then pure { h with incoming := ⟨r.sender, amount⟩ :: h.incoming }
    else pure h

/-- The result of a statement, its failure worded. -/
def worded {α : Type} (r : Except Failure α × Session) : Except StorageFailure α × Session :=
  (r.1.mapError Failure.toStorage, r.2)

/-- Goes on with the result of a statement. -/
def thenLoad {α β : Type} (f : α → Except StorageFailure β) (r : Except Failure α × Session) :
    Except StorageFailure β × Session :=
  ((worded r).1.bind f, r.2)

/-! ## Units of work -/

/-- A statement of an open transaction. -/
def statement (f : Faults) : (q : Statement) → Session → Except StorageFailure q.Answer × Session
  | .lockBalance user, s =>
    thenLoad loadOptional (s.select f .lockBalance (Tables.findBalance user))
  | .lockBalances users, s =>
    thenLoad loadRows (s.select f .lockBalances (Tables.findBalances users))
  | .decrement user amount, s =>
    match store amount with
    | .ok n => worded (s.execute f .decrement (Tables.decrement user n))
    | .error e => (.error e, s)
  | .increment user amount, s =>
    match store amount with
    | .ok n => worded (s.execute f .increment (Tables.increment user n))
    | .error e => (.error e, s)
  | .insertPurchase p, s =>
    thenLoad (fun _ => .ok ()) (s.execute f .insertPurchase (Tables.insertPurchase p))
  | .insertTransfer t, s =>
    match store t.amount with
    | .ok n =>
      thenLoad (fun _ => .ok ())
        (s.execute f .insertTransfer (Tables.insertTransfer ⟨t.sender, t.recipient, n⟩))
    | .error e => (.error e, s)

/-- A unit of work in its transaction, on a connection of its own. The work runs only after a
successful `begin`; a `commit` follows success, one `rollback` follows failure, and its own outcome
does not matter. -/
def conclude {ε α : Type} (p : Pool) (f : Faults) (w : Work ε α) (s : Session) :
    Ending ε α × Session :=
  match p.checkout with
  | .error e => (.unopened e.toStorage, s)
  | .ok () =>
    match s.reconnect.begin f with
    | (.error e, s₁) => (.unopened e.toStorage, s₁)
    | (.ok (), s₁) =>
      match w.runOn (statement f) s₁ with
      | (.ok a, s₂) =>
        match s₂.commit f with
        | (.ok (), s₃) => (.committed a, s₃)
        | (.error e, s₃) => (.uncommitted a e.toStorage, s₃)
      | (.error e, s₂) => (.failed e, (s₂.rollback f).2)

/-- A unit of work of a use case. -/
def transact (p : Pool) (f : Faults) (w : Work LedgerError Unit) (s : Session) :
    Except LedgerError Unit × Session :=
  let (ending, s') := conclude p f w s
  (ending.outcome, s')

/-! ## Calls -/

/-- Sends one statement on a connection of its own. -/
def onConnection {α : Type} (p : Pool) (send : Session → Except StorageFailure α × Session)
    (s : Session) : Except StorageFailure α × Session :=
  match p.checkout with
  | .error e => (.error e.toStorage, s)
  | .ok () => send s.reconnect

/-- The counts of the inventory, unless others are put in their place. -/
def changeCounts (f : Faults) (s : Session) (rows : List (String × Int)) : List (String × Int) :=
  match s.fault? f .inventory with
  | some (.counts n) => rows.map fun r => (r.1, n)
  | _ => rows

/-- A call outside a unit of work. The identity service answers from a directory. -/
def call (d : Directory) (p : Pool) (f : Faults) :
    (c : Call) → Session → Except c.Failure c.Answer × Session
  | .insertIfAbsent user seed, s =>
    match store seed with
    | .error e => (.error e, s)
    | .ok n =>
      onConnection p (fun s =>
        thenLoad (fun _ => .ok ()) (s.execute f .insertBalance (Tables.insertBalance user n))) s
  | .findBalance user, s =>
    onConnection p (fun s =>
      thenLoad loadOptional (s.select f .findBalance (Tables.findBalance user))) s
  | .findGood name, s =>
    onConnection p (fun s =>
      thenLoad (fun
        | some r => (loadGood r).map some
        | none => .ok none) (s.select f .findGood (Tables.findGood name))) s
  | .inventory user, s =>
    onConnection p (fun s =>
      thenLoad (fun rows => loadInventory (changeCounts f s rows))
        (s.select f .inventory (Tables.countPurchases user))) s
  | .transfers user, s =>
    onConnection p (fun s =>
      thenLoad (splitTransfers user) (s.select f .transfers (Tables.findTransfers user))) s
  | .resolveUser name, s => (.ok (d.idOf? name), s)
  | .resolveNames users, s => (.ok (d.namesOf users), s)

/-- When the three reads of an account are finished. Reads that all wait for a connection in vain
are given up together; the wake-up then looks at the second one first. -/
def arrivals (p : Pool) : Arrivals :=
  if p.reachable then {} else { balance := 1 }

/-- The database as the backing of the use cases. -/
def backing (d : Directory) (p : Pool) (f : Faults) : Backing Session where
  call := call d p f
  transact := transact p f
  arrivals := arrivals p

end CoinLedger.Database
