import CoinLedger.Record
import CoinLedger.LedgerError
/-!
# Units of work

A unit of work is a program over the statements that may run inside one open transaction. It is
kept as data: `Work` says which statement comes next and how to go on from its answer. One program
is then run over a store in memory, over database tables, against a script of failures, or read
for the row locks it takes.

The guarded operations `lock`, `lockPair`, `debit`, `credit`, `recordPurchase` and
`recordTransfer` are the only way in which use cases touch balances. A debit asks for a
conditional decrement, so a balance cannot go below zero even if what was read before is wrong.

## Main definitions

* `Statement`, `Statement.Answer` — the statements and what each answers.
* `Work` — programs of statements, with a result or an error at the end.
* `Batch` — any sequence of guarded operations, some of which may fail without ending the unit.
-/

namespace CoinLedger

/-! ## Statements -/

/-- A statement of an open transaction. -/
inductive Statement where
  /-- Read one balance and lock its row. -/
  | lockBalance (user : UserId)
  /-- Read several balances and lock their rows, in ascending order of the user ids. -/
  | lockBalances (users : List UserId)
  /-- Subtract an amount if the balance covers it. -/
  | decrement (user : UserId) (amount : Coins)
  /-- Add an amount. -/
  | increment (user : UserId) (amount : Coins)
  /-- Append a receipt. -/
  | insertPurchase (purchase : Purchase)
  /-- Append a transfer. -/
  | insertTransfer (transfer : Transfer)
  deriving DecidableEq, Repr

/-- What a statement answers: the balance of a row that exists, the rows found, or the number of
rows affected. -/
abbrev Statement.Answer : Statement → Type
  | .lockBalance _ => Option Coins
  | .lockBalances _ => List (UserId × Coins)
  | .decrement _ _ => Nat
  | .increment _ _ => Nat
  | .insertPurchase _ => Unit
  | .insertTransfer _ => Unit

/-! ## Programs of statements -/

/-- A unit of work that ends with a value of `α` or an error of `ε`. -/
inductive Work (ε α : Type) : Type where
  /-- The unit is over. -/
  | done (result : Except ε α)
  /-- Run a statement and go on from its answer or its failure. -/
  | ask (s : Statement) (next : Except StorageFailure s.Answer → Work ε α)

namespace Work

variable {ε α β : Type}

/-- Goes on after a success; an error ends the unit. -/
def bind : Work ε α → (α → Work ε β) → Work ε β
  | done (.ok a), f => f a
  | done (.error e), _ => done (.error e)
  | ask s next, f => ask s fun r => (next r).bind f

instance : Monad (Work ε) where
  pure a := done (.ok a)
  bind := bind

/-- Ends the unit with an error. -/
def fail (e : ε) : Work ε α := done (.error e)

@[simp] theorem pure_eq (a : α) : (pure a : Work ε α) = done (.ok a) := rfl
@[simp] theorem fail_eq (e : ε) : (fail e : Work ε α) = done (.error e) := rfl
@[simp] theorem done_ok_bind (a : α) (f : α → Work ε β) : (done (.ok a) >>= f) = f a := rfl
@[simp] theorem done_error_bind (e : ε) (f : α → Work ε β) :
    (done (.error e) >>= f) = done (.error e) := rfl
@[simp] theorem ask_bind (s : Statement) (next : Except StorageFailure s.Answer → Work ε α)
    (f : α → Work ε β) : (ask s next >>= f) = ask s fun r => next r >>= f := rfl

/-- Changes the result of a unit. -/
def mapResult {ε' : Type} (f : Except ε α → Except ε' β) : Work ε α → Work ε' β
  | done r => done (f r)
  | ask s next => ask s fun r => (next r).mapResult f

/-- Runs a unit whose error is a value for the unit around it. -/
def attempt {ε' : Type} (w : Work ε α) : Work ε' (Except ε α) := w.mapResult .ok

/-- Runs a statement; its failure is a fault of the service. -/
def run (s : Statement) : Work LedgerError s.Answer :=
  ask s fun
    | .ok a => done (.ok a)
    | .error f => done (.error (.internal (.statement f)))

/-! ## Guarded operations -/

/-- The balance of a user whose row is locked from now on. -/
def lock (user : UserId) : Work LedgerError Coins := do
  match ← run (.lockBalance user) with
  | some balance => pure balance
  | none => fail (.balanceNotFound user)

/-- The balance of one user among locked rows. -/
def findLocked (rows : List (UserId × Coins)) (user : UserId) : Work LedgerError Coins :=
  match rows.find? (fun row => row.1 = user) with
  | some row => pure row.2
  | none => fail (.balanceNotFound user)

/-- Locks two rows in one statement. The balances come in the order of the arguments; the first
user's row is missed first. -/
def lockPair (first second : UserId) : Work LedgerError (Coins × Coins) := do
  let rows ← run (.lockBalances [first, second])
  let a ← findLocked rows first
  let b ← findLocked rows second
  pure (a, b)

/-- Subtracts an amount that the balance covers; a decrement without effect is refused. -/
def debit (user : UserId) (amount : Coins) : Work LedgerError Unit := do
  let affected ← run (.decrement user amount)
  if affected = 0 then fail (.insufficientBalance user)

/-- Adds an amount to a row, which has to be there. -/
def credit (user : UserId) (amount : Coins) : Work LedgerError Unit := do
  let affected ← run (.increment user amount)
  if affected = 0 then fail (.balanceNotFound user)

/-- Writes a receipt in the unit of its debit. -/
def recordPurchase (p : Purchase) : Work LedgerError Unit := run (.insertPurchase p)

/-- Writes a transfer in the unit of its two movements. -/
def recordTransfer (t : Transfer) : Work LedgerError Unit := run (.insertTransfer t)

end Work

/-! ## Sequences of guarded operations -/

/-- A guarded operation, or a deliberate failure. -/
inductive Operation where
  | lock (user : UserId)
  | lockPair (first second : UserId)
  | debit (user : UserId) (amount : Coins)
  | credit (user : UserId) (amount : Coins)
  | recordPurchase (purchase : Purchase)
  | recordTransfer (transfer : Transfer)
  | fail (error : LedgerError)
  deriving DecidableEq, Repr

/-- What an operation gives back. -/
inductive Operation.Value where
  | nothing
  | balance (amount : Coins)
  | balances (first second : Coins)
  deriving DecidableEq, Repr

/-- The unit of work that consists of one operation. -/
def Operation.work : Operation → Work LedgerError Operation.Value
  | .lock user => do pure (.balance (← Work.lock user))
  | .lockPair first second => do
    let (a, b) ← Work.lockPair first second
    pure (.balances a b)
  | .debit user amount => do Work.debit user amount; pure .nothing
  | .credit user amount => do Work.credit user amount; pure .nothing
  | .recordPurchase p => do Work.recordPurchase p; pure .nothing
  | .recordTransfer t => do Work.recordTransfer t; pure .nothing
  | .fail e => Work.fail e

/-- The outcome of one operation. -/
abbrev Operation.Outcome := Except LedgerError Operation.Value

/-- An operation together with whether its failure is ignored. -/
structure Instruction where
  operation : Operation
  ignoresFailure : Bool := false
  deriving DecidableEq, Repr

/-- Operations to be made in turn by one unit of work. -/
abbrev Batch := List Instruction

/-- The outcomes of the operations made, with the error that ended the unit, if one did. -/
structure BatchFailure where
  outcomes : List Operation.Outcome
  error : LedgerError

namespace Batch

/-- Puts the outcome of an earlier operation in front. -/
def prepend (r : Operation.Outcome) :
    Except BatchFailure (List Operation.Outcome) → Except BatchFailure (List Operation.Outcome)
  | .ok rs => .ok (r :: rs)
  | .error f => .error { f with outcomes := r :: f.outcomes }

/-- The unit of work that makes the operations in order. The first failure that is not ignored
ends it. -/
def work : Batch → Work BatchFailure (List Operation.Outcome)
  | [] => pure []
  | i :: rest => do
    match ← i.operation.work.attempt with
    | .ok v => (work rest).mapResult (prepend (.ok v))
    | .error e =>
      if i.ignoresFailure then (work rest).mapResult (prepend (.error e))
      else Work.fail ⟨[.error e], e⟩

end Batch

/-! ## Endings -/

/-- How a unit of work ended. -/
inductive Ending (ε α : Type) where
  /-- No transaction was opened. -/
  | unopened (cause : StorageFailure)
  /-- The work failed and was rolled back. -/
  | failed (error : ε)
  /-- The work succeeded but the commit did not; it was rolled back. -/
  | uncommitted (value : α) (cause : StorageFailure)
  /-- The work succeeded and was committed. -/
  | committed (value : α)

/-- The outcome of a unit of work for a use case: a failed transaction is a fault. -/
def Ending.outcome {α : Type} : Ending LedgerError α → Except LedgerError α
  | .unopened cause => .error (.internal (.transaction cause))
  | .failed e => .error e
  | .uncommitted _ cause => .error (.internal (.transaction cause))
  | .committed a => .ok a

/-- What a batch reports: the outcomes of the operations made, and how the unit came out. -/
def Ending.report : Ending BatchFailure (List Operation.Outcome) →
    List Operation.Outcome × Except LedgerError Unit
  | .unopened cause => ([], .error (.internal (.transaction cause)))
  | .failed f => (f.outcomes, .error f.error)
  | .uncommitted outcomes cause => (outcomes, .error (.internal (.transaction cause)))
  | .committed outcomes => (outcomes, .ok ())

end CoinLedger
