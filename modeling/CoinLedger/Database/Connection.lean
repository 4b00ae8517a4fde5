import CoinLedger.Database.Tables
/-!
# Connections

A connection carries statements to the database, which notes the kind of each one it receives.
Outside a transaction a statement takes effect at once. Inside one it acts on the transaction's
own tables; once a statement has failed there, every further one fails until the transaction is
over, and a commit then discards the work like a rollback does.

`Faults` may make any statement fail with a state code, drop the connection instead, or change the
counts that the inventory returns. A dropped connection takes its open transaction with it, and
statements sent after that do not arrive.

## Main definitions

* `Kind`, `Fault`, `Faults` — statements by kind and what becomes of them.
* `Session` — the database as seen through one connection.
* `Session.execute`, `Session.begin`, `Session.commit`, `Session.rollback`.
-/

namespace CoinLedger.Database

/-- The kinds of statements. -/
inductive Kind where
  | begin
  | commit
  | rollback
  | insertBalance
  | findBalance
  | lockBalance
  | lockBalances
  | decrement
  | increment
  | insertPurchase
  | insertTransfer
  | findGood
  | inventory
  | transfers
  deriving DecidableEq, Repr

/-- What goes wrong with a statement. -/
inductive Fault where
  | state (code : SqlState)
  /-- The connection is dropped. -/
  | close
  /-- Every count it returns is another one. -/
  | counts (n : Int)
  deriving DecidableEq, Repr

/-- What goes wrong with a statement, given its kind and the number of statements received before
it. -/
abbrev Faults := Nat → Kind → Option Fault

/-- Nothing goes wrong. -/
def Faults.none : Faults := fun _ _ => .none

/-- Why a statement failed: the database refused it, or there is no connection any more. -/
inductive Failure where
  | state (code : SqlState)
  | closed
  deriving DecidableEq, Repr

/-- The work of an open transaction. -/
structure Transaction where
  tables : Tables
  failed : Bool := false
  deriving DecidableEq

/-- The database through one connection: the committed tables, the kinds of the statements received,
whether the connection is up, and its open transaction. -/
structure Session where
  tables : Tables
  received : List Kind := []
  connected : Bool := true
  transaction : Option Transaction := .none
  deriving DecidableEq

namespace Session

/-- The same database through a new connection; an open transaction is gone. -/
def reconnect (s : Session) : Session := { s with connected := true, transaction := .none }

/-- The connection goes down, and its open transaction with it. -/
def drop (s : Session) : Session := { s with connected := false, transaction := .none }

/-- Notes a statement. -/
def receive (s : Session) (k : Kind) : Session := { s with received := s.received ++ [k] }

/-- What goes wrong with the next statement. -/
def fault? (f : Faults) (s : Session) (k : Kind) : Option Fault := f s.received.length k

/-- A failed statement spoils the open transaction. -/
def spoil (s : Session) : Session :=
  { s with transaction := s.transaction.map fun t => { t with failed := true } }

/-- Runs a statement on the tables it may see. -/
def apply {α : Type} (s : Session) (effect : Tables → Except SqlState (α × Tables)) :
    Except Failure α × Session :=
  match s.transaction with
  | some t =>
    if t.failed then (.error (.state failedTransaction), s)
    else
      match effect t.tables with
      | .ok (a, tables) => (.ok a, { s with transaction := some { t with tables } })
      | .error code => (.error (.state code), s.spoil)
  | .none =>
    match effect s.tables with
    | .ok (a, tables) => (.ok a, { s with tables })
    | .error code => (.error (.state code), s)

/-- Sends a statement with a given effect. -/
def execute {α : Type} (f : Faults) (k : Kind) (effect : Tables → Except SqlState (α × Tables))
    (s : Session) : Except Failure α × Session :=
  if s.connected then
    match s.fault? f k with
    | some .close => (.error .closed, (s.receive k).drop)
    | some (.state code) => (.error (.state code), (s.receive k).spoil)
    | _ => (s.receive k).apply effect
  else (.error .closed, s)

/-- Sends a statement that changes nothing. -/
def select {α : Type} (f : Faults) (k : Kind) (query : Tables → α) (s : Session) :
    Except Failure α × Session :=
  s.execute f k fun t => .ok (query t, t)

/-- Opens a transaction. -/
def begin (f : Faults) (s : Session) : Except Failure Unit × Session :=
  if s.connected then
    match s.fault? f .begin with
    | some .close => (.error .closed, (s.receive .begin).drop)
    | some (.state code) => (.error (.state code), s.receive .begin)
    | _ => (.ok (), { s.receive .begin with transaction := some { tables := s.tables } })
  else (.error .closed, s)

/-- Ends the open transaction and discards its work. -/
def discard (s : Session) : Session := { s with transaction := .none }

/-- Ends the open transaction and keeps its work, unless it has failed. -/
def keep (s : Session) : Session :=
  match s.transaction with
  | some t => { s with tables := if t.failed then s.tables else t.tables, transaction := .none }
  | .none => s

/-- Commits. A failed commit discards the work; so does the commit of a failed transaction, which
is reported as a success. -/
def commit (f : Faults) (s : Session) : Except Failure Unit × Session :=
  if s.connected then
    match s.fault? f .commit with
    | some .close => (.error .closed, (s.receive .commit).drop)
    | some (.state code) => (.error (.state code), (s.receive .commit).discard)
    | _ => (.ok (), (s.receive .commit).keep)
  else (.error .closed, s)

/-- Rolls back. The work is discarded even if the statement fails. -/
def rollback (f : Faults) (s : Session) : Except Failure Unit × Session :=
  if s.connected then
    match s.fault? f .rollback with
    | some .close => (.error .closed, (s.receive .rollback).drop)
    | some (.state code) => (.error (.state code), (s.receive .rollback).discard)
    | _ => (.ok (), (s.receive .rollback).discard)
  else (.error .closed, s)

end Session

end CoinLedger.Database
