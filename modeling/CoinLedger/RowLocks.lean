import CoinLedger.UnitOfWork
/-!
# Row locks of concurrent units of work

A statement locks the balance rows it reads for update or changes. Several rows of one statement
are locked one at a time in ascending order of the user ids, and only those that exist when it is
issued. A lock stays with its unit until the unit is over, and a row is locked by one unit at a
time, so a unit may have to wait for another one.

The answers of statements are left open but for this: a balance is only read from a row that is
locked. What holds on every board that can be reached thus holds whatever the rows contain, which
statements fail, and where a unit is given up.

## Main definitions

* `Statement.locks`, `Statement.updates?` — the rows a statement locks and the row it changes.
* `RowLocks.Session` — a unit of work under way, with the rows it holds and those it still wants.
* `RowLocks.Board.Proceeds` — how a session gets on by itself.
* `Board.Step`, `Board.Reaches` — what can happen to rows and sessions, failures included.
* `Board.Waits` — a session that wants a row held by another one.
-/

namespace CoinLedger

/-- The rows that a statement locks, in the order in which it locks them, given the rows there
are. -/
def Statement.locks (rows : List UserId) : Statement → List UserId
  | .lockBalance user => [user].filter (· ∈ rows)
  | .lockBalances users => (ascending users).filter (· ∈ rows)
  | .decrement user _ => [user].filter (· ∈ rows)
  | .increment user _ => [user].filter (· ∈ rows)
  | .insertPurchase _ => []
  | .insertTransfer _ => []

/-- The balance row that a statement changes. -/
def Statement.updates? : Statement → Option UserId
  | .decrement user _ => some user
  | .increment user _ => some user
  | _ => none

/-- An answer that a statement may give to a unit that holds some rows: balances come from rows
that are held. -/
def Statement.Allows (held : List UserId) : (s : Statement) → s.Answer → Prop
  | .lockBalance user, some _ => user ∈ held
  | .lockBalances users, found => ∀ row ∈ found, row.1 ∈ users ∧ row.1 ∈ held
  | _, _ => True

namespace RowLocks

/-- A unit of work under way. -/
structure Session where
  /-- What is left of the unit, beginning with the statement under way if there is one. -/
  rest : Work LedgerError Unit
  /-- The rows locked so far. -/
  holds : List UserId := []
  /-- The rows that the statement under way still has to lock; `none` between statements. -/
  wants : Option (List UserId) := none

namespace Session

/-- A unit that has not begun. -/
def opening (w : Work LedgerError Unit) : Session := { rest := w }

/-- A unit that is over and has let go of its rows. -/
def closed (r : Except LedgerError Unit) : Session := { rest := .done r }

/-- Whether a unit is over. -/
def IsClosed (x : Session) : Prop := ∃ r, x = closed r

/-- The row that a session is about to lock. -/
def next? (x : Session) : Option UserId := x.wants.bind List.head?

end Session

/-- The balance rows that exist, and the sessions. -/
structure Board where
  rows : List UserId
  sessions : List Session

namespace Board

/-- The units of a board that are about to begin. -/
def opening (rows : List UserId) (units : List (Work LedgerError Unit)) : Board :=
  ⟨rows, units.map .opening⟩

/-- Whether no session but one holds a row. -/
def FreeFor (b : Board) (i : Nat) (user : UserId) : Prop :=
  ∀ j x, j ≠ i → b.sessions[j]? = some x → user ∉ x.holds

/-- A session at another point. -/
def put (b : Board) (i : Nat) (x : Session) : Board :=
  { b with sessions := b.sessions.set i x }

/-- How session `i` gets on by itself. -/
inductive Proceeds (i : Nat) : Board → Board → Prop where
  /-- A statement is issued; from now on it locks its rows. -/
  | issue {b : Board} {s : Statement} {next : Except StorageFailure s.Answer → Work LedgerError Unit}
      {held : List UserId} :
      b.sessions[i]? = some ⟨.ask s next, held, none⟩ →
      Proceeds i b (b.put i ⟨.ask s next, held, some (s.locks b.rows)⟩)
  /-- A free row is locked. -/
  | acquire {b : Board} {w : Work LedgerError Unit} {held wanted : List UserId} {user : UserId} :
      b.sessions[i]? = some ⟨w, held, some (user :: wanted)⟩ → b.FreeFor i user →
      Proceeds i b (b.put i ⟨w, user :: held, some wanted⟩)
  /-- The statement has its rows and answers. -/
  | answer {b : Board} {s : Statement} {next : Except StorageFailure s.Answer → Work LedgerError Unit}
      {held : List UserId} {a : s.Answer} :
      b.sessions[i]? = some ⟨.ask s next, held, some []⟩ → s.Allows held a →
      Proceeds i b (b.put i ⟨next (.ok a), held, none⟩)
  /-- The unit is committed or rolled back and lets go of its rows. -/
  | conclude {b : Board} {r : Except LedgerError Unit} {held : List UserId} :
      b.sessions[i]? = some ⟨.done r, held, none⟩ → held ≠ [] →
      Proceeds i b (b.put i (.closed r))

/-- What can happen to a board. -/
inductive Step : Board → Board → Prop where
  /-- A session gets on. -/
  | proceed {b b' : Board} (i : Nat) : Proceeds i b b' → Step b b'
  /-- A statement fails, perhaps while it waits. -/
  | refuse {b : Board} {i : Nat} {s : Statement}
      {next : Except StorageFailure s.Answer → Work LedgerError Unit} {held wanted : List UserId}
      {f : StorageFailure} :
      b.sessions[i]? = some ⟨.ask s next, held, some wanted⟩ →
      Step b (b.put i ⟨next (.error f), held, none⟩)
  /-- A unit is given up and lets go of its rows. -/
  | abort {b : Board} {i : Nat} {x : Session} {e : LedgerError} :
      b.sessions[i]? = some x → Step b (b.put i (.closed (.error e)))
  /-- A balance row comes into being. -/
  | provision {b : Board} (user : UserId) : Step b { b with rows := user :: b.rows }

/-- The boards that can come about. -/
inductive Reaches (start : Board) : Board → Prop where
  | refl : Reaches start start
  | tail {b b' : Board} : Reaches start b → Step b b' → Reaches start b'

/-- Session `i` wants a row that session `j` holds. -/
def Waits (b : Board) (i j : Nat) : Prop :=
  i ≠ j ∧ ∃ x y user, b.sessions[i]? = some x ∧ b.sessions[j]? = some y ∧
    x.next? = some user ∧ user ∈ y.holds

/-- Sessions in a circle, each waiting for the next. -/
def Deadlocked (b : Board) : Prop := ∃ i, Relation.TransGen b.Waits i i

/-- What every step keeps holds on every board that can come about. -/
theorem Reaches.induction {start : Board} {I : Board → Prop} (at_start : I start)
    (keeps : ∀ b b', I b → Step b b' → I b') {b : Board} (h : Reaches start b) : I b := by
  induction h with
  | refl => exact at_start
  | tail _ hs ih => exact keeps _ _ ih hs

end Board

end RowLocks

end CoinLedger
