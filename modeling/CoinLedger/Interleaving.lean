import CoinLedger.Backing
import CoinLedger.Script
/-!
# Many callers over one store

Callers run their use cases over one store, and their steps interleave. A step is one call or
one whole unit of work. The reads of an account are three steps, since each of them sees the store
at a moment of its own. A step may fail, and a caller may be abandoned at any point; what its open
unit of work wrote is then lost.

A schedule says whose turn it is and what becomes of the step. A turn that does not fit leaves
everything as it is, so that *every* schedule is a run and what holds after all schedules holds in
every state that can be reached.

## Main definitions

* `Task` — where one caller stands.
* `Turn`, `Schedule` — whose turn it is, and what becomes of it.
* `System.after` — the system after a schedule.
* `System.serially` — the same programs one at a time, each from beginning to end.

## Main results

* `System.after_append` — a schedule is played in pieces.
* `System.after_induction` — what every turn keeps holds after every schedule.
-/

namespace CoinLedger.Interleaving

/-- The three reads of an account. -/
inductive Reading where
  | balance
  | inventory
  | transfers
  deriving DecidableEq, Repr

/-- Those of the three reads that have succeeded so far. -/
structure Gathered where
  balance : Option Coins := none
  inventory : Option Inventory := none
  history : Option History := none

/-- What was read, once nothing is missing. -/
def Gathered.holdings? (g : Gathered) : Option Holdings := do
  some ⟨← g.balance, ← g.inventory, ← g.history⟩

/-- Where a caller stands. -/
inductive Task (α : Type) where
  /-- It will go on with this program. -/
  | active (rest : UseCase α)
  /-- It has issued the reads of an account and waits for those that are missing. -/
  | reading (user : UserId) (got : Gathered) (next : Except LedgerError Holdings → UseCase α)
  /-- It was dropped and will never go on. -/
  | abandoned

namespace Task

variable {α : Type}

/-- The result of a caller that has come to its end. -/
def result? : Task α → Option (Except LedgerError α)
  | active (.done r) => some r
  | _ => none

/-- Whether a caller's next step is a unit of work. -/
def atUnit : Task α → Bool
  | active (.transact _ _) => true
  | _ => false

/-- A caller with one more read, or with a failure, which ends the reads at once. -/
def collect (user : UserId) (next : Except LedgerError Holdings → UseCase α) :
    Except LedgerError Gathered → Task α
  | .error e => active (next (.error e))
  | .ok got =>
    match got.holdings? with
    | some h => active (next (.ok h))
    | none => reading user got next

end Task

/-- What becomes of a caller's turn. The script of a turn says whether it fails; its delays do not
matter. -/
inductive Move where
  /-- The next call or unit of work, or the three reads are issued. -/
  | go (script : Script)
  /-- One of the reads that were issued. -/
  | read (which : Reading) (script : Script)
  /-- The caller is dropped. -/
  | abandon

/-- Whether a move goes on with the program. -/
def Move.goesOn : Move → Bool
  | .go _ => true
  | _ => false

/-- A move in which nothing fails. -/
inductive Move.Calm : Move → Prop where
  | go : Calm (.go .quiet)
  | read (which : Reading) : Calm (.read which .quiet)

/-- A move with no answer invented or changed. -/
inductive Move.Honest : Move → Prop where
  | go {script : Script} : script.Honest → Honest (.go script)
  | read {script : Script} (which : Reading) : script.Honest → Honest (.read which script)
  | abandon : Honest .abandon

/-- A caller, by its position, and what becomes of its turn. -/
structure Turn where
  caller : Nat
  move : Move

/-- Turns in order. -/
abbrev Schedule := List Turn

namespace Task

variable {α : Type}

/-- One read under a script: what was gathered with it, or the error that it is to the caller. -/
def gather (d : Directory) (script : Script) (user : UserId) (got : Gathered) (s : Store) :
    Reading → Except LedgerError Gathered
  | .balance =>
    (requireBalance user
      ((script.call 0 (.findBalance user)).apply (Store.call d (.findBalance user)) s).1).map
      fun amount => { got with balance := some amount }
  | .inventory =>
    (requireHistory
      ((script.call 0 (.inventory user)).apply (Store.call d (.inventory user)) s).1).map
      fun i => { got with inventory := some i }
  | .transfers =>
    (requireHistory
      ((script.call 0 (.transfers user)).apply (Store.call d (.transfers user)) s).1).map
      fun h => { got with history := some h }

/-- A caller's turn: where it stands afterwards, and the store it leaves. -/
def step (d : Directory) : Move → Task α → Store → Task α × Store
  | .go script, active (.call c next), s =>
    let (r, s') := (script.call 0 c).apply (Store.call d c) s
    (active (next r), s')
  | .go script, active (.transact w next), s =>
    match w.conclude { directory := d, script } s {} with
    | some (ending, s', _) => (active (next ending.outcome), s')
    | none => (active (.transact w next), s)
  | .go _, active (.gather user next), s => (reading user {} next, s)
  | .read which script, reading user got next, s =>
    (collect user next (gather d script user got s which), s)
  | .abandon, _, s => (abandoned, s)
  | _, t, s => (t, s)

end Task

/-- Callers at work over one store. -/
structure System (α : Type) where
  tasks : List (Task α)
  store : Store
  /-- The callers whose units of work have been run, in the order of the units. -/
  units : List Nat := []

namespace System

variable {α : Type}

/-- Callers that are all about to begin. -/
def starting (programs : List (UseCase α)) (s : Store) : System α :=
  { tasks := programs.map .active, store := s }

/-- The system after one turn. -/
def step (d : Directory) (y : System α) (t : Turn) : System α :=
  match y.tasks[t.caller]? with
  | none => y
  | some task =>
    let (task', s) := task.step d t.move y.store
    { tasks := y.tasks.set t.caller task'
      store := s
      units := if task.atUnit && t.move.goesOn then y.units ++ [t.caller] else y.units }

/-- The system after a schedule. -/
def after (d : Directory) (y : System α) (schedule : Schedule) : System α :=
  schedule.foldl (step d) y

/-- The result of one caller, if it has come to its end. -/
def result? (y : System α) (caller : Nat) : Option (Except LedgerError α) :=
  y.tasks[caller]?.bind Task.result?

/-- Whether all callers have come to their ends. -/
def Finished (y : System α) : Prop := ∀ t ∈ y.tasks, t.result?.isSome

/-- Programs run one at a time in the given order: their results and the store in the end. -/
def serially (d : Directory) (programs : List (UseCase α)) :
    List Nat → Store → List (Nat × Except LedgerError α) × Store
  | [], s => ([], s)
  | i :: order, s =>
    match programs[i]? with
    | none => serially d programs order s
    | some u =>
      let (r, s₁) := u.runOn (Backing.memory d) s
      let (rs, s₂) := serially d programs order s₁
      ((i, r) :: rs, s₂)

@[simp] theorem after_nil (d : Directory) (y : System α) : y.after d [] = y := rfl

@[simp] theorem after_cons (d : Directory) (y : System α) (t : Turn) (rest : Schedule) :
    y.after d (t :: rest) = (y.step d t).after d rest := rfl

theorem after_append (d : Directory) (y : System α) (a b : Schedule) :
    y.after d (a ++ b) = (y.after d a).after d b := List.foldl_append

/-- What every turn of a schedule keeps holds after it. -/
theorem after_induction {d : Directory} {I : System α → Prop} {schedule : Schedule}
    (keeps : ∀ y, I y → ∀ t ∈ schedule, I (y.step d t)) {y : System α} (start : I y) :
    I (y.after d schedule) := by
  induction schedule generalizing y with
  | nil => exact start
  | cons t rest ih =>
    exact ih (fun y h t' ht => keeps y h t' (List.mem_cons_of_mem t ht))
      (keeps y start t List.mem_cons_self)

end System

end CoinLedger.Interleaving
