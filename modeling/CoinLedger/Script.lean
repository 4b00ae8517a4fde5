import CoinLedger.Join
import CoinLedger.Store
/-!
# Runs against a script

A script says, for every call of a run, how long it takes and what becomes of it: it may be
performed as it is, performed with its answer changed, or not performed at all, with a failure or
an answer in its place. Time is counted, not waited for. A run may have a limit: a call that would
still be waiting when the limit has passed is never performed, and the run is cut there.

A unit of work acts on a copy of the store, which replaces the store only when the work has ended
with success and the commit has not failed.

## Main definitions

* `Treatment`, `Script` — what becomes of the calls; `Script.Honest` — nothing but delays and
  failures.
* `Work.play`, `Work.conclude` — a unit of work, and its transaction around it.
* `UseCase.play` — a use case, which either finishes or is cut.
* `UseCase.answer` — the same as a caller with a deadline sees it.
-/

namespace CoinLedger

/-! ## Scripts -/

/-- What becomes of a call: its real answer, perhaps changed, or another one in its place. -/
inductive Reply (ε α : Type) where
  /-- The call is performed; its answer is changed before the caller gets it. -/
  | performed (change : α → α)
  /-- The call is not performed. -/
  | replaced (result : Except ε α)

/-- The delay of a call and what becomes of it after that. -/
structure Treatment (ε α : Type) where
  delay : Nat := 0
  reply : Reply ε α := .performed id

/-- The treatment of every call of a run, by the number of calls made before it. -/
structure Script where
  call : Nat → (c : Call) → Treatment c.Failure c.Answer
  statement : Nat → (s : Statement) → Treatment StorageFailure s.Answer
  begin : Nat → Treatment StorageFailure Unit
  commit : Nat → Treatment StorageFailure Unit

/-- The script that leaves every call alone. -/
def Script.quiet : Script where
  call _ _ := {}
  statement _ _ := {}
  begin _ := {}
  commit _ := {}

/-- A call under its treatment: its result and the state after it. -/
def Treatment.apply {σ ε α : Type} (t : Treatment ε α) (genuine : σ → Except ε α × σ) (s : σ) :
    Except ε α × σ :=
  match t.reply with
  | .performed change => ((genuine s).1.map change, (genuine s).2)
  | .replaced r => (r, s)

@[simp] theorem Treatment.apply_performed {σ ε α : Type} (delay : Nat) (change : α → α)
    (genuine : σ → Except ε α × σ) (s : σ) :
    (Treatment.mk delay (.performed change)).apply genuine s =
      ((genuine s).1.map change, (genuine s).2) := rfl

@[simp] theorem Treatment.apply_replaced {σ ε α : Type} (delay : Nat) (r : Except ε α)
    (genuine : σ → Except ε α × σ) (s : σ) :
    (Treatment.mk delay (.replaced r)).apply genuine s = (r, s) := rfl

/-- A call that is left alone is the call itself. -/
theorem Treatment.apply_of_performed {σ ε α : Type} {t : Treatment ε α}
    (h : t.reply = .performed id) (genuine : σ → Except ε α × σ) (s : σ) :
    t.apply genuine s = genuine s := by
  have same : (genuine s).1.map id = (genuine s).1 := by cases (genuine s).1 <;> rfl
  simp only [apply, h, same]

/-- Whether a call is left alone or fails: no answer is invented or changed. -/
def Treatment.Honest {ε α : Type} (t : Treatment ε α) : Prop :=
  t.reply = .performed id ∨ ∃ f, t.reply = .replaced (.error f)

/-- Scripts of delays and failures only. -/
structure Script.Honest (script : Script) : Prop where
  call : ∀ n c, (script.call n c).Honest
  statement : ∀ n s, (script.statement n s).Honest
  begin : ∀ n, (script.begin n).Honest
  commit : ∀ n, (script.commit n).Honest

theorem Script.honest_quiet : Script.quiet.Honest where
  call _ _ := .inl rfl
  statement _ _ := .inl rfl
  begin _ := .inl rfl
  commit _ := .inl rfl

/-! ## Time -/

/-- How far a run has come: the time passed and the number of calls made. -/
structure Clock where
  time : Nat := 0
  calls : Nat := 0
  deriving DecidableEq, Repr

/-- The clock after a call that took some time. -/
def Clock.after (c : Clock) (delay : Nat) : Clock := ⟨c.time + delay, c.calls + 1⟩

/-- What a run plays against: the directory, the script, and the time limit if there is one. -/
structure Stage where
  directory : Directory := SortedMap.empty
  script : Script := .quiet
  limit : Option Nat := none

/-- Whether a moment is not past the limit. -/
def Stage.allows (e : Stage) (time : Nat) : Bool :=
  match e.limit with
  | none => true
  | some limit => time ≤ limit

/-- Without a limit every moment is allowed. -/
theorem Stage.allows_of_unlimited {e : Stage} (unlimited : e.limit = none) (time : Nat) :
    e.allows time = true := by
  simp [allows, unlimited]

/-! ## Units of work -/

namespace Work

variable {ε α : Type}

/-- The statements of a unit in turn; `none` if the limit passes before the unit is over. -/
def play (e : Stage) : Work ε α → Store → Clock → Option (Except ε α × Store × Clock)
  | done r, s, c => some (r, s, c)
  | ask q next, s, c =>
    let t := e.script.statement c.calls q
    let c' := c.after t.delay
    if e.allows c'.time then
      let (r, s') := t.apply (Store.statement q) s
      (next r).play e s' c'
    else none

/-- A unit of work in its transaction: begin, the statements on a copy of the store, commit. Only a
committed unit changes the store. `none` if the limit passes before that. -/
def conclude (e : Stage) (w : Work ε α) (s : Store) (c : Clock) :
    Option (Ending ε α × Store × Clock) :=
  let t := e.script.begin c.calls
  let c₁ := c.after t.delay
  if e.allows c₁.time then
    match (t.apply (fun s => (.ok (), s)) s).1 with
    | .error cause => some (.unopened cause, s, c₁)
    | .ok () =>
      match w.play e s c₁ with
      | none => none
      | some (.error err, _, c₂) => some (.failed err, s, c₂)
      | some (.ok a, s', c₂) =>
        let t' := e.script.commit c₂.calls
        let c₃ := c₂.after t'.delay
        if e.allows c₃.time then
          match (t'.apply (fun s => (.ok (), s)) s).1 with
          | .error cause => some (.uncommitted a cause, s, c₃)
          | .ok () => some (.committed a, s', c₃)
        else none
  else none

end Work

/-! ## Use cases -/

/-- How a run of a use case came out. -/
inductive Played (α : Type) where
  /-- It ran to its end. -/
  | finished (result : Except LedgerError α) (store : Store) (clock : Clock)
  /-- The limit passed first; this is what it left behind. -/
  | cut (store : Store)

/-- A read of an account under its treatment, with the moment at which it is there. Reading leaves
the store alone. -/
def Stage.read (e : Stage) (s : Store) (c : Clock) (q : Call) :
    Timed (Except q.Failure q.Answer) :=
  let t := e.script.call c.calls q
  ⟨(t.apply (Store.call e.directory q) s).1, c.time + t.delay⟩

/-- The three reads of an account, issued together. -/
def Stage.reads (e : Stage) (s : Store) (c : Clock) (user : UserId) :
    Timed (Except LedgerError Holdings) :=
  gatherReads user
    (e.read s c (.findBalance user))
    (e.read s { c with calls := c.calls + 1 } (.inventory user))
    (e.read s { c with calls := c.calls + 2 } (.transfers user))

namespace UseCase

variable {α : Type}

/-- A use case from a given moment on. -/
def play (e : Stage) : UseCase α → Store → Clock → Played α
  | done r, s, c => .finished r s c
  | call q next, s, c =>
    let t := e.script.call c.calls q
    let c' := c.after t.delay
    if e.allows c'.time then
      let (r, s') := t.apply (Store.call e.directory q) s
      (next r).play e s' c'
    else .cut s
  | transact w next, s, c =>
    match w.conclude e s c with
    | none => .cut s
    | some (ending, s', c') => (next ending.outcome).play e s' c'
  | gather user next, s, c =>
    let joined := e.reads s c user
    if e.allows joined.moment then
      (next joined.value).play e s ⟨joined.moment, c.calls + 3⟩
    else .cut s

/-- What a caller gets who waits until the limit: a run that is cut counts as late. -/
def answer (e : Stage) (u : UseCase α) (s : Store) : Except LedgerError α × Store :=
  match u.play e s {} with
  | .finished r s' _ => (r, s')
  | .cut s' => (.error .deadlineExceeded, s')

end UseCase

end CoinLedger
