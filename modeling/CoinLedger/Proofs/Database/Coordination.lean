import CoinLedger.Database.Report
import CoinLedger.Proofs.Ledger.Redaction

/-!
# What a coordinator does, and in which order

A unit of work runs between the opening of a transaction and its end, and what comes of it depends
on five things that may fail: taking a connection out of the pool, opening the transaction, the
work, the commit, and the rollback.  `conclude` is this for the database.  It only shows what comes
out in the end, and not what was tried on the way: two rollbacks would look like one, and so would
work that is run twice on a connection that does not mind.

So the coordinator is stated here over any world in which these five can be done (`coordinate`).
In a world that keeps a record of what is done in it (`recording`), the record of a run shows each
attempt with its outcome.  There are five courses that a run can take (`Course`), and what is asked
of a coordinator is read off them (`Course.orderly`).  The database is one of the worlds
(`conclude_eq_coordinate`), with every pattern of failures and every way of reporting them.

That a unit which is not committed leaves no trace in the tables rests on what a connection does:
inside a transaction all statements act on tables of its own, and one whose transaction is lost
takes no more statements (`Session.Guarded`).

## Main definitions

* `Driver`, `coordinate` — what a coordinator uses, and the coordinator.
* `recording`, `Driver.recorded` — the same in a world that keeps a record.
* `Orderly` — what is asked of the record and of the outcome.
* `driver` — the database as a world for the coordinator.

## Main results

* `coordinate_recorded` — every run takes one of five courses.
* `conclude_orderly` — units of work on the database.
-/

namespace CoinLedger

/-- The outcome of a unit of work in the errors of its caller, into which the failures of the
transaction are put. -/
def Ending.outcomeIn {ε α : Type} (convert : StorageFailure → ε) : Ending ε α → Except ε α
  | .unopened cause => .error (convert cause)
  | .failed e => .error e
  | .uncommitted _ cause => .error (convert cause)
  | .committed a => .ok a

namespace Database

/-! ## Coordinators -/

/-- Why a rollback is not carried out. -/
inductive RollbackFailure where
  /-- No transaction is open. -/
  | notOpen
  | failed (report : Report)
  deriving DecidableEq, Repr

/-- What a coordinator uses, over a world. -/
structure Driver (σ : Type) where
  checkout : σ → Except PoolFailure Unit × σ
  begin : σ → Except Report Unit × σ
  commit : σ → Except Report Unit × σ
  rollback : σ → Except RollbackFailure Unit × σ

/-- Runs work in a transaction. -/
def coordinate {σ ε α : Type} (d : Driver σ) (work : σ → Except ε α × σ) (w : σ) :
    Ending ε α × σ :=
  match d.checkout w with
  | (.error e, w₁) => (.unopened e.toStorage, w₁)
  | (.ok (), w₁) =>
    match d.begin w₁ with
    | (.error r, w₂) => (.unopened r.toStorage, w₂)
    | (.ok (), w₂) =>
      match work w₂ with
      | (.ok a, w₃) =>
        match d.commit w₃ with
        | (.ok (), w₄) => (.committed a, w₄)
        | (.error r, w₄) => (.uncommitted a r.toStorage, w₄)
      | (.error e, w₃) => (.failed e, (d.rollback w₃).2)

/-! ## Records -/

/-- The things that a coordinator tries. -/
inductive Phase where
  | checkout
  | begin
  | work
  | commit
  | rollback
  deriving DecidableEq, Repr

/-- Something that was tried, with what came of it. -/
inductive Attempt (ε α : Type) where
  | checkout (result : Except PoolFailure Unit)
  | begin (result : Except Report Unit)
  | work (result : Except ε α)
  | commit (result : Except Report Unit)
  | rollback (result : Except RollbackFailure Unit)

def Attempt.phase {ε α : Type} : Attempt ε α → Phase
  | .checkout _ => .checkout
  | .begin _ => .begin
  | .work _ => .work
  | .commit _ => .commit
  | .rollback _ => .rollback

/-- An action in a world that keeps a record: its result is noted at the end. -/
def recording {σ β ν : Type} (note : β → ν) (act : σ → β × σ) (w : σ × List ν) :
    β × (σ × List ν) :=
  ((act w.1).1, (act w.1).2, w.2 ++ [note (act w.1).1])

/-- The same driver in a world that keeps a record. -/
def Driver.recorded {σ : Type} (ε α : Type) (d : Driver σ) : Driver (σ × List (Attempt ε α)) where
  checkout := recording .checkout d.checkout
  begin := recording .begin d.begin
  commit := recording .commit d.commit
  rollback := recording .rollback d.rollback

/-! ## Courses of a run -/

section
variable {σ ε α : Type}

/-- The courses that a run can take, each with its ending and its record. -/
inductive Course : Ending ε α → List (Attempt ε α) → Prop where
  | unavailable (e : PoolFailure) : Course (.unopened e.toStorage) [.checkout (.error e)]
  | unbegun (r : Report) :
    Course (.unopened r.toStorage) [.checkout (.ok ()), .begin (.error r)]
  | failed (e : ε) (undone : Except RollbackFailure Unit) :
    Course (.failed e)
      [.checkout (.ok ()), .begin (.ok ()), .work (.error e), .rollback undone]
  | uncommitted (a : α) (r : Report) :
    Course (.uncommitted a r.toStorage)
      [.checkout (.ok ()), .begin (.ok ()), .work (.ok a), .commit (.error r)]
  | committed (a : α) :
    Course (.committed a) [.checkout (.ok ()), .begin (.ok ()), .work (.ok a), .commit (.ok ())]

/-- A record does not change what is done, and it shows that the run took one of the courses. -/
theorem coordinate_recorded (d : Driver σ) (work : σ → Except ε α × σ) (w : σ)
    (earlier : List (Attempt ε α)) :
    ∃ record, Course (coordinate d work w).1 record ∧
      coordinate (d.recorded ε α) (recording .work work) (w, earlier) =
        ((coordinate d work w).1, (coordinate d work w).2, earlier ++ record) := by
  unfold coordinate Driver.recorded recording
  dsimp only
  rcases d.checkout w with ⟨e | ⟨⟩, w₁⟩
  · exact ⟨_, .unavailable e, rfl⟩
  · dsimp only
    rcases d.begin w₁ with ⟨r | ⟨⟩, w₂⟩
    · exact ⟨_, .unbegun r, by simp⟩
    · dsimp only
      rcases work w₂ with ⟨e | a, w₃⟩
      · exact ⟨_, .failed e (d.rollback w₃).1, by simp⟩
      · dsimp only
        rcases d.commit w₃ with ⟨r | ⟨⟩, w₄⟩
        · exact ⟨_, .uncommitted a r, by simp⟩
        · exact ⟨_, .committed a, by simp⟩

/-- What is asked of a coordinator: of what it tries, and of the outcome that it gives, in the
errors of its caller. -/
structure Orderly (convert : StorageFailure → ε) (record : List (Attempt ε α))
    (outcome : Except ε α) : Prop where
  /-- Nothing is tried twice: there is one run of the work at most, and one rollback. -/
  once : (record.map Attempt.phase).Nodup
  /-- A transaction is opened exactly if there is a connection. -/
  begin_iff : .begin ∈ record.map Attempt.phase ↔ .checkout (.ok ()) ∈ record
  /-- The work is run exactly if a transaction has been opened, and after that. -/
  work_iff : .work ∈ record.map Attempt.phase ↔ .begin (.ok ()) ∈ record
  begun : ∀ r, .work r ∈ record → [.begin (.ok ()), .work r].Sublist record
  /-- There is a result exactly if the work gave it and the commit succeeded. -/
  ok_iff : ∀ a, outcome = .ok a ↔ .work (.ok a) ∈ record ∧ .commit (.ok ()) ∈ record
  /-- A commit is issued exactly if the work succeeded. -/
  commit_iff : .commit ∈ record.map Attempt.phase ↔ ∃ a, .work (.ok a) ∈ record
  /-- A rollback is tried exactly if the work failed. -/
  rollback_iff : .rollback ∈ record.map Attempt.phase ↔ ∃ e, .work (.error e) ∈ record
  /-- The error of the work is the outcome as it is, whatever comes of the rollback. -/
  work_error : ∀ e, .work (.error e) ∈ record → outcome = .error e
  /-- The other failures are put into the errors of the caller. -/
  checkout_error : ∀ e, .checkout (.error e) ∈ record → outcome = .error (convert e.toStorage)
  begin_error : ∀ r, .begin (.error r) ∈ record → outcome = .error (convert r.toStorage)
  commit_error : ∀ r, .commit (.error r) ∈ record → outcome = .error (convert r.toStorage)

/-- No course is out of order. -/
theorem Course.orderly {ending : Ending ε α} {record : List (Attempt ε α)}
    (h : Course ending record) (convert : StorageFailure → ε) :
    Orderly convert record (ending.outcomeIn convert) where
  once := by cases h <;> simp [Attempt.phase]
  begin_iff := by cases h <;> simp [Attempt.phase]
  work_iff := by cases h <;> simp [Attempt.phase]
  begun r hr := by
    cases h <;> simp at hr <;> subst hr <;> exact .cons _ (.cons_cons _ (.cons_cons _ (by simp)))
  ok_iff a := by cases h <;> simp [Ending.outcomeIn, eq_comm]
  commit_iff := by cases h <;> simp [Attempt.phase]
  rollback_iff := by cases h <;> simp [Attempt.phase]
  work_error e he := by cases h <;> simp_all [Ending.outcomeIn]
  checkout_error e he := by cases h <;> simp_all [Ending.outcomeIn]
  begin_error r hr := by cases h <;> simp_all [Ending.outcomeIn]
  commit_error r hr := by cases h <;> simp_all [Ending.outcomeIn]

end

/-! ## The database as a world -/

/-- The database as a world for the coordinator.  What the pool says is given, and so is how the
failures of the database are reported. -/
def driver (checkout : Except PoolFailure Unit) (f : Faults) (reports : Failure → Report)
    (undone : Failure → RollbackFailure) : Driver Session where
  checkout s := (checkout, match checkout with
    | .ok () => s.reconnect
    | .error _ => s)
  begin s := ((s.begin f).1.mapError reports, (s.begin f).2)
  commit s := ((s.commit f).1.mapError reports, (s.commit f).2)
  rollback s := ((s.rollback f).1.mapError undone, (s.rollback f).2)

/-- The unit of work on the database is the coordinator, if failures are reported in such a way
that they are worded by their state codes. -/
theorem conclude_eq_coordinate {ε α : Type} (p : Pool) (f : Faults) {reports : Failure → Report}
    (worded : ∀ e, (reports e).toStorage = e.toStorage) (undone : Failure → RollbackFailure)
    (w : Work ε α) (s : Session) :
    conclude p f w s =
      coordinate (driver p.checkout f reports undone) (w.runOn (statement f)) s := by
  unfold conclude coordinate driver
  rcases p.checkout with e | ⟨⟩
  · rfl
  · dsimp only
    rcases s.reconnect.begin f with ⟨e | ⟨⟩, s₁⟩
    · simp only [mapError_error, worded]
    · dsimp only [mapError_ok]
      rcases w.runOn (statement f) s₁ with ⟨e | a, s₂⟩
      · rfl
      · dsimp only
        rcases s₂.commit f with ⟨e | ⟨⟩, s₃⟩
        · simp only [mapError_error, worded]
        · rfl

/-! ## Tables under an open transaction -/

/-- Whether statements on a connection cannot reach the committed tables: either it is down, or it
is in a transaction. -/
def Session.Guarded (s : Session) : Prop := s.connected = true → s.transaction.isSome = true

theorem Session.Guarded.apply {s : Session} (h : s.transaction.isSome = true) {α : Type}
    (effect : Tables → Except SqlState (α × Tables)) :
    (s.apply effect).2.transaction.isSome = true ∧ (s.apply effect).2.tables = s.tables := by
  obtain ⟨t, ht⟩ := Option.isSome_iff_exists.1 h
  unfold Session.apply
  rw [ht]
  dsimp only
  split
  · exact ⟨h, rfl⟩
  · split
    · exact ⟨rfl, rfl⟩
    · exact ⟨by simp [Session.spoil, ht], rfl⟩

theorem Session.Guarded.execute {s : Session} (h : s.Guarded) {α : Type} (f : Faults) (k : Kind)
    (effect : Tables → Except SqlState (α × Tables)) :
    (s.execute f k effect).2.Guarded ∧ (s.execute f k effect).2.tables = s.tables := by
  unfold Session.execute
  split
  · next connected =>
    have open_transaction := h connected
    split
    · exact ⟨fun up => absurd up Bool.false_ne_true, rfl⟩
    · exact ⟨fun _ => by simpa [Session.spoil, Session.receive] using open_transaction, rfl⟩
    · have applied := apply (s := s.receive k) open_transaction effect
      exact ⟨fun _ => applied.1, applied.2⟩
  · exact ⟨h, rfl⟩

/-- A statement of a unit of work sends one statement to the database, or none if it moves an amount
that cannot be stored. -/
theorem statement_sends (f : Faults) (q : Statement) (s : Session) :
    (∃ (α : Type) (k : Kind) (effect : Tables → Except SqlState (α × Tables)),
      (statement f q s).2 = (s.execute f k effect).2) ∨ (statement f q s).2 = s := by
  cases q with
  | lockBalance u => exact .inl ⟨_, _, _, rfl⟩
  | lockBalances us => exact .inl ⟨_, _, _, rfl⟩
  | insertPurchase p => exact .inl ⟨_, _, _, rfl⟩
  | decrement u amount =>
    simp only [statement]
    cases store amount with
    | ok n => exact .inl ⟨_, _, _, rfl⟩
    | error e => exact .inr rfl
  | increment u amount =>
    simp only [statement]
    cases store amount with
    | ok n => exact .inl ⟨_, _, _, rfl⟩
    | error e => exact .inr rfl
  | insertTransfer t =>
    simp only [statement]
    cases store t.amount with
    | ok n => exact .inl ⟨_, _, _, rfl⟩
    | error e => exact .inr rfl

theorem Session.Guarded.statement {s : Session} (h : s.Guarded) (f : Faults) (q : Statement) :
    (statement f q s).2.Guarded ∧ (statement f q s).2.tables = s.tables := by
  rcases statement_sends f q s with ⟨α, k, effect, sent⟩ | nothing
  · rw [sent]
    exact h.execute f k effect
  · rw [nothing]
    exact ⟨h, rfl⟩

/-- Whatever a unit of work does, it is done to the tables of its transaction. -/
theorem Session.Guarded.runOn {ε α : Type} {s : Session} (h : s.Guarded) (f : Faults)
    (w : Work ε α) :
    (w.runOn (Database.statement f) s).2.tables = s.tables := by
  induction w generalizing s with
  | done r => rfl
  | ask q next ih =>
    obtain ⟨guarded, kept⟩ := h.statement f q
    exact (ih _ guarded).trans kept

theorem Session.begin_tables (s : Session) (f : Faults) : (s.begin f).2.tables = s.tables := by
  unfold Session.begin
  split
  · split <;> rfl
  · rfl

theorem Session.begin_guarded {s s' : Session} {f : Faults} (h : s.begin f = (.ok (), s')) :
    s'.Guarded := by
  unfold Session.begin at h
  split at h
  · split at h <;> cases h
    exact fun _ => rfl
  · cases h

/-- A rollback leaves the committed tables alone, also if it fails. -/
theorem Session.rollback_tables (s : Session) (f : Faults) :
    (s.rollback f).2.tables = s.tables := by
  unfold Session.rollback
  split
  · split <;> rfl
  · rfl

/-- A commit that fails leaves the committed tables alone. -/
theorem Session.commit_tables {s s' : Session} {f : Faults} {e : Failure}
    (h : s.commit f = (.error e, s')) : s'.tables = s.tables := by
  unfold Session.commit at h
  split at h
  · split at h <;> cases h <;> rfl
  · cases h
    rfl

/-- A unit of work that is not committed leaves the tables as they were. -/
theorem coordinate_tables {ε α : Type} (checkout : Except PoolFailure Unit) (f : Faults)
    (reports : Failure → Report) (undone : Failure → RollbackFailure) (w : Work ε α) (s : Session) :
    let run := coordinate (driver checkout f reports undone) (w.runOn (statement f)) s
    (∃ a, run.1 = .committed a) ∨ run.2.tables = s.tables := by
  unfold coordinate driver
  rcases checkout with e | ⟨⟩
  · exact .inr rfl
  · have kept := s.reconnect.begin_tables f
    dsimp only
    rcases opened : s.reconnect.begin f with ⟨e | ⟨⟩, s₁⟩ <;> rw [opened] at kept
    · exact .inr kept
    · have worked := (Session.begin_guarded opened).runOn f w
      dsimp only [mapError_ok]
      rcases ran : w.runOn (statement f) s₁ with ⟨e | a, s₂⟩ <;> rw [ran] at worked
      · exact .inr ((s₂.rollback_tables f).trans (worked.trans kept))
      · dsimp only
        rcases closed : s₂.commit f with ⟨e | ⟨⟩, s₃⟩
        · exact .inr ((Session.commit_tables closed).trans (worked.trans kept))
        · exact .inl ⟨a, rfl⟩

theorem conclude_tables {ε α : Type} (p : Pool) (f : Faults) (w : Work ε α) (s : Session) :
    (∃ a, (conclude p f w s).1 = .committed a) ∨ (conclude p f w s).2.tables = s.tables := by
  rw [conclude_eq_coordinate p f (toStorage_report "") (fun _ => .notOpen)]
  exact coordinate_tables p.checkout f (Failure.report "") _ w s

/-- **A unit of work on the database** is concluded in good order, whatever the work is, whatever
fails on the way and however that is reported: the pool, the opening of the transaction, any of the
statements, the commit, the rollback.  If it gives no result the tables are as they were. -/
theorem conclude_orderly {ε α : Type} (convert : StorageFailure → ε)
    (checkout : Except PoolFailure Unit) (f : Faults) (reports : Failure → Report)
    (undone : Failure → RollbackFailure) (w : Work ε α) (s : Session) :
    let run := coordinate ((driver checkout f reports undone).recorded ε α)
      (recording .work (w.runOn (statement f))) (s, [])
    let outcome := run.1.outcomeIn convert
    Orderly convert run.2.2 outcome ∧
    ((∀ a, outcome ≠ .ok a) → run.2.1.tables = s.tables) ∧
    ∀ p : Pool, p.checkout = checkout → (∀ e, (reports e).toStorage = e.toStorage) →
      conclude p f w s = (run.1, run.2.1) := by
  obtain ⟨record, course, recorded⟩ := coordinate_recorded (driver checkout f reports undone)
    (w.runOn (statement f)) s []
  have tables := coordinate_tables checkout f reports undone w s
  dsimp only at tables ⊢
  rw [recorded]
  refine ⟨course.orderly convert, fun none => ?_, fun p taken worded => ?_⟩
  · rcases tables with ⟨a, committed⟩ | kept
    · exact absurd (congrArg (Ending.outcomeIn convert) committed) (none a)
    · exact kept
  · rw [conclude_eq_coordinate p f worded undone, taken]

end Database

end CoinLedger
