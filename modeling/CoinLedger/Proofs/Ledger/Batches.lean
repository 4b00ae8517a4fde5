import CoinLedger.Proofs.Ledger.Circulation

/-!
# Sequences of guarded operations

A unit of work may make any operations one after the other, ignore some failures and stop at
others.  An operation that fails leaves the store as it is, and one that succeeds moves one row or
appends one record.  So what a unit has done at any point is said by the successes up to there:
how much they took from each user and gave to each, and what they recorded
(`Store.Effected`).  This is also what the next operation finds, which makes its answer.

A unit that comes to its end leaves what its successes have done; a unit that is stopped leaves
nothing.

## Main definitions

* `Operation.outcome` — what an operation gives back on a store.
* `Store.Effected` — one store is another one after some successful operations.
* `Batch.Answered`, `Batch.Completed`, `Batch.Stopped` — how a unit comes out.

## Main results

* `Operation.work_runOn` — one operation as a step of the store.
* `Batch.commitIfOk_work` — every sequence of operations.
-/

namespace CoinLedger

namespace Operation

/-- What an operation gives back on a store, or how it fails. -/
def outcome (s : Store) : Operation → Outcome
  | lock u =>
    match s.balance? u with
    | some balance => .ok (.balance balance)
    | none => .error (.balanceNotFound u)
  | lockPair u v =>
    match s.balance? u, s.balance? v with
    | some first, some second => .ok (.balances first second)
    | none, _ => .error (.balanceNotFound u)
    | some _, none => .error (.balanceNotFound v)
  | debit u amount =>
    if ∃ balance ∈ s.balance? u, amount.toNat ≤ balance.toNat then .ok .nothing
    else .error (.insufficientBalance u)
  | credit u amount =>
    match s.balance? u with
    | none => .error (.balanceNotFound u)
    | some balance =>
      if balance.toNat + amount.toNat < Coins.size then .ok .nothing
      else .error (.internal (.statement (.query "balance overflow")))
  | recordPurchase _ => .ok .nothing
  | recordTransfer _ => .ok .nothing
  | fail err => .error err

/-- What an operation takes from a user. -/
def takenFrom (w : UserId) : Operation → Nat
  | debit u amount => if u = w then amount.toNat else 0
  | _ => 0

/-- What an operation gives to a user. -/
def givenTo (w : UserId) : Operation → Nat
  | credit u amount => if u = w then amount.toNat else 0
  | _ => 0

/-- What an operation takes out of circulation. -/
def debited : Operation → Nat
  | debit _ amount => amount.toNat
  | _ => 0

/-- What an operation puts into circulation. -/
def credited : Operation → Nat
  | credit _ amount => amount.toNat
  | _ => 0

/-- The receipt that an operation writes. -/
def receipt? : Operation → Option Purchase
  | recordPurchase p => some p
  | _ => none

/-- The transfer that an operation writes. -/
def transfer? : Operation → Option Transfer
  | recordTransfer t => some t
  | _ => none

end Operation

/-! ## What successful operations leave -/

namespace Store

open Operation

/-- One store is another one after some successful operations, in their order: no row has come or
gone, each balance has moved by what was given and taken, and the records are appended. -/
structure Effected (done : List Operation) (s s' : Store) : Prop where
  rows : ∀ w, (s'.balance? w).isSome = (s.balance? w).isSome
  balances : ∀ w before after, s.balance? w = some before → s'.balance? w = some after →
    after.toNat + totalOf (takenFrom w) done = before.toNat + totalOf (givenTo w) done
  total : s'.total + totalOf debited done = s.total + totalOf credited done
  goods : s'.goods = s.goods
  purchases : s'.purchases = s.purchases ++ done.filterMap receipt?
  transfers : s'.transfers = s.transfers ++ done.filterMap transfer?

variable {done more : List Operation} {s s' s₁ s₂ : Store} {op : Operation}

theorem Effected.refl (s : Store) : s.Effected [] s := by
  refine ⟨fun w => rfl, fun w before after hb ha => ?_, rfl, rfl, by simp, by simp⟩
  cases hb.symm.trans ha
  rfl

theorem Effected.absent (h : s.Effected done s') {w : UserId} (none_before : s.balance? w = none) :
    s'.balance? w = none := by
  have rows := h.rows w
  rw [none_before] at rows
  exact Option.isNone_iff_eq_none.1 (Option.isSome_eq_false_iff.1 rows)

theorem Effected.present (h : s.Effected done s') {w : UserId} {before : Coins}
    (row : s.balance? w = some before) :
    ∃ after, s'.balance? w = some after ∧
      after.toNat + totalOf (takenFrom w) done = before.toNat + totalOf (givenTo w) done := by
  have rows := h.rows w
  rw [row] at rows
  obtain ⟨after, there⟩ := Option.isSome_iff_exists.1 rows
  exact ⟨after, there, h.balances w before after row there⟩

theorem Effected.trans (first : s.Effected done s₁) (second : s₁.Effected more s₂) :
    s.Effected (done ++ more) s₂ := by
  constructor
  case rows => exact fun w => (second.rows w).trans (first.rows w)
  case balances =>
    intro w before after hb ha
    obtain ⟨between, hbetween, moved⟩ := first.present hb
    have moved' := second.balances w between after hbetween ha
    simp only [totalOf_append]
    omega
  case total =>
    have moved := first.total
    have moved' := second.total
    simp only [totalOf_append]
    omega
  case goods => rw [second.goods, first.goods]
  case purchases =>
    rw [second.purchases, first.purchases, List.filterMap_append, List.append_assoc]
  case transfers =>
    rw [second.transfers, first.transfers, List.filterMap_append, List.append_assoc]

/-- What some operations leave is determined by them. -/
theorem Effected.unique (h₁ : s.Effected done s₁) (h₂ : s.Effected done s₂) : s₁ = s₂ := by
  refine ext_parts (fun w => ?_) (h₁.goods.trans h₂.goods.symm)
    (h₁.purchases.trans h₂.purchases.symm) (h₁.transfers.trans h₂.transfers.symm)
  cases row : s.balance? w with
  | none => rw [h₁.absent row, h₂.absent row]
  | some before =>
    obtain ⟨after₁, there₁, moved₁⟩ := h₁.present row
    obtain ⟨after₂, there₂, moved₂⟩ := h₂.present row
    have same : after₁ = after₂ := Coins.toNat_inj.1 (by omega)
    rw [there₁, there₂, same]

/-- An operation that writes no row. -/
theorem Effected.of_same_rows (idle : ∀ w, op.takenFrom w = op.givenTo w)
    (even : op.debited = op.credited) (rows : s'.balances = s.balances) (goods : s'.goods = s.goods)
    (purchases : s'.purchases = s.purchases ++ [op].filterMap receipt?)
    (transfers : s'.transfers = s.transfers ++ [op].filterMap transfer?) : s.Effected [op] s' := by
  have same : ∀ w, s'.balance? w = s.balance? w := fun w => by rw [balance?, rows, balance?]
  refine ⟨fun w => by rw [same], fun w before after hb ha => ?_, ?_, goods, purchases, transfers⟩
  · rw [same, hb] at ha
    cases ha
    simp only [totalOf_cons, totalOf_nil, idle]
  · simp only [Store.total, rows, totalOf_cons, totalOf_nil, even]

/-- An operation that writes one row, which is there. -/
theorem Effected.of_row {u : UserId} {amount old new : Coins} (row : s.balance? u = some old)
    (written : op = .debit u amount ∧ new.toNat + amount.toNat = old.toNat ∨
      op = .credit u amount ∧ new.toNat = old.toNat + amount.toNat) :
    s.Effected [op] (s.setBalance u new) := by
  have moved := total_setBalance row new
  constructor
  case rows =>
    intro w
    rw [balance?_setBalance]
    by_cases hw : u = w
    · rw [if_pos hw, ← hw, row]
      rfl
    · rw [if_neg hw]
  case balances =>
    intro w before after hb ha
    rw [balance?_setBalance] at ha
    by_cases hw : u = w
    · subst hw
      rw [if_pos rfl] at ha
      cases ha
      cases row.symm.trans hb
      rcases written with ⟨rfl, lowered⟩ | ⟨rfl, raised⟩
      · simpa [takenFrom, givenTo] using lowered
      · simpa [takenFrom, givenTo] using raised
    · rw [if_neg hw] at ha
      cases hb.symm.trans ha
      rcases written with ⟨rfl, -⟩ | ⟨rfl, -⟩ <;> simp [takenFrom, givenTo, hw]
  case total =>
    rcases written with ⟨rfl, lowered⟩ | ⟨rfl, raised⟩ <;>
      simp only [debited, credited, totalOf_cons, totalOf_nil] <;> omega
  case goods => rfl
  case purchases => rcases written with ⟨rfl, -⟩ | ⟨rfl, -⟩ <;> simp [receipt?]
  case transfers => rcases written with ⟨rfl, -⟩ | ⟨rfl, -⟩ <;> simp [transfer?]

end Store

/-! ## One operation -/

/-- **One operation** gives back what it does on the store; it has its effect if it succeeds, and
none if it fails. -/
theorem Operation.work_runOn (op : Operation) (s : Store) :
    ∃ s', op.work.runOn Store.statement s = (op.outcome s, s') ∧
      match op.outcome s with
      | .ok _ => s.Effected [op] s'
      | .error _ => s' = s := by
  cases op with
  | lock u =>
    simp only [work, outcome, Work.runOn_bind, Work.lock_runOn]
    cases s.balance? u with
    | none => exact ⟨s, rfl, rfl⟩
    | some balance =>
      exact ⟨s, rfl, .of_same_rows (fun _ => rfl) rfl rfl rfl (by simp [receipt?])
        (by simp [transfer?])⟩
  | lockPair u v =>
    simp only [work, outcome, Work.runOn_bind, Work.lockPair_runOn]
    cases s.balance? u with
    | none => exact ⟨s, rfl, rfl⟩
    | some first =>
      cases s.balance? v with
      | none => exact ⟨s, rfl, rfl⟩
      | some second =>
        exact ⟨s, rfl, .of_same_rows (fun _ => rfl) rfl rfl rfl (by simp [receipt?])
          (by simp [transfer?])⟩
  | debit u amount =>
    simp only [work, outcome, Work.runOn_bind, Work.debit_runOn]
    cases row : s.balance? u with
    | none => exact ⟨s, by simp, by simp⟩
    | some balance =>
      rcases Nat.lt_or_ge balance.toNat amount.toNat with poor | covered
      · have refused := Coins.sub?_eq_none_iff.2 poor
        exact ⟨s, by simp [refused, poor], by simp [Nat.not_le.2 poor]⟩
      · obtain ⟨rest, taken⟩ := Coins.exists_sub? covered
        refine ⟨s.setBalance u rest, by simp [taken, covered], ?_⟩
        have lowered := Coins.sub?_eq_some_iff.1 taken
        simpa [covered] using Store.Effected.of_row row (.inl ⟨rfl, lowered⟩)
  | credit u amount =>
    simp only [work, outcome, Work.runOn_bind, Work.credit_runOn]
    cases row : s.balance? u with
    | none => exact ⟨s, rfl, rfl⟩
    | some balance =>
      rcases Nat.lt_or_ge (balance.toNat + amount.toNat) Coins.size with fits | exceeds
      · obtain ⟨sum, added⟩ := Coins.exists_add? fits
        refine ⟨s.setBalance u sum, by simp [added, fits], ?_⟩
        have raised := Coins.add?_eq_some_iff.1 added
        simpa [fits] using Store.Effected.of_row row (.inr ⟨rfl, raised⟩)
      · have refused := Coins.add?_eq_none_iff.2 exceeds
        exact ⟨s, by simp [refused, Nat.not_lt.2 exceeds], by simp [Nat.not_lt.2 exceeds]⟩
  | recordPurchase p =>
    simp only [work, outcome, Work.runOn_bind, Work.recordPurchase_runOn]
    exact ⟨s.addPurchase p, rfl,
      .of_same_rows (fun _ => rfl) rfl rfl rfl rfl (by simp [transfer?, Store.addPurchase])⟩
  | recordTransfer t =>
    simp only [work, outcome, Work.runOn_bind, Work.recordTransfer_runOn]
    exact ⟨s.addTransfer t, rfl,
      .of_same_rows (fun _ => rfl) rfl rfl rfl (by simp [receipt?, Store.addTransfer]) rfl⟩
  | fail err => exact ⟨s, rfl, rfl⟩

/-! ## Sequences -/

namespace Work

variable {σ ε ε' α β : Type}

theorem runOn_mapResult (statement : (q : Statement) → σ → Except StorageFailure q.Answer × σ)
    (f : Except ε α → Except ε' β) (w : Work ε α) (s : σ) :
    (w.mapResult f).runOn statement s = (f (w.runOn statement s).1, (w.runOn statement s).2) := by
  induction w generalizing s with
  | done r => rfl
  | ask q next ih => exact ih _ _

end Work

namespace Batch

/-- The batch of some operations, none of which may fail. -/
def ofOperations (ops : List Operation) : Batch := ops.map fun op => ⟨op, false⟩

/-- Those operations of a batch that succeeded. -/
def succeeded : Batch → List Operation.Outcome → List Operation
  | i :: rest, .ok _ :: outcomes => i.operation :: succeeded rest outcomes
  | _ :: rest, .error _ :: outcomes => succeeded rest outcomes
  | _, _ => []

/-- Each outcome is what its operation gives back on the store that the successes before it have
left. -/
def Answered (b : Batch) (s : Store) (outcomes : List Operation.Outcome) : Prop :=
  ∀ (n : Nat) (i : Instruction) r, b[n]? = some i → outcomes[n]? = some r →
    ∃ found, s.Effected (succeeded (b.take n) outcomes) found ∧ r = i.operation.outcome found

/-- A unit that comes to its end: all its operations are made, those that fail are ignored, and
what is left is what the others have done, as if they had been alone. -/
structure Completed (b : Batch) (s : Store) (outcomes : List Operation.Outcome) (s' : Store) :
    Prop where
  length : outcomes.length = b.length
  ignored : ∀ (n : Nat) (i : Instruction) err, b[n]? = some i →
    outcomes[n]? = some (.error err) → i.ignoresFailure = true
  answered : b.Answered s outcomes
  effected : s.Effected (b.succeeded outcomes) s'
  alone : ∃ came, (ofOperations (b.succeeded outcomes)).work.commitIfOk s = (.ok came, s')
  inRange : ∀ w balance, s'.balance? w = some balance → balance.toNat < Coins.size

/-- A unit that is stopped: its last operation fails and is not to be ignored, and all the failures
before it are. -/
structure Stopped (b : Batch) (s : Store) (f : BatchFailure) : Prop where
  last : ∃ (n : Nat) (i : Instruction), b[n]? = some i ∧ i.ignoresFailure = false ∧
    f.outcomes.length = n + 1 ∧ f.outcomes[n]? = some (.error f.error)
  ignored : ∀ (n : Nat) (i : Instruction) err, n + 1 < f.outcomes.length → b[n]? = some i →
    f.outcomes[n]? = some (.error err) → i.ignoresFailure = true
  answered : b.Answered s f.outcomes

variable {i : Instruction} {rest : Batch} {r : Operation.Outcome} {err : LedgerError}
  {outcomes : List Operation.Outcome} {s s₁ s' : Store}

theorem succeeded_cons :
    succeeded (i :: rest) (r :: outcomes) = succeeded [i] [r] ++ succeeded rest outcomes := by
  cases r <;> rfl

theorem Answered.cons (first : r = i.operation.outcome s)
    (moved : s.Effected (succeeded [i] [r]) s₁) (others : rest.Answered s₁ outcomes) :
    Answered (i :: rest) s (r :: outcomes) := by
  intro n i' r' there came
  cases n with
  | zero =>
    cases there
    cases came
    exact ⟨s, .refl s, first⟩
  | succ n =>
    obtain ⟨found, effected, given⟩ := others n i' r' there came
    refine ⟨found, ?_, given⟩
    rw [List.take_succ_cons, succeeded_cons]
    exact moved.trans effected

/-! ### Steps of a unit -/

/-- An instruction has the outcome of its operation, and leaves what a success leaves. -/
theorem runOn_instruction (i : Instruction) (s : Store) :
    ∃ s₁, i.operation.work.runOn Store.statement s = (i.operation.outcome s, s₁) ∧
      s.Effected (succeeded [i] [i.operation.outcome s]) s₁ := by
  obtain ⟨s₁, made, left⟩ := i.operation.work_runOn s
  refine ⟨s₁, made, ?_⟩
  cases came : i.operation.outcome s with
  | ok v =>
    rw [came] at left
    exact left
  | error err =>
    rw [came] at left
    rw [left]
    exact .refl s

/-- A unit goes on after a success and after a failure that is ignored. -/
theorem runOn_work_cons (made : i.operation.work.runOn Store.statement s = (r, s₁))
    (goes : ∀ err, r = .error err → i.ignoresFailure = true) :
    (work (i :: rest)).runOn Store.statement s =
      (prepend r ((work rest).runOn Store.statement s₁).1,
        ((work rest).runOn Store.statement s₁).2) := by
  rw [work, Work.runOn_bind, Work.attempt, Work.runOn_mapResult, made]
  cases r with
  | ok v => exact Work.runOn_mapResult _ _ _ _
  | error err =>
    dsimp only
    rw [if_pos (goes err rfl), Work.runOn_mapResult]

/-- A unit is stopped by a failure that is not to be ignored. -/
theorem runOn_work_stopped (made : i.operation.work.runOn Store.statement s = (.error err, s₁))
    (counts : i.ignoresFailure = false) :
    (work (i :: rest)).runOn Store.statement s = (.error ⟨[.error err], err⟩, s₁) := by
  rw [work, Work.runOn_bind, Work.attempt, Work.runOn_mapResult, made]
  dsimp only
  rw [if_neg (by rw [counts]; exact Bool.false_ne_true)]
  rfl

/-- What is known of the first step of a unit that goes on: its outcome, and what it leaves. -/
structure GoesOn (i : Instruction) (s : Store) (r : Operation.Outcome) (s₁ : Store) : Prop where
  made : i.operation.work.runOn Store.statement s = (r, s₁)
  outcome : r = i.operation.outcome s
  moved : s.Effected (succeeded [i] [r]) s₁
  goes : ∀ err, r = .error err → i.ignoresFailure = true

/-- A unit goes on from its first step, or is stopped by it. -/
theorem goesOn_or_stopped (i : Instruction) (rest : Batch) (s : Store) :
    (∃ r s₁, GoesOn i s r s₁ ∧ (work (i :: rest)).runOn Store.statement s =
      (prepend r ((work rest).runOn Store.statement s₁).1,
        ((work rest).runOn Store.statement s₁).2)) ∨
    ∃ err s₁, i.operation.outcome s = .error err ∧ i.ignoresFailure = false ∧
      (work (i :: rest)).runOn Store.statement s = (.error ⟨[.error err], err⟩, s₁) := by
  obtain ⟨s₁, made, moved⟩ := runOn_instruction i s
  by_cases goes : ∀ err, i.operation.outcome s = .error err → i.ignoresFailure = true
  · exact .inl ⟨_, s₁, ⟨made, rfl, moved, goes⟩, runOn_work_cons made goes⟩
  · obtain ⟨err, failed, counts⟩ : ∃ err, i.operation.outcome s = .error err ∧
        i.ignoresFailure = false := by simpa using goes
    rw [failed] at made
    exact .inr ⟨err, s₁, failed, counts, runOn_work_stopped made counts⟩

/-- A unit that comes to its end goes on from its first step. -/
theorem goesOn_of_ok (ran : (work (i :: rest)).runOn Store.statement s = (.ok outcomes, s')) :
    ∃ r s₁ others, outcomes = r :: others ∧ GoesOn i s r s₁ ∧
      (work rest).runOn Store.statement s₁ = (.ok others, s') := by
  rcases goesOn_or_stopped i rest s with ⟨r, s₁, first, steps⟩ | ⟨err, s₁, -, -, stopped⟩
  · rw [steps] at ran
    rcases more : (work rest).runOn Store.statement s₁ with ⟨f | others, s₂⟩
    · rw [more] at ran
      cases ran
    · rw [more] at ran
      cases ran
      exact ⟨r, s₁, others, rfl, first, more⟩
  · rw [stopped] at ran
    cases ran

/-- A unit that is stopped goes on from its first step, or is stopped there. -/
theorem goesOn_of_error {f : BatchFailure}
    (ran : (work (i :: rest)).runOn Store.statement s = (.error f, s')) :
    (∃ r s₁ f', f = ⟨r :: f'.outcomes, f'.error⟩ ∧ GoesOn i s r s₁ ∧
      (work rest).runOn Store.statement s₁ = (.error f', s')) ∨
    ∃ err, f = ⟨[.error err], err⟩ ∧ i.operation.outcome s = .error err ∧
      i.ignoresFailure = false := by
  rcases goesOn_or_stopped i rest s with ⟨r, s₁, first, steps⟩ | ⟨err, s₁, failed, counts, stopped⟩
  · rw [steps] at ran
    rcases more : (work rest).runOn Store.statement s₁ with ⟨f' | others, s₂⟩
    · rw [more] at ran
      cases ran
      exact .inl ⟨r, s₁, f', rfl, first, more⟩
    · rw [more] at ran
      cases ran
  · rw [stopped] at ran
    cases ran
    exact .inr ⟨err, rfl, failed, counts⟩

/-! ### Whole units -/

/-- The successes of a unit do alone what the unit does: a failure is left out, and a success comes
first. -/
theorem alone_cons (first : GoesOn i s r s₁)
    (alone : ∃ came, (ofOperations (succeeded rest outcomes)).work.commitIfOk s₁ =
      (.ok came, s')) :
    ∃ came, (ofOperations (succeeded (i :: rest) (r :: outcomes))).work.commitIfOk s =
      (.ok came, s') := by
  cases r with
  | error err =>
    rw [first.moved.unique (.refl s)] at alone
    exact alone
  | ok v =>
    obtain ⟨came, alone⟩ := alone
    have goes : ∀ err, (.ok v : Operation.Outcome) = .error err → false = true :=
      fun err failed => by cases failed
    refine ⟨.ok v :: came, ?_⟩
    rw [Work.commitIfOk_eq_ok_iff] at alone ⊢
    show (work (⟨i.operation, false⟩ :: ofOperations _)).runOn Store.statement s = _
    rw [runOn_work_cons (i := ⟨i.operation, false⟩) first.made goes, alone]
    rfl

theorem completed_of_runOn {b : Batch} (ran : b.work.runOn Store.statement s = (.ok outcomes, s')) :
    b.Completed s outcomes s' := by
  induction b generalizing s outcomes with
  | nil =>
    cases ran
    exact {
      length := rfl
      ignored := fun n i err there => by simp at there
      answered := fun n i r there => by simp at there
      effected := .refl _
      alone := ⟨[], rfl⟩
      inRange := fun w balance _ => balance.toNat_lt }
  | cons i rest ih =>
    obtain ⟨r, s₁, others, rfl, first, more⟩ := goesOn_of_ok ran
    have completed := ih more
    constructor
    case length => exact congrArg (· + 1) completed.length
    case ignored =>
      intro n i' err there came
      cases n with
      | zero =>
        cases there
        exact first.goes err (Option.some.inj came)
      | succ n => exact completed.ignored n i' err there came
    case answered => exact completed.answered.cons first.outcome first.moved
    case effected =>
      rw [succeeded_cons]
      exact first.moved.trans completed.effected
    case alone => exact alone_cons first completed.alone
    case inRange => exact completed.inRange

theorem stopped_of_runOn {b : Batch} {f : BatchFailure}
    (ran : b.work.runOn Store.statement s = (.error f, s')) : b.Stopped s f := by
  induction b generalizing s f with
  | nil => cases ran
  | cons i rest ih =>
    rcases goesOn_of_error ran with ⟨r, s₁, f', rfl, first, more⟩ | ⟨err, rfl, failed, counts⟩
    · -- The unit is stopped further on, so everything moves by one place.
      obtain ⟨⟨n, last, there, counts, length, came⟩, ignored, answered⟩ := ih more
      refine ⟨⟨n + 1, last, there, counts, congrArg (· + 1) length, came⟩,
        fun m i' err early there came => ?_, answered.cons first.outcome first.moved⟩
      cases m with
      | zero =>
        cases there
        exact first.goes err (Option.some.inj came)
      | succ m => exact ignored m i' err (Nat.lt_of_succ_lt_succ early) there came
    · refine ⟨⟨0, i, rfl, counts, rfl, rfl⟩, fun m i' err early => ?_, fun n i' r there came => ?_⟩
      · exact absurd early (by simp)
      · cases n with
        | zero =>
          cases there
          cases came
          exact ⟨s, .refl s, failed.symm⟩
        | succ n => simp at came

/-- **A unit of work over any sequence of guarded operations** either comes to its end and leaves
exactly what its successes have done, or is stopped and leaves the store as it was. -/
theorem commitIfOk_work (b : Batch) (s : Store) :
    match b.work.commitIfOk s with
    | (.ok outcomes, s') => b.Completed s outcomes s'
    | (.error f, s') => s' = s ∧ b.Stopped s f := by
  unfold Work.commitIfOk
  rcases ran : b.work.runOn Store.statement s with ⟨f | outcomes, s'⟩
  · exact ⟨rfl, stopped_of_runOn ran⟩
  · exact completed_of_runOn ran

/-- Five operations that succeed after two that fail: the account of the first user does not cover
six coins, and that of the second has no room for them. -/
def errands : Batch :=
  [⟨.debit ⟨1⟩ ⟨6⟩, true⟩, ⟨.credit ⟨2⟩ ⟨6⟩, true⟩, ⟨.debit ⟨1⟩ ⟨2⟩, false⟩, ⟨.lock ⟨1⟩, false⟩,
    ⟨.lockPair ⟨2⟩ ⟨2⟩, false⟩, ⟨.credit ⟨2⟩ ⟨5⟩, false⟩, ⟨.recordTransfer ⟨⟨1⟩, ⟨2⟩, ⟨2⟩⟩, false⟩]

/-- The errands with one coin more at the end, which is one too many. -/
def overrun : Batch := errands ++ [⟨.credit ⟨2⟩ ⟨1⟩, false⟩]

/-- The errands come to their end, and the lock among them finds what the debit has left.  The
overrun is stopped by its last operation, and nothing has happened. -/
theorem commitIfOk_work_errands :
    (∃ outcomes s', errands.work.commitIfOk UseCase.nearlyFull = (.ok outcomes, s') ∧
      outcomes[3]? = some (.ok (.balance ⟨3⟩)) ∧
      s'.balance? ⟨2⟩ = some ⟨18446744073709551615⟩ ∧
      errands.Completed UseCase.nearlyFull outcomes s') ∧
    ∃ f, overrun.work.commitIfOk UseCase.nearlyFull = (.error f, UseCase.nearlyFull) ∧
      f.outcomes.length = 8 ∧ overrun.Stopped UseCase.nearlyFull f := by
  have completed := commitIfOk_work errands UseCase.nearlyFull
  have stopped := commitIfOk_work overrun UseCase.nearlyFull
  exact ⟨⟨_, _, rfl, by decide, by decide, completed⟩, ⟨_, rfl, rfl, stopped.2⟩⟩

end Batch

end CoinLedger
