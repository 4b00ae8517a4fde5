import CoinLedger.Backing
import CoinLedger.Script

/-!
# The guarded operations over the store

Each guarded operation is a statement or two behind checks.  Over the store in memory it is one
step: it answers, and leaves the store with at most one row or one record changed.  Whole units are
put together from these steps by `Work.runOn_bind`, and use cases from their calls by
`UseCase.runOn_ask_bind`.

## Main results

* `Work.lock_runOn`, `Work.lockPair_runOn`, `Work.debit_runOn`, `Work.credit_runOn`,
  `Work.recordPurchase_runOn`, `Work.recordTransfer_runOn` — one equation for each operation.
-/

namespace CoinLedger

/-! ## Rows that were locked together -/

/-- Among rows that were read together, a user's row is there exactly if it was asked for and
exists. -/
theorem Store.find?_rows (s : Store) (users : List UserId) (u : UserId) :
    (s.rows users).find? (fun row => row.1 = u) =
      if u ∈ users then (s.balance? u).map fun amount => (u, amount) else none := by
  have h : ∀ ids : List UserId,
      (ids.filterMap fun v => (s.balance? v).map fun amount => (v, amount)).find?
          (fun row => row.1 = u) =
        if u ∈ ids then (s.balance? u).map fun amount => (u, amount) else none := by
    intro ids
    induction ids with
    | nil => rfl
    | cons v rest ih =>
      by_cases hv : v = u
      · subst hv
        cases hb : s.balance? v <;> simp_all
      · have hne : u ≠ v := fun h => hv h.symm
        cases hb : s.balance? v <;> simp_all
  rw [rows, h]
  simp only [mem_ascending]

namespace Work

variable {σ ε α β : Type}

@[simp] theorem runOn_done (statement : (q : Statement) → σ → Except StorageFailure q.Answer × σ)
    (r : Except ε α) (s : σ) : (done r).runOn statement s = (r, s) := rfl

@[simp] theorem runOn_ask (statement : (q : Statement) → σ → Except StorageFailure q.Answer × σ)
    (q : Statement) (next : Except StorageFailure q.Answer → Work ε α) (s : σ) :
    (ask q next).runOn statement s =
      (next (statement q s).1).runOn statement (statement q s).2 := rfl

/-- A unit goes on from the success of its first part, and ends with the failure of it. -/
theorem runOn_bind (statement : (q : Statement) → σ → Except StorageFailure q.Answer × σ)
    (w : Work ε α) (f : α → Work ε β) (s : σ) :
    (w >>= f).runOn statement s =
      match w.runOn statement s with
      | (.ok a, s') => (f a).runOn statement s'
      | (.error e, s') => (.error e, s') := by
  induction w generalizing s with
  | done r => cases r <;> rfl
  | ask q next ih => exact ih _ _

/-- A unit comes out of its transaction with its own result. -/
theorem commitIfOk_fst (w : Work ε α) (s : Store) :
    (w.commitIfOk s).1 = (w.runOn Store.statement s).1 := by
  unfold commitIfOk
  rcases w.runOn Store.statement s with ⟨e | a, s'⟩ <;> rfl

variable (s : Store) (u v : UserId) (amount : Coins)

theorem lock_runOn :
    (lock u).runOn Store.statement s =
      match s.balance? u with
      | some balance => (.ok balance, s)
      | none => (.error (.balanceNotFound u), s) := by
  cases hb : s.balance? u <;> simp [lock, run, Store.statement, hb]

theorem lockPair_runOn :
    (lockPair u v).runOn Store.statement s =
      match s.balance? u, s.balance? v with
      | some source, some target => (.ok (source, target), s)
      | none, _ => (.error (.balanceNotFound u), s)
      | some _, none => (.error (.balanceNotFound v), s) := by
  have found : ∀ x ∈ [u, v], (s.rows [u, v]).find? (fun row => row.1 = x) =
      (s.balance? x).map fun balance => (x, balance) := by
    intro x hx
    rw [Store.find?_rows, if_pos hx]
  cases hu : s.balance? u <;> cases hv : s.balance? v <;>
    simp [lockPair, findLocked, run, Store.statement, found, hu, hv]

theorem debit_runOn :
    (debit u amount).runOn Store.statement s =
      match (s.balance? u).bind (·.sub? amount) with
      | some rest => (.ok (), s.setBalance u rest)
      | none => (.error (.insufficientBalance u), s) := by
  cases hb : (s.balance? u).bind (·.sub? amount) <;>
    simp [debit, run, Store.statement, Store.decrement, hb]

theorem credit_runOn :
    (credit u amount).runOn Store.statement s =
      match s.balance? u with
      | none => (.error (.balanceNotFound u), s)
      | some balance =>
        match balance.add? amount with
        | some sum => (.ok (), s.setBalance u sum)
        | none => (.error (.internal (.statement (.query "balance overflow"))), s) := by
  cases hb : s.balance? u with
  | none => simp [credit, run, Store.statement, Store.increment, hb]
  | some balance =>
    cases hs : balance.add? amount <;>
      simp [credit, run, Store.statement, Store.increment, hb, hs]

theorem recordPurchase_runOn (p : Purchase) :
    (recordPurchase p).runOn Store.statement s = (.ok (), s.addPurchase p) := rfl

theorem recordTransfer_runOn (t : Transfer) :
    (recordTransfer t).runOn Store.statement s = (.ok (), s.addTransfer t) := rfl

end Work

namespace UseCase

variable {σ α β : Type} {b : Backing σ}

/-- A call that is answered is followed by what there is to do with the answer. -/
theorem runOn_ask_bind {c : Call} {a : c.Answer} {f : c.Answer → UseCase β} {w v : σ}
    (answered : b.call c w = (.ok a, v)) : (ask c >>= f).runOn b w = (f a).runOn b v := by
  rw [ask, call_bind, runOn, answered]
  rfl

/-- What is made of a result in the end changes nothing but the result. -/
theorem runOn_bind_pure (p : UseCase α) (f : α → β) (w : σ) :
    (p >>= fun a => pure (f a)).runOn b w = ((p.runOn b w).1.map f, (p.runOn b w).2) := by
  induction p generalizing w with
  | done r => cases r <;> rfl
  | call c next ih => exact ih _ _
  | transact u next ih => exact ih _ _
  | gather u next ih => exact ih _ _

/-- Sending a positive amount to somebody else is the unit of a movement behind the provisioning
of the recipient. -/
theorem sendCoins_runOn {d : Directory} {seed amount : Coins} {u v : UserId}
    {name : Username} (positive : amount.isZero = false) (resolved : d.idOf? name = some v)
    (hvu : v ≠ u) (s : Store) :
    (sendCoins seed u name amount).runOn (.memory d) s =
      (movement u v amount).commitIfOk (s.insertIfAbsent v seed) := by
  have zero : ¬amount.isZero = true := ne_true_of_eq_false positive
  unfold sendCoins
  rw [if_neg zero, runOn_ask_bind (a := some v) (v := s) (by rw [← resolved]; rfl)]
  dsimp only
  rw [if_neg hvu]
  rfl

end UseCase

end CoinLedger
