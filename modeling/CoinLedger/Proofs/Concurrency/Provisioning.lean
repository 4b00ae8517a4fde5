import CoinLedger.Backing
import Mathlib.Data.List.Basic

/-!
# Provisioning commutes

Creating rows that are missing is the one thing that callers do outside their units of work.  It
may happen at any moment, and it does not matter when: rows that are created early are not seen by
units that are about other rows, and a unit whose own rows are there does not notice whether
others have been added.  So a unit may be moved past the provisioning of any users
(`Work.Within.commitIfOk_provision`), with the same result and the same effect.

## Main definitions

* `Store.provision` — the store with a row for each of several users.
* `Store.HasRows` — each of several users has a row.
* `Work.Within` — a unit of work whose statements are about certain users only.
-/

namespace CoinLedger

namespace Store

/-- Stores are equal if they have the same rows, catalog and logs. -/
theorem ext_parts {s s' : Store} (rows : ∀ u, s.balance? u = s'.balance? u)
    (goods : s.goods = s'.goods) (purchases : s.purchases = s'.purchases)
    (transfers : s.transfers = s'.transfers) : s = s' := by
  have balances : s.balances = s'.balances := SortedMap.ext_get? rows
  cases s
  cases s'
  simp_all

/-! ## Rows for several users -/

/-- The store with a row for each of some users; new rows get the seed. -/
def provision (s : Store) (seed : Coins) (users : List UserId) : Store :=
  users.foldl (fun s u => s.insertIfAbsent u seed) s

variable {s : Store} {seed : Coins} {users others : List UserId} {u v : UserId}

@[simp] theorem provision_nil : s.provision seed [] = s := rfl

theorem provision_cons :
    s.provision seed (u :: users) = (s.insertIfAbsent u seed).provision seed users := rfl

@[simp] theorem goods_provision : (s.provision seed users).goods = s.goods := by
  induction users generalizing s with
  | nil => rfl
  | cons u rest ih => exact ih

@[simp] theorem purchases_provision : (s.provision seed users).purchases = s.purchases := by
  induction users generalizing s with
  | nil => rfl
  | cons u rest ih => exact ih

@[simp] theorem transfers_provision : (s.provision seed users).transfers = s.transfers := by
  induction users generalizing s with
  | nil => rfl
  | cons u rest ih => exact ih

/-- What provisioning does to the rows: the users' own are there afterwards, all others are as
before. -/
theorem balance?_provision : (s.provision seed users).balance? v =
    if v ∈ users then some ((s.balance? v).getD seed) else s.balance? v := by
  induction users generalizing s with
  | nil => simp
  | cons u rest ih =>
    rw [provision_cons, ih, balance?_insertIfAbsent]
    by_cases huv : u = v
    · subst huv
      simp
    · have hvu : ¬v = u := fun h => huv h.symm
      simp [huv, hvu]

theorem provision_provision :
    (s.provision seed users).provision seed others = s.provision seed (users ++ others) :=
  (List.foldl_append).symm

/-- Only the users without a row matter, not their order and not how often they are named. -/
theorem provision_congr (h : ∀ u, s.balance? u = none → (u ∈ users ↔ u ∈ others)) :
    s.provision seed users = s.provision seed others := by
  refine ext_parts (fun v => ?_) (by simp) (by simp) (by simp)
  rw [balance?_provision, balance?_provision]
  cases hb : s.balance? v with
  | none => simp only [h v hb]
  | some balance => simp

theorem provision_comm : (s.provision seed users).provision seed others =
    (s.provision seed others).provision seed users := by
  rw [provision_provision, provision_provision]
  refine provision_congr fun v _ => ?_
  simp only [List.mem_append, or_comm]

/-- Rows that will be created anyway may be created before. -/
theorem provision_of_subset (h : users ⊆ others) :
    (s.provision seed users).provision seed others = s.provision seed others := by
  rw [provision_provision]
  refine provision_congr fun v _ => ?_
  rw [List.mem_append]
  exact ⟨fun hv => hv.elim (fun hu => h hu) id, .inr⟩

/-- Writing a row may change places with provisioning. -/
theorem provision_setBalance {amount : Coins} :
    (s.setBalance u amount).provision seed users =
      (s.provision seed users).setBalance u amount := by
  refine ext_parts (fun v => ?_) (by simp) (by simp) (by simp)
  rw [balance?_provision, balance?_setBalance, balance?_setBalance, balance?_provision]
  by_cases huv : u = v
  · subst huv
    simp
  · simp [huv]

theorem provision_addPurchase (p : Purchase) :
    (s.addPurchase p).provision seed users = (s.provision seed users).addPurchase p := by
  refine ext_parts (fun v => ?_) (by simp [addPurchase]) (by simp [addPurchase])
    (by simp [addPurchase])
  rw [balance?_provision, balance?_addPurchase, balance?_addPurchase, balance?_provision]

theorem provision_addTransfer (t : Transfer) :
    (s.addTransfer t).provision seed users = (s.provision seed users).addTransfer t := by
  refine ext_parts (fun v => ?_) (by simp [addTransfer]) (by simp [addTransfer])
    (by simp [addTransfer])
  rw [balance?_provision, balance?_addTransfer, balance?_addTransfer, balance?_provision]

/-! ## Rows that are there -/

/-- Whether each of some users has a row. -/
def HasRows (s : Store) (users : List UserId) : Prop := ∀ u ∈ users, (s.balance? u).isSome

theorem hasRows_provision_self : (s.provision seed users).HasRows users := by
  intro u hu
  rw [balance?_provision, if_pos hu]
  rfl

theorem HasRows.provision (h : s.HasRows users) : (s.provision seed others).HasRows users := by
  intro u hu
  rw [balance?_provision]
  split
  · rfl
  · exact h u hu

theorem HasRows.append (h : s.HasRows users) (h' : s.HasRows others) :
    s.HasRows (users ++ others) := by
  intro u hu
  rcases List.mem_append.1 hu with hu | hu
  · exact h u hu
  · exact h' u hu

theorem HasRows.setBalance (h : s.HasRows users) (v : UserId) (amount : Coins) :
    (s.setBalance v amount).HasRows users := by
  intro u hu
  rw [balance?_setBalance]
  split
  · rfl
  · exact h u hu

/-- No statement removes a row. -/
theorem HasRows.statement (h : s.HasRows users) (q : Statement) :
    (Store.statement q s).2.HasRows users := by
  cases q with
  | lockBalance u => exact h
  | lockBalances us => exact h
  | decrement u amount =>
    simp only [Store.statement, decrement]
    split
    · exact h.setBalance _ _
    · exact h
  | increment u amount =>
    simp only [Store.statement, increment]
    split
    · exact h
    · split
      · exact h.setBalance _ _
      · exact h
  | insertPurchase p => exact h
  | insertTransfer t => exact h

/-- No statement changes the catalog. -/
@[simp] theorem goods_statement (q : Statement) (s : Store) :
    (Store.statement q s).2.goods = s.goods := by
  cases q with
  | lockBalance u => rfl
  | lockBalances us => rfl
  | decrement u amount =>
    simp only [Store.statement, decrement]
    split <;> rfl
  | increment u amount =>
    simp only [Store.statement, increment]
    split
    · rfl
    · split <;> rfl
  | insertPurchase p => rfl
  | insertTransfer t => rfl

end Store

/-! ## Units of work -/

/-- The users whose rows a statement reads or changes. -/
def Statement.users : Statement → List UserId
  | .lockBalance u => [u]
  | .lockBalances us => us
  | .decrement u _ => [u]
  | .increment u _ => [u]
  | .insertPurchase _ => []
  | .insertTransfer _ => []

/-- A statement about rows that are there does not notice the provisioning of any users. -/
theorem Store.statement_provision {s : Store} {seed : Coins} {users : List UserId} (q : Statement)
    (h : s.HasRows q.users) :
    Store.statement q (s.provision seed users) =
      ((Store.statement q s).1, (Store.statement q s).2.provision seed users) := by
  have same : ∀ u ∈ q.users, (s.provision seed users).balance? u = s.balance? u := by
    intro u hu
    obtain ⟨balance, hb⟩ := Option.isSome_iff_exists.1 (h u hu)
    rw [balance?_provision, hb]
    simp
  cases q with
  | lockBalance u =>
    simp only [statement]
    rw [same u (List.mem_singleton.2 rfl)]
  | lockBalances us =>
    have rows : (s.provision seed users).rows us = s.rows us := by
      unfold Store.rows
      refine List.filterMap_congr fun u hu => ?_
      rw [same u (mem_ascending.1 hu)]
    simp only [statement]
    rw [rows]
  | decrement u amount =>
    have mine := same u (List.mem_singleton.2 rfl)
    simp only [statement, decrement]
    rw [mine]
    cases (s.balance? u).bind (·.sub? amount) with
    | none => rfl
    | some rest => exact congrArg (Prod.mk _) provision_setBalance.symm
  | increment u amount =>
    have mine := same u (List.mem_singleton.2 rfl)
    simp only [statement, increment]
    rw [mine]
    cases hb : s.balance? u with
    | none => rfl
    | some balance =>
      cases hsum : balance.add? amount with
      | none => simp [hsum]
      | some sum =>
        simp only [hsum]
        rw [provision_setBalance]
  | insertPurchase p => exact congrArg (Prod.mk _) (provision_addPurchase p).symm
  | insertTransfer t => exact congrArg (Prod.mk _) (provision_addTransfer t).symm

namespace Work

variable {ε α β : Type} {s : Store} {seed : Coins} {users others : List UserId}

/-- Whether all statements of a unit are about certain users. -/
def Within (users : List UserId) : Work ε α → Prop
  | done _ => True
  | ask q next => q.users ⊆ users ∧ ∀ r, (next r).Within users

theorem Within.bind {w : Work ε α} {f : α → Work ε β} (hw : w.Within users)
    (hf : ∀ a, (f a).Within users) : (w >>= f).Within users := by
  induction w with
  | done r =>
    cases r with
    | ok a => exact hf a
    | error e => trivial
  | ask q next ih => exact ⟨hw.1, fun r => ih r (hw.2 r)⟩

theorem within_run {q : Statement} (h : q.users ⊆ users) : (run q).Within users := by
  refine ⟨h, fun r => ?_⟩
  cases r <;> trivial

theorem within_findLocked (rows : List (UserId × Coins)) (u : UserId) :
    (findLocked rows u).Within users := by
  unfold findLocked
  split <;> trivial

theorem hasRows_runOn (w : Work ε α) (h : s.HasRows users) :
    (w.runOn Store.statement s).2.HasRows users := by
  induction w generalizing s with
  | done r => exact h
  | ask q next ih => exact ih _ (h.statement q)

theorem goods_runOn (w : Work ε α) (s : Store) :
    (w.runOn Store.statement s).2.goods = s.goods := by
  induction w generalizing s with
  | done r => rfl
  | ask q next ih => exact (ih _ _).trans (Store.goods_statement q s)

/-- A unit about rows that are there does not notice the provisioning of any users. -/
theorem Within.runOn_provision {w : Work ε α} (hw : w.Within others) (h : s.HasRows others) :
    w.runOn Store.statement (s.provision seed users) =
      ((w.runOn Store.statement s).1, (w.runOn Store.statement s).2.provision seed users) := by
  induction w generalizing s with
  | done r => rfl
  | ask q next ih =>
    have hq : s.HasRows q.users := fun u hu => h u (hw.1 hu)
    show (next _).runOn Store.statement _ = _
    rw [Store.statement_provision q hq]
    exact ih _ (hw.2 _) (h.statement q)

theorem hasRows_commitIfOk (w : Work ε α) (h : s.HasRows users) :
    (w.commitIfOk s).2.HasRows users := by
  have after := w.hasRows_runOn h
  unfold commitIfOk
  split
  · next hrun =>
    rw [hrun] at after
    exact after
  · exact h

theorem goods_commitIfOk (w : Work ε α) (s : Store) : (w.commitIfOk s).2.goods = s.goods := by
  have after := w.goods_runOn s
  unfold commitIfOk
  split
  · next hrun =>
    rw [hrun] at after
    exact after
  · rfl

/-- **A unit of work may be moved past provisioning**, if the rows it is about are there. -/
theorem Within.commitIfOk_provision {w : Work ε α} (hw : w.Within others) (h : s.HasRows others) :
    w.commitIfOk (s.provision seed users) =
      ((w.commitIfOk s).1, (w.commitIfOk s).2.provision seed users) := by
  unfold commitIfOk
  rw [hw.runOn_provision h]
  rcases w.runOn Store.statement s with ⟨result | result, s'⟩ <;> rfl

theorem within_lock {u : UserId} (hu : u ∈ users) : (lock u).Within users := by
  refine (within_run (List.cons_subset.2 ⟨hu, List.nil_subset _⟩)).bind fun found => ?_
  cases found <;> trivial

theorem within_lockPair {u v : UserId} (hu : u ∈ users) (hv : v ∈ users) :
    (lockPair u v).Within users := by
  have both : [u, v] ⊆ users := List.cons_subset.2 ⟨hu, List.cons_subset.2 ⟨hv, List.nil_subset _⟩⟩
  refine (within_run both).bind fun rows => ?_
  refine (within_findLocked rows u).bind fun _ => ?_
  exact (within_findLocked rows v).bind fun _ => trivial

theorem within_debit {u : UserId} (hu : u ∈ users) (amount : Coins) :
    (debit u amount).Within users := by
  refine (within_run (List.cons_subset.2 ⟨hu, List.nil_subset _⟩)).bind fun affected => ?_
  split <;> trivial

theorem within_credit {u : UserId} (hu : u ∈ users) (amount : Coins) :
    (credit u amount).Within users := by
  refine (within_run (List.cons_subset.2 ⟨hu, List.nil_subset _⟩)).bind fun affected => ?_
  split <;> trivial

end Work

/-- A purchase is about its buyer only. -/
theorem UseCase.within_purchase {users : List UserId} {u : UserId} (hu : u ∈ users) (g : Good) :
    (purchase u g).Within users := by
  refine (Work.within_lock hu).bind fun balance => ?_
  split
  · trivial
  · refine (Work.within_debit hu _).bind fun _ => ?_
    exact Work.within_run (List.nil_subset _)

/-- A movement is about its two users only. -/
theorem UseCase.within_movement {users : List UserId} {u v : UserId} (hu : u ∈ users)
    (hv : v ∈ users) (amount : Coins) : (movement u v amount).Within users := by
  refine (Work.within_lockPair hu hv).bind fun balances => ?_
  dsimp only
  split
  · trivial
  · split
    · trivial
    · refine (Work.within_debit hu _).bind fun _ => ?_
      refine (Work.within_credit hv _).bind fun _ => ?_
      exact Work.within_run (List.nil_subset _)

end CoinLedger
