import CoinLedger.Command
import CoinLedger.Proofs.Ledger.Accounts
import CoinLedger.Proofs.Ledger.Units

/-!
# Refusals

An error of a use case is a refusal if it is for the user to put right.  The others, which are the
service's own, have a place in the code wherever a call may fail, a row may be missing or a
statement may be without effect.  Over the store in memory calls do not fail, and behind the gate
every row is there that a use case asks for: a refusal is then the worst that can happen
(`Command.admitted_refuses`).

The two units of work check the amounts before they move anything, and the guarded operations check
them again.  Both agree for all amounts: once the checks have passed, the debit, the credit and the
record succeed (`UseCase.purchase_settles`, `UseCase.movement_settles`).
-/

namespace CoinLedger

/-- Whether an error is up to the user: neither the service's own nor a lack of time. -/
def LedgerError.IsRefusal (e : LedgerError) : Prop :=
  e.category ≠ .internalError ∧ e.category ≠ .deadlineExceeded

/-- Whether a result is a success, or else a refusal. -/
def OnlyRefuses {α : Type} : Except LedgerError α → Prop
  | .ok _ => True
  | .error e => e.IsRefusal

theorem OnlyRefuses.map {α β : Type} {r : Except LedgerError α} (h : OnlyRefuses r) (f : α → β) :
    OnlyRefuses (r.map f) := by
  cases r with
  | ok a => trivial
  | error e => exact h

theorem OnlyRefuses.ne_balanceNotFound {α : Type} {r : Except LedgerError α} (h : OnlyRefuses r)
    (u : UserId) : r ≠ .error (.balanceNotFound u) := by
  rintro rfl
  exact h.1 rfl

namespace UseCase

variable {s : Store} {u v : UserId} {amount balance source target : Coins}

/-! ## Use cases over rows that are there -/

theorem purchase_refuses (hu : s.balance? u = some balance) (g : Good) :
    OnlyRefuses ((purchase u g).commitIfOk s).1 := by
  rw [Work.commitIfOk_fst, purchase_runOn, hu]
  dsimp only
  cases balance.sub? g.price with
  | none => exact ⟨nofun, nofun⟩
  | some rest => trivial

theorem movement_refuses (hne : u ≠ v) (hu : s.balance? u = some source)
    (hv : s.balance? v = some target) (amount : Coins) :
    OnlyRefuses ((movement u v amount).commitIfOk s).1 := by
  rw [Work.commitIfOk_fst, movement_runOn hne, hu, hv]
  dsimp only
  cases source.sub? amount with
  | none => exact ⟨nofun, nofun⟩
  | some rest =>
    cases target.add? amount with
    | none => exact ⟨nofun, nofun⟩
    | some sum => trivial

variable (d : Directory)

theorem buyItem_refuses (hu : s.balance? u = some balance) (name : String) :
    OnlyRefuses ((buyItem u name).runOn (.memory d) s).1 := by
  rw [buyItem, runOn_ask_bind (a := s.findGood name) (v := s) rfl]
  cases s.findGood name with
  | none => exact ⟨nofun, nofun⟩
  | some g => exact purchase_refuses hu g

/-- The sender's row is there, and the recipient's is made before it is asked for. -/
theorem sendCoins_refuses (hu : s.balance? u = some balance) (seed : Coins) (name : Username)
    (amount : Coins) : OnlyRefuses ((sendCoins seed u name amount).runOn (.memory d) s).1 := by
  unfold sendCoins
  split
  · exact ⟨nofun, nofun⟩
  · rw [runOn_ask_bind (a := d.idOf? name) (v := s) rfl]
    cases d.idOf? name with
    | none => exact ⟨nofun, nofun⟩
    | some v =>
      dsimp only
      split
      · exact ⟨nofun, nofun⟩
      · next hvu =>
        have hne : u ≠ v := fun h => hvu h.symm
        have sender : (s.insertIfAbsent v seed).balance? u = some balance := by
          rw [Store.balance?_insertIfAbsent, if_neg hvu, hu]
        exact movement_refuses hne sender (s.balance?_insertIfAbsent_self v seed) amount

/-- The account of a user with a row is shown. -/
theorem accountInfo_answers (hu : s.balance? u = some balance) :
    ∃ view, (accountInfo u).runOn (.memory d) s = (.ok view, s) := by
  rw [accountInfo_runOn, Store.view?, hu]
  exact ⟨_, rfl⟩

end UseCase

/-- **Behind the gate a refusal is the worst that can happen.** -/
theorem Command.admitted_refuses (d : Directory) (seed : Coins) (c : Command) (s : Store) :
    OnlyRefuses ((c.admitted seed).runOn (.memory d) s).1 := by
  rw [admitted, UseCase.ensureCreated,
    UseCase.runOn_ask_bind (a := ()) (v := s.insertIfAbsent c.user seed) rfl]
  have provisioned := s.balance?_insertIfAbsent_self c.user seed
  cases c with
  | ensureCreated u => trivial
  | buyItem u name =>
    rw [program, UseCase.runOn_bind_pure]
    exact (UseCase.buyItem_refuses d provisioned name).map _
  | sendCoins u name amount =>
    rw [program, UseCase.runOn_bind_pure]
    exact (UseCase.sendCoins_refuses d provisioned seed name amount).map _
  | accountInfo u =>
    obtain ⟨view, viewed⟩ := UseCase.accountInfo_answers d (u := u) provisioned
    rw [program, UseCase.runOn_bind_pure, viewed]
    trivial

/-! ## Past the checks -/

namespace UseCase

variable {s s₀ : Store} {u v : UserId} {amount balance source target rest sum : Coins}

/-- **A purchase that has passed its check goes through**: the debit succeeds, and the receipt
after it. -/
theorem purchase_settles {g : Good}
    (locked : (Work.lock u).runOn Store.statement s = (.ok balance, s₀))
    (covered : balance.sub? g.price = some rest) :
    ∃ s₁, (Work.debit u g.price).runOn Store.statement s₀ = (.ok (), s₁) ∧
      (Work.recordPurchase ⟨u, g.id⟩).runOn Store.statement s₁ =
        (.ok (), s₁.addPurchase ⟨u, g.id⟩) := by
  have hu : s₀.balance? u = some balance := by
    rw [Work.lock_runOn] at locked
    split at locked <;> cases locked
    assumption
  refine ⟨s₀.setBalance u rest, ?_, Work.recordPurchase_runOn _ _⟩
  rw [Work.debit_runOn, hu, Option.bind_some, covered]

/-- **A transfer that has passed its checks goes through**: the debit succeeds, the credit after it,
and the record after both. -/
theorem movement_settles
    (locked : (Work.lockPair u v).runOn Store.statement s = (.ok (source, target), s₀))
    (covered : source.sub? amount = some rest) (held : target.add? amount = some sum) :
    ∃ s₁ s₂, (Work.debit u amount).runOn Store.statement s₀ = (.ok (), s₁) ∧
      (Work.credit v amount).runOn Store.statement s₁ = (.ok (), s₂) ∧
      (Work.recordTransfer ⟨u, v, amount⟩).runOn Store.statement s₂ =
        (.ok (), s₂.addTransfer ⟨u, v, amount⟩) := by
  have rows : s₀.balance? u = some source ∧ s₀.balance? v = some target := by
    rw [Work.lockPair_runOn] at locked
    split at locked <;> cases locked
    exact ⟨by assumption, by assumption⟩
  obtain ⟨hu, hv⟩ := rows
  have debited : (Work.debit u amount).runOn Store.statement s₀ =
      (.ok (), s₀.setBalance u rest) := by
    rw [Work.debit_runOn, hu, Option.bind_some, covered]
  -- The row to be credited is the one that was checked, or else one that has just become smaller.
  obtain ⟨low, hlow, fits⟩ : ∃ low, (s₀.setBalance u rest).balance? v = some low ∧
      low.toNat ≤ target.toNat := by
    rw [Store.balance?_setBalance]
    by_cases huv : u = v
    · subst huv
      obtain rfl : source = target := Option.some.inj (hu.symm.trans hv)
      have := Coins.sub?_eq_some_iff.1 covered
      exact ⟨rest, if_pos rfl, by omega⟩
    · exact ⟨target, by rw [if_neg huv, hv], Nat.le_refl _⟩
  obtain ⟨total, htotal⟩ : ∃ total, low.add? amount = some total := by
    have checked := Coins.add?_eq_some_iff.1 held
    have hsum := sum.toNat_lt
    exact Coins.exists_add? (by omega)
  refine ⟨_, (s₀.setBalance u rest).setBalance v total, debited, ?_,
    Work.recordTransfer_runOn _ _⟩
  rw [Work.credit_runOn, hlow]
  dsimp only
  rw [htotal]

end UseCase

end CoinLedger
