import CoinLedger.Proofs.Ledger.Buying
import CoinLedger.Proofs.Ledger.Sending
import CoinLedger.Proofs.Ledger.Views

/-!
# The coins in circulation

The balances of a store add up to the coins in circulation.  Writing one row moves the sum by what
the row moves, so a movement between two users keeps it, and a purchase lowers it by the price.

## Main definitions

* `Store.total` — the sum of all balances.
* `Store.Affords`, `Store.HasRoom` — what a balance allows.

## Main results

* `Store.total_of_row` — one row has changed.
* `Store.Moved.total`, `Store.Paid.total` — what a movement and a purchase do to the sum.
-/

namespace CoinLedger.Store

/-- The sum of all balances. -/
def total (s : Store) : Nat := totalOf (fun row => row.2.toNat) s.balances.entries

/-- Whether a user has a row that covers an amount. -/
def Affords (s : Store) (u : UserId) (amount : Coins) : Prop :=
  ∃ balance, s.balance? u = some balance ∧ amount.toNat ≤ balance.toNat

/-- Whether a user has a row with room for an amount. -/
def HasRoom (s : Store) (u : UserId) (amount : Coins) : Prop :=
  ∃ balance, s.balance? u = some balance ∧ balance.toNat + amount.toNat < Coins.size

variable {s s' : Store} {u v : UserId} {amount old new : Coins}

theorem total_setBalance (row : s.balance? u = some old) (new : Coins) :
    (s.setBalance u new).total + old.toNat = s.total + new.toNat := by
  have written := s.balances.totalOf_insert (fun row => row.2.toNat) u new
  have before : ((s.balances.get? u).map fun w => w.toNat).getD 0 = old.toNat := by
    rw [show s.balances.get? u = some old from row]
    rfl
  rw [before] at written
  exact written

/-- The sum moves by what the only row that has changed moves. -/
theorem total_of_row (row : s.balance? u = some old) (row' : s'.balance? u = some new)
    (others : ∀ w, w ≠ u → s'.balance? w = s.balance? w) :
    s'.total + old.toNat = s.total + new.toNat := by
  have rows : s'.balances = (s.setBalance u new).balances := by
    refine SortedMap.ext_get? fun w => ?_
    show s'.balance? w = (s.setBalance u new).balance? w
    rw [balance?_setBalance]
    by_cases hw : u = w
    · rw [if_pos hw, ← hw, row']
    · rw [if_neg hw, others w (Ne.symm hw)]
  have same : s'.total = (s.setBalance u new).total := by
    unfold total
    rw [rows]
  rw [same, total_setBalance row]

/-- A movement between two users keeps the sum. -/
theorem Moved.total (huv : u ≠ v) (h : s.Moved u v amount s') :
    s'.total = s.total := by
  obtain ⟨source, rest, hsource, hrest, lowered⟩ := h.paid
  obtain ⟨target, sum, htarget, hsum, raised⟩ := h.received
  have paid : (s.setBalance u rest).total + source.toNat = s.total + rest.toNat :=
    total_setBalance hsource rest
  have kept : (s.setBalance u rest).balance? v = some target := by
    rw [balance?_setBalance, if_neg huv, htarget]
  have received : s'.total + target.toNat = (s.setBalance u rest).total + sum.toNat := by
    refine total_of_row kept hsum fun w hw => ?_
    rw [balance?_setBalance]
    by_cases hu : u = w
    · rw [if_pos hu, ← hu, hrest]
    · rw [if_neg hu, h.others w (Ne.symm hu) hw]
  omega

/-- A purchase takes the price out of circulation. -/
theorem Paid.total {g : Good} (h : s.Paid u g s') : s'.total + g.price.toNat = s.total := by
  obtain ⟨balance, rest, hbalance, hrest, lowered⟩ := h.row
  have moved := total_of_row hbalance hrest h.others
  omega

/-! ## What the balances allow -/

theorem Moved.affords (h : s.Moved u v amount s') : s.Affords u amount := by
  obtain ⟨source, rest, hsource, -, lowered⟩ := h.paid
  exact ⟨source, hsource, by omega⟩

theorem Moved.hasRoom (h : s.Moved u v amount s') : s.HasRoom v amount := by
  obtain ⟨target, sum, htarget, -, raised⟩ := h.received
  exact ⟨target, htarget, raised ▸ sum.toNat_lt⟩

theorem Paid.affords {g : Good} (h : s.Paid u g s') : s.Affords u g.price := by
  obtain ⟨balance, rest, hbalance, -, lowered⟩ := h.row
  exact ⟨balance, hbalance, by omega⟩

end CoinLedger.Store
