import CoinLedger.Database.Tables
/-!
# Tables read as a ledger

Tables whose numbers are amounts say the same as a store in memory. What else the schema promises
is put together in `Tables.Lawful`.

## Main definitions

* `Tables.ledger` — the store that tables stand for.
* `Tables.Lawful` — what the schema promises.
-/

namespace CoinLedger.Database

/-- The amount that a stored number stands for; a negative one stands for none. -/
def amountOf (n : Stored) : Coins := (ofStored? n).getD Coins.zero

theorem amountOf_of_toStored? {c : Coins} {n : Stored} (h : toStored? c = some n) :
    amountOf n = c := by
  simp [amountOf, ofStored?_toStored? h]

/-- The good of a row of the catalog. -/
def GoodRow.good (r : GoodRow) : Good := ⟨r.id, r.name, amountOf r.price⟩

/-- The transfer of a row. -/
def TransferRow.transfer (r : TransferRow) : Transfer := ⟨r.sender, r.recipient, amountOf r.amount⟩

namespace Tables

def ledger (t : Tables) : Store where
  balances := t.balances.mapValues amountOf
  goods := t.goods.map GoodRow.good
  purchases := t.purchases
  transfers := t.transfers.map TransferRow.transfer

@[simp] theorem balance?_ledger (t : Tables) (user : UserId) :
    t.ledger.balance? user = (t.balances.get? user).map amountOf := by
  simp [ledger, Store.balance?]

/-- What the schema promises of the tables. -/
structure Lawful (t : Tables) : Prop where
  balances : ∀ e ∈ t.balances.entries, 0 ≤ e.2.toInt
  prices : ∀ r ∈ t.goods, 0 ≤ r.price.toInt
  goodIds : (t.goods.map GoodRow.id).Nodup
  goodNames : (t.goods.map GoodRow.name).Nodup
  purchases : ∀ p ∈ t.purchases, ∃ r ∈ t.goods, r.id = p.good
  amounts : ∀ r ∈ t.transfers, 0 ≤ r.amount.toInt
  parties : ∀ r ∈ t.transfers, r.sender ≠ r.recipient

end Tables

end CoinLedger.Database
