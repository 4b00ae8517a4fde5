import CoinLedger.Store
/-!
# Database tables

Amounts are stored as signed 64-bit numbers. The columns would also hold numbers that are no
amounts, so storing and reading convert: an amount above the largest signed number cannot be
stored, and a negative number read back is refused.

The statements are given by their meaning on the tables: what they return, what they change, and
with which state code they fail. The schema demands that balances are not negative, that transfers
move a positive amount between different users, and that receipts name an existing good.

## Main results

* `ofStored?_toStored?` — an amount that can be stored reads back as it was.
* `toStored?_eq_none_iff` — which amounts cannot be stored.
-/

namespace CoinLedger.Database

/-- A signed 64-bit number, as a column of amounts holds it. -/
abbrev Stored := Int64

/-- Stored numbers are below this one, two to the sixty-third power. -/
abbrev storedBound : Nat := 9223372036854775808

/-- An amount as it is stored, if it fits. -/
def toStored? (c : Coins) : Option Stored :=
  if c.toNat < storedBound then some (Int64.ofInt c.toNat) else none

/-- A stored number as an amount, unless it is negative. -/
def ofStored? (n : Stored) : Option Coins :=
  if 0 ≤ n.toInt then Coins.ofNat? n.toInt.toNat else none

theorem toStored?_eq_none_iff {c : Coins} : toStored? c = none ↔ storedBound ≤ c.toNat := by
  unfold toStored?
  split <;> simp <;> omega

theorem toInt_of_toStored? {c : Coins} {n : Stored} (h : toStored? c = some n) :
    n.toInt = c.toNat := by
  unfold toStored? at h
  split at h
  · next hc =>
    cases h
    have hc : c.toNat < 9223372036854775808 := hc
    exact Int64.toInt_ofInt_of_le (by omega) (by omega)
  · cases h

theorem ofStored?_eq_some_iff {n : Stored} {c : Coins} :
    ofStored? n = some c ↔ n.toInt = c.toNat := by
  unfold ofStored?
  split
  · next h =>
    rw [Coins.ofNat?_eq_some_iff]
    omega
  · next h =>
    simp only [reduceCtorEq, false_iff]
    omega

/-- Storing and reading back changes nothing. -/
theorem ofStored?_toStored? {c : Coins} {n : Stored} (h : toStored? c = some n) :
    ofStored? n = some c :=
  ofStored?_eq_some_iff.2 (toInt_of_toStored? h)

/-- A row of the catalog. -/
structure GoodRow where
  id : GoodId
  name : String
  price : Stored
  deriving DecidableEq, Repr

/-- A row of the transfers. -/
structure TransferRow where
  sender : UserId
  recipient : UserId
  amount : Stored
  deriving DecidableEq, Repr

/-- The contents of the four tables; receipts and transfers in the order of insertion. -/
structure Tables where
  balances : SortedMap UserId Stored := SortedMap.empty
  goods : List GoodRow := []
  purchases : List Purchase := []
  transfers : List TransferRow := []
  deriving DecidableEq

/-- The five-character code of a failed statement. -/
abbrev SqlState := String

/-- A row breaks a condition of the schema. -/
def checkViolation : SqlState := "23514"

/-- A number leaves the range of its column. -/
def outOfRange : SqlState := "22003"

/-- A row refers to one that is not there. -/
def foreignKeyViolation : SqlState := "23503"

/-- The transaction has failed and takes no more statements. -/
def failedTransaction : SqlState := "25P02"

/-- Two transactions cannot be put in an order. -/
def serializationFailure : SqlState := "40001"

namespace Tables

/-! ## Meaning of the statements -/

def insertBalance (user : UserId) (balance : Stored) (t : Tables) :
    Except SqlState (Nat × Tables) :=
  if t.balances.contains user then .ok (0, t)
  else if balance < 0 then .error checkViolation
  else .ok (1, { t with balances := t.balances.insert user balance })

/-- Selects a balance. -/
def findBalance (user : UserId) (t : Tables) : Option Stored := t.balances.get? user

/-- Selects the balances of several users, in ascending order of the ids. -/
def findBalances (users : List UserId) (t : Tables) : List (UserId × Stored) :=
  (ascending users).filterMap fun u => (t.balances.get? u).map fun n => (u, n)

/-- Subtracts an amount from a balance that is at least as large. -/
def decrement (user : UserId) (amount : Stored) (t : Tables) : Except SqlState (Nat × Tables) :=
  match t.balances.get? user with
  | none => .ok (0, t)
  | some balance =>
    if amount ≤ balance then
      if balance - amount < 0 then .error checkViolation
      else .ok (1, { t with balances := t.balances.insert user (balance - amount) })
    else .ok (0, t)

/-- Adds an amount to a balance. -/
def increment (user : UserId) (amount : Stored) (t : Tables) : Except SqlState (Nat × Tables) :=
  match t.balances.get? user with
  | none => .ok (0, t)
  | some balance =>
    if balance.toInt + amount.toInt < storedBound then
      if balance.toInt + amount.toInt < 0 then .error checkViolation
      else .ok (1, { t with balances := t.balances.insert user (balance + amount) })
    else .error outOfRange

/-- Inserts a receipt for an existing good. -/
def insertPurchase (p : Purchase) (t : Tables) : Except SqlState (Nat × Tables) :=
  if t.goods.any fun g => g.id = p.good then .ok (1, { t with purchases := t.purchases ++ [p] })
  else .error foreignKeyViolation

/-- Inserts a transfer of a positive amount between different users. -/
def insertTransfer (r : TransferRow) (t : Tables) : Except SqlState (Nat × Tables) :=
  if 0 < r.amount.toInt ∧ r.sender ≠ r.recipient then
    .ok (1, { t with transfers := t.transfers ++ [r] })
  else .error checkViolation

def findGood (name : String) (t : Tables) : Option GoodRow := t.goods.find? fun g => g.name = name

/-- The name of the good of a receipt. -/
def nameOf? (t : Tables) (p : Purchase) : Option String :=
  (t.goods.find? fun g => g.id = p.good).map GoodRow.name

/-- Counts a user's receipts, joined with the goods and grouped by their names. -/
def countPurchases (user : UserId) (t : Tables) : List (String × Int) :=
  let names := (t.purchases.filter fun p => p.buyer = user).filterMap t.nameOf?
  (ascending names).map fun name => (name, names.count name)

/-- Selects the transfers from or to a user, in the order of insertion. -/
def findTransfers (user : UserId) (t : Tables) : List TransferRow :=
  t.transfers.filter fun r => r.sender = user || r.recipient = user

end Tables

end CoinLedger.Database
