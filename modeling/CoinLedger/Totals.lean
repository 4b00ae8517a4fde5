import CoinLedger.Record
/-!
# Totals

What logs and account views add up to, as unbounded numbers. A log says of every user how much came
in, how much went out, and how much was spent; a view says the same of its own user.

## Main definitions

* `totalOf` — a sum over a list.
* `received`, `sent`, `spent` — the totals of logs.
* `AccountInfo.received`, `AccountInfo.sent`, `AccountInfo.spent` — the totals of a view.
-/

namespace CoinLedger

/-- The sum of what each member of a list counts for. -/
def totalOf {α : Type} (f : α → Nat) : List α → Nat
  | [] => 0
  | a :: rest => f a + totalOf f rest

@[simp] theorem totalOf_nil {α : Type} (f : α → Nat) : totalOf f [] = 0 := rfl

@[simp] theorem totalOf_cons {α : Type} (f : α → Nat) (a : α) (rest : List α) :
    totalOf f (a :: rest) = f a + totalOf f rest := rfl

@[simp] theorem totalOf_append {α : Type} (f : α → Nat) (xs ys : List α) :
    totalOf f (xs ++ ys) = totalOf f xs + totalOf f ys := by
  induction xs with
  | nil => simp
  | cons a rest ih => simp [ih, Nat.add_assoc]

/-! ## Logs -/

/-- What transfers bring to a user. -/
def received (user : UserId) (transfers : List Transfer) : Nat :=
  totalOf (fun t => if t.recipient = user then t.amount.toNat else 0) transfers

/-- What transfers take from a user. -/
def sent (user : UserId) (transfers : List Transfer) : Nat :=
  totalOf (fun t => if t.sender = user then t.amount.toNat else 0) transfers

/-- The price of the first good of a number; nothing if there is none. -/
def priceOf (goods : List Good) (id : GoodId) : Nat :=
  ((goods.find? fun g => g.id = id).map fun g => g.price.toNat).getD 0

/-- What a user has paid for the receipts of a log. -/
def spent (goods : List Good) (user : UserId) (purchases : List Purchase) : Nat :=
  totalOf (fun p => if p.buyer = user then priceOf goods p.good else 0) purchases

/-! ## Views -/

namespace AccountInfo

/-- What came in according to a view. -/
def received (a : AccountInfo) : Nat := totalOf (fun e => e.amount.toNat) a.incoming

/-- What went out according to a view. -/
def sent (a : AccountInfo) : Nat := totalOf (fun e => e.amount.toNat) a.outgoing

/-- The price of the first good of a name; nothing if there is none. -/
def priceOfNamed (goods : List Good) (name : String) : Nat :=
  ((goods.find? fun g => g.name = name).map fun g => g.price.toNat).getD 0

/-- What the inventory of a view has cost. -/
def spent (goods : List Good) (a : AccountInfo) : Nat :=
  totalOf (fun line => line.2 * priceOfNamed goods line.1) a.inventory.entries

end AccountInfo

end CoinLedger
