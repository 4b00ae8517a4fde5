import CoinLedger.UseCase
/-!
# The store in memory

A store holds one balance row per user, the catalog, and the two logs in the order in which they
were written. Statements and calls act on it without failing, with one exception: an increment
that would leave the range of amounts is refused by the store.

## Main definitions

* `Store` — the state.
* `Store.statement` — what a statement answers and what it leaves.
* `Store.call` — the same for a call outside a unit of work.
-/

namespace CoinLedger

/-- Balance rows, catalog and logs. -/
structure Store where
  balances : SortedMap UserId Coins := SortedMap.empty
  goods : List Good := []
  purchases : List Purchase := []
  transfers : List Transfer := []
  deriving DecidableEq

/-- The users the identity service knows, by id. -/
abbrev Directory := Names

namespace Directory

/-- The directory with the given entries, less those whose name is no username. -/
def ofList (users : List (UserId × String)) : Directory :=
  SortedMap.ofList <| users.filterMap fun (id, name) =>
    match Username.ofString name with
    | .ok name => some (id, name)
    | .error _ => none

/-- The id of the user with a given name. -/
def idOf? (d : Directory) (name : Username) : Option UserId :=
  (d.entries.find? fun e => e.2 = name).map Prod.fst

/-- The names of those users that are known. -/
def namesOf (d : Directory) (users : List UserId) : Names :=
  SortedMap.ofList <| users.filterMap fun u => (d.get? u).map fun name => (u, name)

end Directory

namespace Store

/-- The goods every fresh shop sells, by name and price. -/
def standardGoods : List (String × Nat) :=
  [("t-shirt", 80), ("cup", 20), ("book", 50), ("pen", 10), ("powerbank", 200), ("hoody", 300),
    ("umbrella", 200), ("socks", 10), ("wallet", 50), ("pink-hoody", 500)]

/-- The standard goods numbered from one. -/
def standardCatalog : List Good :=
  standardGoods.zipIdx.map fun ((name, price), i) =>
    ⟨⟨Int32.ofNat (i + 1)⟩, name, ⟨UInt64.ofNat price⟩⟩

/-- The balance of a user who has a row. -/
def balance? (s : Store) (user : UserId) : Option Coins := s.balances.get? user

/-- Writes a balance row. -/
def setBalance (s : Store) (user : UserId) (amount : Coins) : Store :=
  { s with balances := s.balances.insert user amount }

/-- Creates a balance row unless there is one. -/
def insertIfAbsent (s : Store) (user : UserId) (seed : Coins) : Store :=
  { s with balances := s.balances.insertIfAbsent user seed }

/-! ## Statements -/

/-- The rows of several users that exist, in ascending order of the ids. -/
def rows (s : Store) (users : List UserId) : List (UserId × Coins) :=
  (ascending users).filterMap fun u => (s.balance? u).map fun amount => (u, amount)

/-- Subtracts an amount that the row covers; counts the rows changed. -/
def decrement (s : Store) (user : UserId) (amount : Coins) : Nat × Store :=
  match (s.balance? user).bind (·.sub? amount) with
  | some rest => (1, s.setBalance user rest)
  | none => (0, s)

/-- Adds an amount; a sum outside the range fails and changes nothing. -/
def increment (s : Store) (user : UserId) (amount : Coins) : Except StorageFailure Nat × Store :=
  match s.balance? user with
  | none => (.ok 0, s)
  | some balance =>
    match balance.add? amount with
    | some sum => (.ok 1, s.setBalance user sum)
    | none => (.error (.query "balance overflow"), s)

/-- Appends a receipt. -/
def addPurchase (s : Store) (p : Purchase) : Store :=
  { s with purchases := s.purchases ++ [p] }

/-- Appends a transfer. -/
def addTransfer (s : Store) (t : Transfer) : Store :=
  { s with transfers := s.transfers ++ [t] }

/-- What a statement answers, and the store after it. -/
def statement : (c : Statement) → Store → Except StorageFailure c.Answer × Store
  | .lockBalance user, s => (.ok (s.balance? user), s)
  | .lockBalances users, s => (.ok (s.rows users), s)
  | .decrement user amount, s => (.ok (s.decrement user amount).1, (s.decrement user amount).2)
  | .increment user amount, s => s.increment user amount
  | .insertPurchase p, s => (.ok (), s.addPurchase p)
  | .insertTransfer t, s => (.ok (), s.addTransfer t)

/-! ## Calls -/

/-- The first good of a name. -/
def findGood (s : Store) (name : String) : Option Good :=
  s.goods.find? fun g => g.name = name

/-- The first good of a number. -/
def goodOf? (s : Store) (id : GoodId) : Option Good :=
  s.goods.find? fun g => g.id = id

/-- Counts one receipt, unless it is another user's or its good is not in the catalog. -/
def countPurchase (s : Store) (user : UserId) (i : Inventory) (p : Purchase) : Inventory :=
  if p.buyer = user then
    match s.goodOf? p.good with
    | some good => i.addOne good.name
    | none => i
  else i

/-- A user's receipts, counted by the name of the good. -/
def inventory (s : Store) (user : UserId) : Inventory :=
  s.purchases.foldl (s.countPurchase user) SortedMap.empty

/-- A user's transfers. One from a user to the same user is listed in both directions. -/
def history (s : Store) (user : UserId) : History where
  incoming := s.transfers.filterMap fun t =>
    if t.recipient = user then some ⟨t.sender, t.amount⟩ else none
  outgoing := s.transfers.filterMap fun t =>
    if t.sender = user then some ⟨t.recipient, t.amount⟩ else none

/-- What a call answers, and the store after it. The identity service answers from a directory. -/
def call (d : Directory) : (c : Call) → Store → Except c.Failure c.Answer × Store
  | .insertIfAbsent user seed, s => (.ok (), s.insertIfAbsent user seed)
  | .findBalance user, s => (.ok (s.balance? user), s)
  | .findGood name, s => (.ok (s.findGood name), s)
  | .inventory user, s => (.ok (s.inventory user), s)
  | .transfers user, s => (.ok (s.history user), s)
  | .resolveUser name, s => (.ok (d.idOf? name), s)
  | .resolveNames users, s => (.ok (d.namesOf users), s)

/-! ## The store through its parts -/

@[simp] theorem balance?_setBalance (s : Store) (u v : UserId) (a : Coins) :
    (s.setBalance u a).balance? v = if u = v then some a else s.balance? v := by
  simp [balance?, setBalance]

@[simp] theorem balance?_insertIfAbsent (s : Store) (u v : UserId) (seed : Coins) :
    (s.insertIfAbsent u seed).balance? v =
      if u = v then some ((s.balance? u).getD seed) else s.balance? v := by
  simp [balance?, insertIfAbsent]

theorem balance?_insertIfAbsent_self (s : Store) (u : UserId) (seed : Coins) :
    (s.insertIfAbsent u seed).balance? u = some ((s.balance? u).getD seed) := by
  rw [balance?_insertIfAbsent, if_pos rfl]

@[simp] theorem balance?_addPurchase (s : Store) (p : Purchase) (v : UserId) :
    (s.addPurchase p).balance? v = s.balance? v := rfl

@[simp] theorem balance?_addTransfer (s : Store) (t : Transfer) (v : UserId) :
    (s.addTransfer t).balance? v = s.balance? v := rfl

@[simp] theorem purchases_setBalance (s : Store) (u : UserId) (a : Coins) :
    (s.setBalance u a).purchases = s.purchases := rfl

@[simp] theorem transfers_setBalance (s : Store) (u : UserId) (a : Coins) :
    (s.setBalance u a).transfers = s.transfers := rfl

@[simp] theorem goods_setBalance (s : Store) (u : UserId) (a : Coins) :
    (s.setBalance u a).goods = s.goods := rfl

@[simp] theorem purchases_insertIfAbsent (s : Store) (u : UserId) (a : Coins) :
    (s.insertIfAbsent u a).purchases = s.purchases := rfl

@[simp] theorem transfers_insertIfAbsent (s : Store) (u : UserId) (a : Coins) :
    (s.insertIfAbsent u a).transfers = s.transfers := rfl

@[simp] theorem goods_insertIfAbsent (s : Store) (u : UserId) (a : Coins) :
    (s.insertIfAbsent u a).goods = s.goods := rfl

end Store

end CoinLedger
