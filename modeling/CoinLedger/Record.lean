import CoinLedger.Coins
import CoinLedger.UserId
import CoinLedger.SortedMap
/-!
# Goods, records and account views

The catalog holds goods with a price. Two logs grow at the end: a purchase says which user bought
which good, a transfer says who gave how much to whom. An account view collects what these say
about one user.
-/

namespace CoinLedger

/-- The number of a good in the catalog. -/
structure GoodId where
  word : Int32
  deriving DecidableEq, Repr

/-- The number of a good as an unbounded number. -/
def GoodId.toInt (g : GoodId) : Int := g.word.toInt

/-- Something that can be bought. -/
structure Good where
  id : GoodId
  name : String
  price : Coins
  deriving DecidableEq, Repr

/-- One receipt: a user bought one piece of a good. -/
structure Purchase where
  buyer : UserId
  good : GoodId
  deriving DecidableEq, Repr

/-- One movement of coins between two users. -/
structure Transfer where
  sender : UserId
  recipient : UserId
  amount : Coins
  deriving DecidableEq, Repr

/-- One line of a user's transfer history: the other party, by id, and the amount. -/
structure Entry where
  counterpart : UserId
  amount : Coins
  deriving DecidableEq, Repr

/-- A user's transfers, in the order in which they were recorded. -/
structure History where
  incoming : List Entry := []
  outgoing : List Entry := []
  deriving DecidableEq, Repr

namespace History

/-- The distinct other parties of both directions, ascending. -/
def counterparts (h : History) : List UserId :=
  ascending ((h.incoming ++ h.outgoing).map Entry.counterpart)

theorem mem_counterparts {h : History} {u : UserId} :
    u ∈ h.counterparts ↔ ∃ e ∈ h.incoming ++ h.outgoing, e.counterpart = u := by
  rw [counterparts, mem_ascending, List.mem_map]

end History

/-- How many pieces of each good a user has bought, by the name of the good. -/
abbrev Inventory := SortedMap String Nat

namespace Inventory

/-- How many pieces of a good there are. -/
def quantity (i : Inventory) (name : String) : Nat := (i.get? name).getD 0

/-- One piece more of a good. -/
def addOne (i : Inventory) (name : String) : Inventory :=
  i.insert name (i.quantity name + 1)

@[simp] theorem quantity_empty (name : String) : quantity SortedMap.empty name = 0 := rfl

theorem quantity_addOne (i : Inventory) (name other : String) :
    (i.addOne name).quantity other = i.quantity other + if name = other then 1 else 0 := by
  by_cases h : name = other
  · subst h
    simp [addOne, quantity]
  · simp [addOne, quantity, h]

end Inventory

/-- One line of a transfer history with the other party's name, which is empty if the identity
service does not know one. -/
structure NamedEntry where
  counterpart : String
  amount : Coins
  deriving DecidableEq, Repr

/-- What a user is shown of their account. -/
structure AccountInfo where
  balance : Coins := Coins.zero
  inventory : Inventory := SortedMap.empty
  incoming : List NamedEntry := []
  outgoing : List NamedEntry := []
  deriving DecidableEq

end CoinLedger
