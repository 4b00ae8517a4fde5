import CoinLedger.Store

/-!
# Inventories are tallies

The store counts a user's receipts one by one, each under the name of its good.  What comes out
does not depend on the way: it is the tally of the names of the goods bought, and a name that was
bought is listed with the number of its occurrences (`Inventory.get?_tally`).  Whoever counts the
same names in another way, such as a database that groups its rows, gets the same inventory.

## Main results

* `Inventory.get?_tally` — a tally through its look-up.
* `Store.inventory_eq_tally` — the inventory of a user is the tally of what the user bought.
-/

namespace CoinLedger

namespace Inventory

theorem get?_addOne (i : Inventory) (name other : String) :
    (i.addOne name).get? other =
      if name = other then some (i.quantity name + 1) else i.get? other :=
  SortedMap.get?_insert i name other _

/-- The pieces of a list of names, counted. -/
def tally (names : List String) : Inventory := names.foldl addOne SortedMap.empty

theorem get?_foldl_addOne (names : List String) (i : Inventory) (name : String) :
    (names.foldl addOne i).get? name =
      if name ∈ names then some (i.quantity name + names.count name) else i.get? name := by
  induction names generalizing i with
  | nil => rfl
  | cons first rest ih =>
    rw [List.foldl_cons, ih, quantity_addOne, get?_addOne, List.count_cons]
    by_cases hfirst : first = name
    · subst hfirst
      by_cases hrest : first ∈ rest
      · simp [hrest]
        omega
      · simp [hrest, List.count_eq_zero_of_not_mem]
    · have hne : ¬name = first := fun h => hfirst h.symm
      simp [hfirst, hne]

/-- A tally lists what occurs, with the number of occurrences. -/
theorem get?_tally (names : List String) (name : String) :
    (tally names).get? name = if name ∈ names then some (names.count name) else none := by
  rw [tally, get?_foldl_addOne, quantity_empty, Nat.zero_add, SortedMap.get?_empty]

end Inventory

namespace Store

/-- The names of the goods of a user's receipts, one for each piece. -/
def bought (s : Store) (user : UserId) : List String :=
  (s.purchases.filter fun p => p.buyer = user).filterMap fun p => (s.goodOf? p.good).map Good.name

/-- The inventory of a user is the tally of what the user bought. -/
theorem inventory_eq_tally (s : Store) (user : UserId) :
    s.inventory user = Inventory.tally (s.bought user) := by
  have counted : ∀ (ps : List Purchase) (i : Inventory),
      ps.foldl (s.countPurchase user) i =
        ((ps.filter fun p => p.buyer = user).filterMap
          fun p => (s.goodOf? p.good).map Good.name).foldl Inventory.addOne i := by
    intro ps
    induction ps with
    | nil => intro i; rfl
    | cons p rest ih =>
      intro i
      rw [List.foldl_cons, ih]
      unfold countPurchase
      by_cases hp : p.buyer = user
      · cases hg : s.goodOf? p.good <;> simp [hp, hg]
      · simp [hp]
  exact counted s.purchases SortedMap.empty

end Store

end CoinLedger
