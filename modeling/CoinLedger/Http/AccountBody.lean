import CoinLedger.Json
import CoinLedger.Record
/-!
# The body of an account view

The view is an object with the balance, the inventory as a list in ascending order of the names of
the goods, and the transfers in both directions in their order.
-/

namespace CoinLedger.Http

def amountValue (c : Coins) : Json.Value := .nat c.toNat

/-- A transfer with the other party under a given member name. -/
def entryValue (party : String) (e : NamedEntry) : Json.Value :=
  .obj [(party, .str e.counterpart), ("amount", amountValue e.amount)]

def inventoryLine (line : String × Nat) : Json.Value :=
  .obj [("type", .str line.1), ("quantity", .nat line.2)]

def accountValue (a : AccountInfo) : Json.Value :=
  .obj [
    ("balance", amountValue a.balance),
    ("inventory", .array (a.inventory.entries.map inventoryLine)),
    ("coinHistory", .obj [
      ("received", .array (a.incoming.map (entryValue "fromUser"))),
      ("sent", .array (a.outgoing.map (entryValue "toUser")))])]

end CoinLedger.Http
