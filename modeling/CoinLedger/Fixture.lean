import CoinLedger.UseCase
/-!
# Fixed answers

Answers that depend on no state: every account holds the start balance, the catalog has a single
cup, nobody has bought or sent anything, and the identity service knows no users.
-/

namespace CoinLedger

/-- The only good of the fixed catalog. -/
def fixedGood : Good := ⟨⟨1⟩, "cup", ⟨20⟩⟩

/-- What is answered without a state. -/
def fixedAnswer : (c : Call) → c.Answer
  | .insertIfAbsent _ _ => ()
  | .findBalance _ => some UseCase.startBalance
  | .findGood name => if name = fixedGood.name then some fixedGood else none
  | .inventory _ => SortedMap.empty
  | .transfers _ => {}
  | .resolveUser _ => none
  | .resolveNames _ => SortedMap.empty

end CoinLedger
