import CoinLedger.Json
import CoinLedger.Text.Decimal
/-!
# JSON pointers

A pointer names a node of a value by the steps that lead to it, each behind a slash. A step is a
member name, in which `~1` stands for a slash and `~0` for a tilde, or the position of an array
item in digits without leading zeros. The empty pointer names the whole value.
-/

namespace CoinLedger.Json

/-- A step of a pointer with its escapes resolved. -/
def unescapeStep : List Char → List Char
  | '~' :: '1' :: rest => '/' :: unescapeStep rest
  | '~' :: '0' :: rest => '~' :: unescapeStep rest
  | c :: rest => c :: unescapeStep rest
  | [] => []

/-- The steps of a pointer; the characters of the step being read come in reverse. -/
def splitSteps (step : List Char) : List Char → List (List Char)
  | [] => [step.reverse]
  | c :: rest => if c = '/' then step.reverse :: splitSteps [] rest else splitSteps (c :: step) rest

def position? (step : List Char) : Option Nat :=
  if step.head? = some '0' ∧ 1 < step.length then none else Text.Decimal.readNat? step

/-- The node one step below a value. -/
def Value.child? (v : Value) (step : List Char) : Option Value :=
  match v with
  | .object members =>
    (members.find? fun m => m.1 = some (String.ofList (unescapeStep step))).map Prod.snd
  | .array items => (position? step).bind fun i => items[i]?
  | _ => none

/-- The node that a pointer names. -/
def Value.at? (v : Value) (pointer : List Char) : Option Value :=
  match pointer with
  | [] => some v
  | '/' :: rest => (splitSteps [] rest).foldlM Value.child? v
  | _ => none

def Value.memberNames : Value → List String
  | .object members => members.filterMap Prod.fst
  | _ => []

end CoinLedger.Json
