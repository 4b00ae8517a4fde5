/-!
# Hex digits

Hex digits are read in either case and written in lower case.
-/

namespace CoinLedger.Text.Hex

/-- The value of a hex digit of either case. -/
def value? (b : UInt8) : Option Nat :=
  let n := b.toNat
  if 0x30 ≤ n ∧ n ≤ 0x39 then some (n - 0x30)
  else if 0x41 ≤ n ∧ n ≤ 0x46 then some (n - 0x37)
  else if 0x61 ≤ n ∧ n ≤ 0x66 then some (n - 0x57)
  else none

/-- A hex digit as a character: the value of the ASCII ones, and of no other. -/
def valueOf? (c : Char) : Option (Fin 16) :=
  let n := c.toNat
  if 0x30 ≤ n ∧ n ≤ 0x39 then some (Fin.ofNat 16 (n - 0x30))
  else if 0x41 ≤ n ∧ n ≤ 0x46 then some (Fin.ofNat 16 (n - 0x37))
  else if 0x61 ≤ n ∧ n ≤ 0x66 then some (Fin.ofNat 16 (n - 0x57))
  else none

/-- The lower-case digit of a value. -/
def digit (d : Fin 16) : Char := Nat.digitChar d.val

@[simp] theorem valueOf?_digit (d : Fin 16) : valueOf? (digit d) = some d := by
  revert d
  decide

end CoinLedger.Text.Hex
