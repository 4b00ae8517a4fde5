import CoinLedger.Ascending
/-!
# User ids

The identity service names every user by a signed 64-bit number. The ledger stores nothing else
about a user: it compares ids, orders them and prints them, and never computes with them.
-/

namespace CoinLedger

/-- The number by which the identity service knows a user. -/
structure UserId where
  word : Int64
  deriving DecidableEq, Repr

namespace UserId

/-- The id as an unbounded number. -/
def toInt (u : UserId) : Int := u.word.toInt

@[ext] theorem ext {a b : UserId} (h : a.toInt = b.toInt) : a = b := by
  cases a; cases b
  exact congrArg mk (Int64.toInt_inj.1 h)

theorem toInt_inj {a b : UserId} : a.toInt = b.toInt ↔ a = b :=
  ⟨ext, congrArg toInt⟩

instance : Inhabited UserId := ⟨⟨0⟩⟩
instance : LE UserId := ⟨fun a b => a.toInt ≤ b.toInt⟩
instance : LT UserId := ⟨fun a b => a.toInt < b.toInt⟩
instance : DecidableLE UserId := fun a b => Int.decLe a.toInt b.toInt
instance : DecidableLT UserId := fun a b => Int.decLt a.toInt b.toInt

theorem le_iff {a b : UserId} : a ≤ b ↔ a.toInt ≤ b.toInt := Iff.rfl
theorem lt_iff {a b : UserId} : a < b ↔ a.toInt < b.toInt := Iff.rfl

instance : Std.IsLinearOrder UserId where
  le_refl a := Int.le_refl a.toInt
  le_trans _ _ _ := Int.le_trans
  le_antisymm _ _ h h' := ext (Int.le_antisymm h h')
  le_total a b := Int.le_total a.toInt b.toInt

instance : Std.LawfulOrderLT UserId where
  lt_iff _ _ := Int.lt_iff_le_and_not_ge

/-- Ids are below this number, two to the sixty-third power, and not below its negative. -/
abbrev bound : Int := 9223372036854775808

/-- The id with a given number, if the number fits 64 bits. -/
def ofInt? (n : Int) : Option UserId :=
  if -bound ≤ n ∧ n < bound then some ⟨Int64.ofInt n⟩ else none

theorem ofInt?_eq_some_iff {n : Int} {u : UserId} : ofInt? n = some u ↔ u.toInt = n := by
  unfold ofInt?
  split
  · next h =>
    have : (⟨Int64.ofInt n⟩ : UserId).toInt = n := Int64.toInt_ofInt_of_le h.1 h.2
    rw [Option.some.injEq, ← toInt_inj, this, eq_comm]
  · next h =>
    have h₁ : -bound ≤ u.toInt := u.word.le_toInt
    have h₂ : u.toInt < bound := u.word.toInt_lt
    constructor
    · intro hn
      cases hn
    · rintro rfl
      exact absurd ⟨h₁, h₂⟩ h

/-- The decimal text of an id. -/
def text (u : UserId) : String := toString u.toInt

end UserId

end CoinLedger
