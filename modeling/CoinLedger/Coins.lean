/-!
# Coins

Whole-number amounts of money between zero and `2 ^ 64 - 1`. There are no fractional coins and no
debts: subtraction that would go below zero and addition that would leave the range have no
result. Statements about amounts are made in `Nat`, through `Coins.toNat`.

## Main results

* `sub?_eq_some_iff`, `add?_eq_some_iff` — both operations are exact when they answer.
* `sub?_eq_none_iff`, `add?_eq_none_iff` — when they refuse.
-/

namespace CoinLedger

/-- An amount of money: a whole number that fits 64 bits. -/
structure Coins where
  word : UInt64
  deriving DecidableEq, Repr

namespace Coins

/-- The amount as an unbounded number. -/
def toNat (c : Coins) : Nat := c.word.toNat

def zero : Coins := ⟨0⟩

instance : Inhabited Coins := ⟨zero⟩

/-- The number of distinct amounts, two to the sixty-fourth power. -/
abbrev size : Nat := 18446744073709551616

theorem toNat_lt (c : Coins) : c.toNat < size := UInt64.toNat_lt c.word

@[simp] theorem toNat_zero : zero.toNat = 0 := rfl

@[ext] theorem ext {a b : Coins} (h : a.toNat = b.toNat) : a = b := by
  cases a; cases b
  exact congrArg mk (UInt64.toNat_inj.1 h)

theorem toNat_inj {a b : Coins} : a.toNat = b.toNat ↔ a = b :=
  ⟨ext, congrArg toNat⟩

instance : LE Coins := ⟨fun a b => a.toNat ≤ b.toNat⟩
instance : LT Coins := ⟨fun a b => a.toNat < b.toNat⟩
instance : DecidableLE Coins := fun a b => Nat.decLe a.toNat b.toNat
instance : DecidableLT Coins := fun a b => Nat.decLt a.toNat b.toNat

theorem le_iff {a b : Coins} : a ≤ b ↔ a.toNat ≤ b.toNat := Iff.rfl
theorem lt_iff {a b : Coins} : a < b ↔ a.toNat < b.toNat := Iff.rfl

/-- The amount of `n` coins, if it fits. -/
def ofNat? (n : Nat) : Option Coins :=
  if n < size then some ⟨UInt64.ofNat n⟩ else none

theorem ofNat?_eq_some_iff {n : Nat} {c : Coins} : ofNat? n = some c ↔ c.toNat = n := by
  unfold ofNat?
  split
  · next h =>
    rw [Option.some.injEq, ← toNat_inj]
    have : (⟨UInt64.ofNat n⟩ : Coins).toNat = n := UInt64.toNat_ofNat_of_lt h
    rw [this, eq_comm]
  · next h =>
    constructor
    · intro hn
      cases hn
    · rintro rfl
      exact absurd c.toNat_lt h

@[simp] theorem ofNat?_toNat (c : Coins) : ofNat? c.toNat = some c :=
  ofNat?_eq_some_iff.2 rfl

def isZero (c : Coins) : Bool := c.word == 0

@[simp] theorem isZero_iff {c : Coins} : c.isZero = true ↔ c.toNat = 0 := by
  rw [isZero, beq_iff_eq]
  exact ⟨fun h => congrArg UInt64.toNat h, fun h => UInt64.toNat_inj.1 h⟩

/-- What is left after taking `b`; nothing when `a` does not cover `b`. -/
def sub? (a b : Coins) : Option Coins :=
  if b ≤ a then some ⟨a.word - b.word⟩ else none

/-- Both amounts together; nothing when the sum leaves the range. -/
def add? (a b : Coins) : Option Coins :=
  if a.toNat + b.toNat < size then some ⟨a.word + b.word⟩ else none

/-- Subtraction that answers is exact. -/
theorem sub?_eq_some_iff {a b c : Coins} : a.sub? b = some c ↔ c.toNat + b.toNat = a.toNat := by
  unfold sub?
  split
  · next h =>
    have hle : b.toNat ≤ a.toNat := h
    have : (⟨a.word - b.word⟩ : Coins).toNat = a.toNat - b.toNat :=
      UInt64.toNat_sub_of_le _ _ (UInt64.le_iff_toNat_le.2 hle)
    rw [Option.some.injEq, ← toNat_inj, this]
    omega
  · next h =>
    have hle : ¬b.toNat ≤ a.toNat := h
    simp only [reduceCtorEq, false_iff]
    omega

/-- Subtraction refuses exactly a subtrahend that is not covered. -/
theorem sub?_eq_none_iff {a b : Coins} : a.sub? b = none ↔ a.toNat < b.toNat := by
  unfold sub?
  split
  · next h =>
    have hle : b.toNat ≤ a.toNat := h
    simp only [reduceCtorEq, false_iff]
    omega
  · next h =>
    have hle : ¬b.toNat ≤ a.toNat := h
    simp only [true_iff]
    omega

/-- Addition that answers is exact. -/
theorem add?_eq_some_iff {a b c : Coins} : a.add? b = some c ↔ c.toNat = a.toNat + b.toNat := by
  unfold add?
  split
  · next h =>
    have : (⟨a.word + b.word⟩ : Coins).toNat = a.toNat + b.toNat := by
      show (a.word + b.word).toNat = _
      rw [UInt64.toNat_add]
      exact Nat.mod_eq_of_lt h
    rw [Option.some.injEq, ← toNat_inj, this, eq_comm]
  · next h =>
    have := c.toNat_lt
    simp only [reduceCtorEq, false_iff]
    omega

/-- Addition refuses exactly a sum outside the range. -/
theorem add?_eq_none_iff {a b : Coins} : a.add? b = none ↔ size ≤ a.toNat + b.toNat := by
  unfold add?
  split
  · next h =>
    simp only [reduceCtorEq, false_iff]
    omega
  · next h =>
    simp only [true_iff]
    omega

/-- An amount that is covered can be taken. -/
theorem exists_sub? {a b : Coins} (h : b.toNat ≤ a.toNat) : ∃ c, a.sub? b = some c :=
  ⟨⟨a.word - b.word⟩, if_pos h⟩

/-- A sum within the range exists. -/
theorem exists_add? {a b : Coins} (h : a.toNat + b.toNat < size) : ∃ c, a.add? b = some c :=
  ⟨⟨a.word + b.word⟩, if_pos h⟩

/-- The decimal text of an amount. -/
def text (c : Coins) : String := toString c.toNat

end Coins

end CoinLedger
