/-!
# Decimal numerals

A numeral is one or more ASCII digits; leading zeros are allowed and its length is not limited. A
signed numeral may have one `+` or `-` in front. Written numbers have no leading zeros.

## Main results

* `readNat?_toDigits` — what is written is read back.
* `readNat?_eq_some_iff`, `readInt?_eq_some_iff` — which texts are numerals.
-/

namespace CoinLedger.Text.Decimal

/-- The number a numeral denotes. -/
def readNat? (s : List Char) : Option Nat :=
  if s ≠ [] ∧ s.all Char.isDigit then some (Nat.ofDigitChars 10 s 0) else none

/-- The number a signed numeral denotes. -/
def readInt? : List Char → Option Int
  | '+' :: s => (readNat? s).map Int.ofNat
  | '-' :: s => (readNat? s).map fun n => -Int.ofNat n
  | s => (readNat? s).map Int.ofNat

theorem readNat?_eq_some_iff {s : List Char} {n : Nat} :
    readNat? s = some n ↔
      s ≠ [] ∧ (∀ c ∈ s, c.isDigit = true) ∧ Nat.ofDigitChars 10 s 0 = n := by
  unfold readNat?
  split
  · next h => simp_all
  · next h =>
    simp only [reduceCtorEq, false_iff]
    rintro ⟨h₁, h₂, -⟩
    exact h ⟨h₁, List.all_eq_true.2 h₂⟩

/-- A signed numeral is a numeral with at most one sign in front. -/
theorem readInt?_eq_some_iff {s : List Char} {n : Int} :
    readInt? s = some n ↔ ∃ digits m, readNat? digits = some m ∧
      (n = (m : Int) ∧ (s = digits ∨ s = '+' :: digits) ∨ n = -(m : Int) ∧ s = '-' :: digits) := by
  constructor
  · intro h
    unfold readInt? at h
    split at h
    · obtain ⟨m, hm, rfl⟩ := Option.map_eq_some_iff.1 h
      exact ⟨_, m, hm, .inl ⟨rfl, .inr rfl⟩⟩
    · obtain ⟨m, hm, rfl⟩ := Option.map_eq_some_iff.1 h
      exact ⟨_, m, hm, .inr ⟨rfl, rfl⟩⟩
    · obtain ⟨m, hm, rfl⟩ := Option.map_eq_some_iff.1 h
      exact ⟨_, m, hm, .inl ⟨rfl, .inl rfl⟩⟩
  · rintro ⟨digits, m, hm, ⟨rfl, rfl | rfl⟩ | ⟨rfl, rfl⟩⟩
    · -- A sign is no digit, so a numeral does not begin with one.
      have digit := (readNat?_eq_some_iff.1 hm).2.1
      unfold readInt?
      split
      · exact absurd (digit '+' List.mem_cons_self) (by decide)
      · exact absurd (digit '-' List.mem_cons_self) (by decide)
      · rw [hm]
        rfl
    · rw [readInt?, hm]
      rfl
    · rw [readInt?, hm]
      rfl

@[simp] theorem readNat?_toDigits (n : Nat) : readNat? (Nat.toDigits 10 n) = some n := by
  rw [readNat?_eq_some_iff]
  refine ⟨?_, fun c hc => Nat.isDigit_of_mem_toDigits (by decide) (by decide) hc,
    Nat.ofDigitChars_toDigits (by decide) (by decide)⟩
  rw [Nat.toDigits_eq_if (by decide)]
  split <;> simp

end CoinLedger.Text.Decimal
