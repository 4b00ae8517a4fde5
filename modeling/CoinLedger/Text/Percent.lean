import CoinLedger.Text.Hex
import CoinLedger.Text.Utf8
/-!
# Percent escapes

In a URL, `%` followed by two hex digits stands for a byte. `decode` replaces escapes from left to
right, except those whose byte is kept: such an escape, and a `%` that no two hex digits follow,
stay as they are. `encode` writes the bytes of a text, with an escape for every byte that may not
stand for itself.

## Main results

* `decode_encode` — decoding an encoded text gives its bytes, if `%` is always escaped.
-/

namespace CoinLedger.Text.Percent

/-- The byte that an escape with these two digits stands for. -/
def escaped? (high low : UInt8) : Option UInt8 := do
  let h ← Hex.value? high
  let l ← Hex.value? low
  pure (UInt8.ofNat (h * 16 + l))

/-- The byte `%`. -/
abbrev mark : UInt8 := 0x25

/-- Replaces escapes by their bytes, those of kept bytes excepted, behind what is decoded already
in reverse. -/
def decodeAfter (keep : UInt8 → Bool) (decoded : List UInt8) : List UInt8 → List UInt8
  | b :: h :: l :: rest =>
    match (if b = mark then (escaped? h l).filter (fun c => !keep c) else none) with
    | some c => decodeAfter keep (c :: decoded) rest
    | none => decodeAfter keep (b :: decoded) (h :: l :: rest)
  | [a, b] => decoded.reverse ++ [a, b]
  | [a] => decoded.reverse ++ [a]
  | [] => decoded.reverse

/-- Replaces escapes by their bytes, those of kept bytes excepted. -/
def decode (keep : UInt8 → Bool) (s : List UInt8) : List UInt8 := decodeAfter keep [] s

/-- The upper-case hex digit of a value below sixteen. -/
def hexDigit (n : Nat) : UInt8 := UInt8.ofNat (if n < 10 then 0x30 + n else 0x37 + n)

/-- The escape of a byte. -/
def escape (b : UInt8) : List UInt8 := [mark, hexDigit (b.toNat / 16), hexDigit (b.toNat % 16)]

/-- Writes bytes, with an escape for each that must not stand for itself. -/
def encode (special : UInt8 → Bool) (s : List UInt8) : List UInt8 :=
  s.flatMap fun b => if special b then escape b else [b]

/-! ## Reading back -/

theorem escaped?_hexDigit (b : UInt8) :
    escaped? (hexDigit (b.toNat / 16)) (hexDigit (b.toNat % 16)) = some b := by
  have h : ∀ n : Fin 256, escaped? (hexDigit (n.val / 16)) (hexDigit (n.val % 16)) =
      some (UInt8.ofNat n.val) := by decide +kernel
  have := h ⟨b.toNat, b.toNat_lt⟩
  simpa using this

theorem decodeAfter_eq (keep : UInt8 → Bool) (decoded s : List UInt8) :
    decodeAfter keep decoded s = decoded.reverse ++ decode keep s := by
  suffices h : ∀ n, ∀ s : List UInt8, s.length ≤ n → ∀ decoded,
      decodeAfter keep decoded s = decoded.reverse ++ decodeAfter keep [] s from
    h s.length s (Nat.le_refl _) decoded
  intro n
  induction n with
  | zero =>
    intro s hs decoded
    obtain rfl : s = [] := List.length_eq_zero_iff.1 (Nat.le_zero.1 hs)
    simp [decodeAfter]
  | succ n ih =>
    intro s hs decoded
    match s with
    | [] => simp [decodeAfter]
    | [a] => simp [decodeAfter]
    | [a, b] => simp [decodeAfter]
    | b :: h :: l :: rest =>
      simp only [List.length_cons] at hs
      simp only [decodeAfter]
      split
      · rw [ih rest (by omega), ih rest (by omega) [_]]
        simp
      · rw [ih _ (by simp only [List.length_cons]; omega),
          ih _ (by simp only [List.length_cons]; omega) [_]]
        simp

/-- A byte other than `%` stands for itself. -/
theorem decode_cons_of_ne (keep : UInt8 → Bool) {b : UInt8} (hb : b ≠ mark) (s : List UInt8) :
    decode keep (b :: s) = b :: decode keep s := by
  match s with
  | [] => simp [decode, decodeAfter]
  | [a] => simp [decode, decodeAfter]
  | h :: l :: rest =>
    rw [decode, decodeAfter, if_neg hb]
    exact decodeAfter_eq keep [b] _

/-- An escape stands for its byte. -/
theorem decode_escape (b : UInt8) (s : List UInt8) :
    decode (fun _ => false) (escape b ++ s) = b :: decode (fun _ => false) s := by
  rw [escape, decode]
  simp only [List.cons_append, List.nil_append, decodeAfter, escaped?_hexDigit]
  simp [decodeAfter_eq, Option.filter]

/-- Decoding what was encoded gives the bytes back, if `%` is always escaped. -/
theorem decode_encode {special : UInt8 → Bool} (h : special mark = true) (s : List UInt8) :
    decode (fun _ => false) (encode special s) = s := by
  induction s with
  | nil => rfl
  | cons b s ih =>
    rw [encode, List.flatMap_cons, ← encode]
    split
    · rw [decode_escape, ih]
    · next hb =>
      have hne : b ≠ mark := by
        rintro rfl
        exact hb h
      rw [List.singleton_append, decode_cons_of_ne _ hne, ih]

end CoinLedger.Text.Percent
