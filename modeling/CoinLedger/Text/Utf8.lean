/-!
# UTF-8

Texts travel as bytes. A byte sequence is cut into pieces: characters, and ill-formed runs. A run
is as long as a well-formed character could have begun with it and at least one byte long.
`decode?` accepts a sequence only if every piece is a character; `decodeLossy` puts U+FFFD in the
place of each ill-formed run.

## Main results

* `piece_length_le` — cutting a piece off leaves fewer bytes, so decoding ends.
* `decodeLossy_eq_of_decode?` — on well-formed bytes both decoders agree.
-/

namespace CoinLedger.Text.Utf8

/-- The bytes of a text. -/
def encode (s : List Char) : List UInt8 := s.flatMap String.utf8EncodeChar

/-- The rest of a character, whose leading bits are known: each range bounds one more byte, which
adds six bits. A byte out of its range ends an ill-formed run and is not part of it. -/
def continuation (bits : Nat) : List (Nat × Nat) → List UInt8 → Option Char × List UInt8
  | [], rest => (some (Char.ofNat bits), rest)
  | _ :: _, [] => (none, [])
  | (low, high) :: more, b :: rest =>
    if low ≤ b.toNat ∧ b.toNat ≤ high then
      continuation (bits * 64 + b.toNat % 64) more rest
    else (none, b :: rest)

/-- The first piece of a sequence that begins with a given byte. Overlong forms, surrogates and
code points above U+10FFFF are ruled out by the range of the second byte. -/
def piece (first : UInt8) (rest : List UInt8) : Option Char × List UInt8 :=
  let n := first.toNat
  if n < 0x80 then (some (Char.ofNat n), rest)
  else if n < 0xC2 then (none, rest)
  else if n < 0xE0 then continuation (n % 32) [(0x80, 0xBF)] rest
  else if n < 0xF0 then
    continuation (n % 16)
      [(if n = 0xE0 then 0xA0 else 0x80, if n = 0xED then 0x9F else 0xBF), (0x80, 0xBF)] rest
  else if n < 0xF5 then
    continuation (n % 8)
      [(if n = 0xF0 then 0x90 else 0x80, if n = 0xF4 then 0x8F else 0xBF), (0x80, 0xBF),
        (0x80, 0xBF)] rest
  else (none, rest)

theorem continuation_length_le (bits : Nat) (ranges : List (Nat × Nat)) (s : List UInt8) :
    (continuation bits ranges s).2.length ≤ s.length := by
  fun_induction continuation bits ranges s with
  | case1 => exact Nat.le_refl _
  | case2 => exact Nat.le_refl _
  | case3 _ _ _ _ _ _ _ ih => exact Nat.le_succ_of_le ih
  | case4 => exact Nat.le_refl _

theorem piece_length_le (b : UInt8) (rest : List UInt8) :
    (piece b rest).2.length ≤ rest.length := by
  unfold piece
  dsimp only
  split
  · exact Nat.le_refl _
  split
  · exact Nat.le_refl _
  split
  · exact continuation_length_le _ _ _
  split
  · exact continuation_length_le _ _ _
  split
  · exact continuation_length_le _ _ _
  · exact Nat.le_refl _

/-- The pieces of a sequence, in front of which those already cut off stand in reverse. -/
def piecesAfter (cut : List (Option Char)) : List UInt8 → List (Option Char)
  | [] => cut.reverse
  | b :: rest => piecesAfter ((piece b rest).1 :: cut) (piece b rest).2
termination_by s => s.length
decreasing_by
  have := piece_length_le b rest
  simp only [List.length_cons]
  omega

/-- The pieces of a sequence: `none` for each ill-formed run. -/
def pieces (s : List UInt8) : List (Option Char) := piecesAfter [] s

/-- Stands in the place of bytes that are no text. -/
def replacement : Char := '\uFFFD'

/-- The text of well-formed bytes. -/
def decode? (s : List UInt8) : Option (List Char) :=
  if (pieces s).all Option.isSome then some ((pieces s).filterMap id) else none

/-- The text of any bytes, with U+FFFD for each ill-formed run. -/
def decodeLossy (s : List UInt8) : List Char :=
  (pieces s).map (·.getD replacement)

private theorem piecesAfter_of_length_le (n : Nat) (s : List UInt8) (h : s.length ≤ n)
    (cut : List (Option Char)) : piecesAfter cut s = cut.reverse ++ piecesAfter [] s := by
  induction n generalizing s cut with
  | zero =>
    obtain rfl : s = [] := List.length_eq_zero_iff.1 (Nat.le_zero.1 h)
    simp [piecesAfter]
  | succ n ih =>
    cases s with
    | nil => simp [piecesAfter]
    | cons b rest =>
      have hle : (piece b rest).2.length ≤ n := by
        have := piece_length_le b rest
        simp only [List.length_cons] at h
        omega
      rw [piecesAfter, ih _ hle, piecesAfter, ih _ hle [_]]
      simp

@[simp] theorem pieces_nil : pieces [] = [] := by simp [pieces, piecesAfter]

/-- The first piece, and the pieces of what it leaves. -/
theorem pieces_cons (b : UInt8) (rest : List UInt8) :
    pieces (b :: rest) = (piece b rest).1 :: pieces (piece b rest).2 := by
  rw [pieces, piecesAfter, piecesAfter_of_length_le _ _ (Nat.le_refl _)]
  rfl

/-- On well-formed bytes both decoders agree. -/
theorem decodeLossy_eq_of_decode? {s : List UInt8} {t : List Char} (h : decode? s = some t) :
    decodeLossy s = t := by
  unfold decode? at h
  split at h
  · next hall =>
    cases h
    unfold decodeLossy
    generalize pieces s = ps at hall
    induction ps with
    | nil => rfl
    | cons p ps ih =>
      cases p with
      | none => simp at hall
      | some c => simpa using ih (by simpa using hall)
  · cases h

end CoinLedger.Text.Utf8
