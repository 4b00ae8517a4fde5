import CoinLedger.Proofs.Json.Literals

/-!
# Written numerals are read back

A numeral ends where its digits end, so it is read back if what follows it does not go on with it
(`Ends`): a digit, a fraction or an exponent.  Of its digits the first one is no zero unless it is
the only one, which is what the reader insists on.

## Main results

* `number?_numeral` — a numeral that was written is read back.
-/

namespace CoinLedger.Json

open Text

/-! ## Digits -/

/-- Whether bytes cannot be the rest of a numeral. -/
def Ends (rest : List UInt8) : Prop :=
  ∀ b ∈ rest.head?, isDigit b = false ∧ b ≠ byte '.' ∧ b ≠ byte 'e' ∧ b ≠ byte 'E'

theorem ends_nil : Ends [] := fun _ hb => nomatch hb

theorem ends_cons {b : UInt8} {rest : List UInt8}
    (h : isDigit b = false ∧ b ≠ byte '.' ∧ b ≠ byte 'e' ∧ b ≠ byte 'E') : Ends (b :: rest) := by
  intro b' hb'
  obtain rfl : b = b' := Option.some.inj hb'
  exact h

theorem code_of_isDigit {c : Char} (h : c.isDigit = true) : 0x30 ≤ c.toNat ∧ c.toNat ≤ 0x39 :=
  Char.isDigit_iff_toNat.1 h

theorem isDigit_byte {c : Char} (h : c.isDigit = true) : isDigit (byte c) = true := by
  have code := code_of_isDigit h
  have value : (byte c).toNat = c.toNat := toNat_byte (by omega)
  unfold isDigit
  rw [value, Bool.and_eq_true]
  exact ⟨decide_eq_true code.1, decide_eq_true code.2⟩

theorem encode_ascii {s : List Char} (h : ∀ c ∈ s, c.toNat < 0x80) :
    Utf8.encode s = s.map byte := Utf8.encode_ascii h

theorem asciiChars_map_byte {s : List Char} (h : ∀ c ∈ s, c.toNat < 0x80) :
    asciiChars (s.map byte) = s := Utf8.map_char_map_byte h

/-- The digits of a number. -/
abbrev digitsOf (n : Nat) : List Char := Nat.toDigits 10 n

theorem isDigit_of_mem_digitsOf {n : Nat} {c : Char} (h : c ∈ digitsOf n) : c.isDigit = true :=
  Nat.isDigit_of_mem_toDigits (by decide) (by decide) h

theorem ascii_of_mem_digitsOf {n : Nat} {c : Char} (h : c ∈ digitsOf n) : c.toNat < 0x80 := by
  have code := code_of_isDigit (isDigit_of_mem_digitsOf h)
  omega

/-- A positive number does not begin with a zero. -/
theorem digitsOf_pos {n : Nat} (h : 0 < n) :
    ∃ c rest, digitsOf n = c :: rest ∧ c ≠ '0' := by
  induction n using Nat.strongRecOn with
  | ind n ih =>
    unfold digitsOf
    rw [Nat.toDigits_eq_if (by decide)]
    by_cases single : n < 10
    · rw [if_pos single]
      refine ⟨n.digitChar, [], rfl, fun zero => ?_⟩
      have code : n.digitChar.toNat = 48 + n := Nat.toNat_digitChar_of_lt_ten single
      rw [zero] at code
      have : '0'.toNat = 48 := rfl
      omega
    · obtain ⟨c, rest, head, nonzero⟩ := ih (n / 10) (by omega) (by omega)
      have tens : Nat.toDigits 10 (n / 10) = c :: rest := head
      rw [if_neg single, tens]
      exact ⟨c, _, rfl, nonzero⟩

/-- The digits of a number are read up to their end. -/
theorem wholeDigits?_digitsOf (n : Nat) {rest : List UInt8} (ends : Ends rest) :
    wholeDigits? ((digitsOf n).map byte ++ rest) = some ((digitsOf n).map byte, rest) := by
  rcases Nat.eq_zero_or_pos n with rfl | positive
  · show wholeDigits? (byte '0' :: rest) = some ([byte '0'], rest)
    rw [wholeDigits?.eq_def]
    dsimp only
    rw [if_pos rfl]
    cases rest with
    | nil => rfl
    | cons d rest =>
      dsimp only
      rw [(ends d rfl).1, if_neg Bool.false_ne_true]
  · obtain ⟨c, ds, digits, nonzero⟩ := digitsOf_pos positive
    have digit : ∀ d ∈ c :: ds, d.isDigit = true := by
      intro d hd
      rw [← digits] at hd
      exact isDigit_of_mem_digitsOf hd
    have ascii : c.toNat < 0x80 := by
      have code := code_of_isDigit (digit c (List.mem_cons_self ..))
      omega
    have other : byte c ≠ byte '0' := fun h => nonzero ((byte_inj ascii (by decide)).1 h)
    have more : ∀ b ∈ ds.map byte, isDigit b = true := by
      intro b hb
      obtain ⟨d, hd, rfl⟩ := List.mem_map.1 hb
      exact isDigit_byte (digit d (List.mem_cons_of_mem _ hd))
    have taken : rest.takeWhile isDigit = [] := by
      cases rest with
      | nil => rfl
      | cons d rest => rw [List.takeWhile_cons, (ends d rfl).1, if_neg Bool.false_ne_true]
    have left : rest.dropWhile isDigit = rest := by
      cases rest with
      | nil => rfl
      | cons d rest => rw [List.dropWhile_cons, (ends d rfl).1, if_neg Bool.false_ne_true]
    rw [digits, List.map_cons, List.cons_append, wholeDigits?.eq_def]
    dsimp only
    rw [if_neg other, isDigit_byte (digit c (List.mem_cons_self ..)), if_pos rfl,
      List.takeWhile_append_of_pos more, List.dropWhile_append_of_pos more, taken, left,
      List.append_nil]

/-! ## Fractions and exponents -/

theorem fraction?_ends {rest : List UInt8} (ends : Ends rest) :
    fraction? rest = some ([], rest) := by
  cases rest with
  | nil => rfl
  | cons b rest => rw [fraction?, if_neg (ends b rfl).2.1]

theorem exponent?_ends {rest : List UInt8} (ends : Ends rest) :
    exponent? rest = some ([], rest) := by
  cases rest with
  | nil => rfl
  | cons b rest =>
    have none : ¬(b = byte 'e' ∨ b = byte 'E') := by
      rintro (h | h)
      · exact (ends b rfl).2.2.1 h
      · exact (ends b rfl).2.2.2 h
    rw [exponent?.eq_def]
    dsimp only
    rw [if_neg none]

/-! ## Numerals -/

theorem value_digitsOf (n : Nat) :
    Nat.ofDigitChars 10 (asciiChars ((digitsOf n).map byte)) 0 = n := by
  rw [asciiChars_map_byte fun c hc => ascii_of_mem_digitsOf hc]
  exact Nat.ofDigitChars_toDigits (by decide) (by decide)

/-- The first byte of a number is a digit. -/
theorem digitsOf_eq_cons (n : Nat) :
    ∃ c rest, digitsOf n = c :: rest ∧ c.isDigit = true := by
  cases digits : digitsOf n with
  | nil => exact absurd digits Nat.toDigits_ne_nil
  | cons c rest =>
    exact ⟨c, rest, rfl, isDigit_of_mem_digitsOf (digits ▸ List.mem_cons_self ..)⟩

/-- **A numeral that was written is read back**, unless what follows goes on with it. -/
theorem number?_numeral (n : Int) {rest : List UInt8} (ends : Ends rest) :
    number? (Utf8.encode (numeral n) ++ rest) = some (.whole n, rest) := by
  cases n with
  | ofNat n =>
    have bytes : Utf8.encode (numeral (.ofNat n)) = (digitsOf n).map byte :=
      encode_ascii fun c hc => ascii_of_mem_digitsOf hc
    have positive : ¬((digitsOf n).map byte ++ rest).head? = some (byte '-') := by
      obtain ⟨c, ds, digits, digit⟩ := digitsOf_eq_cons n
      have code := code_of_isDigit digit
      rw [digits]
      intro h
      have minus : c = '-' := (byte_inj (by omega) (by decide)).1 (Option.some.inj h)
      subst minus
      exact absurd digit (by decide)
    rw [bytes]
    simp only [number?, positive, if_false, wholeDigits?_digitsOf n ends, fraction?_ends ends,
      exponent?_ends ends, Option.bind_eq_bind, Option.bind_some, value_digitsOf, false_and,
      not_false_eq_true, and_self, if_true]
    rfl
  | negSucc n =>
    have bytes : Utf8.encode (numeral (.negSucc n)) = byte '-' :: (digitsOf (n + 1)).map byte := by
      show Utf8.encode ('-' :: digitsOf (n + 1)) = _
      rw [encode_cons_ascii (by decide), encode_ascii fun c hc => ascii_of_mem_digitsOf hc]
    rw [bytes, List.cons_append]
    simp only [number?, List.head?_cons, if_true, List.tail_cons,
      wholeDigits?_digitsOf (n + 1) ends, fraction?_ends ends, exponent?_ends ends,
      Option.bind_eq_bind, Option.bind_some, value_digitsOf, Nat.add_one_ne_zero, and_false,
      not_false_eq_true, and_self]
    rfl

end CoinLedger.Json
