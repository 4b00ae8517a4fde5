import CoinLedger.Json.Reader
import CoinLedger.Proofs.Text.Utf8

/-!
# Written literals are read back

A literal is written character by character.  What a character becomes is one of three things, and
these are told apart by their first byte (`Written`): a short escape, a code unit in hex digits, or
the character's own bytes, among which there is no quote, no backslash and no control character.
Both stages of the reader go over a literal in these steps, so each of them needs one lemma about a
single character.

## Main results

* `written` — what a character becomes inside a literal.
* `literal?_quote` — a literal that was written is read back, whatever follows it.
-/

namespace CoinLedger.Json

open Text

/-! ## ASCII -/

theorem encode_cons_ascii {c : Char} (h : c.toNat < 0x80) (s : List Char) :
    Utf8.encode (c :: s) = byte c :: Utf8.encode s := by
  rw [Utf8.encode_cons, Utf8.utf8EncodeChar_ascii h]
  rfl

theorem toNat_byte {c : Char} (h : c.toNat < 0x80) : (byte c).toNat = c.toNat :=
  Utf8.toNat_ofNat (by omega)

theorem byte_inj {c d : Char} (hc : c.toNat < 0x80) (hd : d.toNat < 0x80) :
    byte c = byte d ↔ c = d := by
  constructor
  · intro h
    have codes : c.toNat = d.toNat := by rw [← toNat_byte hc, ← toNat_byte hd, h]
    rw [← Char.ofNat_toNat c, codes, Char.ofNat_toNat]
  · rintro rfl
    rfl

/-! ## What a character becomes -/

/-- The bytes that a character may become inside a literal. -/
inductive Written (c : Char) : List UInt8 → Prop where
  /-- A backslash and a letter. -/
  | short {e : UInt8} : String.utf8EncodeChar c = [byte c] → e ≠ byte 'u' →
      shortEscape? e = some (byte c) → Written c [byte '\\', e]
  /-- The code unit of a control character. -/
  | unit {h₁ h₂ h₃ h₄ : UInt8} : c.toNat < 0x20 → unit? h₁ h₂ h₃ h₄ = some c.toNat →
      Written c [byte '\\', byte 'u', h₁, h₂, h₃, h₄]
  /-- The character itself. -/
  | plain : (∀ b ∈ String.utf8EncodeChar c, b ≠ byte '"' ∧ b ≠ byte '\\' ∧ 0x20 ≤ b.toNat) →
      Written c (String.utf8EncodeChar c)

/-- A character that needs no escape has none of the bytes that mean something in a literal. -/
theorem plain_bytes {c : Char} (quote : c ≠ '"') (backslash : c ≠ '\\') (printable : 0x20 ≤ c.toNat)
    {b : UInt8} (hb : b ∈ String.utf8EncodeChar c) :
    b ≠ byte '"' ∧ b ≠ byte '\\' ∧ 0x20 ≤ b.toNat := by
  by_cases ascii : c.toNat < 0x80
  · rw [Utf8.utf8EncodeChar_ascii ascii] at hb
    obtain rfl : b = byte c := List.mem_singleton.1 hb
    refine ⟨fun h => quote ((byte_inj ascii (by decide)).1 h),
      fun h => backslash ((byte_inj ascii (by decide)).1 h), ?_⟩
    rw [toNat_byte ascii]
    exact printable
  · have high : 0x80 ≤ b.toNat := Utf8.le_of_mem_utf8EncodeChar (by omega) hb
    refine ⟨?_, ?_, by omega⟩
    · rintro rfl
      exact absurd high (by decide)
    · rintro rfl
      exact absurd high (by decide)

/-- The codes of control characters, as four hex digits. -/
theorem unit?_control {n : Nat} (h : n < 0x20) :
    unit? (byte '0') (byte '0') (byte (hexChar (n / 16))) (byte (hexChar (n % 16))) = some n := by
  have every : ∀ n < 0x20, unit? (byte '0') (byte '0') (byte (hexChar (n / 16)))
      (byte (hexChar (n % 16))) = some n := by
    decide
  exact every n h

theorem hexChar_ascii {n : Nat} (h : n < 16) : (hexChar n).toNat < 0x80 := by
  have every : ∀ n < 16, (hexChar n).toNat < 0x80 := by decide
  exact every n h

/-- **What a character becomes inside a literal.** -/
theorem written (c : Char) : Written c (Utf8.encode (escape c)) := by
  have short : ∀ d e : Char, String.utf8EncodeChar d = [byte d] → byte e ≠ byte 'u' →
      shortEscape? (byte e) = some (byte d) → c = d →
      Utf8.encode ['\\', e] = [byte '\\', byte e] → Written c (Utf8.encode ['\\', e]) := by
    rintro d e hd hu he rfl bytes
    rw [bytes]
    exact .short hd hu he
  unfold escape
  split
  · next h => exact short '"' '"' rfl (by decide) (by decide) h rfl
  split
  · next h => exact short '\\' '\\' rfl (by decide) (by decide) h rfl
  split
  · next h => exact short '\x08' 'b' rfl (by decide) (by decide) h rfl
  split
  · next h => exact short '\x0c' 'f' rfl (by decide) (by decide) h rfl
  split
  · next h => exact short '\n' 'n' rfl (by decide) (by decide) h rfl
  split
  · next h => exact short '\r' 'r' rfl (by decide) (by decide) h rfl
  split
  · next h => exact short '\t' 't' rfl (by decide) (by decide) h rfl
  split
  · next control =>
    have high : (hexChar (c.toNat / 16)).toNat < 0x80 := hexChar_ascii (by omega)
    have low : (hexChar (c.toNat % 16)).toNat < 0x80 := hexChar_ascii (by omega)
    rw [encode_cons_ascii (by decide), encode_cons_ascii (by decide), encode_cons_ascii (by decide),
      encode_cons_ascii (by decide), encode_cons_ascii high, encode_cons_ascii low]
    exact .unit control (unit?_control control)
  · next quote backslash _ _ _ _ _ control =>
    have own : Utf8.encode [c] = String.utf8EncodeChar c := by
      rw [Utf8.encode_cons]
      exact List.append_nil _
    rw [own]
    exact .plain fun b hb => plain_bytes quote backslash (by omega) hb

/-! ## Cutting a literal out -/

/-- Plain bytes are passed over. -/
theorem cutLiteral_plain {bytes : List UInt8}
    (plain : ∀ b ∈ bytes, b ≠ byte '"' ∧ b ≠ byte '\\' ∧ 0x20 ≤ b.toNat)
    (passed rest : List UInt8) :
    cutLiteral passed (bytes ++ rest) = cutLiteral (bytes.reverse ++ passed) rest := by
  induction bytes generalizing passed with
  | nil => rfl
  | cons b bs ih =>
    obtain ⟨quote, backslash, printable⟩ := plain b (List.mem_cons_self ..)
    rw [List.cons_append, cutLiteral.eq_def]
    dsimp only
    rw [if_neg quote, if_neg backslash, if_neg (by omega),
      ih (fun b' hb' => plain b' (List.mem_cons_of_mem _ hb')), List.reverse_cons,
      List.append_assoc]
    rfl

/-- What a character becomes is passed over as a whole. -/
theorem cutLiteral_written {c : Char} {bytes : List UInt8} (h : Written c bytes)
    (passed rest : List UInt8) :
    cutLiteral passed (bytes ++ rest) = cutLiteral (bytes.reverse ++ passed) rest := by
  cases h with
  | short own notUnit escaped =>
    show cutLiteral passed (byte '\\' :: _ :: rest) = _
    rw [cutLiteral.eq_def]
    dsimp only
    rw [if_neg (by decide), if_pos rfl, if_neg notUnit, escaped, if_pos Option.isSome_some]
    rfl
  | unit control unit =>
    show cutLiteral passed (byte '\\' :: byte 'u' :: _ :: _ :: _ :: _ :: rest) = _
    rw [cutLiteral.eq_def]
    dsimp only
    rw [if_neg (by decide), if_pos rfl, if_pos rfl, unit, if_pos Option.isSome_some]
    rfl
  | plain plain => exact cutLiteral_plain plain passed rest

theorem cutLiteral_quote (s : List Char) (passed rest : List UInt8) :
    cutLiteral passed (Utf8.encode (s.flatMap escape) ++ byte '"' :: rest) =
      some (passed.reverse ++ Utf8.encode (s.flatMap escape), rest) := by
  induction s generalizing passed with
  | nil =>
    show cutLiteral passed (byte '"' :: rest) = some (passed.reverse ++ [], rest)
    rw [cutLiteral.eq_def]
    dsimp only
    rw [if_pos rfl, List.append_nil]
  | cons c s ih =>
    rw [List.flatMap_cons, Utf8.encode_append, List.append_assoc,
      cutLiteral_written (written c), ih, List.reverse_append, List.reverse_reverse,
      List.append_assoc]

/-! ## Resolving the escapes -/

theorem resolveEscapes_plain {bytes : List UInt8} (plain : ∀ b ∈ bytes, b ≠ byte '\\')
    (read rest : List UInt8) :
    resolveEscapes read (bytes ++ rest) = resolveEscapes (bytes.reverse ++ read) rest := by
  induction bytes generalizing read with
  | nil => rfl
  | cons b bs ih =>
    rw [List.cons_append, resolveEscapes.eq_def]
    dsimp only
    rw [if_neg (plain b (List.mem_cons_self ..)),
      ih (fun b' hb' => plain b' (List.mem_cons_of_mem _ hb')), List.reverse_cons,
      List.append_assoc]
    rfl

/-- What a character becomes is resolved to the character's own bytes. -/
theorem resolveEscapes_written {c : Char} {bytes : List UInt8} (h : Written c bytes)
    (read rest : List UInt8) :
    resolveEscapes read (bytes ++ rest) =
      resolveEscapes ((String.utf8EncodeChar c).reverse ++ read) rest := by
  cases h with
  | short own notUnit escaped =>
    show resolveEscapes read (byte '\\' :: _ :: rest) = _
    rw [resolveEscapes.eq_def]
    dsimp only
    rw [if_pos rfl, if_neg notUnit, escaped, own]
    rfl
  | unit control unit =>
    have high : isHigh c.toNat = false := by
      unfold isHigh
      rw [Bool.and_eq_false_iff]
      left
      exact decide_eq_false (by omega)
    have low : isLow c.toNat = false := by
      unfold isLow
      rw [Bool.and_eq_false_iff]
      left
      exact decide_eq_false (by omega)
    show resolveEscapes read (byte '\\' :: byte 'u' :: _ :: _ :: _ :: _ :: rest) = _
    rw [resolveEscapes.eq_def]
    dsimp only
    rw [if_pos rfl, if_pos rfl, unit]
    dsimp only
    rw [high, if_neg Bool.false_ne_true, low, if_neg Bool.false_ne_true, pointBytes,
      Char.ofNat_toNat]
  | plain plain => exact resolveEscapes_plain (fun b hb => (plain b hb).2.1) read rest

theorem resolveEscapes_quote (s : List Char) (read : List UInt8) :
    resolveEscapes read (Utf8.encode (s.flatMap escape)) =
      some (read.reverse ++ Utf8.encode s) := by
  induction s generalizing read with
  | nil =>
    show resolveEscapes read [] = some (read.reverse ++ [])
    rw [resolveEscapes, List.append_nil]
  | cons c s ih =>
    rw [List.flatMap_cons, Utf8.encode_append, resolveEscapes_written (written c), ih,
      List.reverse_append, List.reverse_reverse, Utf8.encode_cons, List.append_assoc]

/-! ## Literals -/

theorem literalText?_quote (s : List Char) :
    literalText? (Utf8.encode (s.flatMap escape)) = some (String.ofList s) := by
  have bytes : resolveEscapes [] (Utf8.encode (s.flatMap escape)) = some (Utf8.encode s) :=
    resolveEscapes_quote s []
  simp only [literalText?, bytes, Option.bind_eq_bind, Option.bind_some, Utf8.decode?_encode]
  rfl

/-- **A literal that was written is read back**, whatever follows it. -/
theorem literal?_quote (s : List Char) (rest : List UInt8) :
    literal? (Utf8.encode (s.flatMap escape) ++ byte '"' :: rest) =
      some (some (String.ofList s), rest) := by
  have cut := cutLiteral_quote s [] rest
  unfold literal?
  rw [cut, List.reverse_nil, List.nil_append, Option.map_some]
  dsimp only
  rw [literalText?_quote]

end CoinLedger.Json
