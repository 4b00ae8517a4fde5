import CoinLedger.Json
import CoinLedger.Text.Hex
import CoinLedger.Text.Utf8
/-!
# Reading JSON

The reader works on bytes and is strict: blanks are space, tab, line feed and carriage return;
numerals have no leading zeros; control characters inside literals and trailing commas are
refused; nothing but blanks may follow the value. How deep values are nested is not limited.

A literal is first cut out, by its escapes alone, and then read. A cut that has no text, because
its bytes are no UTF-8 or because an escape is half of a surrogate pair, is still a literal; only
who needs its text has to refuse it.

## Main definitions

* `Json.parse?` — the value of a whole byte sequence.
* `Json.cutLiteral`, `Json.literalText?` — the two stages of reading a literal.
-/

namespace CoinLedger.Json

open Text

/-- The byte of an ASCII character. -/
def byte (c : Char) : UInt8 := UInt8.ofNat c.toNat

def skipBlanks (s : List UInt8) : List UInt8 :=
  s.dropWhile fun b => b = byte ' ' || b = byte '\t' || b = byte '\n' || b = byte '\r'

/-! ## Literals -/

/-- The code unit that four hex digits denote. -/
def unit? (a b c d : UInt8) : Option Nat := do
  let high := (← Hex.value? a) * 16 + (← Hex.value? b)
  pure ((high * 16 + (← Hex.value? c)) * 16 + (← Hex.value? d))

/-- What a one-letter escape stands for. -/
def shortEscape? (b : UInt8) : Option UInt8 :=
  if b = byte '"' ∨ b = byte '\\' ∨ b = byte '/' then some b
  else if b = byte 'b' then some 0x08
  else if b = byte 'f' then some 0x0C
  else if b = byte 'n' then some 0x0A
  else if b = byte 'r' then some 0x0D
  else if b = byte 't' then some 0x09
  else none

/-- Cuts at the closing quote: what stands before it, as written, and what follows it. The bytes
already passed come in reverse. -/
def cutLiteral (passed : List UInt8) : List UInt8 → Option (List UInt8 × List UInt8)
  | [] => none
  | b :: rest =>
    if b = byte '"' then some (passed.reverse, rest)
    else if b = byte '\\' then
      match rest with
      | [] => none
      | e :: rest =>
        if e = byte 'u' then
          match rest with
          | h₁ :: h₂ :: h₃ :: h₄ :: rest =>
            if (unit? h₁ h₂ h₃ h₄).isSome then
              cutLiteral (h₄ :: h₃ :: h₂ :: h₁ :: e :: b :: passed) rest
            else none
          | _ => none
        else if (shortEscape? e).isSome then cutLiteral (e :: b :: passed) rest
        else none
    else if b.toNat < 0x20 then none
    else cutLiteral (b :: passed) rest

def pointBytes (n : Nat) : List UInt8 := (String.utf8EncodeChar (Char.ofNat n)).reverse

/-- Whether a code unit is the first half of a surrogate pair. -/
def isHigh (n : Nat) : Bool := 0xD800 ≤ n && n ≤ 0xDBFF

/-- Whether a code unit is the second half of a surrogate pair. -/
def isLow (n : Nat) : Bool := 0xDC00 ≤ n && n ≤ 0xDFFF

/-- The code point of a surrogate pair. -/
def pairPoint (high low : Nat) : Nat := 0x10000 + (high - 0xD800) * 0x400 + (low - 0xDC00)

/-- The bytes that a literal as written stands for; `none` if half a surrogate pair is among its
escapes. The bytes already read come in reverse. -/
def resolveEscapes (read : List UInt8) : List UInt8 → Option (List UInt8)
  | [] => some read.reverse
  | b :: rest =>
    if b = byte '\\' then
      match rest with
      | e :: rest =>
        if e = byte 'u' then
          match rest with
          | h₁ :: h₂ :: h₃ :: h₄ :: rest =>
            match unit? h₁ h₂ h₃ h₄ with
            | none => none
            | some u =>
              if isHigh u then
                match rest with
                | _ :: _ :: l₁ :: l₂ :: l₃ :: l₄ :: rest' =>
                  match unit? l₁ l₂ l₃ l₄ with
                  | none => none
                  | some v =>
                    if rest.take 2 = [byte '\\', byte 'u'] && isLow v then
                      resolveEscapes (pointBytes (pairPoint u v) ++ read) rest'
                    else none
                | _ => none
              else if isLow u then none
              else resolveEscapes (pointBytes u ++ read) rest
          | _ => none
        else
          match shortEscape? e with
          | some c => resolveEscapes (c :: read) rest
          | none => none
      | [] => none
    else resolveEscapes (b :: read) rest

/-- The text of a literal, from what stands between its quotes. -/
def literalText? (written : List UInt8) : Option String := do
  let bytes ← resolveEscapes [] written
  let chars ← Utf8.decode? bytes
  pure (String.ofList chars)

/-- A literal behind its opening quote. -/
def literal? (s : List UInt8) : Option (Option String × List UInt8) :=
  (cutLiteral [] s).map fun (written, rest) => (literalText? written, rest)

/-! ## Numbers -/

/-- Whether a byte is a digit. -/
def isDigit (b : UInt8) : Bool := 0x30 ≤ b.toNat && b.toNat ≤ 0x39

/-- The characters of ASCII bytes. -/
def asciiChars (s : List UInt8) : List Char := s.map fun b => Char.ofNat b.toNat

/-- The digits of a whole number without a leading zero, and what follows. -/
def wholeDigits? : List UInt8 → Option (List UInt8 × List UInt8)
  | [] => none
  | b :: rest =>
    if b = byte '0' then
      match rest with
      | d :: _ => if isDigit d then none else some ([b], rest)
      | [] => some ([b], [])
    else if isDigit b then some (b :: rest.takeWhile isDigit, rest.dropWhile isDigit)
    else none

/-- One or more digits, and what follows. -/
def digits? (s : List UInt8) : Option (List UInt8 × List UInt8) :=
  match s.takeWhile isDigit with
  | [] => none
  | d :: ds => some (d :: ds, s.dropWhile isDigit)

/-- A fraction, if there is one: what it is written with, and what follows. -/
def fraction? : List UInt8 → Option (List UInt8 × List UInt8)
  | b :: rest =>
    if b = byte '.' then (digits? rest).map fun (ds, r) => (b :: ds, r) else some ([], b :: rest)
  | [] => some ([], [])

/-- An exponent, if there is one: what it is written with, and what follows. -/
def exponent? : List UInt8 → Option (List UInt8 × List UInt8)
  | b :: rest =>
    if b = byte 'e' ∨ b = byte 'E' then
      match rest with
      | c :: rest' =>
        if c = byte '+' ∨ c = byte '-' then
          (digits? rest').map fun (ds, r) => (b :: c :: ds, r)
        else (digits? rest).map fun (ds, r) => (b :: ds, r)
      | [] => none
    else some ([], b :: rest)
  | [] => some ([], [])

/-- A number, and what follows it. -/
def number? (s : List UInt8) : Option (Number × List UInt8) := do
  let negative := s.head? = some (byte '-')
  let (ds, r₁) ← wholeDigits? (if negative then s.tail else s)
  let (fs, r₂) ← fraction? r₁
  let (es, r₃) ← exponent? r₂
  let n := Nat.ofDigitChars 10 (asciiChars ds) 0
  if fs = [] ∧ es = [] ∧ ¬(negative ∧ n = 0) then
    pure (.whole (if negative then -Int.ofNat n else Int.ofNat n), r₃)
  else
    let sign := if negative then [byte '-'] else []
    pure (.other (String.ofList (asciiChars (sign ++ ds ++ fs ++ es))), r₃)

/-! ## Values -/

/-- Reads one of the three words. -/
def word? (w : String) (v : Value) (s : List UInt8) : Option (Value × List UInt8) :=
  let bytes := w.toList.map byte
  if s.take bytes.length = bytes then some (v, s.drop bytes.length) else none

mutual

/-- A value, blanks before it included, and what follows it. The first argument bounds the number
of steps. -/
def value? : Nat → List UInt8 → Option (Value × List UInt8)
  | 0, _ => none
  | fuel + 1, s =>
    match skipBlanks s with
    | [] => none
    | b :: rest =>
      if b = byte '"' then (literal? rest).map fun (t, r) => (.text t, r)
      else if b = byte '\x7b' then
        match skipBlanks rest with
        | c :: r => if c = byte '\x7d' then some (.object [], r) else members? fuel [] (c :: r)
        | [] => none
      else if b = byte '[' then
        match skipBlanks rest with
        | c :: r => if c = byte ']' then some (.array [], r) else items? fuel [] (c :: r)
        | [] => none
      else if b = byte 't' then word? "true" (.bool true) (b :: rest)
      else if b = byte 'f' then word? "false" (.bool false) (b :: rest)
      else if b = byte 'n' then word? "null" .null (b :: rest)
      else (number? (b :: rest)).map fun (n, r) => (.number n, r)

/-- The items of an array up to its end; those already read come in reverse. -/
def items? : Nat → List Value → List UInt8 → Option (Value × List UInt8)
  | 0, _, _ => none
  | fuel + 1, read, s =>
    match value? fuel s with
    | none => none
    | some (v, rest) =>
      match skipBlanks rest with
      | [] => none
      | b :: r =>
        if b = byte ',' then items? fuel (v :: read) r
        else if b = byte ']' then some (.array (v :: read).reverse, r)
        else none

/-- The members of an object up to its end; those already read come in reverse. -/
def members? : Nat → List (Option String × Value) → List UInt8 → Option (Value × List UInt8)
  | 0, _, _ => none
  | fuel + 1, read, s =>
    match skipBlanks s with
    | [] => none
    | q :: afterQuote =>
      if q = byte '"' then
        match literal? afterQuote with
        | none => none
        | some (k, rest) =>
          match skipBlanks rest with
          | [] => none
          | colon :: afterColon =>
            if colon = byte ':' then
              match value? fuel afterColon with
              | none => none
              | some (v, rest) =>
                match skipBlanks rest with
                | [] => none
                | b :: r =>
                  if b = byte ',' then members? fuel ((k, v) :: read) r
                  else if b = byte '\x7d' then some (.object ((k, v) :: read).reverse, r)
                  else none
            else none
      else none

end

/-- The value that a byte sequence holds, with nothing but blanks around it. A step takes at most
two units of fuel per byte. -/
def parse? (s : List UInt8) : Option Value :=
  match value? (2 * s.length + 2) s with
  | some (v, rest) => if skipBlanks rest = [] then some v else none
  | none => none

end CoinLedger.Json
