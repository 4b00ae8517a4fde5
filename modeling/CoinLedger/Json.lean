import CoinLedger.Text.Decimal
/-!
# JSON values and how they are written

A value is written without blanks. In a text, the quote, the backslash and the control characters
below U+0020 are escaped and nothing else is; members of an object stand in the order given.

A text read from outside may hold escapes that are no characters, or bytes that are no UTF-8. Such
a literal is well-formed JSON, but it has no text: `Value.text none`.

## Main definitions

* `Json.Value` — values; of numbers only whole ones are told apart.
* `Json.Value.render` — the compact form.
-/

namespace CoinLedger.Json

/-- A number: a whole one written without fraction and exponent, or any other as it is written. The
numeral `-0` is not a whole number. -/
inductive Number where
  | whole (n : Int)
  | other (written : String)
  deriving DecidableEq, Repr

/-- A JSON value. -/
inductive Value where
  | null
  | bool (b : Bool)
  | number (n : Number)
  /-- A text literal; `none` if it has no text. -/
  | text (s : Option String)
  | array (items : List Value)
  | object (members : List (Option String × Value))
  deriving Repr

namespace Value

instance : Inhabited Value := ⟨null⟩

def nat (n : Nat) : Value := .number (.whole n)

def str (s : String) : Value := .text (some s)

/-- An object whose member names are texts. -/
def obj (members : List (String × Value)) : Value :=
  .object (members.map fun m => (some m.1, m.2))

end Value

/-! ## Writing -/

/-- The lower-case hex digit of a value below sixteen. -/
def hexChar (n : Nat) : Char := Nat.digitChar n

/-- A character inside a text literal. -/
def escape (c : Char) : List Char :=
  if c = '"' then ['\\', '"']
  else if c = '\\' then ['\\', '\\']
  else if c = '\x08' then ['\\', 'b']
  else if c = '\x0c' then ['\\', 'f']
  else if c = '\n' then ['\\', 'n']
  else if c = '\r' then ['\\', 'r']
  else if c = '\t' then ['\\', 't']
  else if c.toNat < 0x20 then
    ['\\', 'u', '0', '0', hexChar (c.toNat / 16), hexChar (c.toNat % 16)]
  else [c]

/-- A text literal. -/
def quote (s : List Char) : List Char := '"' :: s.flatMap escape ++ ['"']

/-- A whole number: its digits, after a minus sign if it is negative. -/
def numeral : Int → List Char
  | .ofNat n => Nat.toDigits 10 n
  | .negSucc n => '-' :: Nat.toDigits 10 (n + 1)

mutual

/-- The compact form of a value. A literal without a text is written as the empty one. -/
def Value.chars : Value → List Char
  | .null => ['n', 'u', 'l', 'l']
  | .bool true => ['t', 'r', 'u', 'e']
  | .bool false => ['f', 'a', 'l', 's', 'e']
  | .number (.whole n) => numeral n
  | .number (.other written) => written.toList
  | .text s => quote (s.getD "").toList
  | .array items => '[' :: itemChars items ++ [']']
  | .object members => '\x7b' :: memberChars members ++ ['\x7d']

/-- Items of an array with commas between them. -/
def itemChars : List Value → List Char
  | [] => []
  | [v] => v.chars
  | v :: rest => v.chars ++ ',' :: itemChars rest

/-- Members of an object with commas between them. -/
def memberChars : List (Option String × Value) → List Char
  | [] => []
  | [(k, v)] => quote (k.getD "").toList ++ ':' :: v.chars
  | (k, v) :: rest => quote (k.getD "").toList ++ ':' :: v.chars ++ ',' :: memberChars rest

end

/-- The compact form of a value. -/
def Value.render (v : Value) : String := String.ofList v.chars

end CoinLedger.Json
