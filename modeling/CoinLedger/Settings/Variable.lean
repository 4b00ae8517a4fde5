import CoinLedger.Text.Blank
import CoinLedger.Text.Decimal
/-!
# Values of environment variables

The text of a variable may be more than a text: a word for a truth value, a number, a list in
brackets, a table in braces, a character or a text in quotes. A text with commas that does not begin
like one of these is a list. Whatever cannot be read like this to its end is the text it is.

## Main definitions

* `Datum` — what a source gives for a setting.
* `Datum.ofVariable` — the value of a variable.
-/

namespace CoinLedger.Settings

open Text

/-- What a source gives for a setting. -/
inductive Datum where
  | text (s : String)
  | whole (n : Int)
  /-- A value of a kind that no setting takes. -/
  | unfit
  deriving DecidableEq, Repr

namespace Datum

/-- Whether a character is a blank of the notation for values. -/
def isGap (c : Char) : Bool := c = ' ' || c = '\t' || c = '\n' || c = '\r' || c = '\x0c'

/-- Skips blanks. -/
def skipGaps (s : List Char) : List Char := s.dropWhile isGap

/-- Whether a text is a number with a fraction or an exponent, or beyond all numbers. -/
def isFraction (s : List Char) : Bool :=
  let s :=
    match s with
    | '+' :: rest => rest
    | '-' :: rest => rest
    | s => s
  let word := s.map Char.toLower
  if word = "inf".toList || word = "infinity".toList || word = "nan".toList then true
  else
    let isExponent := fun c => c = 'e' || c = 'E'
    let mantissa := s.takeWhile fun c => !isExponent c
    let exponent := s.dropWhile fun c => !isExponent c
    let wholePart := mantissa.takeWhile (· ≠ '.')
    let fraction := (mantissa.dropWhile (· ≠ '.')).drop 1
    (wholePart ++ fraction).all Char.isDigit && wholePart ++ fraction ≠ [] &&
      (exponent = [] || (Decimal.readInt? exponent.tail).isSome)

/-- What a text without brackets and quotes says. -/
def ofPlain (s : List Char) : Datum :=
  let s := trim s
  if s = "true".toList || s = "false".toList then unfit
  else
    match Decimal.readInt? s with
    | some n => whole n
    | none => if isFraction s then unfit else text (String.ofList s)

/-- A text in quotes, from behind the first one. What is read already comes in reverse. -/
def quoted? (read : List Char) : List Char → Option (String × List Char)
  | [] => none
  | '"' :: rest => some (String.ofList read.reverse, rest)
  | ['\\'] => none
  | '\\' :: c :: rest =>
    let meant :=
      if c = '0' then '\x00' else if c = 'r' then '\r' else if c = 't' then '\t'
      else if c = 'n' then '\n' else c
    quoted? (meant :: read) rest
  | c :: rest => quoted? (c :: read) rest

/-- Whether a character is part of a text without quotes. -/
def isFree (c : Char) : Bool :=
  !(c = ',' || c = '\x7b' || c = '\x7d' || c = '[' || c = ']')

/-- Whether a character may stand in the key of a table. -/
def isKeyChar (c : Char) : Bool := c.isAlphanum || c = '_' || c = '-'

/-- What follows the key of a table. -/
def afterKey? (s : List Char) : Option (List Char) :=
  match s with
  | '"' :: rest => (quoted? [] rest).map Prod.snd
  | s => if s.takeWhile isKeyChar = [] then none else some (s.dropWhile isKeyChar)

mutual

/-- A value with the blanks around it, and what follows. The first argument bounds the number of
steps. -/
def value? : Nat → List Char → Option (Datum × List Char)
  | 0, _ => none
  | steps + 1, s =>
    let read : Option (Datum × List Char) :=
      match skipGaps s with
      | '\x7b' :: rest => (members? steps rest).map fun rest => (unfit, rest)
      | '[' :: rest => (items? steps rest).map fun rest => (unfit, rest)
      | '"' :: rest => (quoted? [] rest).map fun (t, rest) => (text t, rest)
      | '\'' :: c :: '\'' :: rest => some (text (String.ofList [c]), rest)
      | '\'' :: _ => none
      | s => some (ofPlain (s.takeWhile isFree), s.dropWhile isFree)
    read.map fun (v, rest) => (v, skipGaps rest)

def items? : Nat → List Char → Option (List Char)
  | 0, _ => none
  | _, ']' :: rest => some rest
  | steps + 1, s =>
    match value? steps s with
    | some (_, ',' :: rest) => items? steps rest
    | some (_, ']' :: rest) => some rest
    | _ => none

/-- What follows the members of a table. -/
def members? : Nat → List Char → Option (List Char)
  | 0, _ => none
  | _, '\x7d' :: rest => some rest
  | steps + 1, s =>
    match (afterKey? (skipGaps s)).map skipGaps with
    | some ('=' :: rest) =>
      match value? steps rest with
      | some (_, ',' :: rest) => members? steps rest
      | some (_, '\x7d' :: rest) => some rest
      | _ => none
    | _ => none

end

/-- What a variable says. -/
def ofVariable (value : String) : Datum :=
  let s := trim value.toList
  let structured :=
    match s.head? with
    | some c => c = '[' || c = '\x7b' || c = '"' || c = '\''
    | none => false
  if s.contains ',' && !structured then unfit
  else
    match value? (s.length + 1) s with
    | some (v, []) => v
    | _ => text (String.ofList s)

end Datum

end CoinLedger.Settings
