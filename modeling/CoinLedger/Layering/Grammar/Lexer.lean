import CoinLedger.Layering.Grammar.Letters
import CoinLedger.Layering.Grammar.Token
import CoinLedger.Text.Blank
import CoinLedger.Text.Hex
/-!
# Cutting a text into tokens

Blanks and comments part tokens and are dropped, except comments that document what follows or
what is around: these are attributes in another spelling. What is no token, and a bracket without a
partner, is refused.

## Main definitions

* `lexemes?` — the tokens of a text before brackets are paired.
* `tokens?` — the tokens of a text.
-/

namespace CoinLedger.Layering.Grammar.Lexer

open Text

/-- Whether a text begins with another one. -/
def begins (start : String) (s : List Char) : Bool := start.toList.isPrefixOf s

/-- A step of the lexer: what was read, and the text behind it. -/
abbrev Cut (α : Type) := Option (α × List Char)

/-! ## Blanks and comments -/

/-- Whether a character parts tokens. -/
def isGap (c : Char) : Bool := isBlank c || c = '\u200e' || c = '\u200f'

/-- The text of a line, and what follows from its end on. -/
def line : List Char → List Char × List Char
  | [] => ([], [])
  | '\n' :: rest => ([], '\n' :: rest)
  | '\r' :: '\n' :: rest => ([], '\r' :: '\n' :: rest)
  | c :: rest =>
    let (text, after) := line rest
    (c :: text, after)

/-- A comment between brackets that may be nested, given how many are open: the text up to the last
bracket, and what follows it. -/
def blockComment : Nat → List Char → Cut (List Char)
  | depth, '/' :: '*' :: rest =>
    (blockComment (depth + 1) rest).map fun (text, r) => ('/' :: '*' :: text, r)
  | depth, '*' :: '/' :: rest =>
    if depth ≤ 1 then some ([], rest)
    else (blockComment (depth - 1) rest).map fun (text, r) => ('*' :: '/' :: text, r)
  | depth, c :: rest => (blockComment depth rest).map fun (text, r) => (c :: text, r)
  | _, [] => none

/-- Whether a text begins with a comment up to the end of the line that documents nothing. -/
def beginsPlainLine (s : List Char) : Bool :=
  begins "//" s && (!begins "///" s || begins "////" s) && !begins "//!" s

/-- Whether a text begins with a comment between brackets that documents nothing. -/
def beginsPlainBlock (s : List Char) : Bool :=
  begins "/*" s && (!begins "/**" s || begins "/***" s || begins "/**/" s) && !begins "/*!" s

/-- Drops blanks and comments that document nothing. The first argument bounds the number of
steps. -/
def skipGaps : Nat → List Char → List Char
  | 0, s => s
  | fuel + 1, s =>
    if beginsPlainLine s then skipGaps fuel (line s).2
    else if beginsPlainBlock s then
      match blockComment 0 s with
      | some (_, rest) => skipGaps fuel rest
      | none => s
    else
      match s with
      | c :: rest => if isGap c then skipGaps fuel rest else s
      | [] => []

/-- Whether every carriage return of a text is followed by a line feed. -/
def linesEndWell : List Char → Bool
  | '\r' :: '\n' :: rest => linesEndWell rest
  | '\r' :: _ => false
  | _ :: rest => linesEndWell rest
  | [] => true

/-- A comment that documents something: whether it is what is around, and the text. -/
def docComment? (s : List Char) : Cut (Bool × List Char) :=
  let found : Cut (Bool × List Char) :=
    if begins "//!" s then some ((true, (line (s.drop 3)).1), (line (s.drop 3)).2)
    else if begins "/*!" s then (blockComment 0 s).map fun (t, r) => ((true, t.drop 3), r)
    else if begins "///" s && !begins "////" s then
      some ((false, (line (s.drop 3)).1), (line (s.drop 3)).2)
    else if begins "/**" s && !begins "/***" s then
      (blockComment 0 s).map fun (t, r) => ((false, t.drop 3), r)
    else none
  found.filter fun ((_, text), _) => linesEndWell text

/-! ## Words and marks -/

/-- A word that is not written raw. -/
def plainWord? : List Char → Cut (List Char)
  | [] => none
  | c :: rest =>
    if mayStart c then some (c :: rest.takeWhile mayContinue, rest.dropWhile mayContinue) else none

/-- The words that cannot be written raw. -/
def neverRaw : List String := ["_", "super", "self", "Self", "crate"]

/-- A word, which may be written raw. -/
def anyWord? (s : List Char) : Cut String :=
  if begins "r#" s then
    (plainWord? (s.drop 2)).bind fun (name, rest) =>
      if String.ofList name ∈ neverRaw then none
      else some (String.ofList ('r' :: '#' :: name), rest)
  else (plainWord? s).map fun (name, rest) => (String.ofList name, rest)

/-- The beginnings of literals, which are no words. -/
def literalStarts : List String :=
  ["r\"", "r#\"", "r##", "b\"", "b'", "br\"", "br#", "c\"", "cr\"", "cr#"]

/-- A word as a token. -/
def word? (s : List Char) : Cut String :=
  if literalStarts.any fun start => begins start s then none else anyWord? s

/-- Whether a character is a mark. -/
def isMark (c : Char) : Bool := "~!@#$%^&*-=+|;:,<.>/?'".toList.contains c

/-- Whether a text begins with a mark; a comment is none. -/
def beginsWithMark (s : List Char) : Bool :=
  !begins "//" s && !begins "/*" s &&
    (match s with
      | c :: _ => isMark c
      | [] => false)

def dropSuffix (s : List Char) : List Char :=
  match plainWord? s with
  | some (_, rest) => rest
  | none => s

/-! ## Strings and characters -/

/-- The value of a hex digit. -/
def hexValue? (c : Char) : Option Nat :=
  if c.toNat < 0x80 then Hex.value? (UInt8.ofNat c.toNat) else none

/-- What is read by an escape of a code point, after its opening bracket: up to six hex digits, with
underscores between. -/
def pointEscape? (value digits : Nat) : List Char → Cut Char
  | [] => none
  | c :: rest =>
    if c = '_' && 0 < digits then pointEscape? value digits rest
    else if c = '\x7d' && 0 < digits then
      if value < 0xD800 ∨ (0xDFFF < value ∧ value < 0x110000) then some (Char.ofNat value, rest)
      else none
    else
      match hexValue? c with
      | some d => if digits < 6 then pointEscape? (value * 16 + d) (digits + 1) rest else none
      | none => none

/-- What may be written in a string or a character. -/
inductive Content where
  | characters
  | bytes
  /-- Bytes other than zero, or characters. -/
  | nonzero
  deriving DecidableEq

/-- A character that an escape of two hex digits stands for. -/
def byteEscape? (kind : Content) : List Char → Cut Char
  | a :: b :: rest =>
    match hexValue? a, hexValue? b with
    | some high, some low =>
      let value := high * 16 + low
      let allowed := match kind with
        | .characters => decide (value < 0x80)
        | .bytes => true
        | .nonzero => decide (value ≠ 0)
      if allowed then some (Char.ofNat value, rest) else none
    | _, _ => none
  | _ => none

/-- What an escape stands for, after its backslash; a line end is not among them. -/
def escape? (kind : Content) : List Char → Cut Char
  | 'n' :: rest => some ('\n', rest)
  | 'r' :: rest => some ('\r', rest)
  | 't' :: rest => some ('\t', rest)
  | '\\' :: rest => some ('\\', rest)
  | '\'' :: rest => some ('\'', rest)
  | '"' :: rest => some ('"', rest)
  | '0' :: rest => if kind = .nonzero then none else some ('\x00', rest)
  | 'x' :: rest => byteEscape? kind rest
  | 'u' :: '\x7b' :: rest =>
    if kind = .bytes then none
    else (pointEscape? 0 0 rest).filter fun (c, _) => kind = .characters || c ≠ '\x00'
  | _ => none

/-- Drops the blanks at the start of the line after an escaped line end. -/
def dropIndent : List Char → Option (List Char)
  | ' ' :: rest => dropIndent rest
  | '\t' :: rest => dropIndent rest
  | '\n' :: rest => dropIndent rest
  | '\r' :: '\n' :: rest => dropIndent rest
  | '\r' :: _ => none
  | [] => none
  | rest => some rest

/-- Whether a character may stand for itself. -/
def isPlain (kind : Content) (c : Char) : Bool :=
  match kind with
  | .characters => true
  | .bytes => c.toNat < 0x80
  | .nonzero => c ≠ '\x00'

/-- A string behind its opening quote: its value, and the text behind the closing quote. The first
argument bounds the number of steps; the characters already read come in reverse. -/
def quoted? (kind : Content) : Nat → List Char → List Char → Cut (List Char)
  | 0, _, _ => none
  | fuel + 1, read, s =>
    match s with
    | [] => none
    | '"' :: rest => some (read.reverse, rest)
    | '\r' :: '\n' :: rest => quoted? kind fuel ('\n' :: read) rest
    | '\r' :: _ => none
    | '\\' :: '\n' :: rest => (dropIndent rest).bind (quoted? kind fuel read)
    | '\\' :: '\r' :: '\n' :: rest => (dropIndent rest).bind (quoted? kind fuel read)
    | '\\' :: rest =>
      match escape? kind rest with
      | some (c, rest) => quoted? kind fuel (c :: read) rest
      | none => none
    | c :: rest => if isPlain kind c then quoted? kind fuel (c :: read) rest else none

/-- A raw string behind its opening quote, which ends at a quote and as many hashes as before it. -/
def rawQuoted? (kind : Content) (hashes : List Char) : List Char → List Char → Cut (List Char)
  | _, [] => none
  | read, '"' :: rest =>
    if hashes.isPrefixOf rest then some (read.reverse, rest.drop hashes.length)
    else rawQuoted? kind hashes ('"' :: read) rest
  | read, '\r' :: '\n' :: rest => rawQuoted? kind hashes ('\n' :: read) rest
  | _, '\r' :: _ => none
  | read, c :: rest => if isPlain kind c then rawQuoted? kind hashes (c :: read) rest else none

/-- A raw string behind the letter that announces it. -/
def raw? (kind : Content) (s : List Char) : Cut (List Char) :=
  let hashes := s.takeWhile (· = '#')
  match s.dropWhile (· = '#') with
  | '"' :: rest => if hashes.length ≤ 255 then rawQuoted? kind hashes [] rest else none
  | _ => none

/-- A string of a kind behind the letters that announce the kind. -/
def string? (kind : Content) (s : List Char) : Cut (List Char) :=
  match s with
  | '"' :: rest => quoted? kind (rest.length + 1) [] rest
  | 'r' :: rest => raw? kind rest
  | _ => none

/-- A character behind its opening quote, and the text behind the closing quote. -/
def character? (kind : Content) (s : List Char) : Cut Unit :=
  let behind :=
    match s with
    | [] => none
    | '\\' :: rest => (escape? kind rest).map Prod.snd
    | c :: rest => if isPlain kind c then some rest else none
  match behind with
  | some ('\'' :: rest) => some ((), rest)
  | _ => none

/-! ## Numbers -/

/-- Digits of a base, with underscores between. -/
def takeDigits (base : Nat) : List Char → Option (List Char × List Char)
  | [] => some ([], [])
  | c :: rest =>
    if c = '_' then (takeDigits base rest).map fun (ds, r) => (c :: ds, r)
    else if c.isDigit || (base = 16 && (hexValue? c).isSome) then
      match hexValue? c with
      | some d => if d < base then (takeDigits base rest).map fun (ds, r) => (c :: ds, r) else none
      | none => none
    else some ([], c :: rest)

/-- The digits of a whole number, with the letters that announce its base. -/
def wholeDigits? (s : List Char) : Cut (List Char) :=
  let (start, base) :=
    if begins "0x" s then ("0x", 16) else if begins "0o" s then ("0o", 8)
    else if begins "0b" s then ("0b", 2) else ("", 10)
  match takeDigits base (s.drop start.length) with
  | some (ds, rest) =>
    if ds.any (· ≠ '_') && !(base = 10 && ds.head? = some '_') then
      some (start.toList ++ ds, rest)
    else none
  | none => none

/-- Whether a character is a digit or an underscore. -/
def isFigure (c : Char) : Bool := c.isDigit || c = '_'

/-- An exponent behind its letter: a sign perhaps, and figures with a digit among them. -/
def exponent? (s : List Char) : Cut (List Char) :=
  let lead := s.takeWhile (· = '_')
  let afterLead := s.dropWhile (· = '_')
  let (sign, figures) :=
    match afterLead with
    | '+' :: rest => (['+'], rest)
    | '-' :: rest => (['-'], rest)
    | rest => ([], rest)
  let digits := figures.takeWhile isFigure
  if digits.any Char.isDigit then
    some (lead ++ sign ++ digits, figures.dropWhile isFigure)
  else none

/-- The figures of a number with a point or an exponent. -/
def floatDigits? (s : List Char) : Cut (List Char) :=
  match s with
  | [] => none
  | c :: _ =>
    if !c.isDigit then none
    else
      let whole := s.takeWhile isFigure
      match s.dropWhile isFigure with
      | '.' :: rest =>
        if rest.head?.any fun d => d = '.' || mayStart d then none
        else
          let places := rest.takeWhile isFigure
          let front := whole ++ '.' :: places
          match rest.dropWhile isFigure with
          | e :: rest' =>
            if e = 'e' || e = 'E' then
              match exponent? rest' with
              | some (x, r) => some (front ++ e :: x, r)
              | none => some (front, e :: rest')
            else some (front, e :: rest')
          | [] => some (front, [])
      | e :: rest =>
        if e = 'e' || e = 'E' then
          (exponent? rest).map fun (x, r) => (whole ++ e :: x, r)
        else none
      | [] => none

/-- A number with its suffix, after which no letter may stand. -/
def finished? (written : List Char) (rest : List Char) : Cut (List Char) :=
  match plainWord? rest with
  | some (suffix, rest) => some (written ++ suffix, rest)
  | none =>
    match rest with
    | c :: _ => if mayContinue c then none else some (written, rest)
    | [] => some (written, [])

def number? (s : List Char) : Cut Literal :=
  match (floatDigits? s).bind fun (ds, rest) => finished? ds rest with
  | some (written, rest) => some (.float written, rest)
  | none =>
    ((wholeDigits? s).bind fun (ds, rest) => finished? ds rest).map fun (written, rest) =>
      (.whole written, rest)

def literal? (s : List Char) : Cut Literal :=
  let text := (string? .characters s).map fun (value, rest) =>
    (Literal.text (String.ofList value), dropSuffix rest)
  let bytes := if begins "b" s then
    (string? .bytes (s.drop 1)).map fun (_, rest) => (Literal.other, dropSuffix rest) else none
  let nonzero := if begins "c" s then
    (string? .nonzero (s.drop 1)).map fun (_, rest) => (Literal.other, dropSuffix rest) else none
  let byte := if begins "b'" s then
    (character? .bytes (s.drop 2)).map fun (_, rest) => (Literal.other, dropSuffix rest) else none
  let char := if begins "'" s then
    (character? .characters (s.drop 1)).map fun (_, rest) => (Literal.other, dropSuffix rest)
    else none
  text <|> bytes <|> nonzero <|> byte <|> char <|> number? s

/-! ## Lexemes -/

/-- A token before brackets are paired. -/
inductive Lexeme where
  | token (t : Token)
  | opening (bracket : Bracket)
  | closing (bracket : Bracket)

def opens? (c : Char) : Option Bracket :=
  if c = '(' then some .round else if c = '[' then some .square
  else if c = '\x7b' then some .curly else none

def closes? (c : Char) : Option Bracket :=
  if c = ')' then some .round else if c = ']' then some .square
  else if c = '\x7d' then some .curly else none

/-- A lifetime: a word behind a single quote, after which neither quote nor hash may stand. -/
def lifetime? (s : List Char) : Cut String :=
  match s with
  | '\'' :: rest =>
    (anyWord? rest).filter fun (_, after) =>
      match after with
      | '\'' :: _ => false
      | '#' :: _ => begins "r#" rest
      | _ => true
  | _ => none

/-- The attribute that a documenting comment is. -/
def docTokens (around : Bool) (text : List Char) : List Token :=
  [.mark '#' false] ++ (if around then [.mark '!' false] else []) ++
    [.group .square [.word "doc", .mark '=' false, .literal (.text (String.ofList text))]]

/-- The first lexemes of a text that begins with no gap. -/
def next? (s : List Char) : Cut (List Lexeme) :=
  match docComment? s with
  | some ((around, text), rest) => some ((docTokens around text).map .token, rest)
  | none =>
    match s with
    | [] => none
    | c :: rest =>
      match opens? c, closes? c with
      | some b, _ => some ([.opening b], rest)
      | none, some b => some ([.closing b], rest)
      | none, none =>
        match literal? s with
        | some (l, rest) => some ([.token (.literal l)], rest)
        | none =>
          match lifetime? s with
          | some (name, rest) => some ([.token (.lifetime name)], rest)
          | none =>
            if c ≠ '\'' && beginsWithMark s then
              some ([.token (.mark c (beginsWithMark rest))], rest)
            else (word? s).map fun (w, rest) => ([.token (.word w)], rest)

/-- The lexemes of a text; the first argument bounds their number. -/
def lexemesWithin : Nat → List Char → Option (List Lexeme)
  | 0, _ => none
  | fuel + 1, s =>
    match skipGaps (s.length + 1) s with
    | [] => some []
    | s =>
      match next? s with
      | none => none
      | some (found, rest) => (lexemesWithin fuel rest).map (found ++ ·)

/-- The lexemes of a text. -/
def lexemes? (s : List Char) : Option (List Lexeme) := lexemesWithin (s.length + 1) s

/-! ## Pairing brackets -/

/-- Pairs brackets. The brackets that are open come with the tokens in front of them, those tokens
in reverse, like the tokens read since the last one. -/
def pair (opened : List (Bracket × List Token)) (read : List Token) :
    List Lexeme → Option (List Token)
  | [] => if opened.isEmpty then some read.reverse else none
  | .token t :: rest => pair opened (t :: read) rest
  | .opening b :: rest => pair ((b, read) :: opened) [] rest
  | .closing b :: rest =>
    match opened with
    | (b', front) :: opened =>
      if b = b' then pair opened (.group b read.reverse :: front) rest else none
    | [] => none

/-- The mark that may stand at the beginning of a text. -/
def byteOrderMark : Char := '\uFEFF'

/-- A text without the mark at its beginning. -/
def withoutMark : List Char → List Char
  | c :: rest => if c = byteOrderMark then rest else c :: rest
  | [] => []

/-- The tokens of a text. -/
def tokens? (s : List Char) : Option (List Token) := (lexemes? (withoutMark s)).bind (pair [] [])

end CoinLedger.Layering.Grammar.Lexer
