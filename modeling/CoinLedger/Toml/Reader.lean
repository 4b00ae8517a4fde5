import CoinLedger.Text.Hex
import CoinLedger.Toml
/-!
# Reading TOML

A document is read line by line. A line holds a header, an assignment, or nothing, and may end in a
comment. Literals between quotes are cut out character by character; every other value is a run of
characters that is a word, a number or a date as a whole.

## Main definitions

* `literal?`, `runValue?` — values between quotes, and all others without brackets.
* `value?` — values.
* `parse?` — the members of a whole document.
-/

namespace CoinLedger.Toml

open Text

/-! ## Blanks and comments -/

/-- Whether a character is a blank inside a line. -/
def isBlank (c : Char) : Bool := c = ' ' || c = '\t'

/-- Whether a character may stand in comments and literals. -/
def isPlain (c : Char) : Bool := c = '\t' || (0x20 ≤ c.toNat && c.toNat ≠ 0x7F)

def skipBlanks (s : List Char) : List Char := s.dropWhile isBlank

def lineEnd? : List Char → Option (List Char)
  | '\n' :: rest => some rest
  | '\r' :: '\n' :: rest => some rest
  | _ => none

def skipComment : List Char → List Char
  | '#' :: rest => rest.dropWhile isPlain
  | s => s

/-- Skips blanks, comments and ends of lines, in at most so many steps. -/
def skipGap : Nat → List Char → List Char
  | 0, s => s
  | steps + 1, s =>
    let s := skipComment (skipBlanks s)
    match lineEnd? s with
    | some rest => skipGap steps rest
    | none => s

/-- What follows the rest of a line, which holds nothing more than blanks and a comment. -/
def finishLine? (s : List Char) : Option (List Char) :=
  match skipComment (skipBlanks s) with
  | [] => some []
  | s => lineEnd? s

/-! ## Literals -/

def hexNumber? (digits : List Char) : Option Nat :=
  digits.foldlM (fun n c => (Hex.value? (UInt8.ofNat c.toNat)).bind fun d =>
    if c.toNat < 0x80 then some (n * 16 + d) else none) 0

def codePoint? (digits : List Char) : Option Char :=
  (hexNumber? digits).bind fun n => if n.isValidChar then some (Char.ofNat n) else none

/-- The character that a letter behind a backslash stands for. -/
def shortEscape? : Char → Option Char
  | 'b' => some '\x08'
  | 't' => some '\t'
  | 'n' => some '\n'
  | 'f' => some '\x0c'
  | 'r' => some '\r'
  | '"' => some '"'
  | '\\' => some '\\'
  | _ => none

/-- The character of an escape behind its backslash, and what follows it. -/
def escape? : List Char → Option (Char × List Char)
  | 'u' :: rest =>
    if rest.length < 4 then none else (codePoint? (rest.take 4)).map fun c => (c, rest.drop 4)
  | 'U' :: rest =>
    if rest.length < 8 then none else (codePoint? (rest.take 8)).map fun c => (c, rest.drop 8)
  | c :: rest => (shortEscape? c).map fun c => (c, rest)
  | [] => none

/-- Skips blanks and ends of lines, in at most so many steps. -/
def skipLines : Nat → List Char → List Char
  | 0, s => s
  | steps + 1, s =>
    match lineEnd? (skipBlanks s) with
    | some rest => skipLines steps rest
    | none => skipBlanks s

/-- What follows a backslash at the end of a line, all blanks and ends of lines skipped. -/
def continued? (s : List Char) : Option (List Char) :=
  (lineEnd? (skipBlanks s)).map fun rest => skipLines (rest.length + 1) rest

/-- A literal on one line, from behind its opening quote. What is read already comes in reverse. -/
def lineLiteral? (quote : Char) : Nat → List Char → List Char → Option (String × List Char)
  | 0, _, _ => none
  | _, _, [] => none
  | steps + 1, read, c :: rest =>
    if c = quote then some (String.ofList read.reverse, rest)
    else if c = '\\' && quote = '"' then
      match escape? rest with
      | some (c, rest) => lineLiteral? quote steps (c :: read) rest
      | none => none
    else if isPlain c then lineLiteral? quote steps (c :: read) rest
    else none

/-- A literal of several lines, from behind its opening quotes. Two more quotes may stand before
the three that close it. -/
def blockLiteral? (quote : Char) : Nat → List Char → List Char → Option (String × List Char)
  | 0, _, _ => none
  | _, _, [] => none
  | steps + 1, read, c :: rest =>
    if c = quote then
      let quotes := (c :: rest).takeWhile (· = quote)
      if quotes.length < 3 then blockLiteral? quote steps (c :: read) rest
      else
        let inside := min (quotes.length - 3) 2
        some (String.ofList (List.replicate inside quote ++ read).reverse,
          (c :: rest).drop (inside + 3))
    else if c = '\\' && quote = '"' then
      match continued? rest with
      | some rest => blockLiteral? quote steps read rest
      | none =>
        match escape? rest with
        | some (c, rest) => blockLiteral? quote steps (c :: read) rest
        | none => none
    else
      match lineEnd? (c :: rest) with
      | some rest => blockLiteral? quote steps ('\n' :: read) rest
      | none => if isPlain c then blockLiteral? quote steps (c :: read) rest else none

/-- A literal of any kind, from its first quote on. -/
def literal? : List Char → Option (String × List Char)
  | a :: b :: c :: rest =>
    if a = b && b = c then
      let body := (lineEnd? rest).getD rest
      blockLiteral? a (body.length + 1) [] body
    else lineLiteral? a (rest.length + 3) [] (b :: c :: rest)
  | a :: rest => lineLiteral? a (rest.length + 1) [] rest
  | [] => none

/-! ## Numbers and dates -/

/-- Digits between which single underscores may stand, without the underscores. -/
def grouped? (isDigit : Char → Bool) (s : List Char) : Option (List Char) :=
  if (s.splitOn '_').all fun group => group ≠ [] && group.all isDigit then
    some (s.filter (· ≠ '_'))
  else none

/-- The number that digits of a base denote. -/
def based? (base : Nat) (s : List Char) : Option Nat :=
  (grouped? (fun c => (hexNumber? [c]).any (· < base)) s).bind fun digits =>
    digits.foldlM (fun n c => (hexNumber? [c]).map fun d => n * base + d) 0

/-- Whether a numeral has a zero in front of other digits. -/
def hasLeadingZero : List Char → Bool
  | '0' :: _ :: _ => true
  | _ => false

/-- A run without a sign in front of it. -/
def unsigned : List Char → List Char
  | '+' :: rest => rest
  | '-' :: rest => rest
  | s => s

/-- Whole numbers are below this number, two to the sixty-third power, and not below its
negative. -/
abbrev wholeBound : Int := 9223372036854775808

/-- A whole number of 64 bits. Only decimal ones have a sign. -/
def whole? (s : List Char) : Option Int :=
  let number : Option Int :=
    match s with
    | '0' :: 'x' :: digits => (based? 16 digits).map Int.ofNat
    | '0' :: 'o' :: digits => (based? 8 digits).map Int.ofNat
    | '0' :: 'b' :: digits => (based? 2 digits).map Int.ofNat
    | s =>
      if hasLeadingZero (unsigned s) then none
      else (based? 10 (unsigned s)).map fun n =>
        if s.head? = some '-' then -Int.ofNat n else Int.ofNat n
  number.bind fun n => if -wholeBound ≤ n && n < wholeBound then some n else none

/-- Whether a run is a decimal number with a fraction or an exponent, or one of the words for
numbers beyond all others. -/
def isFraction (s : List Char) : Bool :=
  let s := unsigned s
  if s = "inf".toList || s = "nan".toList then true
  else
    let isExponent := fun c => c = 'e' || c = 'E'
    let mantissa := s.takeWhile fun c => !isExponent c
    let exponent := s.dropWhile fun c => !isExponent c
    let wholePart := mantissa.takeWhile (· ≠ '.')
    let fraction := mantissa.dropWhile (· ≠ '.')
    let digits := fun s => (grouped? Char.isDigit s).isSome
    (fraction ≠ [] || exponent ≠ []) &&
      digits wholePart && !hasLeadingZero (wholePart.filter (· ≠ '_')) &&
      (fraction = [] || digits fraction.tail) &&
      (exponent = [] || digits (unsigned exponent.tail))

/-- A number of so many digits within bounds, and what follows. -/
def field? (width low high : Nat) (s : List Char) : Option (Nat × List Char) :=
  let digits := s.take width
  let n := Nat.ofDigitChars 10 digits 0
  if digits.length = width && digits.all Char.isDigit && low ≤ n && n ≤ high then
    some (n, s.drop width)
  else none

/-- What follows a certain character. -/
def after? (c : Char) : List Char → Option (List Char)
  | d :: rest => if d = c then some rest else none
  | [] => none

def daysOf (year month : Nat) : Nat :=
  if month = 2 then
    if year % 4 = 0 && (year % 100 ≠ 0 || year % 400 = 0) then 29 else 28
  else if month = 4 || month = 6 || month = 9 || month = 11 then 30
  else 31

/-- What follows a day of the calendar. -/
def day? (s : List Char) : Option (List Char) := do
  let (year, s) ← field? 4 0 9999 s
  let (month, s) ← field? 2 1 12 (← after? '-' s)
  let (_, s) ← field? 2 1 (daysOf year month) (← after? '-' s)
  pure s

def timeOfDay? (s : List Char) : Option (List Char) := do
  let (_, s) ← field? 2 0 23 s
  let (_, s) ← field? 2 0 59 (← after? ':' s)
  let (_, s) ← field? 2 0 60 (← after? ':' s)
  match s with
  | '.' :: rest =>
    if rest.takeWhile Char.isDigit = [] then none else pure (rest.dropWhile Char.isDigit)
  | s => pure s

/-- Whether a run is nothing or an offset from universal time. -/
def isOffset : List Char → Bool
  | [] => true
  | ['Z'] => true
  | ['z'] => true
  | c :: rest =>
    (c = '+' || c = '-') &&
      (do
        let (_, s) ← field? 2 0 23 rest
        let (_, s) ← field? 2 0 59 (← after? ':' s)
        pure s : Option (List Char)) = some []

/-- Whether a run is a day, a time of day, or both. -/
def isDate (s : List Char) : Bool :=
  match day? s with
  | none => timeOfDay? s = some []
  | some [] => true
  | some (c :: rest) =>
    (c = 'T' || c = 't' || c = ' ') &&
      match timeOfDay? rest with
      | none => false
      | some offset => isOffset offset

/-- The value that a run of characters is as a whole. -/
def runValue? (s : List Char) : Option Value :=
  if s = "true".toList then some (.bool true)
  else if s = "false".toList then some (.bool false)
  else if isDate s then some .date
  else
    match whole? s with
    | some n => some (.whole n)
    | none => if isFraction s then some .fraction else none

/-- Whether a character belongs to words, numbers and dates. -/
def isRunChar (c : Char) : Bool :=
  c.isAlphanum || c = '+' || c = '-' || c = '_' || c = '.' || c = ':'

/-- The run of characters at the front, and what follows it. A day may be followed by a blank and a
time of day. -/
def cutRun (s : List Char) : List Char × List Char :=
  let run := s.takeWhile isRunChar
  match day? run, s.drop run.length with
  | some [], ' ' :: rest =>
    let time := rest.takeWhile isRunChar
    if (field? 2 0 99 time).isSome then (run ++ ' ' :: time, rest.drop time.length)
    else (run, ' ' :: rest)
  | _, rest => (run, rest)

/-! ## Keys and values -/

/-- Whether a character may stand in a key without quotes. -/
def isKeyChar (c : Char) : Bool := c.isAlphanum || c = '_' || c = '-'

/-- A key without dots, and what follows it. -/
def simpleKey? (s : List Char) : Option (String × List Char) :=
  match s with
  | c :: rest =>
    if c = '"' || c = '\'' then lineLiteral? c (rest.length + 1) [] rest
    else if isKeyChar c then some (String.ofList (s.takeWhile isKeyChar), s.dropWhile isKeyChar)
    else none
  | [] => none

/-- A key with its dots: the tables that it leads through, itself, and what follows it. -/
def key? : Nat → List Char → Option (List String × String × List Char)
  | 0, _ => none
  | steps + 1, s =>
    match simpleKey? (skipBlanks s) with
    | none => none
    | some (k, rest) =>
      match skipBlanks rest with
      | '.' :: rest => (key? steps rest).map fun (path, last, rest) => (k :: path, last, rest)
      | rest => some ([], k, rest)

mutual

/-- A value and what follows it. The first argument bounds the number of steps. -/
def value? : Nat → List Char → Option (Value × List Char)
  | 0, _ => none
  | steps + 1, s =>
    match s with
    | '"' :: _ => (literal? s).map fun (text, rest) => (.text text, rest)
    | '\'' :: _ => (literal? s).map fun (text, rest) => (.text text, rest)
    | '[' :: rest => (items? steps rest).map fun rest => (.array, rest)
    | '\x7b' :: rest =>
      match skipBlanks rest with
      | '\x7d' :: rest => some (.table, rest)
      | rest => (members? steps [] rest).map fun rest => (.table, rest)
    | s => (runValue? (cutRun s).1).map fun v => (v, (cutRun s).2)

/-- What follows the items of an array. -/
def items? : Nat → List Char → Option (List Char)
  | 0, _ => none
  | steps + 1, s =>
    match skipGap s.length s with
    | ']' :: rest => some rest
    | s =>
      match value? steps s with
      | none => none
      | some (_, rest) =>
        match skipGap rest.length rest with
        | ',' :: rest => items? steps rest
        | ']' :: rest => some rest
        | _ => none

/-- What follows the members of a table in braces, given those before. -/
def members? : Nat → Members → List Char → Option (List Char)
  | 0, _, _ => none
  | steps + 1, before, s =>
    match key? s.length s with
    | some (path, k, '=' :: rest) =>
      match value? steps (skipBlanks rest) with
      | none => none
      | some (v, rest) =>
        match before.assign? [] path k v with
        | none => none
        | some before =>
          match skipBlanks rest with
          | ',' :: rest => members? steps before rest
          | '\x7d' :: rest => some rest
          | _ => none
    | _ => none

end

/-! ## Documents -/

/-- What is read so far: the members of the document, and the table that lines add to. -/
structure Progress where
  members : Members := []
  table : List String := []

/-- Reads a header behind its brackets, and goes on in the table that it opens. -/
def header? (several : Bool) (p : Progress) (s : List Char) : Option (Progress × List Char) := do
  let (path, key, rest) ← key? s.length s
  let rest ← after? ']' rest
  let rest ← if several then after? ']' rest else some rest
  let members ← if several then p.members.openNext? path key else p.members.open? path key
  pure (⟨members, path ++ [key]⟩, rest)

def assignment? (p : Progress) (s : List Char) : Option (Progress × List Char) := do
  let (path, key, rest) ← key? s.length s
  let rest ← after? '=' rest
  let (v, rest) ← value? (2 * rest.length + 2) (skipBlanks rest)
  let members ← p.members.assign? p.table path key v
  pure (⟨members, p.table⟩, rest)

/-- Reads lines to the end. -/
def lines? : Nat → Progress → List Char → Option Members
  | 0, _, _ => none
  | steps + 1, p, s =>
    match skipGap s.length s with
    | [] => some p.members
    | s =>
      let read :=
        match s with
        | '[' :: '[' :: rest => header? true p rest
        | '[' :: rest => header? false p rest
        | s => assignment? p s
      match read with
      | none => none
      | some (p, rest) => (finishLine? rest).bind (lines? steps p)

/-- The members of a document. A mark of the byte order in front means nothing. -/
def parse? (document : String) : Option Members :=
  let s :=
    match document.toList with
    | '\uFEFF' :: rest => rest
    | s => s
  lines? (s.length + 1) {} s

end CoinLedger.Toml
