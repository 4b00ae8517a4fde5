import CoinLedger.Layering.Check
import CoinLedger.Layering.Grammar.Items
import CoinLedger.Layering.Grammar.Lexer
/-!
# Source files

The rules of the grammar refer to each other without end. They are closed level by level: at level
zero nothing can be read, and at each further level the constructs inside are read at the level
below. A text needs no more levels than a fixed multiple of its tokens, for every few levels take a
token.

A file consists of attributes and items; a first line that names an interpreter is passed over.

## Main definitions

* `rules` — the grammar at a level.
* `parseFile` — the outline of a source text.
-/

namespace CoinLedger.Layering.Grammar

/-- The grammar one level up. -/
def Rules.next (g : Rules) : Rules where
  type := typeRule g
  bound := boundRule g
  expression := expressionRule g
  operand := operandRule g
  operators := operatorsRule g
  leading := leadingRule g
  pattern := patternRule g
  statements := statementsRule g
  item := itemRule g

/-- The grammar some levels above another one. -/
def rulesAbove (g : Rules) : Nat → Rules
  | 0 => g
  | n + 1 => rulesAbove g.next n

/-- The grammar at a level. -/
def rules (level : Nat) : Rules := rulesAbove Rules.none level

/-- The attributes and items of a file. -/
def fileRule (g : Rules) : Reader Nodes := do
  let attributes ← innerAttributes g
  let items ← toEnd do pure [← g.item]
  pure (attributes.2 ++ items)

/-- The text without a first line that names an interpreter. -/
def withoutInterpreter (s : List Char) : List Char :=
  if Lexer.begins "#!" s && (Lexer.skipGaps (s.length + 1) (s.drop 2)).head? ≠ some '[' then
    s.dropWhile (· ≠ '\n')
  else s

def outline? (tokens : List Token) : Option Outline :=
  match fileRule (rules (4 * sizeOfAll tokens + 16)) tokens with
  | some (nodes, []) => some ⟨nodes⟩
  | _ => none

end Grammar

/-- Parses the text of a source file. -/
def parseFile : Parser := fun text =>
  let s := Grammar.withoutInterpreter (Grammar.Lexer.withoutMark text.toList)
  match Grammar.Lexer.tokens? s with
  | none => .error "cannot parse string into token stream"
  | some tokens =>
    match Grammar.outline? tokens with
    | none => .error "unexpected token"
    | some outline => .ok outline

end CoinLedger.Layering
