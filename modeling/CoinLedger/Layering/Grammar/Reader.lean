import CoinLedger.Layering.Grammar.Token
import CoinLedger.Layering.Outline
/-!
# Readers of tokens

A reader takes tokens from the front of a list and gives what it made of them, or refuses. Looking
at the next tokens takes none of them. A mark of several characters is several tokens with nothing
between them; a mark of one character may also be the beginning of a longer one.

What a construct contributes to an outline is a list of nodes. The rules refer to each other through
`Rules`, so each is defined on its own and the circle is closed in one place.

## Main definitions

* `Reader` — readers, with the looks and steps that all rules use.
* `Rules` — the constructs that may stand inside others.
-/

namespace CoinLedger.Layering.Grammar

/-- A reader of tokens. -/
abbrev Reader := StateT (List Token) Option

/-- What a construct contributes to an outline. -/
abbrev Nodes := List Node

/-! ## Looks -/

def nextMarks : List Char → List Token → Bool
  | [], _ => true
  | [c], .mark d _ :: _ => c = d
  | c :: rest, .mark d true :: ts => c = d && nextMarks rest ts
  | _, _ => false

def nextMark (m : String) (ts : List Token) : Bool := nextMarks m.toList ts

def nextWord (w : String) : List Token → Bool
  | .word v :: _ => v = w
  | _ => false

/-- Whether one of some words comes next. -/
def nextWordOf (ws : List String) (ts : List Token) : Bool := ws.any fun w => nextWord w ts

def nextAnyWord : List Token → Bool
  | .word _ :: _ => true
  | _ => false

def nextIdentifier : List Token → Bool
  | .word w :: _ => isIdentifier w
  | _ => false

/-- Whether a pair of brackets comes next. -/
def nextGroup (b : Bracket) : List Token → Bool
  | .group b' _ :: _ => b = b'
  | _ => false

def nextLifetime : List Token → Bool
  | .lifetime _ :: _ => true
  | _ => false

/-- Whether a literal comes next: the words for truth and a number with a minus sign are some. -/
def nextLiteral : List Token → Bool
  | .literal _ :: _ => true
  | .word w :: _ => w = "true" || w = "false"
  | .mark '-' _ :: .literal (.whole _) :: _ => true
  | .mark '-' _ :: .literal (.float _) :: _ => true
  | _ => false

def nextPathWord (ts : List Token) : Bool :=
  nextIdentifier ts || nextWordOf ["self", "Self", "super", "crate"] ts

/-! ## Steps -/

def look (f : List Token → Bool) : Reader Bool := do pure (f (← get))

/-- Whether there are no more tokens. -/
def atEnd : Reader Bool := look List.isEmpty

/-- Refuses. -/
def refuse {α : Type} : Reader α := fun _ => none

/-- Takes the next token. -/
def takeToken : Reader Token := do
  match ← get with
  | t :: rest => set rest; pure t
  | [] => refuse

def mark (m : String) : Reader Unit := do
  if ← look (nextMark m) then modify (·.drop m.length) else refuse

/-- Takes a mark that may be missing. -/
def mark? (m : String) : Reader Bool := do
  if ← look (nextMark m) then mark m; pure true else pure false

def anyWord : Reader String := do
  match ← takeToken with
  | .word w => pure w
  | _ => refuse

def identifier : Reader String := do
  if ← look nextIdentifier then anyWord else refuse

def word (w : String) : Reader Unit := do
  if ← look (nextWord w) then modify (·.drop 1) else refuse

/-- Takes a word that may be missing. -/
def word? (w : String) : Reader Bool := do
  if ← look (nextWord w) then word w; pure true else pure false

def lifetime : Reader Unit := do
  match ← takeToken with
  | .lifetime _ => pure ()
  | _ => refuse

/-- Takes a lifetime that may be missing. -/
def lifetime? : Reader Unit := do
  if ← look nextLifetime then lifetime

def literal : Reader Unit := do
  if ← look nextLiteral then
    let _ ← mark? "-"
    modify (·.drop 1)
  else refuse

/-- Takes a pair of brackets, all tokens in which are taken by a reader. -/
def inside {α : Type} (b : Bracket) (r : Reader α) : Reader α := do
  match ← takeToken with
  | .group b' tokens =>
    if b = b' then
      match r tokens with
      | some (a, []) => pure a
      | _ => refuse
    else refuse
  | _ => refuse

/-- Takes a pair of brackets with anything in it, and tells its kind. -/
def anyGroup : Reader Bracket := do
  match ← takeToken with
  | .group b _ => pure b
  | _ => refuse

/-- Tries a reader, which takes nothing if it refuses. -/
def attempt {α : Type} (r : Reader α) : Reader (Option α) := fun ts =>
  match r ts with
  | some (a, rest) => some (some a, rest)
  | none => some (none, ts)

/-- Repeats a step as long as it asks for it; the first argument bounds the number of steps. -/
def repeatWithin : Nat → Reader (Nodes × Bool) → Reader Nodes
  | 0, _ => refuse
  | bound + 1, step => do
    let (nodes, again) ← step
    if again then
      let rest ← repeatWithin bound step
      pure (nodes ++ rest)
    else pure nodes

/-- Repeats a step as long as it asks for it. A step that asks takes a token. -/
def repeating (step : Reader (Nodes × Bool)) : Reader Nodes := do
  repeatWithin ((← get).length + 1) step

/-- Reads something as often as it comes before the end. -/
def toEnd (one : Reader Nodes) : Reader Nodes :=
  repeating do
    if ← atEnd then pure ([], false)
    else
      let nodes ← one
      pure (nodes, true)

/-- Reads things to the end with commas between; one more may follow the last. -/
def listed (one : Reader Nodes) : Reader Nodes :=
  toEnd do
    let nodes ← one
    if !(← atEnd) then mark ","
    pure nodes

/-- Reads things with a mark between each two, until a look says that there are no more. -/
def listedUntil (stop : List Token → Bool) (between : String) (one : Reader Nodes) : Reader Nodes :=
  repeating do
    if ← look stop then pure ([], false)
    else
      let nodes ← one
      if ← look stop then pure (nodes, false)
      else
        mark between
        pure (nodes, true)

/-- Reads things as long as a mark follows, until a look says that there are no more. -/
def joined (stop : List Token → Bool) (between : String) (one : Reader Nodes) : Reader Nodes :=
  repeating do
    if ← look stop then pure ([], false)
    else
      let nodes ← one
      let again ← mark? between
      pure (nodes, again)

/-! ## Constructs -/

/-- The forms of a type that matter around it. -/
inductive TypeForm where
  /-- A path. If it is a single name, its arguments come along. -/
  | path (single : Option Nodes)
  /-- A single bound. -/
  | bound
  /-- A type in brackets. -/
  | bracketed
  | other

/-- A type. -/
structure TypeRead where
  form : TypeForm
  nodes : Nodes

/-- The forms of an expression that matter around it. -/
inductive ExpressionForm where
  | range
  | comparison
  /-- One that ends a statement without a semicolon. -/
  | block
  /-- An invocation of a macro, with curly brackets or others. -/
  | invocation (curly : Bool)
  | other
  deriving DecidableEq

/-- An expression. -/
structure ExpressionRead where
  form : ExpressionForm
  nodes : Nodes

/-- The forms of a pattern that matter around it. -/
inductive PatternForm where
  /-- What stands for the rest. -/
  | rest
  | openRange
  | other
  deriving DecidableEq

/-- A pattern. -/
structure PatternRead where
  form : PatternForm
  nodes : Nodes

/-- The strength of a binary operator: the greater one binds first. -/
abbrev Strength := Nat

/-- The constructs that may stand inside others. -/
structure Rules where
  /-- A type, behind which further bounds may follow or not. -/
  type : Bool → Reader TypeRead
  /-- A bound of a type, where captures may be listed or not. -/
  bound : Bool → Reader Nodes
  /-- An expression, where a struct may be written or not. -/
  expression : Bool → Reader ExpressionRead
  /-- An expression without binary operators. -/
  operand : Bool → Reader ExpressionRead
  /-- What follows an operand, for operators of a strength at least. -/
  operators : Bool → Strength → ExpressionRead → Reader ExpressionRead
  /-- An expression at the beginning of a statement. -/
  leading : Reader ExpressionRead
  /-- A pattern without alternatives. -/
  pattern : Reader PatternRead
  /-- The statements of a block, to the end. -/
  statements : Reader Nodes
  item : Reader Node

/-- The rules that refuse everything. -/
def Rules.none : Rules where
  type _ := refuse
  bound _ := refuse
  expression _ := refuse
  operand _ := refuse
  operators _ _ _ := refuse
  leading := refuse
  pattern := refuse
  statements := refuse
  item := refuse

namespace Rules

/-- The nodes of a type behind which further bounds may follow. -/
def typeNodes (g : Rules) : Reader Nodes := do pure (← g.type true).nodes

def expressionNodes (g : Rules) : Reader Nodes := do pure (← g.expression true).nodes

/-- The nodes of an expression in front of a block. -/
def conditionNodes (g : Rules) : Reader Nodes := do pure (← g.expression false).nodes

end Rules

end CoinLedger.Layering.Grammar
