import CoinLedger.Layering.Grammar.Patterns
/-!
# Expressions and statements

Operators bind by their strength; comparisons cannot follow each other and nothing follows a range.
In front of a block no struct may be written. An expression that ends with its block ends a
statement at once.
-/

namespace CoinLedger.Layering.Grammar

/-! ## Blocks -/

/-- The inside of a block with the attributes that may begin it. -/
def blockBody (g : Rules) : Reader (AttributesRead × Nodes) := do
  let attributes ← innerAttributes g
  let nodes ← g.statements
  pure (attributes, attributes.2 ++ nodes)

def attributedBlock (g : Rules) : Reader Nodes := inside .curly do pure (← blockBody g).2

def block (g : Rules) : Reader Nodes := inside .curly g.statements

/-- The nodes of an expression that ends with its block. -/
def asBlock (nodes : Nodes) : ExpressionRead := ⟨.block, nodes⟩

def asOther (nodes : Nodes) : ExpressionRead := ⟨.other, nodes⟩

/-! ## Operators -/

def rangeStrength : Strength := 2

def assignmentStrength : Strength := 1

def comparisonStrength : Strength := 6

def castStrength : Strength := 13

/-- The binary operators with their strength; a longer one comes before its beginning. -/
def binaryOperators : List (String × Strength) :=
  [("+=", 1), ("-=", 1), ("*=", 1), ("/=", 1), ("%=", 1), ("^=", 1), ("&=", 1), ("|=", 1),
    ("<<=", 1), (">>=", 1), ("&&", 4), ("||", 3), ("<<", 10), (">>", 10), ("==", 6), ("<=", 6),
    ("!=", 6), (">=", 6), ("+", 11), ("-", 11), ("*", 12), ("/", 12), ("%", 12), ("^", 8),
    ("&", 9), ("|", 7), ("<", 6), (">", 6)]

/-- The binary operator that comes next. -/
def nextOperator? (ts : List Token) : Option (String × Strength) :=
  binaryOperators.find? fun o => nextMark o.1 ts

def nextAssignment (ts : List Token) : Bool := nextMark "=" ts && !nextMark "=>" ts

/-- The strength of what comes next; zero if it is no operator. -/
def nextStrength (ts : List Token) : Strength :=
  match nextOperator? ts with
  | some (_, strength) => strength
  | none =>
    if nextAssignment ts then assignmentStrength
    else if nextMark ".." ts then rangeStrength
    else if nextWord "as" ts then castStrength
    else 0

/-- An operand with the stronger operators that follow it. -/
def strongerOperators (g : Rules) (structs : Bool) (strength : Strength) (read : ExpressionRead) :
    Nat → Reader ExpressionRead
  | 0 => refuse
  | bound + 1 => do
    let next ← do pure (nextStrength (← get))
    if strength < next || (next = strength && strength = assignmentStrength) then
      let before := (← get).length
      let read ← g.operators structs next read
      if (← get).length = before then pure read
      else strongerOperators g structs strength read bound
    else pure read

def rightSide (g : Rules) (structs : Bool) (strength : Strength) : Reader ExpressionRead := do
  let first ← g.operand structs
  strongerOperators g structs strength first ((← get).length + 1)

/-- Whether a range has no end here. -/
def nextOpenEnd (structs : Bool) (ts : List Token) : Bool :=
  ts.isEmpty || [",", ";", "?", "=>", "=", "+", "/", "%", "^", ">", "<=", "!=", "-=", "*=", "&=",
    "|=", "<<="].any (nextMark · ts) || (nextMark "." ts && !nextMark ".." ts) ||
    (!structs && nextGroup .curly ts) || nextWord "as" ts

/-- A range behind its beginning. -/
def rangeEnd (g : Rules) (structs : Bool) : Reader Nodes := do
  if ← mark? "..=" then pure (← rightSide g structs rangeStrength).nodes
  else if ← look (nextMark "...") then refuse
  else
    mark ".."
    if ← look (nextOpenEnd structs) then pure []
    else pure (← rightSide g structs rangeStrength).nodes

/-- Whether something comes next that may not follow a cast. -/
def nextAfterCast (ts : List Token) : Bool :=
  (nextMark "." ts && !nextMark ".." ts) || nextMark "?" ts || nextGroup .square ts ||
    nextGroup .round ts

/-- One operator behind an expression, if one of a strength at least comes. -/
def oneOperator (g : Rules) (structs : Bool) (least : Strength) (left : ExpressionRead) :
    Reader (Option ExpressionRead) := do
  if left.form = .range then pure none
  else
    match nextOperator? (← get) with
    | some (operator, strength) =>
      if strength < least then pure none
      else if strength = comparisonStrength && left.form = .comparison then refuse
      else
        mark operator
        let right ← rightSide g structs strength
        let form : ExpressionForm := if strength = comparisonStrength then .comparison else .other
        pure (some ⟨form, left.nodes ++ right.nodes⟩)
    | none =>
      if ← look fun ts => least ≤ assignmentStrength && nextAssignment ts then
        mark "="
        let right ← rightSide g structs assignmentStrength
        pure (some (asOther (left.nodes ++ right.nodes)))
      else if ← look fun ts => least ≤ rangeStrength && nextMark ".." ts then
        let last ← rangeEnd g structs
        pure (some ⟨.range, left.nodes ++ last⟩)
      else if ← look fun ts => least ≤ castStrength && nextWord "as" ts then
        word "as"
        let type ← g.type false
        if ← look nextAfterCast then refuse
        else pure (some (asOther (left.nodes ++ type.nodes)))
      else pure none

def operatorsWithin (g : Rules) (structs : Bool) (least : Strength) :
    Nat → ExpressionRead → Reader ExpressionRead
  | 0, _ => refuse
  | bound + 1, left => do
    match ← oneOperator g structs least left with
    | some read => operatorsWithin g structs least bound read
    | none => pure left

def operatorsRule (g : Rules) (structs : Bool) (least : Strength) (left : ExpressionRead) :
    Reader ExpressionRead := do
  operatorsWithin g structs least ((← get).length + 1) left

def expressionRule (g : Rules) (structs : Bool) : Reader ExpressionRead := do
  let left ← g.operand structs
  g.operators structs 0 left

/-! ## What follows an operand -/

/-- Whether a number with a point is two numbers of fields, or one and a point; `none` if it is
neither. -/
def fieldNumbers? (written : List Char) : Option Bool :=
  let numbers := written.splitOn '.'
  match numbers with
  | [a, b] =>
    if a ≠ [] && a.all Char.isDigit && b.all Char.isDigit then some (b = []) else none
  | _ => none

/-- A field or a call of a method, behind the point. -/
def memberAccess (g : Rules) : Reader Nodes := do
  if ← word? "await" then pure []
  else
    let name ← member
    if ← look fun ts => name.isSome && nextMark "::" ts then
      mark "::"
      let types ← angleArguments g
      let arguments ← inside .round (listed g.expressionNodes)
      pure (types ++ arguments)
    else if ← look fun ts => name.isSome && nextGroup .round ts then
      inside .round (listed g.expressionNodes)
    else pure []

/-- What follows a point: fields by number may look like a number with a point. -/
def afterPoint (g : Rules) : Reader Nodes := do
  match ← get with
  | .literal (.float written) :: rest =>
    match fieldNumbers? written with
    | none => refuse
    | some pointFollows =>
      set rest
      if pointFollows then memberAccess g else pure []
  | _ => memberAccess g

/-- One call, field, index or question mark behind an expression, if one comes. -/
def oneTrailer (g : Rules) (read : ExpressionRead) : Reader (Option ExpressionRead) := do
  if ← look (nextGroup .round) then
    let arguments ← inside .round (listed g.expressionNodes)
    pure (some (asOther (read.nodes ++ arguments)))
  else if ← look fun ts => read.form ≠ .range && nextMark "." ts && !nextMark ".." ts then
    mark "."
    let nodes ← afterPoint g
    pure (some (asOther (read.nodes ++ nodes)))
  else if ← look (nextGroup .square) then
    let index ← inside .square g.expressionNodes
    pure (some (asOther (read.nodes ++ index)))
  else if ← look fun ts => read.form ≠ .range && nextMark "?" ts then
    mark "?"
    pure (some (asOther read.nodes))
  else pure none

/-- Calls, fields, indices and question marks behind an expression; the first argument bounds their
number. -/
def trailersWithin (g : Rules) : Nat → ExpressionRead → Reader ExpressionRead
  | 0, _ => refuse
  | bound + 1, read => do
    match ← oneTrailer g read with
    | some read => trailersWithin g bound read
    | none => pure read

/-- Calls, fields, indices and question marks behind an expression. -/
def trailers (g : Rules) (read : ExpressionRead) : Reader ExpressionRead := do
  trailersWithin g ((← get).length + 1) read

/-! ## Operands -/

/-- One field of a struct that is written out; a name alone stands for itself. -/
def fieldValue (g : Rules) : Reader Nodes := do
  let attributes ← outerNodes g
  match ← member with
  | none =>
    mark ":"
    let value ← g.expressionNodes
    pure (attributes ++ value)
  | some name =>
    if ← mark? ":" then
      let value ← g.expressionNodes
      pure (attributes ++ value)
    else pure (attributes ++ [.path [name]])

/-- The fields of a struct that is written out. -/
def fieldValues (g : Rules) : Reader Nodes :=
  repeating do
    if ← atEnd then pure ([], false)
    else if ← mark? ".." then
      if ← atEnd then pure ([], false)
      else
        let rest ← g.expressionNodes
        pure (rest, false)
    else
      let nodes ← fieldValue g
      if ← atEnd then pure (nodes, false)
      else
        mark ","
        pure (nodes, true)

def pathExpression (g : Rules) (structs : Bool) : Reader ExpressionRead := do
  let (qualified, p, self) ← anyPath g true
  let nodes := self ++ p.nodes
  if ← look fun ts => !qualified && nextMark "!" ts && !nextMark "!=" ts && p.isPlain then
    mark "!"
    let bracket ← anyGroup
    pure ⟨.invocation (bracket = .curly), nodes⟩
  else if ← look fun ts => structs && nextGroup .curly ts then
    let fields ← inside .curly (fieldValues g)
    pure (asOther (nodes ++ fields))
  else pure (asOther nodes)

def closureParameter (g : Rules) : Reader Nodes := do
  let attributes ← outerNodes g
  let read ← g.pattern
  let type ← if ← mark? ":" then g.typeNodes else pure []
  pure (attributes ++ read.nodes ++ type)

def closure (g : Rules) (structs : Bool) : Reader Nodes := do
  let binder ← introducedLifetimes g
  let _ ← word? "const"
  let _ ← word? "static"
  let _ ← word? "async"
  let _ ← word? "move"
  mark "|"
  let inputs ← listedUntil (nextMark "|") "," (closureParameter g)
  mark "|"
  if ← mark? "->" then
    let type ← g.typeNodes
    let body ← block g
    pure (binder ++ inputs ++ type ++ body)
  else
    let body ← g.expression structs
    pure (binder ++ inputs ++ body.nodes)

/-- The branches of a choice between conditions. -/
def branches (g : Rules) : Reader Nodes :=
  repeating do
    word "if"
    let condition ← g.conditionNodes
    let body ← block g
    if ← word? "else" then
      if ← look (nextWord "if") then pure (condition ++ body, true)
      else
        let last ← block g
        pure (condition ++ body ++ last, false)
    else pure (condition ++ body, false)

/-- A loop over the items of something. -/
def iteration (g : Rules) : Reader Nodes := do
  word "for"
  let pattern ← alternativeNodes g
  word "in"
  let items ← g.conditionNodes
  let body ← attributedBlock g
  pure (pattern ++ items ++ body)

/-- A loop on a condition. -/
def conditionalLoop (g : Rules) : Reader Nodes := do
  word "while"
  let condition ← g.conditionNodes
  let body ← attributedBlock g
  pure (condition ++ body)

/-- A loop without a condition. -/
def endlessLoop (g : Rules) : Reader Nodes := do
  word "loop"
  attributedBlock g

/-- One case of a choice between patterns. -/
def caseArm (g : Rules) : Reader Nodes := do
  let attributes ← outerNodes g
  let pattern ← alternativeNodes g
  let guard ← if ← word? "if" then g.expressionNodes else pure []
  mark "=>"
  let body ← g.leading
  if ← look fun ts => body.form ≠ .block && !ts.isEmpty then mark ","
  else
    let _ ← mark? ","
  pure (attributes ++ pattern ++ guard ++ body.nodes)

/-- A choice between patterns. -/
def choice (g : Rules) : Reader Nodes := do
  word "match"
  let value ← g.conditionNodes
  let cases ← inside .curly do
    let attributes ← innerAttributes g
    let nodes ← toEnd (caseArm g)
    pure (attributes.2 ++ nodes)
  pure (value ++ cases)

/-- A loop or a block with a label. -/
def labelled (g : Rules) : Reader Nodes := do
  lifetime
  mark ":"
  if ← look (nextWord "while") then conditionalLoop g
  else if ← look (nextWord "for") then iteration g
  else if ← look (nextWord "loop") then endlessLoop g
  else attributedBlock g

/-- Whether an expression may begin here. -/
def nextExpression (ts : List Token) : Bool :=
  (nextAnyWord ts && !nextWord "as" ts) || nextGroup .round ts || nextGroup .square ts ||
    nextGroup .curly ts || nextLiteral ts || (nextMark "!" ts && !nextMark "!=" ts) ||
    (nextMark "-" ts && !nextMark "-=" ts && !nextMark "->" ts) ||
    (nextMark "*" ts && !nextMark "*=" ts) || (nextMark "|" ts && !nextMark "|=" ts) ||
    (nextMark "&" ts && !nextMark "&=" ts) || nextMark ".." ts ||
    (nextMark "<" ts && !nextMark "<=" ts && !nextMark "<<=" ts) || nextMark "::" ts ||
    nextLifetime ts || nextMark "#" ts

/-- A value that may be missing. -/
def optionalValue (g : Rules) (structs : Bool) : Reader Nodes := do
  if ← look fun ts => nextExpression ts && (structs || !nextGroup .curly ts) then
    pure (← g.expression structs).nodes
  else pure []

/-- Leaving a loop, with a value perhaps. -/
def breaking (g : Rules) (structs : Bool) : Reader Nodes := do
  word "break"
  if ← look fun ts => nextLifetime ts && nextMark ":" (ts.drop 1) then refuse
  else
    lifetime?
    optionalValue g structs

def bracketed (g : Rules) : Reader Nodes := inside .round (listed g.expressionNodes)

/-- The items of an array, or one item and how often it stands there. -/
def array (g : Rules) : Reader Nodes :=
  inside .square do
    if ← atEnd then pure []
    else
      let first ← g.expressionNodes
      if ← mark? ";" then
        let count ← g.expressionNodes
        pure (first ++ count)
      else if ← atEnd then pure first
      else
        mark ","
        let more ← listed g.expressionNodes
        pure (first ++ more)

/-- A condition that takes a value apart. -/
def matching (g : Rules) (structs : Bool) : Reader Nodes := do
  word "let"
  let pattern ← alternativeNodes g
  mark "="
  let value ← g.operand structs
  let whole ← g.operators structs comparisonStrength value
  pure (pattern ++ whole.nodes)

def nextClosure (ts : List Token) : Bool :=
  let behind := ts.drop 1
  nextMark "|" ts || nextWord "move" ts ||
    (nextWord "for" ts && nextMark "<" behind &&
      (nextLifetime (ts.drop 2) || nextMark ">" (ts.drop 2))) ||
    (nextWord "const" ts && !nextGroup .curly behind) || nextWord "static" ts ||
    (nextWord "async" ts && (nextMark "|" behind || nextWord "move" behind))

def nextLaterBlock (ts : List Token) : Bool :=
  nextWord "async" ts && (nextGroup .curly (ts.drop 1) ||
    nextWord "move" (ts.drop 1) && nextGroup .curly (ts.drop 2))

def nextPathExpression (ts : List Token) : Bool :=
  nextPathWord ts || nextMark "::" ts || nextMark "<" ts ||
    (nextWord "try" ts && (nextMark "!" (ts.drop 1) || nextMark "::" (ts.drop 1)))

/-- An expression without operators and without what may follow it. -/
def atom (g : Rules) (structs : Bool) : Reader ExpressionRead := do
  if ← look nextLiteral then literal; pure (asOther [])
  else if ← look nextLaterBlock then
    word "async"
    let _ ← word? "move"
    pure (asOther (← block g))
  else if ← look fun ts => nextWord "try" ts && nextGroup .curly (ts.drop 1) then
    word "try"
    pure (asBlock (← block g))
  else if ← look nextClosure then pure (asOther (← closure g structs))
  else if ← look fun ts => nextWord "builtin" ts && nextMark "#" (ts.drop 1) then
    word "builtin"
    mark "#"
    let _ ← identifier
    if ← look (nextGroup .round) then
      let _ ← anyGroup
      pure (asOther [])
    else refuse
  else if ← look nextPathExpression then pathExpression g structs
  else if ← look (nextGroup .round) then pure (asOther (← bracketed g))
  else if ← look (nextWord "break") then pure (asOther (← breaking g structs))
  else if ← word? "continue" then lifetime?; pure (asOther [])
  else if ← word? "return" then pure (asOther (← optionalValue g true))
  else if ← word? "become" then pure (asOther (← g.expressionNodes))
  else if ← look (nextGroup .square) then pure (asOther (← array g))
  else if ← look (nextWord "let") then pure (asOther (← matching g structs))
  else if ← look (nextWord "if") then pure (asBlock (← branches g))
  else if ← look (nextWord "while") then pure (asBlock (← conditionalLoop g))
  else if ← look (nextWord "for") then pure (asBlock (← iteration g))
  else if ← look (nextWord "loop") then pure (asBlock (← endlessLoop g))
  else if ← look (nextWord "match") then pure (asBlock (← choice g))
  else if ← word? "yield" then pure (asOther (← optionalValue g true))
  else if ← word? "unsafe" then pure (asBlock (← attributedBlock g))
  else if ← word? "const" then pure (asBlock (← attributedBlock g))
  else if ← look (nextGroup .curly) then pure (asBlock (← attributedBlock g))
  else if ← look (nextMark "..") then pure ⟨.range, ← rangeEnd g structs⟩
  else if ← word? "_" then pure (asOther [])
  else if ← look nextLifetime then pure (asBlock (← labelled g))
  else refuse

/-- Whether an address of a place comes next. -/
def nextRawAddress (ts : List Token) : Bool :=
  nextWord "raw" ts && nextWordOf ["mut", "const"] (ts.drop 1)

/-- An expression without binary operators. -/
def operandRule (g : Rules) (structs : Bool) : Reader ExpressionRead := do
  let attributes ← outerNodes g
  if ← mark? "&" then
    if ← look nextRawAddress then
      let _ ← anyWord
      let _ ← anyWord
    else
      let _ ← word? "mut"
    let read ← g.operand structs
    pure (asOther (attributes ++ read.nodes))
  else if ← look fun ts => nextMark "*" ts || nextMark "!" ts || nextMark "-" ts then
    let _ ← takeToken
    let read ← g.operand structs
    pure (asOther (attributes ++ read.nodes))
  else
    let first ← atom g structs
    let read ← trailers g first
    if read.form = .range && !attributes.isEmpty then refuse
    else pure { read with nodes := attributes ++ read.nodes }

/-! ## Statements -/

/-- An expression that ends with its block, if one comes at the beginning of a statement. -/
def leadingBlock? (g : Rules) : Reader (Option Nodes) := do
  let ts ← get
  let curlyBehind := nextGroup .curly (ts.drop 1)
  if nextWord "if" ts then pure (some (← branches g))
  else if nextWord "while" ts then pure (some (← conditionalLoop g))
  else if nextWord "for" ts && !nextClosure ts then pure (some (← iteration g))
  else if nextWord "loop" ts then pure (some (← endlessLoop g))
  else if nextWord "match" ts then pure (some (← choice g))
  else if nextWord "try" ts && curlyBehind then
    word "try"
    pure (some (← block g))
  else if nextWord "unsafe" ts then
    word "unsafe"
    pure (some (← attributedBlock g))
  else if nextWord "const" ts && curlyBehind then
    word "const"
    pure (some (← attributedBlock g))
  else if nextGroup .curly ts then pure (some (← attributedBlock g))
  else if nextLifetime ts then pure (some (← labelled g))
  else pure none

/-- An expression at the beginning of a statement. -/
def leadingRule (g : Rules) : Reader ExpressionRead := do
  let attributes ← outerNodes g
  match ← leadingBlock? g with
  | some nodes =>
    let read := asBlock (attributes ++ nodes)
    if ← look fun ts => (nextMark "." ts && !nextMark ".." ts) || nextMark "?" ts then
      let read ← trailers g read
      g.operators true 0 read
    else pure read
  | none =>
    let first ← g.operand true
    g.operators true 0 { first with nodes := attributes ++ first.nodes }

def lastBefore? (ts rest : List Token) : Option Token :=
  (ts.take (ts.length - rest.length)).getLast?

/-- Reads something and tells whether it ends with curly brackets. -/
def andEndsCurly (r : Reader Nodes) : Reader (Nodes × Bool) := fun ts =>
  (r ts).map fun (nodes, rest) =>
    ((nodes, match lastBefore? ts rest with
      | some (.group .curly _) => true
      | _ => false), rest)

/-- The declaration of a variable. -/
def declaration (g : Rules) : Reader Nodes := do
  word "let"
  let pattern ← g.pattern
  let type ← if ← mark? ":" then g.typeNodes else pure []
  let value ← if ← mark? "=" then do
      let (value, endsCurly) ← andEndsCurly g.expressionNodes
      if ← look fun ts => !endsCurly && nextWord "else" ts then
        word "else"
        let other ← block g
        pure (value ++ other)
      else pure value
    else pure []
  mark ";"
  pure (pattern.nodes ++ type ++ value)

def nextItem (ts : List Token) : Bool :=
  let second := ts.drop 1
  let third := ts.drop 2
  nextWordOf ["pub", "extern", "use", "fn", "mod", "type", "struct", "enum", "trait", "impl",
    "macro"] ts ||
  (nextWord "crate" ts && !nextMark "::" second) ||
  (nextWord "static" ts && (nextWord "mut" second || nextIdentifier second)) ||
  (nextWord "const" ts && !(nextGroup .curly second || nextWord "static" second ||
    (nextWord "async" second && !nextWordOf ["unsafe", "extern", "fn"] third) ||
    nextWord "move" second || nextMark "|" second)) ||
  (nextWord "unsafe" ts && !nextGroup .curly second) ||
  (nextWord "async" ts && nextWordOf ["unsafe", "extern", "fn"] second) ||
  (nextWord "union" ts && nextIdentifier second) ||
  (nextWord "auto" ts && nextWord "trait" second) ||
  (nextWord "default" ts && nextWordOf ["unsafe", "impl"] second)

/-- How a macro is invoked at the beginning of a statement. -/
inductive InvocationStart where
  /-- With a name behind the path, which makes it an item. -/
  | item
  /-- With curly brackets, behind which nothing follows that would go on with an expression. -/
  | statement
  | none
  deriving DecidableEq

/-- How a macro is invoked here, if one is. -/
def invocationStart (ts : List Token) : InvocationStart :=
  match plainPath ts with
  | some (_, .mark '!' _ :: rest) =>
    if nextIdentifier rest || nextWord "try" rest then .item
    else
      let behind := rest.drop 1
      if nextGroup .curly rest &&
          !((nextMark "." behind && !nextMark ".." behind) || nextMark "?" behind) then .statement
      else .none
  | _ => .none

/-- A macro that is invoked as a statement. -/
def invocationStatement : Reader Nodes := do
  let (_, segments) ← plainPath
  mark "!"
  let _ ← anyGroup
  let _ ← mark? ";"
  pure [.path segments]

/-- Whether a statement that is an expression needs a semicolon to end it. -/
def needsSemicolon (form : ExpressionForm) : Bool :=
  match form with
  | .block => false
  | .invocation curly => !curly
  | _ => true

/-- One statement, and whether the block has to end behind it. -/
def statement (g : Rules) : Reader (Nodes × Bool) := do
  let ts ← get
  let attributes ← outerNodes g
  let behind ← get
  match invocationStart behind with
  | .statement =>
    let nodes ← invocationStatement
    pure (attributes ++ nodes, false)
  | start =>
    if nextWord "let" behind then
      let nodes ← declaration g
      pure (attributes ++ nodes, false)
    else if nextItem behind || start = .item then
      set ts
      let node ← g.item
      pure ([node], false)
    else
      let read ← g.leading
      let ended ← mark? ";"
      pure (attributes ++ read.nodes, !ended && needsSemicolon read.form)

/-- The statements of a block, to the end. -/
def statementsRule (g : Rules) : Reader Nodes :=
  repeating do
    if ← atEnd then pure ([], false)
    else if ← mark? ";" then pure ([], true)
    else
      let (nodes, mustEnd) ← statement g
      if ← look fun ts => mustEnd && !ts.isEmpty then refuse
      else pure (nodes, true)

end CoinLedger.Layering.Grammar
