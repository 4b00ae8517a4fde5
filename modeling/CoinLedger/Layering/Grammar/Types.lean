import CoinLedger.Layering.Grammar.Attributes
/-!
# Paths with arguments, types and generics

A path may have arguments behind each segment: in angle brackets, or like a function's in round
ones. In expressions, colons stand in front of angle brackets. The path itself counts as well as
every path in its arguments.
-/

namespace CoinLedger.Layering.Grammar

/-! ## Paths -/

/-- A path. -/
structure PathRead where
  /-- Whether it begins with colons or with a type in angle brackets. -/
  isRooted : Bool
  segments : Segments
  /-- Whether no segment has arguments. -/
  isPlain : Bool
  /-- Whether the last segment has no arguments. -/
  endsPlain : Bool
  arguments : Nodes

def PathRead.nodes (p : PathRead) : Nodes := .path p.segments :: p.arguments

def valueArgument (g : Rules) : Reader Nodes := do
  if ← look nextLiteral then literal; pure []
  else if ← look (nextGroup .curly) then
    inside .curly do
      let (_, nodes) ← innerAttributes g
      let more ← g.statements
      pure (nodes ++ more)
  else
    let name ← identifier
    pure [.path [name]]

def nextValueArgument (ts : List Token) : Bool := nextLiteral ts || nextGroup .curly ts

def angleArgument (g : Rules) : Reader Nodes := do
  if ← look fun ts => nextLifetime ts && !nextMark "+" (ts.drop 1) then lifetime; pure []
  else if ← look nextValueArgument then valueArgument g
  else
    let read ← g.type true
    match read.form with
    | .path (some own) =>
      if ← mark? "=" then
        if ← look nextValueArgument then
          let value ← valueArgument g
          pure (own ++ value)
        else
          let type ← g.typeNodes
          pure (own ++ type)
      else if ← mark? ":" then
        let bounds ← joined (fun ts => nextMark "," ts || nextMark ">" ts) "+" (g.bound false)
        pure (own ++ bounds)
      else pure read.nodes
    | _ => pure read.nodes

def angleArguments (g : Rules) : Reader Nodes := do
  mark "<"
  let nodes ← listedUntil (nextMark ">") "," (angleArgument g)
  mark ">"
  pure nodes

/-- The type that a function gives back. -/
def returnType (g : Rules) (plus : Bool) : Reader TypeRead := do
  if ← mark? "->" then g.type plus else pure ⟨.other, []⟩

/-- Arguments in round brackets, and whether more segments may follow them. -/
def roundArguments (g : Rules) : Reader (Nodes × Bool) := do
  let inputs ← inside .round (listed g.typeNodes)
  let given ← look (nextMark "->")
  let output ← returnType g false
  let open? := !given || (match output.form with
    | .bracketed => true
    | _ => false)
  pure (inputs ++ output.nodes, open?)

/-- One segment of a path: its name, and its arguments if it has some. -/
def segment (g : Rules) (inExpression : Bool) : Reader (String × Option Nodes) := do
  if ← look (nextWordOf ["super", "self", "crate", "try"]) then
    let name ← anyWord
    pure (name, none)
  else
    let name ← if ← look (nextWord "Self") then anyWord else identifier
    if ← look fun ts => !inExpression && nextMark "<" ts && !nextMark "<=" ts then
      let nodes ← angleArguments g
      pure (name, some nodes)
    else if ← look fun ts => nextMark "::" ts && nextMark "<" (ts.drop 2) then
      mark "::"
      let nodes ← angleArguments g
      pure (name, some nodes)
    else pure (name, none)

/-- A path with one more segment. -/
def PathRead.add (p : PathRead) (read : String × Option Nodes) : PathRead :=
  { p with
    segments := p.segments ++ [read.1]
    isPlain := p.isPlain && read.2.isNone
    endsPlain := read.2.isNone
    arguments := p.arguments ++ read.2.getD [] }

/-- The path before its first segment. -/
def PathRead.start (rooted : Bool) : PathRead := ⟨rooted, [], true, true, []⟩

/-- The further segments of a path. -/
def moreSegments (g : Rules) (inExpression : Bool) (stop : List Token → Bool) (p : PathRead) :
    Nat → Reader PathRead
  | 0 => refuse
  | bound + 1 => do
    if ← look fun ts => nextMark "::" ts && !stop ts then
      mark "::"
      let read ← segment g inExpression
      moreSegments g inExpression stop (p.add read) bound
    else pure p

/-- Whether colons come next and round brackets behind them. -/
def nextRoundAfterColons (ts : List Token) : Bool := nextGroup .round (ts.drop 2)

/-- The segments behind the ones read already. -/
def restOfPath (g : Rules) (inExpression : Bool) (p : PathRead) : Reader PathRead := do
  moreSegments g inExpression nextRoundAfterColons p ((← get).length + 1)

def path (g : Rules) (inExpression : Bool) : Reader PathRead := do
  let colons ← mark? "::"
  let first ← segment g inExpression
  restOfPath g inExpression ((PathRead.start colons).add first)

/-- A path that begins with a type in angle brackets. -/
def typeRootedPath (g : Rules) (inExpression : Bool) : Reader (PathRead × Nodes) := do
  mark "<"
  let self ← g.typeNodes
  let base ← if ← word? "as" then path g false else pure (PathRead.start true)
  mark ">"
  mark "::"
  let first ← segment g inExpression
  let whole ← moreSegments g inExpression (fun _ => false) (base.add first) ((← get).length + 1)
  pure (whole, self)

/-- A path of either kind: whether it begins with a type, the path, and the nodes of that type. -/
def anyPath (g : Rules) (inExpression : Bool) : Reader (Bool × PathRead × Nodes) := do
  if ← look (nextMark "<") then
    let (p, self) ← typeRootedPath g inExpression
    pure (true, p, self)
  else
    let p ← path g inExpression
    pure (false, p, [])

/-- Whether round brackets come next, colons before them or not. -/
def nextRound (ts : List Token) : Bool :=
  nextGroup .round ts || (nextMark "::" ts && nextGroup .round (ts.drop 2))

/-- Arguments in round brackets behind a path that ends without arguments, and what may follow. -/
def withRoundArguments (g : Rules) (p : PathRead) : Nat → Reader (PathRead × Bool)
  | 0 => refuse
  | bound + 1 => do
    if ← look fun ts => p.endsPlain && nextRound ts then
      let _ ← mark? "::"
      let (nodes, goesOn) ← roundArguments g
      let p := { p with isPlain := false, endsPlain := false, arguments := p.arguments ++ nodes }
      if goesOn then
        let p ← restOfPath g false p
        let (p, _) ← withRoundArguments g p bound
        pure (p, true)
      else pure (p, true)
    else pure (p, false)

/-- A path as a type: whether it begins with a type, whether it has arguments in round brackets, the
path, and the nodes of the type it begins with. -/
def typePath (g : Rules) : Reader (Bool × Bool × PathRead × Nodes) := do
  let (qualified, p, self) ← anyPath g false
  let (p, round) ← withRoundArguments g p ((← get).length + 1)
  pure (qualified, round, p, self)

/-! ## Bounds -/

/-- The lifetimes that a bound introduces, if there are some. -/
def introducedLifetimes (g : Rules) : Reader Nodes := do
  if ← word? "for" then
    mark "<"
    let nodes ← listedUntil (nextMark ">") "," do
      let nodes ← outerNodes g
      lifetime
      if ← mark? ":" then
        let _ ← joined (fun ts => nextMark "," ts || nextMark ">" ts) "+" (do lifetime; pure [])
      pure nodes
    mark ">"
    pure nodes
  else pure []

def traitBound (g : Rules) : Reader Nodes := do
  let binder ← look (nextWord "for")
  let nodes ← introducedLifetimes g
  let constant ← if ← look (nextGroup .square) then
      inside .square (word "const")
      pure true
    else word? "const"
  let maybe ← mark? "?"
  let late ← if maybe && !binder then introducedLifetimes g else pure []
  if maybe && binder then refuse
  else
    let p ← path g false
    let arguments ← if ← look fun ts => p.endsPlain && nextRound ts then do
        let _ ← mark? "::"
        pure (← roundArguments g).1
      else pure []
    pure (if constant then [] else nodes ++ late ++ p.nodes ++ arguments)

/-- A list of captures. -/
def captures : Reader Unit := do
  word "use"
  mark "<"
  let _ ← listedUntil (nextMark ">") "," do
    if ← look nextLifetime then lifetime
    else
      let _ ← anyWord
    pure []
  mark ">"

def boundRule (g : Rules) (mayCapture : Bool) : Reader Nodes := do
  if ← look nextLifetime then lifetime; pure []
  else if ← look (nextWord "use") then
    if mayCapture then captures; pure [] else refuse
  else if ← look (nextGroup .round) then inside .round (traitBound g)
  else traitBound g

def nextBound (ts : List Token) : Bool :=
  nextAnyWord ts || nextMark "::" ts || nextMark "?" ts || nextLifetime ts || nextGroup .round ts
    || nextGroup .square ts

/-- Bounds with plus signs between, or one only; whether a trait is among them comes along. -/
def bounds (g : Rules) (plus mayCapture : Bool) : Nat → Reader (Nodes × Bool)
  | 0 => refuse
  | bound + 1 => do
    let isTrait ← look fun ts => !nextLifetime ts && !nextWord "use" ts
    let nodes ← g.bound mayCapture
    if ← look fun ts => plus && nextMark "+" ts then
      mark "+"
      if ← look nextBound then
        let (more, others) ← bounds g plus mayCapture bound
        pure (nodes ++ more, isTrait || others)
      else pure (nodes, isTrait)
    else pure (nodes, isTrait)

/-- Bounds with a trait among them. -/
def traitBounds (g : Rules) (plus mayCapture : Bool) : Reader Nodes := do
  let (nodes, hasTrait) ← bounds g plus mayCapture ((← get).length + 1)
  if hasTrait then pure nodes else refuse

/-- Further bounds behind a plus sign, as long as one comes. -/
def moreBounds (g : Rules) : Reader Nodes :=
  repeating do
    if ← mark? "+" then
      if ← look nextBound then
        let nodes ← g.bound false
        pure (nodes, true)
      else pure ([], false)
    else pure ([], false)

/-! ## Types -/

/-- The interface of foreign functions, if one is named. -/
def foreignInterface : Reader Unit := do
  if ← word? "extern" then
    if ← look (fun | .literal (.text _) :: _ => true | _ => false) then
      let _ ← takeToken

def functionTypeParameter (g : Rules) (first : Bool) : Reader Nodes := do
  let nodes ← outerNodes g
  let self ← look fun ts => first &&
    (nextWord "self" ts || nextWord "mut" ts && nextWord "self" (ts.drop 1))
  let mutable ← look fun ts => first && nextWord "mut" ts && nextWord "self" (ts.drop 1)
  if mutable then word "mut"
  let isNamed := fun ts => (nextIdentifier ts || nextWord "_" ts || self && nextWord "self" ts) &&
    nextMark ":" (ts.drop 1) && !nextMark "::" (ts.drop 1)
  if ← look isNamed then
    let _ ← anyWord
    mark ":"
    let type ← g.typeNodes
    pure (if mutable then nodes else nodes ++ type)
  else if mutable then word "self"; pure nodes
  else
    let type ← g.typeNodes
    pure (nodes ++ type)

/-- Whether the dots for further arguments come next, behind a name or not. -/
def nextDots (ts : List Token) : Bool :=
  nextMark "..." ts ||
    ((nextIdentifier ts || nextWord "_" ts) && nextMark ":" (ts.drop 1) &&
      nextMark "..." (ts.drop 2))

def functionTypeParameters (g : Rules) (first : Bool) : Nat → Reader Nodes
  | 0 => refuse
  | bound + 1 => do
    if ← atEnd then pure []
    else
      let attributes ← outerNodes g
      if ← look nextDots then
        if ← look nextAnyWord then
          let _ ← anyWord
          mark ":"
        mark "..."
        let _ ← mark? ","
        pure attributes
      else
        let nodes ← functionTypeParameter g first
        if ← atEnd then pure (attributes ++ nodes)
        else
          mark ","
          let more ← functionTypeParameters g false bound
          pure (attributes ++ nodes ++ more)

def functionType (g : Rules) : Reader Nodes := do
  let _ ← word? "unsafe"
  foreignInterface
  word "fn"
  let inputs ← inside .round do functionTypeParameters g true ((← get).length + 1)
  let output ← returnType g false
  pure (inputs ++ output.nodes)

/-- Types in round brackets, and what may follow them. -/
def bracketedType (g : Rules) (plus : Bool) : Reader TypeRead := do
  match ← takeToken with
  | .group .round tokens =>
    if tokens.isEmpty then pure ⟨.other, []⟩
    else if nextLifetime tokens then
      match traitBounds g true false tokens with
      | some (nodes, []) => pure ⟨.bracketed, nodes⟩
      | _ => refuse
    else if nextMark "?" tokens then
      match traitBound g tokens with
      | some (nodes, []) =>
        let more ← repeating do
          if ← mark? "+" then
            let nodes ← g.bound false
            pure (nodes, true)
          else pure ([], false)
        pure ⟨.other, nodes ++ more⟩
      | _ => refuse
    else
      match g.type true tokens with
      | none => refuse
      | some (first, rest) =>
        if nextMark "," rest then
          match listed g.typeNodes (rest.drop 1) with
          | some (more, []) => pure ⟨.other, first.nodes ++ more⟩
          | _ => refuse
        else if rest.isEmpty then
          let joins := match first.form with
            | .path _ => true
            | .bound => true
            | _ => false
          if ← look fun ts => plus && joins && nextMark "+" ts then
            let more ← repeating do
              if ← mark? "+" then
                let nodes ← g.bound false
                pure (nodes, true)
              else pure ([], false)
            pure ⟨.other, first.nodes ++ more⟩
          else pure ⟨.bracketed, first.nodes⟩
        else refuse
  | _ => refuse

def pathType (g : Rules) (plus binder : Bool) : Reader TypeRead := do
  let (qualified, round, p, self) ← typePath g
  if qualified then pure ⟨.other, self ++ p.nodes⟩
  else if ← look fun ts => nextMark "!" ts && !nextMark "!=" ts && p.isPlain then
    mark "!"
    let _ ← anyGroup
    pure ⟨.other, p.nodes⟩
  else if ← look fun ts => binder || (plus && nextMark "+" ts) then
    let single ← look fun ts => !(plus && nextMark "+" ts)
    let more ← if plus then moreBounds g else pure []
    pure ⟨if single then .bound else .other, p.nodes ++ more⟩
  else
    let isSingle := !p.isRooted && p.segments.length = 1 && !round
    pure ⟨.path (if isSingle then some p.arguments else none), p.nodes⟩

def squareType (g : Rules) : Reader Nodes :=
  inside .square do
    let element ← g.typeNodes
    if ← mark? ";" then
      let length ← g.expressionNodes
      pure (element ++ length)
    else pure element

/-- Whether a type that may introduce lifetimes comes next. -/
def nextBinderBody (ts : List Token) : Bool :=
  nextPathWord ts || nextWordOf ["fn", "unsafe", "extern"] ts

def typeRule (g : Rules) (plus : Bool) : Reader TypeRead := do
  let binder ← look (nextWord "for")
  let introduced ← introducedLifetimes g
  let bad ← look fun ts => binder && !nextBinderBody ts
  if bad then refuse
  else if ← look (nextGroup .round) then bracketedType g plus
  else if ← look (nextWordOf ["fn", "unsafe", "extern"]) then
    let nodes ← functionType g
    pure ⟨.other, introduced ++ nodes⟩
  else if ← look fun ts => nextPathWord ts || nextMark "::" ts || nextMark "<" ts then
    let read ← pathType g plus binder
    pure { read with nodes := introduced ++ read.nodes }
  else if ← word? "dyn" then
    let starred ← mark? "*"
    let nodes ← traitBounds g plus false
    pure ⟨.other, if starred then [] else nodes⟩
  else if ← look (nextGroup .square) then
    let nodes ← squareType g
    pure ⟨.other, nodes⟩
  else if ← mark? "*" then
    if ← word? "const" then pure () else word "mut"
    let read ← g.type false
    pure ⟨.other, read.nodes⟩
  else if ← mark? "&" then
    lifetime?
    let _ ← word? "mut"
    let read ← g.type false
    pure ⟨.other, read.nodes⟩
  else if ← look fun ts => nextMark "!" ts && !nextMark "!=" ts then
    mark "!"
    pure ⟨.other, []⟩
  else if ← word? "impl" then
    let nodes ← traitBounds g plus true
    pure ⟨.other, nodes⟩
  else if ← word? "_" then pure ⟨.other, []⟩
  else if ← look nextLifetime then
    let nodes ← traitBounds g true false
    pure ⟨.other, nodes⟩
  else refuse

/-! ## Generics -/

/-- One parameter in angle brackets. -/
def genericParameter (g : Rules) : Reader Nodes := do
  let attributes ← outerNodes g
  if ← look nextLifetime then
    lifetime
    if ← mark? ":" then
      let _ ← joined (fun ts => nextMark "," ts || nextMark ">" ts) "+" (do lifetime; pure [])
    pure attributes
  else if ← word? "const" then
    let _ ← identifier
    mark ":"
    let type ← g.typeNodes
    let value ← if ← mark? "=" then valueArgument g else pure []
    pure (attributes ++ type ++ value)
  else if ← word? "_" then pure attributes
  else
    let _ ← identifier
    let bounds ← if ← mark? ":" then
        joined (fun ts => nextMark "," ts || nextMark ">" ts || nextMark "=" ts) "+" (g.bound false)
      else pure []
    let default ← if ← mark? "=" then g.typeNodes else pure []
    pure (attributes ++ bounds ++ default)

/-- The parameters in angle brackets, and whether there are brackets. -/
def generics (g : Rules) : Reader (Nodes × Bool) := do
  if ← mark? "<" then
    let nodes ← listedUntil (nextMark ">") "," (genericParameter g)
    mark ">"
    pure (nodes, true)
  else pure ([], false)

def nextEndOfConditions (ts : List Token) : Bool :=
  ts.isEmpty || nextGroup .curly ts || nextMark "," ts || nextMark ";" ts ||
    (nextMark ":" ts && !nextMark "::" ts) || nextMark "=" ts

/-- One condition on lifetimes or types. -/
def condition (g : Rules) : Reader Nodes := do
  if ← look fun ts => nextLifetime ts && nextMark ":" (ts.drop 1) then
    lifetime
    mark ":"
    joined nextEndOfConditions "+" (do lifetime; pure [])
  else
    let binder ← introducedLifetimes g
    let type ← g.typeNodes
    mark ":"
    let bounds ← joined nextEndOfConditions "+" (g.bound false)
    pure (binder ++ type ++ bounds)

/-- The conditions on lifetimes and types, and whether they are announced. -/
def conditions (g : Rules) : Reader (Nodes × Bool) := do
  if ← word? "where" then
    let nodes ← joined nextEndOfConditions "," (condition g)
    pure (nodes, true)
  else pure ([], false)

end CoinLedger.Layering.Grammar
