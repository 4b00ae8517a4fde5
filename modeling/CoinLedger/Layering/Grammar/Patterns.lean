import CoinLedger.Layering.Grammar.Types
/-!
# Patterns

Patterns take values apart. Names that a pattern binds are no paths; the paths of structs, constants
and macros in it count.
-/

namespace CoinLedger.Layering.Grammar

/-- Whether a mark for a further alternative comes next. -/
def nextAlternative (ts : List Token) : Bool :=
  nextMark "|" ts && !nextMark "||" ts && !nextMark "|=" ts

/-- The further alternatives of a pattern. -/
def moreAlternatives (g : Rules) : Reader Nodes :=
  repeating do
    if ← look nextAlternative then
      mark "|"
      let read ← g.pattern
      pure (read.nodes, true)
    else pure ([], false)

/-- A pattern with alternatives. -/
def alternatives (g : Rules) : Reader PatternRead := do
  let leading ← mark? "|"
  let first ← g.pattern
  if ← look fun ts => leading || nextAlternative ts then
    let more ← moreAlternatives g
    pure ⟨.other, first.nodes ++ more⟩
  else pure first

def alternativeNodes (g : Rules) : Reader Nodes := do pure (← alternatives g).nodes

/-! ## Ranges -/

/-- Whether a range has no bound here. -/
def nextEndOfRange (ts : List Token) : Bool :=
  ts.isEmpty || nextMark "|" ts || nextMark "=" ts || (nextMark ":" ts && !nextMark "::" ts) ||
    nextMark "," ts || nextMark ";" ts || nextWord "if" ts

def constantBlock (g : Rules) : Reader Nodes := do
  word "const"
  inside .curly do
    let (_, nodes) ← innerAttributes g
    let more ← g.statements
    pure (nodes ++ more)

def rangeBound (g : Rules) : Reader (Option Nodes) := do
  if ← look nextEndOfRange then pure none
  else if ← look nextLiteral then literal; pure (some [])
  else if ← look fun ts => nextPathWord ts || nextMark "::" ts || nextMark "<" ts then
    let (_, p, self) ← anyPath g true
    pure (some (self ++ p.nodes))
  else
    let nodes ← constantBlock g
    pure (some nodes)

/-- The rest of a range behind its beginning. Two dots may be followed by no bound. -/
def rangeFrom (g : Rules) (start : Nodes) : Reader PatternRead := do
  let closed ← if ← mark? "..=" then pure true else if ← mark? "..." then pure true
    else do mark ".."; pure false
  match ← rangeBound g with
  | some nodes => pure ⟨.other, start ++ nodes⟩
  | none => if closed then refuse else pure ⟨.openRange, start⟩

/-- A range without a beginning, or what stands for the rest. -/
def rangeWithoutStart (g : Rules) : Reader PatternRead := do
  let closed ← if ← mark? "..=" then pure true else do mark ".."; pure false
  match ← rangeBound g with
  | some nodes => pure ⟨.openRange, nodes⟩
  | none => if closed then refuse else pure ⟨.rest, []⟩

/-! ## Patterns in brackets -/

/-- What names a field: an identifier or a number. -/
def member : Reader (Option String) := do
  match ← get with
  | .literal (.whole written) :: rest =>
    if written.all Char.isDigit then
      set rest
      pure none
    else refuse
  | _ =>
    let name ← identifier
    pure (some name)

def fieldPattern (g : Rules) : Reader Nodes := do
  let boxed ← word? "box"
  let byReference ← word? "ref"
  let mutable ← word? "mut"
  let marked := boxed || byReference || mutable
  let name ← if marked then do pure (some (← identifier)) else member
  if ← look fun ts => (!marked && nextMark ":" ts) || name.isNone then
    mark ":"
    alternativeNodes g
  else pure []

/-- The patterns of the fields of a struct. -/
def fieldPatterns (g : Rules) : Reader Nodes :=
  repeating do
    if ← atEnd then pure ([], false)
    else
      let attributes ← outerNodes g
      if ← mark? ".." then pure (attributes, false)
      else
        let nodes ← fieldPattern g
        if ← atEnd then pure (attributes ++ nodes, false)
        else
          mark ","
          pure (attributes ++ nodes, true)

/-- A pattern in a slice, which may not be an open range. -/
def slicePattern (g : Rules) : Reader Nodes := do
  let read ← alternatives g
  if read.form = .openRange then refuse else pure read.nodes

/-! ## Patterns -/

def pathPattern (g : Rules) : Reader PatternRead := do
  let (qualified, p, self) ← anyPath g true
  let nodes := self ++ p.nodes
  if ← look fun ts => !qualified && nextMark "!" ts && !nextMark "!=" ts && p.isPlain then
    mark "!"
    let _ ← anyGroup
    pure ⟨.other, nodes⟩
  else if ← look (nextGroup .curly) then
    let fields ← inside .curly (fieldPatterns g)
    pure ⟨.other, nodes ++ fields⟩
  else if ← look (nextGroup .round) then
    let items ← inside .round (listed (alternativeNodes g))
    pure ⟨.other, nodes ++ items⟩
  else if ← look (nextMark "..") then rangeFrom g nodes
  else pure ⟨.other, nodes⟩

def bindingPattern (g : Rules) : Reader Nodes := do
  let _ ← word? "ref"
  let _ ← word? "mut"
  if ← word? "self" then pure ()
  else
    let _ ← identifier
  if ← mark? "@" then pure (← g.pattern).nodes else pure []

/-- A pattern that begins with a literal or a constant block. -/
def literalPattern (g : Rules) : Reader PatternRead := do
  match ← rangeBound g with
  | none => refuse
  | some start =>
    if ← look (nextMark "..") then rangeFrom g start else pure ⟨.other, start⟩

def nextPathPattern (ts : List Token) : Bool :=
  let behind := ts.drop 1
  (nextIdentifier ts && (nextMark "::" behind || nextMark "!" behind || nextGroup .curly behind ||
      nextGroup .round behind || nextMark ".." behind)) ||
    (nextWord "self" ts && nextMark "::" behind) || nextMark "::" ts || nextMark "<" ts ||
    nextWordOf ["Self", "super", "crate"] ts

/-- A pattern without alternatives. -/
def patternRule (g : Rules) : Reader PatternRead := do
  if ← look nextPathPattern then pathPattern g
  else if ← word? "_" then pure ⟨.other, []⟩
  else if ← word? "box" then
    let _ ← g.pattern
    pure ⟨.other, []⟩
  else if ← look fun ts => nextMark "-" ts || nextLiteral ts || nextWord "const" ts then
    literalPattern g
  else if ← look fun ts => nextWordOf ["ref", "mut", "self"] ts || nextIdentifier ts then
    let nodes ← bindingPattern g
    pure ⟨.other, nodes⟩
  else if ← mark? "&" then
    let _ ← word? "mut"
    let read ← g.pattern
    pure ⟨.other, read.nodes⟩
  else if ← look (nextGroup .round) then
    let nodes ← inside .round (listed (alternativeNodes g))
    pure ⟨.other, nodes⟩
  else if ← look (nextGroup .square) then
    let nodes ← inside .square (listed (slicePattern g))
    pure ⟨.other, nodes⟩
  else if ← look fun ts => nextMark ".." ts && !nextMark "..." ts then rangeWithoutStart g
  else refuse

end CoinLedger.Layering.Grammar
