import CoinLedger.Layering.Grammar.Expressions
/-!
# Items

An item is a definition that may stand at the top of a file, in a module or in a block. Some forms
are taken but not looked into, like a function without a body: they count as unparsed and contribute
nothing.
-/

namespace CoinLedger.Layering.Grammar

/-! ## Imports -/

/-- An import; there is none to speak of if a group in it begins at the root of all crates. -/
abbrev TreeRead := Option UseTree

/-- The trees of a group, each read by a reader that is told whether it may begin with colons. -/
def useTrees (tree : Bool → Reader TreeRead) (mayBeRooted : Bool) :
    Nat → Reader (Option (List UseTree))
  | 0 => refuse
  | bound + 1 => do
    if ← atEnd then pure (some [])
    else
      let rooted ← if mayBeRooted then mark? "::" else pure false
      let first ← tree (mayBeRooted && !rooted)
      if !(← atEnd) then mark ","
      let rest ← useTrees tree mayBeRooted bound
      match rooted, first, rest with
      | false, some t, some ts => pure (some (t :: ts))
      | _, _, _ => pure none

/-- What an import names. The first argument bounds how deep groups and segments are nested. -/
def useTree : Nat → Bool → Reader TreeRead
  | 0, _ => refuse
  | depth + 1, mayBeRooted => do
    if ← look fun ts => nextIdentifier ts || nextWordOf ["self", "super", "crate", "try"] ts then
      let name ← anyWord
      if ← mark? "::" then
        pure ((← useTree depth false).map (.under name))
      else if ← word? "as" then
        let other ← if ← look (nextWord "_") then anyWord else identifier
        pure (some (.rename name other))
      else pure (some (.name name))
    else if ← mark? "*" then pure (some .all)
    else
      let trees ← inside .curly do useTrees (useTree depth) mayBeRooted ((← get).length + 1)
      pure (trees.map .group)

/-- What an import names, behind its first word. -/
def importBody : Reader TreeRead := do
  let rooted ← mark? "::"
  let depth := sizeOfAll (← get) + 1
  let tree ← useTree depth (!rooted)
  mark ";"
  pure tree

/-! ## Functions -/

/-- Whether a function comes next, behind the words that may stand in front of it. -/
def nextFunction (maySafe : Bool) (ts : List Token) : Bool :=
  let drop := fun (w : String) (ts : List Token) => if nextWord w ts then ts.drop 1 else ts
  let ts := drop "async" (drop "const" ts)
  let ts := if maySafe && nextWord "safe" ts then ts.drop 1 else drop "unsafe" ts
  let ts := if nextWord "extern" ts then
      match ts.drop 1 with
      | .literal (.text _) :: rest => rest
      | rest => rest
    else ts
  nextWord "fn" ts

/-- A receiver: the value that a method is called on. -/
def receiver (g : Rules) : Reader Nodes := do
  let byReference ← mark? "&"
  if byReference then lifetime?
  let _ ← word? "mut"
  word "self"
  if ← look fun ts => !byReference && nextMark ":" ts then
    mark ":"
    g.typeNodes
  else pure [.path ["Self"]]

/-- One parameter. -/
inductive ParameterRead where
  | receiver (nodes : Nodes)
  | typed (nodes : Nodes)
  /-- The dots for further arguments. -/
  | dots (nodes : Nodes)

/-- One parameter of a function, behind its attributes. -/
def parameter (g : Rules) : Reader ParameterRead := do
  if ← mark? "..." then pure (.dots [])
  else
    match ← attempt (receiver g) with
    | some nodes => pure (.receiver nodes)
    | none =>
      if ← look fun ts => nextIdentifier ts && nextMark "<" (ts.drop 1) then
        pure (.typed (← g.typeNodes))
      else
        let pattern ← g.pattern
        mark ":"
        if ← mark? "..." then pure (.dots pattern.nodes)
        else
          let type ← g.typeNodes
          pure (.typed (pattern.nodes ++ type))

/-- The parameters of a function. Only the first one may be a receiver. -/
def parameters (g : Rules) (first : Bool) : Nat → Reader Nodes
  | 0 => refuse
  | bound + 1 => do
    if ← atEnd then pure []
    else
      let attributes ← outerNodes g
      match ← parameter g with
      | .dots nodes =>
        if !(← atEnd) then mark ","
        pure (attributes ++ nodes)
      | .receiver nodes =>
        if !first then refuse
        else
          if !(← atEnd) then mark ","
          let more ← parameters g false bound
          pure (attributes ++ nodes ++ more)
      | .typed nodes =>
        if !(← atEnd) then mark ","
        let more ← parameters g false bound
        pure (attributes ++ nodes ++ more)

/-- The head of a function, and whether it is marked as safe. -/
def signature (g : Rules) (maySafe : Bool) : Reader (Nodes × Bool) := do
  let _ ← word? "const"
  let _ ← word? "async"
  let safe ← if maySafe then word? "safe" else pure false
  if !safe then
    let _ ← word? "unsafe"
  foreignInterface
  word "fn"
  let _ ← identifier
  let (parameterNodes, _) ← generics g
  let inputs ← inside .round do parameters g true ((← get).length + 1)
  let output ← returnType g true
  let (restrictions, _) ← conditions g
  pure (parameterNodes ++ inputs ++ output.nodes ++ restrictions, safe)

/-! ## Definitions of types -/

/-- A field with a name. -/
def namedField (g : Rules) : Reader Nodes := do
  let attributes ← outerNodes g
  let v ← visibility
  let unnamed ← word? "_"
  if !unnamed then
    let _ ← identifier
  mark ":"
  if ← look fun ts => unnamed && (nextWord "struct" ts ||
      nextWord "union" ts && nextGroup .curly (ts.drop 1)) then
    let _ ← anyWord
    let bracket ← anyGroup
    if bracket = .curly then pure (attributes ++ v.nodes) else refuse
  else
    let type ← g.typeNodes
    pure (attributes ++ v.nodes ++ type)

/-- A field without a name. -/
def tupleField (g : Rules) : Reader Nodes := do
  let attributes ← outerNodes g
  let v ← visibility
  let type ← g.typeNodes
  pure (attributes ++ v.nodes ++ type)

def namedFields (g : Rules) : Reader Nodes := inside .curly (listed (namedField g))

/-- Fields without names. -/
def tupleFields (g : Rules) : Reader Nodes := inside .round (listed (tupleField g))

/-- A struct behind its first word. -/
def structBody (g : Rules) : Reader Nodes := do
  let _ ← identifier
  let (parameterNodes, _) ← generics g
  let (restrictions, restricted) ← conditions g
  let front := parameterNodes ++ restrictions
  if ← look fun ts => !restricted && nextGroup .round ts then
    let fields ← tupleFields g
    let (late, _) ← conditions g
    mark ";"
    pure (front ++ fields ++ late)
  else if ← look (nextGroup .curly) then
    let fields ← namedFields g
    pure (front ++ fields)
  else
    mark ";"
    pure front

/-- One variant of an enumeration. Its visibility, if one is written, does not count. -/
def variant (g : Rules) : Reader Nodes := do
  let attributes ← outerNodes g
  let _ ← visibility
  let _ ← identifier
  let fields ← if ← look (nextGroup .curly) then namedFields g
    else if ← look (nextGroup .round) then tupleFields g else pure []
  let value ← if ← mark? "=" then g.expressionNodes else pure []
  pure (attributes ++ fields ++ value)

/-- An enumeration behind its first word. -/
def enumerationBody (g : Rules) : Reader Nodes := do
  let _ ← identifier
  let (parameterNodes, _) ← generics g
  let (restrictions, _) ← conditions g
  let variants ← inside .curly (listed (variant g))
  pure (parameterNodes ++ restrictions ++ variants)

/-- A union behind its first word. -/
def unionBody (g : Rules) : Reader Nodes := do
  let _ ← identifier
  let (parameterNodes, _) ← generics g
  let (restrictions, _) ← conditions g
  let fields ← namedFields g
  pure (parameterNodes ++ restrictions ++ fields)

/-- Where conditions may stand in the definition of a type's name. -/
inductive ConditionPlace where
  | before
  | behind
  | both
  deriving DecidableEq

/-- The definition of a type's name. -/
structure TypeNameRead where
  nodes : Nodes
  hasParameters : Bool
  hasConditions : Bool
  hasBounds : Bool
  hasDefinition : Bool

/-- The definition of a type's name, from its first word on. -/
def typeName (g : Rules) (place : ConditionPlace) : Reader TypeNameRead := do
  word "type"
  let _ ← identifier
  let (parameterNodes, hasParameters) ← generics g
  let stop := fun ts => nextWord "where" ts || nextMark "=" ts || nextMark ";" ts
  let hasBounds ← mark? ":"
  let boundNodes ← if hasBounds then listedUntil stop "+" (g.bound false) else pure []
  let (early, hasEarly) ← if place = .behind then pure ([], false) else conditions g
  let hasDefinition ← mark? "="
  let definition ← if hasDefinition then g.typeNodes else pure []
  let (late, hasLate) ← if place = .before || hasEarly then pure ([], false) else conditions g
  mark ";"
  pure ⟨parameterNodes ++ boundNodes ++ early ++ definition ++ late, hasParameters,
    hasEarly || hasLate, hasBounds, hasDefinition⟩

/-! ## Constants -/

/-- A constant. -/
structure ConstantRead where
  nodes : Nodes
  /-- Whether it is of the common form: with a value, without parameters and conditions. -/
  isCommon : Bool
  hasValue : Bool

/-- A constant behind its first word. -/
def constantBody (g : Rules) : Reader ConstantRead := do
  if ← look fun ts => nextIdentifier ts || nextWord "_" ts then
    let _ ← anyWord
    let (parameterNodes, hasParameters) ← generics g
    mark ":"
    let type ← g.typeNodes
    let hasValue ← mark? "="
    let value ← if hasValue then g.expressionNodes else pure []
    let (restrictions, hasConditions) ← conditions g
    mark ";"
    pure ⟨parameterNodes ++ type ++ value ++ restrictions,
      hasValue && !hasParameters && !hasConditions, hasValue⟩
  else refuse

/-- A static variable behind its first word; `none` for a form that is not looked into. -/
def staticBody (g : Rules) : Reader (Option Nodes) := do
  let _ ← word? "mut"
  let _ ← identifier
  if ← mark? "=" then
    let _ ← g.expressionNodes
    mark ";"
    pure none
  else
    mark ":"
    let type ← g.typeNodes
    if ← mark? ";" then pure none
    else
      mark "="
      let value ← g.expressionNodes
      mark ";"
      pure (some (type ++ value))

/-! ## Invocations -/

/-- Whether a macro may be invoked here. -/
def nextInvocation (ts : List Token) : Bool :=
  nextIdentifier ts || nextWordOf ["self", "super", "crate"] ts || nextMark "::" ts

/-- A macro that is invoked among the members of something. -/
def memberInvocation : Reader Nodes := do
  let (_, segments) ← plainPath
  mark "!"
  let bracket ← anyGroup
  if bracket ≠ .curly then mark ";"
  pure [.path segments]

/-- A macro that is invoked as an item, with a name perhaps. -/
def itemInvocation : Reader Nodes := do
  let (_, segments) ← plainPath
  mark "!"
  if ← look fun ts => nextIdentifier ts || nextWord "try" ts then
    let _ ← anyWord
  let bracket ← anyGroup
  if bracket ≠ .curly then mark ";"
  pure [.path segments]

/-! ## Traits -/

/-- A constant of a trait, behind its first word. -/
def traitConstant (g : Rules) : Reader Nodes := do pure (← constantBody g).nodes

def traitFunction (g : Rules) : Reader Nodes := do
  let (head, _) ← signature g false
  if ← look (nextGroup .curly) then
    let body ← attributedBlock g
    pure (head ++ body)
  else
    mark ";"
    pure head

/-- One member of a trait. A member with visibility or a default is not looked into. -/
def traitMember (g : Rules) : Reader Nodes := do
  let attributes ← outerNodes g
  let v ← visibility
  let isDefault ← word? "default"
  let isPlain := v.isInherited && !isDefault
  let nodes ←
    if ← look (nextFunction false) then traitFunction g
    else if ← look (nextWord "const") then
      word "const"
      traitConstant g
    else if ← look (nextWord "type") then pure (← typeName g .behind).nodes
    else if ← look fun ts => isPlain && nextInvocation ts then memberInvocation
    else refuse
  pure (if isPlain then attributes ++ nodes else [])

/-- The members of a trait behind its name and parameters. -/
def traitBody (g : Rules) : Reader AttributesRead := do
  let stop := fun ts => nextWord "where" ts || nextGroup .curly ts
  let supers ← if ← mark? ":" then listedUntil stop "+" (g.bound false) else pure []
  let (restrictions, _) ← conditions g
  let (attributes, members) ← inside .curly do
    let attributes ← innerAttributes g
    let nodes ← toEnd (traitMember g)
    pure (attributes.1, attributes.2 ++ nodes)
  pure (attributes, supers ++ restrictions ++ members)

/-- Another name for bounds, behind the name and its parameters. -/
def traitAliasBody (g : Rules) : Reader Nodes := do
  mark "="
  let stop := fun ts => nextWord "where" ts || nextMark ";" ts
  let nodes ← listedUntil stop "+" (g.bound false)
  let (restrictions, _) ← conditions g
  mark ";"
  pure (nodes ++ restrictions)

/-! ## Implementations -/

def implementationMember (g : Rules) : Reader Nodes := do
  let attributes ← outerNodes g
  let v ← visibility
  let isDefault ← if ← look fun ts => nextWord "default" ts && !nextMark "!" (ts.drop 1) then
      word? "default" else pure false
  let front := attributes ++ v.nodes
  if ← look (nextFunction false) then
    let (head, _) ← signature g false
    if ← mark? ";" then pure []
    else
      let body ← attributedBlock g
      pure (front ++ head ++ body)
  else if ← word? "const" then
    let read ← constantBody g
    pure (if read.isCommon then front ++ read.nodes else [])
  else if ← look (nextWord "type") then
    let read ← typeName g .behind
    pure (if read.hasDefinition && !read.hasBounds then front ++ read.nodes else [])
  else if ← look fun ts => v.isInherited && !isDefault && nextInvocation ts then
    let nodes ← memberInvocation
    pure (attributes ++ nodes)
  else refuse

/-- Whether parameters come next, and not a path that begins with a type. -/
def nextImplementationParameters (ts : List Token) : Bool :=
  let second := ts.drop 1
  let third := ts.drop 2
  nextMark "<" ts &&
    (nextMark ">" second || nextMark "#" second || nextWord "const" second ||
      ((nextLifetime second || nextIdentifier second) &&
        ((nextMark ":" third && !nextMark "::" third) || nextMark "," third || nextMark ">" third ||
          nextMark "=" third)))

/-- An implementation; `none` for a form that is not looked into. -/
def implementation (g : Rules) : Reader (Option AttributesRead) := do
  let v ← visibility
  let _ ← word? "default"
  let _ ← word? "unsafe"
  word "impl"
  let (parameterNodes, _) ← if ← look nextImplementationParameters then generics g
    else pure ([], false)
  let isConst ← if ← look fun ts => nextWord "const" ts ||
      (nextMark "?" ts && nextWord "const" (ts.drop 1)) then do
        let _ ← mark? "?"
        word "const"
        pure true
    else pure false
  let negative ← if ← look fun ts => nextMark "!" ts && !nextGroup .curly (ts.drop 1) then
      mark? "!" else pure false
  let first ← g.type true
  let (types, isTrait) ← if ← word? "for" then do
      let second ← g.typeNodes
      let isTrait := match first.form with
        | .path _ => true
        | _ => false
      pure (first.nodes ++ second, isTrait)
    else if negative then refuse
    else pure (first.nodes, true)
  let (restrictions, _) ← conditions g
  let (attributes, members) ← inside .curly do
    let attributes ← innerAttributes g
    let nodes ← toEnd (implementationMember g)
    pure (attributes.1, attributes.2 ++ nodes)
  if !v.isInherited || isConst || !isTrait then pure none
  else pure (some (attributes, parameterNodes ++ types ++ restrictions ++ members))

/-! ## Foreign items -/

def foreignItem (g : Rules) : Reader Nodes := do
  let attributes ← outerNodes g
  let v ← visibility
  let front := attributes ++ v.nodes
  let nextStatic := fun ts => nextWord "static" ts ||
    (nextWordOf ["unsafe", "safe"] ts && nextWord "static" (ts.drop 1))
  if ← look (nextFunction true) then
    let (head, safe) ← signature g true
    if ← look (nextGroup .curly) then
      let _ ← attributedBlock g
      pure []
    else
      mark ";"
      pure (if safe then [] else front ++ head)
  else if ← look nextStatic then
    let marked ← if ← word? "unsafe" then pure true else word? "safe"
    word "static"
    let _ ← word? "mut"
    let _ ← identifier
    mark ":"
    let type ← g.typeNodes
    let hasValue ← mark? "="
    if hasValue then
      let _ ← g.expressionNodes
    mark ";"
    pure (if marked || hasValue then [] else front ++ type)
  else if ← look (nextWord "type") then
    let read ← typeName g .both
    let plain := !read.hasParameters && !read.hasConditions && !read.hasBounds &&
      !read.hasDefinition
    pure (if plain then front ++ read.nodes else [])
  else if ← look fun ts => v.isInherited && nextInvocation ts then
    let nodes ← memberInvocation
    pure (attributes ++ nodes)
  else refuse

/-- A foreign block behind the word that marks it as unsafe. -/
def foreignBlock (g : Rules) : Reader AttributesRead := do
  foreignInterface
  inside .curly do
    let attributes ← innerAttributes g
    let nodes ← toEnd (foreignItem g)
    pure (attributes.1, attributes.2 ++ nodes)

/-! ## Modules -/

/-- A module from its first word on. -/
def moduleItem (g : Rules) : Reader (ItemKind × AttributesRead) := do
  word "mod"
  let name ← if ← look (nextWord "try") then anyWord else identifier
  if ← mark? ";" then pure (.module name false, [], [])
  else
    let read ← inside .curly do
      let attributes ← innerAttributes g
      let nodes ← toEnd do pure [← g.item]
      pure (attributes.1, attributes.2 ++ nodes)
    pure (.module name true, read)

/-! ## Items -/

/-- An item behind the attributes in front of it: its kind, the attributes in it, and its nodes. A
form that is not looked into has none. -/
abbrev ItemRead := ItemKind × AttributesRead

def notLookedInto : ItemRead := (.unparsed, [], [])

/-- An item of a kind without attributes in it. -/
def plainItem (kind : ItemKind) (nodes : Nodes) : ItemRead := (kind, [], nodes)

def functionItem (g : Rules) (v : VisibilityRead) : Reader ItemRead := do
  let (head, safe) ← signature g true
  if ← mark? ";" then pure notLookedInto
  else
    let (attributes, body) ← inside .curly (blockBody g)
    if safe then pure notLookedInto
    else pure (.function, attributes.1, v.nodes ++ head ++ body)

/-- An external crate behind its two first words. -/
def externCrateItem (v : VisibilityRead) : Reader ItemRead := do
  if ← word? "self" then pure ()
  else
    let _ ← identifier
  if ← word? "as" then
    if ← word? "_" then pure ()
    else
      let _ ← identifier
  mark ";"
  pure (plainItem .externCrate v.nodes)

/-- An item that begins with the word for what is external. -/
def externItem (g : Rules) (v : VisibilityRead) : Reader ItemRead := do
  if ← look fun ts => nextWord "crate" (ts.drop 1) then
    word "extern"
    word "crate"
    externCrateItem v
  else if !v.isInherited then refuse
  else
    let read ← foreignBlock g
    pure (.externBlock, read)

/-- A trait, or another name for bounds. -/
def traitItem (g : Rules) (v : VisibilityRead) (mayAlias : Bool) : Reader ItemRead := do
  word "trait"
  let _ ← identifier
  let (parameterNodes, _) ← generics g
  let front := v.nodes ++ parameterNodes
  if ← look fun ts => mayAlias && nextMark "=" ts then
    let nodes ← traitAliasBody g
    pure (plainItem .traitAlias (front ++ nodes))
  else
    let (attributes, nodes) ← traitBody g
    pure (.trait, attributes, front ++ nodes)

/-- An implementation as an item; its visibility is part of it. -/
def implementationItem (g : Rules) : Reader ItemRead := do
  match ← implementation g with
  | some read => pure (.implementation, read)
  | none => pure notLookedInto

/-- A definition of macros that is not looked into. -/
def macroDefinition : Reader ItemRead := do
  word "macro"
  let _ ← identifier
  if ← look (nextGroup .round) then
    let _ ← anyGroup
  if ← look (nextGroup .curly) then
    let _ ← anyGroup
    pure notLookedInto
  else refuse

/-- An item behind its visibility, which comes along; what stood before the visibility too, for
implementations begin there. -/
def visibleItem (g : Rules) (before : List Token) (v : VisibilityRead) : Reader ItemRead := do
  let ts ← get
  let second := ts.drop 1
  if nextFunction true ts then functionItem g v
  else if nextWord "extern" ts then externItem g v
  else if nextWord "use" ts then
    word "use"
    match ← importBody with
    | some tree => pure (plainItem .imports [.use tree])
    | none => pure notLookedInto
  else if nextWord "static" ts then
    word "static"
    match ← staticBody g with
    | some nodes => pure (plainItem .static (v.nodes ++ nodes))
    | none => pure notLookedInto
  else if nextWord "const" ts then
    word "const"
    let read ← constantBody g
    pure (if read.isCommon then plainItem .constant (v.nodes ++ read.nodes) else notLookedInto)
  else if nextWord "unsafe" ts then
    if nextWord "trait" second || (nextWord "auto" second && nextWord "trait" (ts.drop 2)) then
      word "unsafe"
      let _ ← word? "auto"
      traitItem g v false
    else if nextWord "impl" second then
      set before
      implementationItem g
    else if nextWord "extern" second then
      if !v.isInherited then refuse
      else
        word "unsafe"
        let read ← foreignBlock g
        pure (.externBlock, read)
    else if nextWord "mod" second then
      word "unsafe"
      let (kind, attributes, nodes) ← moduleItem g
      pure (kind, attributes, v.nodes ++ nodes)
    else refuse
  else if nextWord "mod" ts then
    let (kind, attributes, nodes) ← moduleItem g
    pure (kind, attributes, v.nodes ++ nodes)
  else if nextWord "type" ts then
    let read ← typeName g .before
    pure (if read.hasDefinition && !read.hasBounds then plainItem .typeAlias (v.nodes ++ read.nodes)
      else notLookedInto)
  else if nextWord "struct" ts then
    word "struct"
    pure (plainItem .struct (v.nodes ++ (← structBody g)))
  else if nextWord "enum" ts then
    word "enum"
    pure (plainItem .enumeration (v.nodes ++ (← enumerationBody g)))
  else if nextWord "union" ts && nextIdentifier second then
    word "union"
    pure (plainItem .union (v.nodes ++ (← unionBody g)))
  else if nextWord "trait" ts then traitItem g v true
  else if nextWord "auto" ts && nextWord "trait" second then
    word "auto"
    traitItem g v false
  else if nextWord "impl" ts || (nextWord "default" ts && !nextMark "!" second) then
    set before
    implementationItem g
  else if nextWord "macro" ts then macroDefinition
  else if v.isInherited && nextInvocation ts then
    pure (plainItem .invocation (← itemInvocation))
  else refuse

/-- An item with its attributes. Those of an import and of what is not looked into do not count as
paths. -/
def itemRule (g : Rules) : Reader Node := do
  let (attributes, attributeNodes) ← outerAttributes g
  let before ← get
  let v ← visibility
  let (kind, innerAttributes, nodes) ← visibleItem g before v
  match kind with
  | .unparsed => pure (.item .unparsed [] [])
  | .imports => pure (.item .imports attributes nodes)
  | kind => pure (.item kind (attributes ++ innerAttributes) (attributeNodes ++ nodes))

end CoinLedger.Layering.Grammar
