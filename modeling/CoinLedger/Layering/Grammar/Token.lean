/-!
# Tokens

A source text is a sequence of tokens. Brackets come in pairs, so a pair with all that is between is
one token. Of literals only what a reader of items needs is kept.

Words with a meaning of their own are no identifiers, unless they are written raw.
-/

namespace CoinLedger.Layering.Grammar

/-- The kinds of brackets. -/
inductive Bracket where
  | round
  | square
  | curly
  deriving DecidableEq, Repr

/-- A literal. -/
inductive Literal where
  | text (value : String)
  | whole (written : List Char)
  /-- A number with a point or an exponent, as it is written. -/
  | float (written : List Char)
  /-- A character, or bytes. -/
  | other
  deriving DecidableEq, Repr

/-- A token. -/
inductive Token where
  | word (text : String)
  /-- A mark, and whether another one follows at once. -/
  | mark (c : Char) (joint : Bool)
  | literal (l : Literal)
  | lifetime (name : String)
  /-- A pair of brackets with the tokens between. -/
  | group (bracket : Bracket) (tokens : List Token)
  deriving Repr

/-- The words with a meaning of their own. -/
def keywords : List String :=
  ["_", "abstract", "as", "async", "await", "become", "box", "break", "const", "continue", "crate",
    "do", "dyn", "else", "enum", "extern", "false", "final", "fn", "for", "if", "impl", "in", "let",
    "loop", "macro", "match", "mod", "move", "mut", "override", "priv", "pub", "ref", "return",
    "Self", "self", "static", "struct", "super", "trait", "true", "try", "type", "typeof", "unsafe",
    "unsized", "use", "virtual", "where", "while", "yield"]

def isIdentifier (word : String) : Bool := !keywords.contains word

mutual

/-- The number of tokens in a token, itself included. -/
def Token.size : Token → Nat
  | .group _ tokens => sizeOfAll tokens + 1
  | _ => 1

/-- The number of tokens in several tokens. -/
def sizeOfAll : List Token → Nat
  | [] => 0
  | t :: rest => t.size + sizeOfAll rest

end

end CoinLedger.Layering.Grammar
