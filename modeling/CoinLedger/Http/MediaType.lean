/-!
# Media types

A media type is written `type/subtype`, with parameters behind semicolons. It announces JSON if
its subtype is `json` or ends in `+json`, in any case of the letters; parameters are checked for
their form and otherwise ignored.

## Main definitions

* `MediaType.ofChars?` — the subtype and its suffix, if the text is a media type at all.
* `MediaType.announcesJson` — whether a text announces JSON.
-/

namespace CoinLedger.Http.MediaType

/-- Whether a character may stand in a token. -/
def isTokenChar (c : Char) : Bool :=
  c.isAlphanum || "!#$%&'*+-.^_|~".toList.contains c || c = '\x60'

/-- Whether a character may stand between the quotes of a parameter. -/
def isQuotable (c : Char) : Bool := 0x20 ≤ c.toNat && c.toNat ≠ 0x7F

/-- Skips spaces behind a quoted value up to the next semicolon. -/
def afterQuoted? : List Char → Option (List Char)
  | [] => some []
  | c :: rest => if c = ';' then some rest else if c = ' ' then afterQuoted? rest else none

/-- What follows a quoted value, of which the opening quote is read. The value is not empty: a quote
that comes first belongs to it. -/
def quoted? : List Char → Option (List Char)
  | [] => none
  | c :: rest =>
    if isQuotable c then
      match rest.dropWhile (fun c => isQuotable c && c ≠ '"') with
      | '"' :: next => afterQuoted? next
      | _ => none
    else none

/-- Checks parameters: after any spaces a name, `=`, and a value that is a token or quoted. A token
may be empty only at the end. The first argument bounds the number of parameters. -/
def parametersOk : Nat → List Char → Bool
  | 0, _ => false
  | fuel + 1, s =>
    match s.dropWhile (· = ' ') with
    | [] => true
    | c :: rest =>
      let name := (c :: rest).takeWhile isTokenChar
      match (c :: rest).dropWhile isTokenChar with
      | '=' :: value =>
        if name = [] then false
        else
          match value with
          | '"' :: quoted =>
            match quoted? quoted with
            | some next => parametersOk fuel next
            | none => false
          | _ =>
            match value.dropWhile isTokenChar with
            | [] => true
            | ';' :: next =>
              if value.takeWhile isTokenChar = [] then false else parametersOk fuel next
            | _ => false
      | _ => false

/-- The subtype of a media type, parameters taken off. A space may stand in the place of the first
semicolon. -/
def subtype? (s : List Char) : Option (List Char) :=
  if s = ['*', '/', '*'] then some ['*']
  else
    match s.dropWhile isTokenChar with
    | '/' :: rest =>
      if s.takeWhile isTokenChar = [] then none
      else
        let name := rest.takeWhile isTokenChar
        match rest.dropWhile isTokenChar with
        | [] => some name
        | c :: params =>
          if name ≠ [] ∧ (c = ';' ∨ c = ' ') ∧ parametersOk (params.length + 1) params then
            some name
          else none
    | _ => none

/-- The part of a subtype behind its last `+`, which does not stand first. -/
def suffix? (subtype : List Char) : Option (List Char) :=
  match subtype with
  | [] => none
  | _ :: rest =>
    if rest.contains '+' then some (rest.reverse.takeWhile (· ≠ '+')).reverse else none

def announcesJson (s : List Char) : Bool :=
  let json := "json".toList
  match subtype? s with
  | none => false
  | some name =>
    let name := name.map Char.toLower
    match suffix? name with
    | some suffix => suffix = json || name.take (name.length - suffix.length - 1) = json
    | none => name = json

end CoinLedger.Http.MediaType
