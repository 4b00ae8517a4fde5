/-!
# TOML documents

A document assigns values to keys, whose dots lead through tables. A header opens a table for the
lines below it, and a table may be opened once only. How a table has come about decides who may
still add to it: dotted keys extend tables of dotted keys, headers extend tables that were only
passed through.

Of a value of a compound kind only the kind is kept.

## Main definitions

* `Value` — the kinds of values.
* `Members`, `Node` — tables, with how they have come about.
* `Members.assign?`, `Members.open?`, `Members.openNext?` — what the lines of a document do.
-/

namespace CoinLedger.Toml

/-- A value. -/
inductive Value where
  | text (s : String)
  | whole (n : Int)
  | bool (b : Bool)
  | fraction
  | date
  | array
  | table
  deriving DecidableEq, Repr

/-- How a table has come about. -/
inductive Standing where
  /-- Headers of tables below it pass through it. -/
  | implied
  /-- It was opened by a header, or is the document itself. -/
  | opened
  /-- A dotted key passes through it. -/
  | dotted
  deriving DecidableEq, Repr

/-- What a key stands for. -/
inductive Node where
  | value (v : Value)
  | table (standing : Standing) (members : List (String × Node))
  /-- Tables opened one after the other; only the last one can be added to. -/
  | tables (last : List (String × Node))

/-- The members of a table. -/
abbrev Members := List (String × Node)

namespace Members

/-- Changes what a key stands for, or adds it at the end; `none` if that is refused. -/
def change? (key : String) (f : Option Node → Option Node) : Members → Option Members
  | [] => (f none).map fun node => [(key, node)]
  | (k, node) :: rest =>
    if k = key then (f (some node)).map fun node => (k, node) :: rest
    else (change? key f rest).map ((k, node) :: ·)

/-- Goes down a path of tables, which come about where they are missing, and changes the last one. A
dotted path does not enter tables that a header has opened. -/
def within? (dotted : Bool) (change : Standing → Members → Option Members) :
    List String → Standing → Members → Option Members
  | [], standing, members => change standing members
  | key :: path, _, members =>
    change? key (fun
      | none =>
        let standing := if dotted then .dotted else .implied
        (within? dotted change path standing []).map (.table standing)
      | some (.value _) => none
      | some (.tables last) => (within? dotted change path .opened last).map .tables
      | some (.table standing members) =>
        if dotted && standing = .opened then none
        else (within? dotted change path standing members).map (.table standing)) members

def add? (key : String) (v : Value) (members : Members) : Option Members :=
  change? key (fun
    | none => some (.value v)
    | some _ => none) members

def assign? (table path : List String) (key : String) (v : Value) (members : Members) :
    Option Members :=
  within? false (within? true (fun standing members =>
    if (standing = .dotted) = (path = []) then none else add? key v members) path)
    table .opened members

/-- Opens a table. -/
def open? (path : List String) (key : String) (members : Members) : Option Members :=
  within? false (fun _ => change? key fun
    | none => some (.table .opened [])
    | some (.table .implied members) => some (.table .opened members)
    | some _ => none) path .opened members

/-- Opens one more table of several. -/
def openNext? (path : List String) (key : String) (members : Members) : Option Members :=
  within? false (fun _ => change? key fun
    | none => some (.tables [])
    | some (.tables _) => some (.tables [])
    | some _ => none) path .opened members

/-- The value that a key stands for. -/
def get? (members : Members) (key : String) : Option Value :=
  (members.find? fun m => m.1 = key).map fun m =>
    match m.2 with
    | .value v => v
    | .table _ _ => .table
    | .tables _ => .array

end Members

end CoinLedger.Toml
