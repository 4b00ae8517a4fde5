import CoinLedger.Coins
import CoinLedger.Settings.Address
import CoinLedger.Settings.Variable
import CoinLedger.Toml.Reader
/-!
# Settings of the service

Each setting is taken from the first source that gives it: the arguments of the command, the
variables of the environment whose names begin with `STORE_`, the settings file; most of them have a
value of their own if no source does. Arguments are checked as they are read. What variables and
file give is checked only for the source that counts.

## Main definitions

* `Settings`, `Settings.Setting` — the settings, and what they are called.
* `Settings.Arguments.read?`, `Settings.ofVariables`, `Settings.ofDocument?` — the sources.
* `Settings.load` — the settings from all sources.
-/

namespace CoinLedger

/-- The settings of the service; times are in milliseconds. -/
structure Settings where
  databaseUrl : String
  bindAddress : Settings.SocketAddress := .v4 ⟨0, 0, 0, 0⟩ 8080
  identityUrl : String := "http://127.0.0.1:8081"
  identityTimeout : Nat := 500
  requestTimeout : Nat := 3000
  startBalance : Nat := 1000
  poolSize : Nat := 10
  deriving DecidableEq, Repr

namespace Settings

/-- The settings that sources may give. -/
inductive Setting where
  | databaseUrl
  | bindAddress
  | identityUrl
  | identityTimeout
  | requestTimeout
  | startBalance
  | poolSize
  deriving DecidableEq, Repr

namespace Setting

/-- All settings. -/
def all : List Setting :=
  [databaseUrl, bindAddress, identityUrl, identityTimeout, requestTimeout, startBalance, poolSize]

/-- The name of a setting in variables and files. -/
def name : Setting → String
  | databaseUrl => "database_url"
  | bindAddress => "bind_addr"
  | identityUrl => "identity_url"
  | identityTimeout => "identity_timeout_ms"
  | requestTimeout => "request_timeout_ms"
  | startBalance => "start_balance"
  | poolSize => "pool_max_size"

/-- The name of a setting as an option, which has hyphens. -/
def option (s : Setting) : List Char :=
  s.name.toList.map fun c => if c = '_' then '-' else c

def letter : Setting → Char
  | databaseUrl => 'd'
  | bindAddress => 'b'
  | identityUrl => 'i'
  | identityTimeout => 'I'
  | requestTimeout => 'r'
  | startBalance => 's'
  | poolSize => 'p'

/-- Below which number the values of a setting are, if they are numbers. -/
def limit? : Setting → Option Nat
  | identityTimeout | requestTimeout | startBalance => some 18446744073709551616
  | poolSize => some 4294967296
  | databaseUrl | bindAddress | identityUrl => none

def takes (s : Setting) : Datum → Bool
  | .text t =>
    match s with
    | databaseUrl | identityUrl => true
    | bindAddress => (SocketAddress.ofText? t).isSome
    | _ => false
  | .whole n =>
    match s.limit? with
    | some limit => 0 ≤ n && n < limit
    | none => false
  | .unfit => false

end Setting

/-- Why there are no settings. -/
inductive LoadError where
  /-- The arguments or the file cannot be read. -/
  | malformed
  /-- A variable or the file gives a value that does not fit, or no source gives a database. -/
  | unsuitable
  deriving DecidableEq, Repr

/-- What one source gives. -/
abbrev Source := List (Setting × Datum)

/-- What a source gives for a setting. Of several values the last one counts. -/
def Source.get? (source : Source) (s : Setting) : Option Datum :=
  (source.reverse.find? fun g => g.1 = s).map Prod.snd

/-! ## Arguments -/

namespace Arguments

/-- The value that an argument gives to a setting. A number may have a plus sign in front; the size
of the pool is read as a signed number. -/
def datum? (s : Setting) (value : String) : Option Datum :=
  let datum : Option Datum :=
    match s.limit? with
    | none => some (.text value)
    | some _ =>
      match s, value.toList with
      | .poolSize, digits => (Text.Decimal.readInt? digits).map .whole
      | _, '-' :: _ => none
      | _, digits => (Text.Decimal.readInt? digits).map .whole
  datum.filter s.takes

/-- A setting that is not yet given gets a value. -/
def give? (given : Source) (s : Setting) (value : String) : Option Source :=
  if (given.get? s).isSome then none else (datum? s value).map fun d => given ++ [(s, d)]

def isOption (argument : String) : Bool :=
  match argument.toList with
  | '-' :: _ :: _ => true
  | _ => false

/-- The setting that an option names, and the value if it is in the same argument. -/
def option? (argument : String) : Option (Setting × Option String) :=
  match argument.toList with
  | '-' :: '-' :: option =>
    (Setting.all.find? fun s => s.option = option.takeWhile (· ≠ '=')).map fun s =>
      (s, if option.contains '=' then
        some (String.ofList ((option.dropWhile (· ≠ '=')).drop 1)) else none)
  | '-' :: letter :: value =>
    (Setting.all.find? fun s => s.letter = letter).map fun s =>
      match value with
      | [] => (s, none)
      | '=' :: value => (s, some (String.ofList value))
      | value => (s, some (String.ofList value))
  | _ => none

/-- Reads arguments after those that gave some settings already. -/
def readFrom (given : Source) : List String → Option Source
  | [] => some given
  | ["--"] => some given
  | argument :: rest =>
    match option? argument with
    | none => none
    | some (s, some value) => (give? given s value).bind fun given => readFrom given rest
    | some (s, none) =>
      match rest with
      | [] => none
      | value :: rest =>
        if isOption value then none
        else (give? given s value).bind fun given => readFrom given rest

/-- What the arguments give, if they can be understood. -/
def read? (arguments : List String) : Option Source := readFrom [] arguments

end Arguments

/-! ## Variables and file -/

/-- What the names of the variables begin with. -/
def variableStart : String := "store_"

/-- The setting that a variable gives. A name that goes on behind two underscores gives a part of a
table. -/
def ofNamed (name value : String) : Option (Setting × Datum) :=
  let name := name.toList.map Char.toLower
  if variableStart.toList.isPrefixOf name then
    Setting.all.findSome? fun s =>
      let rest := name.drop variableStart.length
      if rest = s.name.toList then some (s, Datum.ofVariable value)
      else if (s.name.toList ++ ['_', '_']).isPrefixOf rest then some (s, .unfit)
      else none
  else none

/-- What the variables give. -/
def ofVariables (environment : List (String × String)) : Source :=
  environment.filterMap fun (name, value) => ofNamed name value

/-- What a value of the settings file gives. -/
def Datum.ofToml : Toml.Value → Datum
  | .text s => .text s
  | .whole n => .whole n
  | _ => .unfit

/-- What the settings file gives, if it can be read. A file that builds on another one cannot, for
there is no other one. -/
def ofDocument? (document : String) : Option Source := do
  let members ← Toml.parse? document
  if (members.get? "extends").isSome then none
  else
    pure (Setting.all.filterMap fun s =>
      (members.get? s.name).map fun v => (s, Datum.ofToml v))

/-! ## All sources -/

/-- The text of a setting, or the value that it has of its own. -/
def textOr (default : String) : Option Datum → String
  | some (.text t) => t
  | _ => default

/-- The number of a setting, or the value that it has of its own. -/
def numberOr (default : Nat) : Option Datum → Nat
  | some (.whole n) => n.toNat
  | _ => default

/-- The settings from sources, the first of which counts. -/
def ofSources (sources : List Source) : Except LoadError Settings :=
  let given := fun s => sources.findSome? fun source => source.get? s
  let fits := Setting.all.all fun s => (given s).all s.takes
  match given .databaseUrl, fits with
  | some (.text url), true =>
    let plain : Settings := { databaseUrl := url }
    let address := fun t => (SocketAddress.ofText? t).getD plain.bindAddress
    .ok {
      databaseUrl := url
      bindAddress := address (textOr "" (given .bindAddress))
      identityUrl := textOr plain.identityUrl (given .identityUrl)
      identityTimeout := numberOr plain.identityTimeout (given .identityTimeout)
      requestTimeout := numberOr plain.requestTimeout (given .requestTimeout)
      startBalance := numberOr plain.startBalance (given .startBalance)
      poolSize := numberOr plain.poolSize (given .poolSize) }
  | _, _ => .error .unsuitable

/-- Loads the settings from arguments, variables and the settings file, if there is one. -/
def load (arguments : List String) (environment : List (String × String))
    (document : Option String) : Except LoadError Settings :=
  match Arguments.read? arguments, ofDocument? (document.getD "") with
  | some fromArguments, some fromDocument =>
    ofSources [fromArguments, ofVariables environment, fromDocument]
  | _, _ => .error .malformed

end Settings

end CoinLedger
