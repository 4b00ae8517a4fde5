import CoinLedger.Json.Reader
import CoinLedger.Text.Blank
import CoinLedger.UseCase
/-!
# What the identity service says

The id of a user comes as an object with the member `id`, or as an array of just the id. Names come
in a member `usernames`, as an object from ids to names; nothing at all means no names. Other
members are passed over; one of these names may stand only once.

Ids that name a member are texts. One that is no id spoils the whole answer, while a name that is no
username is only left out.

## Main definitions

* `userId?`, `entries?` — reading the two payloads.
* `namesOf` — the names in a list of entries.
* `preview` — the short form of a body that comes with an unexpected status.
-/

namespace CoinLedger.Identity

open Text

/-! ## Ids -/

/-- The id that a value denotes. -/
def idOf? : Json.Value → Option UserId
  | .number (.whole n) => UserId.ofInt? n
  | _ => none

/-- The values of the members of a name, if the name of every member is a text. -/
def members? (name : String) (members : List (Option String × Json.Value)) :
    Option (List Json.Value) :=
  if members.all fun m => m.1.isSome then
    some ((members.filter fun m => m.1 = some name).map Prod.snd)
  else none

/-- The id in a payload. -/
def userIdOfValue? : Json.Value → Option UserId
  | .object members =>
    match members? "id" members with
    | some [v] => idOf? v
    | _ => none
  | .array [v] => idOf? v
  | _ => none

def userId? (body : List UInt8) : Option UserId := (Json.parse? body).bind userIdOfValue?

/-! ## Names -/

/-- An entry of a list of names, as it is written: an id and a name. -/
abbrev WrittenEntry := String × String

/-- The entries of an object from texts to texts. -/
def writtenEntries? : List (Option String × Json.Value) → Option (List WrittenEntry)
  | [] => some []
  | (some key, .text (some name)) :: rest => (writtenEntries? rest).map ((key, name) :: ·)
  | _ => none

/-- The entries less those whose key occurs again. -/
def lastOfEach : List WrittenEntry → List WrittenEntry
  | [] => []
  | e :: rest =>
    if rest.any fun f => f.1 = e.1 then lastOfEach rest else e :: lastOfEach rest

def entriesOfNames? : Json.Value → Option (List WrittenEntry)
  | .object members => (writtenEntries? members).map lastOfEach
  | _ => none

/-- The entries in a payload. -/
def entriesOfValue? : Json.Value → Option (List WrittenEntry)
  | .object members =>
    match members? "usernames" members with
    | some [] => some []
    | some [v] => entriesOfNames? v
    | _ => none
  | .array [] => some []
  | .array [v] => entriesOfNames? v
  | _ => none

def entries? (body : List UInt8) : Option (List WrittenEntry) :=
  (Json.parse? body).bind entriesOfValue?

/-- The id that a key denotes: a signed numeral in the range of ids. -/
def keyId? (key : String) : Option UserId := (Decimal.readInt? key.toList).bind UserId.ofInt?

def badKey (key : String) : String := "user id `" ++ key ++ "` is not an integer"

/-- The names with those of some entries added, one entry after the other: a bad key ends it, and
of several entries for one id the last one with a username counts. -/
def addEntries (names : Names) : List WrittenEntry → Except String Names
  | [] => .ok names
  | (key, name) :: rest =>
    match keyId? key with
    | none => .error (badKey key)
    | some id =>
      match Username.ofString name with
      | .ok name => addEntries (names.insert id name) rest
      | .error _ => addEntries names rest

def namesOf (entries : List WrittenEntry) : Except String Names :=
  addEntries SortedMap.empty entries

/-! ## Bodies of failures -/

/-- The most characters of a body that are shown. -/
def previewLimit : Nat := 120

/-- The beginning of a body as text, its words parted by single spaces; dots follow if it goes
on. -/
def preview (body : List UInt8) : List Char :=
  let text := compact (Utf8.decodeLossy body)
  if previewLimit < text.length then text.take previewLimit ++ ['.', '.', '.'] else text

end CoinLedger.Identity
