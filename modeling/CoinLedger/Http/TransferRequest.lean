import CoinLedger.Http.ContentCoding
import CoinLedger.Http.MediaType
import CoinLedger.Coins
import CoinLedger.Json.Reader
import CoinLedger.Text.Decimal
/-!
# The body of a transfer

A transfer is asked for by a JSON object with the members `toUser` and `amount`, each exactly once,
among any others; or by an array of just these two values. The amount is a whole number in the
range of amounts. The content type has to announce JSON. The body may be encoded; it may have two
mebibytes, both as it is declared and as it is decoded.

## Main definitions

* `BodyFailure` — why a body could not be read.
* `TransferRequest.ofRequest` — the transfer that a request asks for.
-/

namespace CoinLedger.Http

/-- What is asked for: an amount for somebody, whose name is not checked yet. -/
structure TransferRequest where
  toUser : String
  amount : Coins
  deriving DecidableEq, Repr

/-- Why the body of a request could not be read. -/
inductive BodyFailure where
  /-- The content type does not announce JSON. -/
  | contentType
  /-- The request declares more bytes than allowed. -/
  | declaredOverflow (length : Nat)
  /-- The body cannot be decoded. -/
  | undecodable
  /-- The decoded body has more bytes than allowed. -/
  | overflow
  /-- The decoded body is not what it should be. -/
  | malformed
  deriving DecidableEq, Repr

namespace TransferRequest

/-- The most bytes a body may have. -/
def maxBytes : Nat := 2097152

def text? : Json.Value → Option String
  | .text s => s
  | _ => none

/-- The amount that a value denotes. -/
def amount? : Json.Value → Option Coins
  | .number (.whole (.ofNat n)) => Coins.ofNat? n
  | _ => none

/-- The value of a member that occurs exactly once. -/
def onlyMember? (name : String) (members : List (Option String × Json.Value)) :
    Option Json.Value :=
  match members.filter fun m => m.1 = some name with
  | [m] => some m.2
  | _ => none

/-- The request that a value describes. The name of every member has to be a text. -/
def ofValue? : Json.Value → Option TransferRequest
  | .object members =>
    if members.all fun m => m.1.isSome then do
      let toUser ← (onlyMember? "toUser" members).bind text?
      let amount ← (onlyMember? "amount" members).bind amount?
      pure ⟨toUser, amount⟩
    else none
  | .array [name, amount] => do pure ⟨← text? name, ← amount? amount⟩
  | _ => none

/-- The length that a request declares for its body: a numeral of 64 bits, perhaps with a plus sign
in front. Anything else declares nothing. -/
def declaredLength? (r : Request) : Option Nat := do
  let text ← r.headerText? "content-length"
  let n ← Text.Decimal.readNat? (if text.head? = some '+' then text.tail else text)
  if n < UInt64.size then some n else none

/-- Whether the content type of a request announces JSON. -/
def isJson (r : Request) : Bool :=
  (r.headerText? "content-type").any MediaType.announcesJson

/-- The transfer that a request asks for, given a decoder of bodies. -/
def ofRequest (decode : ContentDecoder) (r : Request) : Except BodyFailure TransferRequest :=
  let declared := (declaredLength? r).getD 0
  if !isJson r then .error .contentType
  else if maxBytes < declared then .error (.declaredOverflow declared)
  else
    match r.content? decode with
    | none => .error .undecodable
    | some bytes =>
      if maxBytes < bytes.length then .error .overflow
      else
        match (Json.parse? bytes).bind ofValue? with
        | none => .error .malformed
        | some t => .ok t

end TransferRequest

end CoinLedger.Http
