import CoinLedger.TraceId
/-!
# Requests and responses

A request is its method, its target as written, its headers in order and its body. Header names
ignore case, and of several headers with one name the first counts. A header value is readable as
text only if every byte is a visible ASCII character, a space or a tab.

## Main results

* `Response.header_setHeader` — setting a header replaces what was there, so that a response
  carries one value of it.
-/

namespace CoinLedger.Http

/-- A request header. -/
structure Header where
  name : String
  value : List UInt8
  deriving DecidableEq, Repr

/-- A request. -/
structure Request where
  method : String
  target : List Char
  headers : List Header
  body : List UInt8
  deriving DecidableEq, Repr

/-- Whether two names differ at most in the case of ASCII letters. -/
def sameName (a b : String) : Bool := a.toList.map Char.toLower == b.toList.map Char.toLower

/-- Whether a byte may stand in a readable header value. -/
def isReadable (b : UInt8) : Bool := b.toNat = 0x09 || (0x20 ≤ b.toNat && b.toNat < 0x7F)

/-- A header value as text. -/
def readable? (value : List UInt8) : Option (List Char) :=
  if value.all isReadable then some (value.map fun b => Char.ofNat b.toNat) else none

def Request.header? (r : Request) (name : String) : Option (List UInt8) :=
  (r.headers.find? fun h => sameName h.name name).map Header.value

/-- The text of the first header with a given name, if it is there and readable. -/
def Request.headerText? (r : Request) (name : String) : Option (List Char) :=
  (r.header? name).bind readable?

/-- A response. Header names are in lower case. -/
structure Response where
  status : Nat
  headers : List (String × String) := []
  body : String := ""
  deriving DecidableEq, Repr

namespace Response

/-- All values of a header. -/
def header (r : Response) (name : String) : List String :=
  (r.headers.filter fun h => h.1 = name).map Prod.snd

/-- The first value of a header. -/
def header? (r : Response) (name : String) : Option String := (r.header name).head?

/-- Sets a header, in place of what was there. -/
def setHeader (r : Response) (name value : String) : Response :=
  { r with headers := r.headers.filter (fun h => h.1 ≠ name) ++ [(name, value)] }

@[simp] theorem status_setHeader (r : Response) (name value : String) :
    (r.setHeader name value).status = r.status := rfl

@[simp] theorem body_setHeader (r : Response) (name value : String) :
    (r.setHeader name value).body = r.body := rfl

/-- After setting a header it has one value; the others are as before. -/
theorem header_setHeader (r : Response) (name value other : String) :
    (r.setHeader name value).header other =
      if other = name then [value] else r.header other := by
  simp only [header, setHeader, List.filter_append, List.filter_filter]
  by_cases h : other = name
  · subst h
    simp
  · have : ¬name = other := fun h' => h h'.symm
    have hf : r.headers.filter (fun x => decide (x.1 = other) && !decide (x.1 = name)) =
        r.headers.filter (fun x => decide (x.1 = other)) := by
      apply List.filter_congr
      intro x _
      by_cases hx : x.1 = other
      · simp [hx, h]
      · simp [hx]
    simp [h, this, hf]

end Response

/-- The header that carries the trace id, in both directions. -/
def traceHeader : String := "trace-id"

/-- The trace id a request brings along. -/
def Request.trace? (r : Request) : Option TraceId :=
  (r.headerText? traceHeader).bind TraceId.ofChars?

end CoinLedger.Http
