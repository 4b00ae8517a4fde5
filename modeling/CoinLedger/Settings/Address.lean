import CoinLedger.Text.Decimal
/-!
# Addresses to listen on

An address is an IP address of either kind with an endpoint. The longest run of zero groups of an
IPv6 address is written as two colons, the first of several; in an address that stands for one of
the older kind, the last two groups are written like one.

## Main definitions

* `SocketAddress.ofText?`, `SocketAddress.text` — reading and writing.
-/

namespace CoinLedger.Settings

/-- An address of four bytes. -/
structure HostV4 where
  a : UInt8
  b : UInt8
  c : UInt8
  d : UInt8
  deriving DecidableEq, Repr

/-- An IP address with the number of an endpoint there. -/
inductive SocketAddress where
  | v4 (host : HostV4) (endpoint : UInt16)
  /-- Eight groups; the scope is zero if none is written. -/
  | v6 (groups : List UInt16) (scope : UInt32) (endpoint : UInt16)
  deriving DecidableEq, Repr

namespace SocketAddress

/-! ## Reading -/

/-- The value of a hex digit. -/
def digit? (base : Nat) (c : Char) : Option Nat :=
  let n :=
    if c.isDigit then some (c.toNat - '0'.toNat)
    else if 'a' ≤ c ∧ c ≤ 'f' then some (c.toNat - 'a'.toNat + 10)
    else if 'A' ≤ c ∧ c ≤ 'F' then some (c.toNat - 'A'.toNat + 10)
    else none
  n.filter (· < base)

/-- All digits at the front as one number below a limit, and what follows. -/
def number? (base limit : Nat) (s : List Char) : Option (Nat × List Char) :=
  let digits := s.takeWhile fun c => (digit? base c).isSome
  let n := digits.foldl (fun n c => n * base + (digit? base c).getD 0) 0
  if digits ≠ [] ∧ n < limit then some (n, s.drop digits.length) else none

/-- What follows a certain character. -/
def skip? (c : Char) : List Char → Option (List Char)
  | d :: rest => if d = c then some rest else none
  | [] => none

/-- A byte in decimal without superfluous zeros. -/
def byte? (s : List Char) : Option (UInt8 × List Char) := do
  let (n, rest) ← number? 10 256 s
  let width := s.length - rest.length
  if width > 3 || (width > 1 && s.head? = some '0') then none
  else pure (UInt8.ofNat n, rest)

/-- Four bytes with dots between them. -/
def hostV4? (s : List Char) : Option (HostV4 × List Char) := do
  let (a, s) ← byte? s
  let (b, s) ← byte? (← skip? '.' s)
  let (c, s) ← byte? (← skip? '.' s)
  let (d, s) ← byte? (← skip? '.' s)
  pure (⟨a, b, c, d⟩, s)

/-- An endpoint behind its colon. -/
def endpoint? (s : List Char) : Option (UInt16 × List Char) := do
  let (n, s) ← number? 10 65536 (← skip? ':' s)
  pure (UInt16.ofNat n, s)

/-- A group of at most four hex digits. -/
def group? (s : List Char) : Option (UInt16 × List Char) := do
  let (n, rest) ← number? 16 65536 s
  if s.length - rest.length > 4 then none else pure (UInt16.ofNat n, rest)

/-- The two groups of an address of the older kind. -/
def HostV4.groups (h : HostV4) : List UInt16 :=
  [UInt16.ofNat (h.a.toNat * 256 + h.b.toNat), UInt16.ofNat (h.c.toNat * 256 + h.d.toNat)]

/-- As many groups as there are, but not more than fit, and whether they end in an address of the
older kind, which takes the place of two groups. Every group but the first has a colon in front. -/
def groups (first : Bool) : Nat → List Char → List UInt16 × Bool × List Char
  | 0, s => ([], false, s)
  | room + 1, s =>
    let start := if first then some s else skip? ':' s
    match if room = 0 then none else start.bind hostV4? with
    | some (h, rest) => (HostV4.groups h, true, rest)
    | none =>
      match start.bind group? with
      | none => ([], false, s)
      | some (g, rest) =>
        let (gs, mixed, rest) := groups false room rest
        (g :: gs, mixed, rest)

/-- Eight groups, of which some that are zero may be left out between two colons. -/
def hostV6? (s : List Char) : Option (List UInt16 × List Char) :=
  let (front, mixed, rest) := groups true 8 s
  if front.length = 8 then some (front, rest)
  else if mixed then none
  else do
    let rest ← skip? ':' (← skip? ':' rest)
    let (back, _, rest) := groups true (7 - front.length) rest
    pure (front ++ List.replicate (8 - front.length - back.length) 0 ++ back, rest)

/-- A scope behind its percent sign; zero if there is none. -/
def scope (s : List Char) : Nat × List Char :=
  ((skip? '%' s).bind (number? 10 4294967296)).getD (0, s)

/-- The address that a text denotes. -/
def ofText? (text : String) : Option SocketAddress :=
  match text.toList with
  | '[' :: s => do
    let (groups, s) ← hostV6? s
    let (scope, s) := scope s
    let (endpoint, s) ← endpoint? (← skip? ']' s)
    if s = [] then pure (.v6 groups (UInt32.ofNat scope) endpoint) else none
  | s => do
    let (host, s) ← hostV4? s
    let (endpoint, s) ← endpoint? s
    if s = [] then pure (.v4 host endpoint) else none

/-! ## Writing -/

/-- An address of four bytes. -/
def HostV4.text (h : HostV4) : String :=
  String.intercalate "." ([h.a, h.b, h.c, h.d].map fun byte => toString byte.toNat)

/-- Groups with colons between them. -/
def groupsText (groups : List UInt16) : String :=
  String.intercalate ":" (groups.map fun g => String.ofList (Nat.toDigits 16 g.toNat))

/-- Where the first of the longest runs of zeros begins, and how long it is. -/
def longestZeros (groups : List UInt16) : Nat × Nat :=
  (List.range groups.length).foldl (fun best start =>
    let length := ((groups.drop start).takeWhile (· = 0)).length
    if best.2 < length then (start, length) else best) (0, 0)

/-- An address of eight groups. -/
def hostV6Text (groups : List UInt16) : String :=
  match groups with
  | [0, 0, 0, 0, 0, 65535, x, y] =>
    "::ffff:" ++ HostV4.text ⟨UInt8.ofNat (x.toNat / 256), UInt8.ofNat (x.toNat % 256),
      UInt8.ofNat (y.toNat / 256), UInt8.ofNat (y.toNat % 256)⟩
  | groups =>
    let (start, length) := longestZeros groups
    if length > 1 then
      groupsText (groups.take start) ++ "::" ++ groupsText (groups.drop (start + length))
    else groupsText groups

/-- How an address is written. -/
def text : SocketAddress → String
  | v4 host endpoint => HostV4.text host ++ ":" ++ toString endpoint.toNat
  | v6 groups scope endpoint =>
    "[" ++ hostV6Text groups ++ (if scope = 0 then "" else "%" ++ toString scope.toNat) ++ "]:" ++
      toString endpoint.toNat

end SocketAddress

end CoinLedger.Settings
