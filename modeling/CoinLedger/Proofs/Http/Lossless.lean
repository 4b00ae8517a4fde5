import CoinLedger.Proofs.Http.Handlers
import CoinLedger.Proofs.Json.RoundTrip

/-!
# Response bodies are lossless

A client that reads the body of an account view gets back the whole view: the balance, the goods
with their quantities in the byte order of their names, and the transfers of each direction in
their order, whatever characters the names are made of.  From the body of a failed request it gets
back the public wording.  So two different views have different bodies.

What a client reads is written down here as a decoder of its own (`AccountBody.ofText?`), which
looks members up by their names and knows nothing of how the service writes them.

## Main definitions

* `AccountBody`, `AccountBody.ofText?` — what a client reads off the body of an account view.
* `errorOfText?` — what it reads off the body of a failed request.

## Main results

* `accountBody_of_render`, `errorOfText?_body` — both bodies are read back.
* `bodies_lossless` — the statement for the application.
-/

namespace CoinLedger.Http

open Json (Value)
open Text
open TransferRequest (onlyMember? text? amount?)

/-! ## Reading a body -/

/-- What a client reads off the body of an account view. -/
structure AccountBody where
  balance : Coins
  inventory : List (String × Nat)
  received : List NamedEntry
  sent : List NamedEntry
  deriving DecidableEq

/-- The value of a member that an object has once. -/
def member? (name : String) : Value → Option Value
  | .object members => onlyMember? name members
  | _ => none

def listed? : Value → Option (List Value)
  | .array items => some items
  | _ => none

def quantity? : Value → Option Nat
  | .number (.whole (.ofNat n)) => some n
  | _ => none

/-- A good and its quantity. -/
def line? (v : Value) : Option (String × Nat) := do
  let name ← (member? "type" v).bind text?
  let quantity ← (member? "quantity" v).bind quantity?
  pure (name, quantity)

/-- A transfer with the other party under a given member name. -/
def transfer? (party : String) (v : Value) : Option NamedEntry := do
  let name ← (member? party v).bind text?
  let amount ← (member? "amount" v).bind amount?
  pure ⟨name, amount⟩

def AccountBody.ofValue? (v : Value) : Option AccountBody := do
  let balance ← (member? "balance" v).bind amount?
  let lines ← (member? "inventory" v).bind listed?
  let history ← member? "coinHistory" v
  let received ← (member? "received" history).bind listed?
  let sent ← (member? "sent" history).bind listed?
  pure
    { balance
      inventory := ← lines.mapM line?
      received := ← received.mapM (transfer? "fromUser")
      sent := ← sent.mapM (transfer? "toUser") }

/-- What a client reads off the text of a body, if it is one of an account view. -/
def AccountBody.ofText? (body : String) : Option AccountBody :=
  (Json.parse? (Utf8.encode body.toList)).bind ofValue?

/-- The wording that a client reads off the text of the body of a failed request. -/
def errorOfText? (body : String) : Option String :=
  (Json.parse? (Utf8.encode body.toList)).bind fun v => (member? "errors" v).bind text?

/-! ## Values of a body -/

theorem plain_str (s : String) : (Value.str s).Plain := rfl

theorem plain_nat (n : Nat) : (Value.nat n).Plain := trivial

theorem plain_obj {members : List (String × Value)} (h : ∀ m ∈ members, m.2.Plain) :
    (Value.obj members).Plain := by
  refine Json.plainMembers_iff.2 fun m hm => ?_
  obtain ⟨m', hm', rfl⟩ := List.mem_map.1 hm
  exact ⟨rfl, h m' hm'⟩

theorem plain_array_map {α : Type} {f : α → Value} (h : ∀ a, (f a).Plain) (xs : List α) :
    (Value.array (xs.map f)).Plain := by
  refine Json.plainItems_iff.2 fun v hv => ?_
  obtain ⟨a, -, rfl⟩ := List.mem_map.1 hv
  exact h a

theorem plain_entryValue (party : String) (e : NamedEntry) : (entryValue party e).Plain := by
  refine plain_obj fun m hm => ?_
  simp only [List.mem_cons, List.not_mem_nil, or_false] at hm
  rcases hm with rfl | rfl
  · exact plain_str _
  · exact plain_nat _

theorem plain_inventoryLine (line : String × Nat) : (inventoryLine line).Plain := by
  refine plain_obj fun m hm => ?_
  simp only [List.mem_cons, List.not_mem_nil, or_false] at hm
  rcases hm with rfl | rfl
  · exact plain_str _
  · exact plain_nat _

theorem plain_accountValue (a : AccountInfo) : (accountValue a).Plain := by
  refine plain_obj fun m hm => ?_
  simp only [List.mem_cons, List.not_mem_nil, or_false] at hm
  rcases hm with rfl | rfl | rfl
  · exact plain_nat _
  · exact plain_array_map plain_inventoryLine _
  · refine plain_obj fun m hm => ?_
    simp only [List.mem_cons, List.not_mem_nil, or_false] at hm
    rcases hm with rfl | rfl
    · exact plain_array_map (plain_entryValue _) _
    · exact plain_array_map (plain_entryValue _) _

theorem plain_body (e : ApiError) : e.body.Plain := by
  refine plain_obj fun m hm => ?_
  obtain rfl := List.mem_singleton.1 hm
  exact plain_str _

/-! ## Decoding them -/

/-- A list of values is decoded item by item. -/
theorem mapM_map {α : Type} {f : α → Value} {g : Value → Option α} (h : ∀ a, g (f a) = some a)
    (xs : List α) : (xs.map f).mapM g = some xs := by
  induction xs with
  | nil => rfl
  | cons x rest ih => simp [h, ih]

theorem amount?_amountValue (c : Coins) : amount? (amountValue c) = some c :=
  Coins.ofNat?_toNat c

theorem line?_inventoryLine (line : String × Nat) : line? (inventoryLine line) = some line := rfl

theorem transfer?_entryValue {party : String} (h : party ≠ "amount") (e : NamedEntry) :
    transfer? party (entryValue party e) = some e := by
  have name : member? party (entryValue party e) = some (.str e.counterpart) := by
    simp [member?, onlyMember?, entryValue, Value.obj, h.symm]
  have amount : member? "amount" (entryValue party e) = some (amountValue e.amount) := by
    simp [member?, onlyMember?, entryValue, Value.obj, h]
  simp only [transfer?, name, amount, Option.bind_eq_bind, Option.bind_some, amount?_amountValue]
  rfl

/-- What a client is to read off an account view. -/
def AccountBody.ofAccount (a : AccountInfo) : AccountBody where
  balance := a.balance
  inventory := a.inventory.entries
  received := a.incoming
  sent := a.outgoing

theorem ofValue?_accountValue (a : AccountInfo) :
    AccountBody.ofValue? (accountValue a) = some (.ofAccount a) := by
  have lines : (a.inventory.entries.map inventoryLine).mapM line? = some a.inventory.entries :=
    mapM_map line?_inventoryLine _
  have received : (a.incoming.map (entryValue "fromUser")).mapM (transfer? "fromUser") =
      some a.incoming :=
    mapM_map (transfer?_entryValue (by decide)) _
  have sent : (a.outgoing.map (entryValue "toUser")).mapM (transfer? "toUser") = some a.outgoing :=
    mapM_map (transfer?_entryValue (by decide)) _
  show ((amount? (amountValue a.balance)).bind fun balance =>
    ((a.inventory.entries.map inventoryLine).mapM line?).bind fun inventory =>
    ((a.incoming.map (entryValue "fromUser")).mapM (transfer? "fromUser")).bind fun received =>
    ((a.outgoing.map (entryValue "toUser")).mapM (transfer? "toUser")).bind fun sent =>
    some (AccountBody.mk balance inventory received sent)) = _
  rw [amount?_amountValue, lines, received, sent]
  rfl

/-- **The body of an account view is read back.** -/
theorem accountBody_of_render (a : AccountInfo) :
    AccountBody.ofText? (accountValue a).render = some (.ofAccount a) := by
  rw [AccountBody.ofText?, Json.parse?_render (plain_accountValue a), Option.bind_some,
    ofValue?_accountValue]

/-- **The public wording of a failed request is read back.** -/
theorem errorOfText?_body (e : ApiError) : errorOfText? e.body.render = some e.publicMessage := by
  rw [errorOfText?, Json.parse?_render (plain_body e), Option.bind_some]
  rfl

/-- A view is made of what a client reads off its body. -/
theorem AccountBody.ofAccount_injective {a a' : AccountInfo}
    (h : AccountBody.ofAccount a = .ofAccount a') : a = a' := by
  have balance : a.balance = a'.balance := congrArg AccountBody.balance h
  have inventory : a.inventory = a'.inventory :=
    SortedMap.ext (congrArg AccountBody.inventory h)
  have incoming : a.incoming = a'.incoming := congrArg AccountBody.received h
  have outgoing : a.outgoing = a'.outgoing := congrArg AccountBody.sent h
  cases a
  cases a'
  simp_all

/-! ## The application -/

section
variable {ω : Type} (services : Services ω) (health : Health) (fresh : TraceId)

/-- A request for an account view gets the view that the use case gives, in a body of its own. -/
theorem respond_info {r : Request} (routed : Route.ofRequest? r = some .info) {u : UserId}
    (called : r.caller = .ok u) {w : ω} (admitted : (services.ensureCreated u w).outcome = .ok ())
    {a : AccountInfo}
    (viewed : (services.accountInfo u (services.ensureCreated u w).world).outcome = .ok a) :
    (respond services health fresh r w).1.status = 200 ∧
      (respond services health fresh r w).1.body = (accountValue a).render := by
  rw [respond_eq_attend, routed, called]
  have answer : (attend services health (.ok u) (TransferRequest.ofRequest services.decode r)
      (some .info) w).1 = .ok (ApiError.jsonResponse 200 (accountValue a)) := by
    show (behindGate services (.ok u) _ w).1 = _
    unfold behindGate
    simp only [andThen, Served.answer_ok admitted, Served.answer_ok viewed]
  rw [Prod.map_fst, answer]
  exact ⟨rfl, rfl⟩

/-- A request that fails gets the wording of its failure. -/
theorem respond_error {r : Request} {w : ω} {e : ApiError}
    (failed : (handle services health (Route.ofRequest? r) r w).1 = .error e) :
    (respond services health fresh r w).1.body = e.body.render := by
  rw [respond_eq]
  dsimp only
  rw [failed]
  rfl

end

/-- **Response bodies are lossless.**  Whatever the services are, the body of an account view is
read back as the view that the use case gave, and the body of a failed request as its public
wording.  The goods are listed once each, with the quantities of the inventory, in strictly
ascending order of the bytes of their names; and different views have different bodies. -/
theorem bodies_lossless :
    (∀ (ω : Type) (services : Services ω) (health : Health) (fresh : TraceId) (r : Request) (w : ω)
      (u : UserId) (a : AccountInfo), Route.ofRequest? r = some .info → r.caller = .ok u →
      (services.ensureCreated u w).outcome = .ok () →
      (services.accountInfo u (services.ensureCreated u w).world).outcome = .ok a →
      (respond services health fresh r w).1.status = 200 ∧
        AccountBody.ofText? (respond services health fresh r w).1.body =
          some ⟨a.balance, a.inventory.entries, a.incoming, a.outgoing⟩) ∧
    (∀ a : AccountInfo,
      (a.inventory.entries.map fun line => Utf8.encode line.1.toList).Pairwise (· < ·) ∧
      ∀ name quantity,
        (name, quantity) ∈ a.inventory.entries ↔ a.inventory.get? name = some quantity) ∧
    (∀ (ω : Type) (services : Services ω) (health : Health) (fresh : TraceId) (r : Request) (w : ω)
      (e : ApiError), (handle services health (Route.ofRequest? r) r w).1 = .error e →
      errorOfText? (respond services health fresh r w).1.body = some e.publicMessage) ∧
    (∀ (e : ApiError) (trace : Option TraceId),
      errorOfText? (e.response trace).body = some e.publicMessage) ∧
    ∀ a a' : AccountInfo, (accountValue a).render = (accountValue a').render → a = a' := by
  refine ⟨?_, ?_, ?_, ?_, ?_⟩
  · intro ω services health fresh r w u a routed called admitted viewed
    obtain ⟨status, body⟩ := respond_info services health fresh routed called admitted viewed
    rw [body]
    exact ⟨status, accountBody_of_render a⟩
  · intro a
    refine ⟨List.pairwise_map.2 (a.inventory.sorted.imp fun h => Utf8.encode_lt_encode h), ?_⟩
    exact fun name quantity => a.inventory.mem_entries_iff
  · intro ω services health fresh r w e failed
    rw [respond_error services health fresh failed]
    exact errorOfText?_body e
  · intro e trace
    cases trace <;> exact errorOfText?_body e
  · intro a a' same
    have read := accountBody_of_render a
    rw [same, accountBody_of_render a'] at read
    exact AccountBody.ofAccount_injective (Option.some.inj read).symm

/-- A view with names that have to be escaped, names outside ASCII, and the largest amount. -/
def oddAccount : AccountInfo where
  balance := ⟨18446744073709551615⟩
  inventory := SortedMap.ofList [("π", 2), ("\"mug\"", 1)]
  incoming := [⟨"back\\slash", ⟨7⟩⟩, ⟨"\x01😀", ⟨1⟩⟩]
  outgoing := [⟨"", ⟨2⟩⟩]

/-- Services that show this view to everybody. -/
def oddServices : Services Unit :=
  { Services.fixed decodeStored Unit with accountInfo := fun _ _ => ⟨.ok oddAccount, (), false⟩ }

/-- A request for an account view. -/
def viewRequest (headers : List Header) : Request where
  method := "GET"
  target := "/api/info".toList
  headers := headers
  body := []

/-- The view is escaped on the way out and is itself again when read; without a caller the wording
of the failure is read. -/
theorem bodies_lossless_odd :
    let answer := (respond oddServices {} zeroTrace
      (viewRequest [⟨Caller.idHeader, [0x37]⟩]) ()).1
    let refused := (respond oddServices {} zeroTrace (viewRequest []) ()).1
    answer.body = "\x7b\"balance\":18446744073709551615,\"inventory\":[" ++
      "\x7b\"type\":\"\\\"mug\\\"\",\"quantity\":1\x7d," ++
      "\x7b\"type\":\"π\",\"quantity\":2\x7d]," ++
      "\"coinHistory\":\x7b\"received\":[" ++
      "\x7b\"fromUser\":\"back\\\\slash\",\"amount\":7\x7d," ++
      "\x7b\"fromUser\":\"\\u0001😀\",\"amount\":1\x7d]," ++
      "\"sent\":[\x7b\"toUser\":\"\",\"amount\":2\x7d]\x7d\x7d" ∧
    AccountBody.ofText? answer.body =
      some ⟨oddAccount.balance, oddAccount.inventory.entries, oddAccount.incoming,
        oddAccount.outgoing⟩ ∧
    errorOfText? refused.body = some "missing caller identity" := by
  intro answer refused
  obtain ⟨views, -, failures, -⟩ := bodies_lossless
  have routed : Route.ofRequest? (viewRequest [⟨Caller.idHeader, [0x37]⟩]) = some .info := by
    decide +kernel
  have called : (viewRequest [⟨Caller.idHeader, [0x37]⟩]).caller = .ok ⟨7⟩ := rfl
  have failed : (handle oddServices {} (Route.ofRequest? (viewRequest [])) (viewRequest []) ()).1 =
      .error Caller.missing := by
    have unnamed : Route.ofRequest? (viewRequest []) = some .info := by decide +kernel
    rw [unnamed]
    rfl
  exact ⟨by decide +kernel, (views Unit oddServices {} zeroTrace _ () ⟨7⟩ oddAccount routed called
    rfl rfl).2, failures Unit oddServices {} zeroTrace _ () Caller.missing failed⟩

end CoinLedger.Http
