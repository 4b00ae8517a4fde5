import CoinLedger.Proofs.Http.Handlers
import CoinLedger.Proofs.Http.Statuses

/-!
# The gate

Who calls is said by one header, the first of its name, and by nothing else.  If it is missing or
says no positive id, a request to the store is turned away by one of two fixed responses; the body,
the item and the other headers are not looked at, and no use case is called: whatever the services
are and whatever they would do to the world, the world is as before.

If it says an id, the id is all that gets past the gate.  How it was spelled (blanks at its ends, a
plus sign, zeros in front) and the name that came along with it are without influence on the
response and on what is left behind.

## Main definitions

* `Spells` — which header values say which id.
* `Request.SameCaller` — requests that differ in such a spelling and in names only.

## Main results

* `spells_iff` — the gate reads exactly these values.
* `caller_gate` — both sides of the gate, over any services.
-/

namespace CoinLedger.Http

open Text

/-! ## Spellings of an id -/

/-- Whether a header value says a positive id: its text, blanks at the ends aside, is a decimal
numeral with at most a plus sign in front. -/
def Spells (value : List UInt8) (id : UserId) : Prop :=
  ∃ text digits, readable? value = some text ∧
    (trim text = digits ∨ trim text = '+' :: digits) ∧
    digits ≠ [] ∧ (∀ c ∈ digits, c.isDigit = true) ∧
    id.toInt = Nat.ofDigitChars 10 digits 0 ∧ 0 < id.toInt

/-- The gate reads an id off exactly those values that spell it. -/
theorem spells_iff {value : List UInt8} {id : UserId} :
    (readable? value).bind Caller.idOfText? = some id ↔ Spells value id := by
  have read : ∀ text, Caller.idOfText? text = some id ↔
      Decimal.readInt? (trim text) = some id.toInt ∧ 0 < id.toInt := by
    intro text
    unfold Caller.idOfText?
    cases hn : Decimal.readInt? (trim text) with
    | none => simp
    | some n =>
      simp only [Option.bind_eq_bind, Option.bind_some, Option.some.injEq]
      by_cases hpos : 0 < n
      · rw [if_pos hpos, UserId.ofInt?_eq_some_iff]
        omega
      · rw [if_neg hpos]
        simp only [reduceCtorEq, false_iff]
        omega
  constructor
  · intro h
    obtain ⟨text, htext, hid⟩ := Option.bind_eq_some_iff.1 h
    obtain ⟨hn, hpos⟩ := (read text).1 hid
    obtain ⟨digits, m, hm, ⟨hid, spelled⟩ | ⟨hid, -⟩⟩ := Decimal.readInt?_eq_some_iff.1 hn
    · obtain ⟨hne, digit, rfl⟩ := Decimal.readNat?_eq_some_iff.1 hm
      exact ⟨text, digits, htext, spelled, hne, digit, hid, hpos⟩
    · omega
  · rintro ⟨text, digits, htext, spelled, hne, digit, hid, hpos⟩
    refine Option.bind_eq_some_iff.2 ⟨text, htext, (read text).2 ⟨?_, hpos⟩⟩
    exact Decimal.readInt?_eq_some_iff.2 ⟨digits, _,
      Decimal.readNat?_eq_some_iff.2 ⟨hne, digit, rfl⟩, .inl ⟨hid, spelled⟩⟩

/-! ## In front of the gate -/

/-- The response to a request without a caller. -/
def turnedAway (trace : TraceId) (message : String) : Response where
  status := 401
  headers := [("content-type", "application/json"), (traceHeader, trace.text)]
  body := "\x7b\"errors\":\"" ++ message ++ "\"\x7d"

theorem sealed_missing (trace : TraceId) :
    sealed trace (.error Caller.missing) = turnedAway trace "missing caller identity" := by
  rfl

theorem sealed_malformed (trace : TraceId) :
    sealed trace (.error Caller.malformed) = turnedAway trace "malformed caller identity" := by
  rfl

variable {ω : Type}

/-- Without a caller a store route answers by what is wrong with the caller, and nothing else is
done. -/
theorem attend_error (services : Services ω) (health : Health) (e : ApiError)
    (body : Except BodyFailure TransferRequest) {route : Route} (store : route.isStore = true)
    (w : ω) :
    attend services health (.error e) body (some route) w = (.error e, w) := by
  cases route with
  | ready => cases store
  | live => cases store
  | _ => rfl

theorem caller_of_absent {r : Request} (h : r.header? Caller.idHeader = none) :
    r.caller = .error Caller.missing := by
  unfold Request.caller Caller.ofRequest
  rw [h]
  rfl

theorem caller_of_spelled {r : Request} {value : List UInt8} {id : UserId}
    (h : r.header? Caller.idHeader = some value) (spelled : Spells value id) :
    r.caller = .ok id := by
  unfold Request.caller Caller.ofRequest
  rw [h]
  dsimp only
  rw [spells_iff.2 spelled]
  rfl

theorem caller_of_unspelled {r : Request} {value : List UInt8}
    (h : r.header? Caller.idHeader = some value) (unspelled : ∀ id, ¬Spells value id) :
    r.caller = .error Caller.malformed := by
  have unread : (readable? value).bind Caller.idOfText? = none := by
    cases hid : (readable? value).bind Caller.idOfText? with
    | none => rfl
    | some id => exact absurd (spells_iff.1 hid) (unspelled id)
  unfold Request.caller Caller.ofRequest
  rw [h]
  dsimp only
  rw [unread]
  rfl

/-- **Nobody gets past the gate without an id.** -/
theorem respond_absent (services : Services ω) (health : Health) (fresh : TraceId) {r : Request}
    {route : Route} (routed : Route.ofRequest? r = some route) (store : route.isStore = true)
    (absent : r.header? Caller.idHeader = none) (w : ω) :
    respond services health fresh r w =
      (turnedAway (r.trace?.getD fresh) "missing caller identity", w) := by
  rw [respond_eq_attend, routed, caller_of_absent absent, attend_error _ _ _ _ store,
    Prod.map_apply, sealed_missing, id]

/-- **Nobody gets past the gate with what is no positive id.** -/
theorem respond_unspelled (services : Services ω) (health : Health) (fresh : TraceId) {r : Request}
    {route : Route} (routed : Route.ofRequest? r = some route) (store : route.isStore = true)
    {value : List UInt8} (present : r.header? Caller.idHeader = some value)
    (unspelled : ∀ id, ¬Spells value id) (w : ω) :
    respond services health fresh r w =
      (turnedAway (r.trace?.getD fresh) "malformed caller identity", w) := by
  rw [respond_eq_attend, routed, caller_of_unspelled present unspelled,
    attend_error _ _ _ _ store, Prod.map_apply, sealed_malformed, id]

/-! ## Behind the gate -/

/-- Whether a header carries the name of the caller. -/
def Header.namesCaller (h : Header) : Bool := sameName h.name Caller.nameHeader

/-- Whether two requests differ only in their headers with the caller's name, and in the spelling of
the same positive id in the first header for it. -/
structure Request.SameCaller (r r' : Request) : Prop where
  method : r.method = r'.method
  target : r.target = r'.target
  body : r.body = r'.body
  /-- The names aside, the headers are the same but for the one with the id. -/
  headers : ∃ before after idName value idName' value' id,
    (r.headers.filter fun h => !h.namesCaller) = before ++ ⟨idName, value⟩ :: after ∧
    (r'.headers.filter fun h => !h.namesCaller) = before ++ ⟨idName', value'⟩ :: after ∧
    sameName idName Caller.idHeader = true ∧ sameName idName' Caller.idHeader = true ∧
    (∀ h ∈ before, sameName h.name Caller.idHeader = false) ∧
    Spells value id ∧ Spells value' id

namespace Request.SameCaller

variable {r r' : Request} (h : r.SameCaller r')
include h

/-- Both say the same caller. -/
theorem caller : r.caller = r'.caller := by
  obtain ⟨before, after, idName, value, idName', value', id, hr, hr', hid, hid', first, spelled,
    spelled'⟩ := h.headers
  have kept : ∀ h : Header, sameName h.name Caller.idHeader = true → (!h.namesCaller) = true := by
    intro h hname
    rw [Header.namesCaller, sameName_eq_false hname rfl]
    rfl
  have unnamed : before.find? (fun h => sameName h.name Caller.idHeader) = none :=
    List.find?_eq_none.2 fun h hh => by rw [first h hh]; exact Bool.false_ne_true
  have present : r.header? Caller.idHeader = some value := by
    rw [← r.header?_filter kept, hr, List.find?_append, unnamed, Option.none_or]
    simp only [List.find?_cons, hid, Option.map_some]
  have present' : r'.header? Caller.idHeader = some value' := by
    rw [← r'.header?_filter kept, hr', List.find?_append, unnamed, Option.none_or]
    simp only [List.find?_cons, hid', Option.map_some]
  rw [caller_of_spelled present spelled, caller_of_spelled present' spelled']

/-- Both have the same other headers. -/
theorem header? {name : String} (hid : sameName Caller.idHeader name = false)
    (hname : sameName name Caller.nameHeader = false) : r.header? name = r'.header? name := by
  obtain ⟨before, after, idName, value, idName', value', id, hr, hr', named, named', -⟩ := h.headers
  have kept : ∀ h : Header, sameName h.name name = true → (!h.namesCaller) = true := by
    intro h hh
    rw [Header.namesCaller, sameName_eq_false hh hname]
    rfl
  rw [← r.header?_filter kept, ← r'.header?_filter kept, hr, hr', List.find?_append,
    List.find?_append]
  simp only [List.find?_cons, sameName_eq_false named hid, sameName_eq_false named' hid]

theorem headerText? {name : String} (hid : sameName Caller.idHeader name = false)
    (hname : sameName name Caller.nameHeader = false) :
    r.headerText? name = r'.headerText? name := by
  unfold Request.headerText?
  rw [h.header? hid hname]

theorem trace? : r.trace? = r'.trace? := by
  unfold Request.trace?
  rw [h.headerText? rfl rfl]

theorem route : Route.ofRequest? r = Route.ofRequest? r' := by
  unfold Route.ofRequest?
  rw [h.method, h.target]

theorem transfer (decode : ContentDecoder) :
    TransferRequest.ofRequest decode r = TransferRequest.ofRequest decode r' := by
  have type : TransferRequest.isJson r = TransferRequest.isJson r' := by
    unfold TransferRequest.isJson
    rw [h.headerText? rfl rfl]
  have length : TransferRequest.declaredLength? r = TransferRequest.declaredLength? r' := by
    unfold TransferRequest.declaredLength?
    rw [h.headerText? rfl rfl]
  have content : r.content? decode = r'.content? decode := by
    unfold Request.content? ContentCoding.ofRequest?
    rw [h.headerText? rfl rfl, h.body]
  unfold TransferRequest.ofRequest
  rw [type, length, content]

end Request.SameCaller

/-- **The id is all that gets past the gate.** -/
theorem respond_sameCaller {r r' : Request} (h : r.SameCaller r') (services : Services ω)
    (health : Health) (fresh : TraceId) (w : ω) :
    respond services health fresh r w = respond services health fresh r' w := by
  rw [respond_eq_attend, respond_eq_attend, h.caller, h.trace?, h.route, h.transfer services.decode]

/-! ## Both sides -/

/-- **The caller gate.**  Whatever the services are and do, a request to the store whose first id
header is missing, or says no positive id, gets one of two fixed responses and leaves the world
alone; and requests that say the same id, in whatever spelling and under whatever name, are
answered alike and leave the same world. -/
theorem caller_gate (ω : Type) (services : Services ω) (health : Health) (fresh : TraceId) (w : ω) :
    (∀ (r : Request) (route : Route), Route.ofRequest? r = some route → route.isStore = true →
      (r.header? Caller.idHeader = none → respond services health fresh r w =
        (turnedAway (r.trace?.getD fresh) "missing caller identity", w)) ∧
      (∀ value, r.header? Caller.idHeader = some value → (∀ id, ¬Spells value id) →
        respond services health fresh r w =
          (turnedAway (r.trace?.getD fresh) "malformed caller identity", w))) ∧
    (∀ r r' : Request, r.SameCaller r' →
      respond services health fresh r w = respond services health fresh r' w) := by
  refine ⟨fun r route routed store => ⟨fun absent => ?_, fun value present unspelled => ?_⟩, ?_⟩
  · exact respond_absent services health fresh routed store absent w
  · exact respond_unspelled services health fresh routed store present unspelled w
  · exact fun r r' same => respond_sameCaller same services health fresh w

/-- A request to buy a pen. -/
def penRequest (headers : List Header) : Request where
  method := "GET"
  target := "/api/buy/pen".toList
  headers := headers
  body := []

/-- A header with a text. -/
def textHeader (name text : String) : Header := ⟨name, Text.Utf8.encode text.toList⟩

/-- The answer to such a request from a shop that nobody has visited. -/
def penAnswer (headers : List Header) : Response × Scripted :=
  respond (.scripted decodeStored {} ⟨1000⟩) {} zeroTrace (penRequest headers)
    ⟨{ goods := Store.standardCatalog }, 0⟩

/-- Nobody, user zero, and user seven in two spellings and under two names. -/
theorem caller_gate_penRequest :
    penAnswer [] =
      (turnedAway zeroTrace "missing caller identity", ⟨{ goods := Store.standardCatalog }, 0⟩) ∧
    penAnswer [textHeader "X-User-Id" "0"] =
      (turnedAway zeroTrace "malformed caller identity", ⟨{ goods := Store.standardCatalog }, 0⟩) ∧
    (penAnswer [textHeader "X-User-Id" "7"]).1.status = 200 ∧
    penAnswer [textHeader "X-User-Id" "7", textHeader "X-Username" "alice"] =
      penAnswer [textHeader "x-username" "bob", textHeader "x-user-id" " +007"] := by
  have routed : Route.ofRequest? (penRequest []) = some (.buy "pen") := by decide +kernel
  have routed₀ : Route.ofRequest? (penRequest [textHeader "X-User-Id" "0"]) =
      some (.buy "pen") := by
    decide +kernel
  obtain ⟨gate, same⟩ := caller_gate Scripted (.scripted decodeStored {} ⟨1000⟩) {} zeroTrace
    ⟨{ goods := Store.standardCatalog }, 0⟩
  have plain : Spells (textHeader "X-User-Id" "7").value ⟨7⟩ := spells_iff.1 (by decide +kernel)
  have signed : Spells (textHeader "x-user-id" " +007").value ⟨7⟩ :=
    spells_iff.1 (by decide +kernel)
  have zero : ∀ id, ¬Spells (textHeader "X-User-Id" "0").value id := by
    intro id spelled
    have unread : (readable? (textHeader "X-User-Id" "0").value).bind Caller.idOfText? = none := by
      decide +kernel
    rw [spells_iff.2 spelled] at unread
    cases unread
  refine ⟨(gate _ _ routed rfl).1 rfl, (gate _ _ routed₀ rfl).2 _ rfl zero, by decide +kernel,
    same _ _ ⟨rfl, rfl, rfl, ?_⟩⟩
  exact ⟨[], [], "X-User-Id", (textHeader "X-User-Id" "7").value, "x-user-id",
    (textHeader "x-user-id" " +007").value, ⟨7⟩, by decide +kernel, by decide +kernel, rfl, rfl,
    (fun _ h => nomatch h), plain, signed⟩

end CoinLedger.Http
