import CoinLedger.Database.Report
import CoinLedger.Http.Backend
import CoinLedger.Proofs.Http.Handlers
import CoinLedger.Proofs.Ledger.Redaction

/-!
# Responses do not tell what failed

The wording of a failure passes through many hands: the pool and the driver word it, a port wraps
it, a use case wraps it again, and the handler puts it into an error whose text may go out.  A
response shows none of it.

Services are *alike* if their use cases always come to the same redacted results and leave the same
world.  A handler is a chain of such use cases, in which an error of one becomes the answer of all,
so the answers of alike services differ in the details of faults at most (`attend_alike`); and
these the response leaves out (`sealed_undetailed`).

A body that cannot be read is answered in the same way whatever is wrong with it.  Its reader says
what is wrong (`BodyFailure`), and the handler drops that where it makes an error of it
(`unreadableBody`).

## Main results

* `respond_alike` — alike services give the same responses.
* `failures_redacted` — scripts of failures, backings, and unreadable bodies.
-/

namespace CoinLedger.Http

variable {ω : Type}

/-! ## Answers that differ in the details of faults -/

/-- A failed request without the details of its fault. -/
def ApiError.undetailed : ApiError → ApiError
  | ledger e => ledger e.redacted
  | e => e

/-- **A response to a failed request does not tell which fault it was.** -/
theorem sealed_undetailed (trace : TraceId) (e : ApiError) :
    sealed trace (.error e.undetailed) = sealed trace (.error e) := by
  cases e with
  | ledger cause => cases cause <;> rfl
  | unauthenticated m => rfl
  | badRequest m => rfl

/-- Whether two steps of a handler leave the same world and agree but for the details of a
fault. -/
structure AnswersAlike {α : Type} (x y : Except ApiError α × ω) : Prop where
  answer : x.1.mapError ApiError.undetailed = y.1.mapError ApiError.undetailed
  world : x.2 = y.2

theorem AnswersAlike.refl {α : Type} (x : Except ApiError α × ω) : AnswersAlike x x := ⟨rfl, rfl⟩

/-- Steps that are alike are followed by steps that are alike. -/
theorem AnswersAlike.andThen {α β : Type} {x y : Except ApiError α × ω} (h : AnswersAlike x y)
    {f g : α → ω → Except ApiError β × ω} (hfg : ∀ a w, AnswersAlike (f a w) (g a w)) :
    AnswersAlike (andThen x f) (andThen y g) := by
  unfold Http.andThen
  rcases mapError_eq_mapError_iff.1 h.answer with ⟨a, hx, hy⟩ | ⟨e, e', hx, hy, same⟩
  · rw [hx, hy, h.world]
    exact hfg a _
  · rw [hx, hy]
    exact ⟨congrArg Except.error same, h.world⟩

/-- Answers of a handler that are alike become one response. -/
theorem AnswersAlike.sealed {x y : Except ApiError Response × ω} (h : AnswersAlike x y)
    (trace : TraceId) : sealed trace x.1 = sealed trace y.1 := by
  rcases mapError_eq_mapError_iff.1 h.answer with ⟨a, hx, hy⟩ | ⟨e, e', hx, hy, same⟩
  · rw [hx, hy]
  · rw [hx, hy, ← sealed_undetailed, same, sealed_undetailed]

/-! ## Services that are alike -/

/-- Whether two answers of a use case agree when redacted. -/
structure Served.Alike {α : Type} (x y : Served ω α) : Prop where
  outcome : redact x.outcome = redact y.outcome
  world : x.world = y.world
  delayed : x.delayed = y.delayed

theorem Served.Alike.answer {α : Type} {x y : Served ω α} (h : x.Alike y) :
    AnswersAlike x.answer y.answer := by
  refine ⟨?_, h.world⟩
  unfold Served.answer
  rcases redact_eq_redact_iff.1 h.outcome with ⟨a, hx, hy⟩ | ⟨e, e', hx, hy, same⟩
  · rw [hx, hy]
  · rw [hx, hy]
    exact congrArg (Except.error ∘ ApiError.ledger) same

/-- Whether the use cases of two services always agree when redacted. -/
structure Services.Alike (a b : Services ω) : Prop where
  decode : a.decode = b.decode
  ensureCreated : ∀ u w, (a.ensureCreated u w).Alike (b.ensureCreated u w)
  accountInfo : ∀ u w, (a.accountInfo u w).Alike (b.accountInfo u w)
  sendCoins : ∀ u name amount w, (a.sendCoins u name amount w).Alike (b.sendCoins u name amount w)
  buyItem : ∀ u name w, (a.buyItem u name w).Alike (b.buyItem u name w)

section
variable {a b : Services ω} (alike : a.Alike b)
include alike

theorem behindGate_alike (caller : Except ApiError UserId)
    {f g : UserId → ω → Except ApiError Response × ω} (hfg : ∀ u w, AnswersAlike (f u w) (g u w))
    (w : ω) : AnswersAlike (behindGate a caller f w) (behindGate b caller g w) :=
  (AnswersAlike.refl (caller, w)).andThen fun u w =>
    (alike.ensureCreated u w).answer.andThen fun _ w => hfg u w

theorem transferBehindGate_alike (caller : Except ApiError UserId)
    (body : Except BodyFailure TransferRequest) (w : ω) :
    AnswersAlike (transferBehindGate a caller body w) (transferBehindGate b caller body w) := by
  refine (AnswersAlike.refl (caller, w)).andThen fun u w => ?_
  have provisioned := alike.ensureCreated u w
  cases body with
  | error failure =>
    -- Whether the caller would have to wait is the same on both sides.
    dsimp only
    rw [← provisioned.delayed]
    split
    · exact .refl _
    · exact provisioned.answer.andThen fun _ w => .refl _
  | ok t =>
    refine provisioned.answer.andThen fun _ w => ?_
    cases Username.ofString t.toUser with
    | error e => exact .refl _
    | ok name => exact (alike.sendCoins u name t.amount w).answer.andThen fun _ w => .refl _

/-- The handlers of alike services answer alike. -/
theorem attend_alike (health : Health) (caller : Except ApiError UserId)
    (body : Except BodyFailure TransferRequest) (route : Option Route) (w : ω) :
    AnswersAlike (attend a health caller body route w) (attend b health caller body route w) := by
  rcases route with _ | ⟨⟨⟩ | ⟨⟩ | item | ⟨⟩ | ⟨⟩⟩
  · exact .refl _
  · exact behindGate_alike alike caller
      (fun u w => (alike.accountInfo u w).answer.andThen fun _ w => .refl _) w
  · exact transferBehindGate_alike alike caller body w
  · exact behindGate_alike alike caller
      (fun u w => (alike.buyItem u item w).answer.andThen fun _ w => .refl _) w
  · exact .refl _
  · exact .refl _

/-- **Alike services give the same responses**, and leave the same world. -/
theorem respond_alike (health : Health) (fresh : TraceId) (r : Request) (w : ω) :
    respond a health fresh r w = respond b health fresh r w := by
  have attended := attend_alike alike health r.caller (TransferRequest.ofRequest a.decode r)
    (Route.ofRequest? r) w
  rw [respond_eq_attend, respond_eq_attend, ← alike.decode]
  exact Prod.ext (attended.sealed _) attended.world

end

/-! ## Scripts and backings -/

open UseCase

theorem serve_alike {α : Type} {e : Stage} {script : Script} (failing : e.script.FailsAlike script)
    {p : UseCase α} (hp : p.FaultsOnFailure) (w : Scripted) :
    (Scripted.serve e p w).Alike (Scripted.serve (e.under script) p w) := by
  have played := play_redacted failing hp w.store ⟨0, w.calls⟩
  unfold Scripted.serve
  cases hx : p.play e w.store ⟨0, w.calls⟩ with
  | finished r s c =>
    cases hy : p.play (e.under script) w.store ⟨0, w.calls⟩ with
    | finished r' s' c' =>
      rw [hx, hy] at played
      obtain ⟨same, rfl, rfl⟩ := Played.finished.inj played
      exact ⟨same, rfl, rfl⟩
    | cut s' => rw [hx, hy] at played; cases played
  | cut s =>
    cases hy : p.play (e.under script) w.store ⟨0, w.calls⟩ with
    | finished r' s' c' => rw [hx, hy] at played; cases played
    | cut s' =>
      rw [hx, hy] at played
      obtain rfl := Played.cut.inj played
      exact ⟨rfl, rfl, rfl⟩

theorem scripted_alike (decode : ContentDecoder) {e : Stage} {script : Script}
    (failing : e.script.FailsAlike script) (seed : Coins) :
    (Services.scripted decode e seed).Alike (.scripted decode (e.under script) seed) where
  decode := rfl
  ensureCreated u w := serve_alike failing (faultsOnFailure_ensureCreated seed u) w
  accountInfo u w := serve_alike failing (faultsOnFailure_accountInfo u) w
  sendCoins u name amount w := serve_alike failing (faultsOnFailure_sendCoins seed u name amount) w
  buyItem u name w := serve_alike failing (faultsOnFailure_buyItem u name) w

theorem over_alike (decode : ContentDecoder) {σ : Type} {b b' : Backing σ}
    (failing : b.FailsAlike b') (seed : Coins) (delayed : Bool) :
    (Services.over decode b seed delayed).Alike (.over decode b' seed delayed) where
  decode := rfl
  ensureCreated u w :=
    let same := runOn_redacted failing (faultsOnFailure_ensureCreated seed u) w
    ⟨same.1, same.2, rfl⟩
  accountInfo u w :=
    let same := runOn_redacted failing (faultsOnFailure_accountInfo u) w
    ⟨same.1, same.2, rfl⟩
  sendCoins u name amount w :=
    let same := runOn_redacted failing (faultsOnFailure_sendCoins seed u name amount) w
    ⟨same.1, same.2, rfl⟩
  buyItem u name w :=
    let same := runOn_redacted failing (faultsOnFailure_buyItem u name) w
    ⟨same.1, same.2, rfl⟩

/-! ## Bodies that cannot be read -/

/-- Whether a header describes the body of its request. -/
def Header.describesBody (h : Header) : Bool :=
  sameName h.name "content-type" || sameName h.name "content-length" ||
    sameName h.name "content-encoding"

/-- Whether two requests differ at most in their bodies and in what describes them. -/
structure Request.SameButBody (r r' : Request) : Prop where
  method : r.method = r'.method
  target : r.target = r'.target
  headers : (r.headers.filter fun h => !h.describesBody) =
    r'.headers.filter fun h => !h.describesBody

theorem Request.SameButBody.header? {r r' : Request} (h : r.SameButBody r') {name : String}
    (hne : Header.describesBody ⟨name, []⟩ = false) : r.header? name = r'.header? name := by
  obtain ⟨hplain, hcoding⟩ := Bool.or_eq_false_iff.1 hne
  obtain ⟨htype, hlength⟩ := Bool.or_eq_false_iff.1 hplain
  have kept : ∀ header : Header, sameName header.name name = true →
      (!header.describesBody) = true := by
    intro header hname
    rw [Header.describesBody, sameName_eq_false hname htype, sameName_eq_false hname hlength,
      sameName_eq_false hname hcoding]
    rfl
  rw [← r.header?_filter kept, h.headers, r'.header?_filter kept]

/-- A handler does the same whatever the reason is why it has no body. -/
theorem attend_unreadable (services : Services ω) (health : Health)
    (caller : Except ApiError UserId) (failure failure' : BodyFailure) (route : Option Route)
    (w : ω) :
    attend services health caller (.error failure) route w =
      attend services health caller (.error failure') route w := by
  rcases route with _ | ⟨⟨⟩ | ⟨⟩ | item | ⟨⟩ | ⟨⟩⟩ <;> rfl

/-- **A body that cannot be read is answered alike**, whatever is wrong with it. -/
theorem respond_unreadable {r r' : Request} (h : r.SameButBody r') {services : Services ω}
    {failure failure' : BodyFailure}
    (hr : TransferRequest.ofRequest services.decode r = .error failure)
    (hr' : TransferRequest.ofRequest services.decode r' = .error failure')
    (health : Health) (fresh : TraceId) (w : ω) :
    respond services health fresh r w = respond services health fresh r' w := by
  have caller : r.caller = r'.caller := Request.caller_congr (h.header? rfl)
  have trace : r.trace? = r'.trace? := by
    unfold Request.trace? Request.headerText?
    rw [h.header? rfl]
  have route : Route.ofRequest? r = Route.ofRequest? r' := by
    unfold Route.ofRequest?
    rw [h.method, h.target]
  rw [respond_eq_attend, respond_eq_attend, caller, trace, route, hr, hr',
    attend_unreadable services health r'.caller failure failure']

/-! ## The responses -/

/-- **What a failure is and says never reaches a client.**  A response, and the store after it, are
the same under two scripts that make the same calls fail, whatever these failures are and say; over
a backing, such as the database, and over the same backing with its failures put in other words;
and for two requests whose bodies cannot be read, whatever is wrong with them.  What the pool says
only changes the words of a failure, and what the database says about a statement not even these. -/
theorem failures_redacted (health : Health) (fresh : TraceId) :
    (∀ (decode : ContentDecoder) (e : Stage) (script : Script), e.script.FailsAlike script →
      ∀ (seed : Coins) (r : Request) (w : Scripted),
        respond (.scripted decode e seed) health fresh r w =
          respond (.scripted decode (e.under script) seed) health fresh r w) ∧
    (∀ (decode : ContentDecoder) (σ : Type) (b : Backing σ) (say : String → String) (seed : Coins)
      (delayed : Bool) (r : Request) (w : σ),
        respond (.over decode (b.reworded say) seed delayed) health fresh r w =
          respond (.over decode b seed delayed) health fresh r w) ∧
    (∀ (f : PoolFailure) (say : String → String),
      (f.reworded say).toStorage = f.toStorage.reworded say) ∧
    (∀ x y : Database.Report, x.silent = y.silent → x.toStorage = y.toStorage) ∧
    (∀ (ω : Type) (services : Services ω) (r r' : Request) (failure failure' : BodyFailure) (w : ω),
      r.SameButBody r' → TransferRequest.ofRequest services.decode r = .error failure →
      TransferRequest.ofRequest services.decode r' = .error failure' →
        respond services health fresh r w = respond services health fresh r' w) := by
  refine ⟨?_, ?_, fun f say => f.toStorage_reworded say,
    fun x y => Database.Report.toStorage_congr, ?_⟩
  · intro decode e script failing seed r w
    exact respond_alike (scripted_alike decode failing seed) health fresh r w
  · intro decode σ b say seed delayed r w
    have failing := b.failsAlike_reworded say
    exact respond_alike (over_alike decode failing seed delayed) health fresh r w
  · intro ω services r r' failure failure' w same hr hr'
    exact respond_unreadable same hr hr' health fresh w

/-- A request to buy a book. -/
def bookRequest : Request where
  method := "GET"
  target := "/api/buy/book".toList
  headers := [⟨Caller.idHeader, [0x37]⟩]
  body := []

/-- A request to send coins, with a body of some type. -/
def sendRequest (type body : String) : Request where
  method := "POST"
  target := "/api/sendCoin".toList
  headers := [⟨Caller.idHeader, [0x37]⟩, ⟨"Content-Type", Text.Utf8.encode type.toList⟩]
  body := Text.Utf8.encode body.toList

/-- A stage on which every commit is lost. -/
def lossy (f : StorageFailure) : Stage where
  script := .lostCommit f
  limit := some defaultTimeout

/-- A purchase whose commit is lost for one reason or for another, a check violation with one text
or another, and a body that breaks off or is announced as another type. -/
theorem failures_redacted_bookRequest :
    (lossy (.query "disk full")).script.FailsAlike (.lostCommit (.connection "no route")) ∧
    (respond (.scripted decodeStored (lossy (.query "disk full")) ⟨1000⟩) {} zeroTrace bookRequest
      ⟨{ goods := Store.standardCatalog }, 0⟩).1.status = 500 ∧
    respond (.scripted decodeStored (lossy (.query "disk full")) ⟨1000⟩) {} zeroTrace bookRequest
        ⟨{ goods := Store.standardCatalog }, 0⟩ =
      respond (.scripted decodeStored (lossy (.connection "no route")) ⟨1000⟩) {} zeroTrace
        bookRequest
        ⟨{ goods := Store.standardCatalog }, 0⟩ ∧
    (Database.Report.database .checkViolation "balances").toStorage =
      (Database.Report.database .checkViolation "purchases").toStorage ∧
    TransferRequest.ofRequest decodeStored (sendRequest "application/json" "[") =
      .error .malformed ∧
    TransferRequest.ofRequest decodeStored (sendRequest "text/plain" "[\"bob\",30]") =
      .error .contentType ∧
    respond (.fixed decodeStored Unit) {} zeroTrace (sendRequest "application/json" "[") () =
      respond (.fixed decodeStored Unit) {} zeroTrace
        (sendRequest "text/plain" "[\"bob\",30]") () := by
  have failing : (lossy (.query "disk full")).script.FailsAlike
      (.lostCommit (.connection "no route")) :=
    { call := fun _ _ => .refl _
      statement := fun _ _ => .refl _
      begin := fun _ => .refl _
      commit := fun _ => ⟨rfl, .failures _ _⟩ }
  have brokenOff : TransferRequest.ofRequest decodeStored
      (sendRequest "application/json" "[") = .error .malformed := rfl
  have otherType : TransferRequest.ofRequest decodeStored
      (sendRequest "text/plain" "[\"bob\",30]") = .error .contentType := rfl
  obtain ⟨scripts, -, -, reports, bodies⟩ := failures_redacted {} zeroTrace
  exact ⟨failing, by decide +kernel, scripts _ _ _ failing _ _ _, reports _ _ rfl, brokenOff,
    otherType, bodies _ _ _ _ _ _ _ ⟨rfl, rfl, by decide⟩ brokenOff otherType⟩

end CoinLedger.Http
