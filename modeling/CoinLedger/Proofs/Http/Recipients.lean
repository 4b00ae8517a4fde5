import CoinLedger.Proofs.Concurrency.Provisioning
import CoinLedger.Proofs.Http.Gate
import CoinLedger.Proofs.Http.Programs
import CoinLedger.Proofs.Http.Truth

/-!
# Where rows come from

A row is created for a caller, who has come through the gate, or for the recipient of coins, whose
id is whatever the identity service gave for the name.  The gate lets nobody in whose id is not
positive.  The answer of the identity service is not looked at in this way.  If it gives such an id
for a name, a transfer to that name creates the row and credits it, nobody can ever call as its
owner, and the coins stay there: no request makes that balance fall.

The rows are followed over whole runs of requests, each of which may meet a directory, failures,
delays, a limit and a decoder of its own (`Visit`).  What one request does to the rows is said once
(`respond_grows`), and runs put it together (`Grows.trans`).

## Main definitions

* `Visit`, `afterVisits` — requests in turn, each on a stage of its own.
* `Grows` — rows appear for some users only, and balances fall for some users only.
* `Visit.Transfers` — a request is a transfer of a positive amount to a certain user.

## Main results

* `rows_and_unusable_accounts` — where rows come from, and what happens with those that nobody can
  call as.
-/

namespace CoinLedger.Http

/-! ## Runs of requests -/

/-- A request, and what it meets. -/
structure Visit where
  decode : ContentDecoder
  stage : Stage
  health : Health := {}
  fresh : TraceId
  request : Request

/-- The answer to a visit, and the store after it. -/
def Visit.serve (seed : Coins) (v : Visit) (s : Store) : Response × Store :=
  let (response, w) := respond (.scripted v.decode v.stage seed) v.health v.fresh v.request ⟨s, 0⟩
  (response, w.store)

/-- The store after some visits. -/
def afterVisits (seed : Coins) (visits : List Visit) (s : Store) : Store :=
  visits.foldl (fun s v => (v.serve seed s).2) s

/-- Whether the identity service gives a user's id for some name during a visit. -/
def Visit.Resolves (v : Visit) (u : UserId) : Prop :=
  ∃ name, v.stage.directory.idOf? name = some u

/-! ## How rows grow -/

/-- Whether, from one store to another one, rows have appeared for some users only, and no balances
have fallen but those of some users. -/
structure Grows (fresh spends : UserId → Prop) (s s' : Store) : Prop where
  rows : ∀ u, s.balance? u = none → s'.balance? u ≠ none → fresh u
  kept : ∀ u balance, s.balance? u = some balance → ¬spends u →
    ∃ more, s'.balance? u = some more ∧ balance.toNat ≤ more.toNat

section
variable {fresh fresh' spends spends' : UserId → Prop} {s s' s'' : Store}

theorem Grows.refl (fresh spends : UserId → Prop) (s : Store) : Grows fresh spends s s where
  rows _ absent present := (present absent).elim
  kept _ balance h _ := ⟨balance, h, Nat.le_refl _⟩

theorem Grows.mono (h : Grows fresh spends s s') (hfresh : ∀ u, fresh u → fresh' u)
    (hspends : ∀ u, spends u → spends' u) : Grows fresh' spends' s s' where
  rows u absent present := hfresh u (h.rows u absent present)
  kept u balance hb keeps := h.kept u balance hb fun hu => keeps (hspends u hu)

theorem Grows.trans (h : Grows fresh spends s s') (h' : Grows fresh spends s' s'') :
    Grows fresh spends s s'' := by
  constructor
  case rows =>
    intro u absent present
    by_cases middle : s'.balance? u = none
    · exact h'.rows u middle present
    · exact h.rows u absent middle
  case kept =>
    intro u balance hb keeps
    obtain ⟨more, hmore, le⟩ := h.kept u balance hb keeps
    obtain ⟨most, hmost, le'⟩ := h'.kept u more hmore keeps
    exact ⟨most, hmost, Nat.le_trans le le'⟩

/-- Where nothing has moved, no balance has fallen. -/
theorem Unmoved.grows {seed : Coins} (h : Unmoved seed fresh s s') : Grows fresh spends s s' := by
  constructor
  case rows =>
    intro u absent present
    rcases h.rows u with same | ⟨-, -, hu⟩
    · exact (present (same.trans absent)).elim
    · exact hu
  case kept =>
    intro u balance hb _
    rcases h.rows u with same | ⟨absent, -, -⟩
    · exact ⟨balance, same.trans hb, Nat.le_refl _⟩
    · rw [hb] at absent
      cases absent

theorem Bought.grows {seed : Coins} {caller : UserId} {g : Good}
    (h : Bought seed caller g s s') : Grows (· = caller) (· = caller) s s' := by
  constructor
  case rows =>
    intro u absent present
    by_cases hu : u = caller
    · exact hu
    · rw [h.others u hu] at present
      exact (present absent).elim
  case kept =>
    intro u balance hb keeps
    exact ⟨balance, (h.others u keeps).trans hb, Nat.le_refl _⟩

theorem Sent.grows {seed amount : Coins} {caller recipient : UserId}
    (h : Sent seed caller recipient amount s s') :
    Grows (fun u => u = caller ∨ u = recipient) (· = caller) s s' := by
  constructor
  case rows =>
    intro u absent present
    by_cases hu : u = caller
    · exact .inl hu
    · by_cases hv : u = recipient
      · exact .inr hv
      · rw [h.others u hu hv] at present
        exact (present absent).elim
  case kept =>
    intro u balance hb keeps
    by_cases hv : u = recipient
    · subst hv
      obtain ⟨sum, hsum, credited⟩ := h.received
      rw [hb, Option.getD_some] at credited
      exact ⟨sum, hsum, by omega⟩
    · exact ⟨balance, (h.others u keeps hv).trans hb, Nat.le_refl _⟩

end

/-! ## One request -/

/-- Whoever comes through the gate has a positive id. -/
theorem caller_pos {r : Request} {u : UserId} (h : r.caller = .ok u) : 0 < u.toInt := by
  unfold Request.caller Caller.ofRequest at h
  cases hvalue : r.header? Caller.idHeader with
  | none =>
    rw [hvalue] at h
    cases h
  | some value =>
    rw [hvalue] at h
    dsimp only at h
    cases hid : (readable? value).bind Caller.idOfText? with
    | none =>
      rw [hid] at h
      cases h
    | some id =>
      rw [hid] at h
      obtain rfl : id = u := Except.ok.inj h
      obtain ⟨text, digits, -, -, -, -, -, positive⟩ := spells_iff.1 hid
      exact positive

section
variable {decode : ContentDecoder} {e : Stage} {seed : Coins} {r : Request}

/-- The users for whom a request may create a row: who calls, and who is given for a name. -/
def MayAppear (d : Directory) (r : Request) (u : UserId) : Prop :=
  r.caller = .ok u ∨ ∃ name, d.idOf? name = some u

theorem caller_of_ofRequest {caller : Caller} (h : Caller.ofRequest r = .ok caller) :
    r.caller = .ok caller.id := by
  rw [Request.caller, h]
  rfl

theorem IsParty.mayAppear {d : Directory} {route : Route} {u : UserId}
    (h : IsParty decode d r route u) : MayAppear d r u := by
  rcases h with ⟨caller, hcaller, rfl⟩ | ⟨-, _, name, -, -, hu⟩
  · exact .inl (caller_of_ofRequest hcaller)
  · exact .inr ⟨name, hu⟩

/-- A truthful answer lets rows appear for the parties, and takes coins from the caller only. -/
theorem Truthful.grows {d : Directory} {route : Route} {s s' : Store}
    {answer : Except ApiError Response} (h : Truthful decode d seed r route s answer s') :
    Grows (MayAppear d r) (fun u => r.caller = .ok u) s s' := by
  rcases h with ⟨-, fulfilled⟩ | ⟨-, unmoved⟩
  · cases route with
    | buy item =>
      obtain ⟨caller, g, hcaller, -, bought⟩ := fulfilled
      refine bought.grows.mono ?_ ?_
      · rintro u rfl
        exact .inl (caller_of_ofRequest hcaller)
      · rintro u rfl
        exact caller_of_ofRequest hcaller
    | sendCoin =>
      obtain ⟨caller, t, name, recipient, hcaller, -, -, resolved, sent⟩ := fulfilled
      refine sent.grows.mono ?_ ?_
      · rintro u (rfl | rfl)
        · exact .inl (caller_of_ofRequest hcaller)
        · exact .inr ⟨name, resolved⟩
      · rintro u rfl
        exact caller_of_ofRequest hcaller
    | info => exact fulfilled.elim
    | ready => exact fulfilled.elim
    | live => exact fulfilled.elim
  · exact unmoved.grows.mono (fun _ h => h.mayAppear) fun _ h => h

/-- Viewing an account may provision the caller. -/
theorem handleInfo_grows (honest : e.script.Honest) (w : Scripted) :
    Grows (MayAppear e.directory r) (fun u => r.caller = .ok u) w.store
      (handleInfo (.scripted decode e seed) r w).2.store := by
  unfold handleInfo
  rcases authenticate_spec (r := r) honest w with
    ⟨caller, w₁, hauth, hcaller, provisioned⟩ | ⟨err, w₁, hauth, same⟩
  · rw [hauth]
    have viewed := Scripted.serve_ensures honest
      (UseCase.accountInfo_ensures e.directory caller.id w₁.store)
    have admitted : Unmoved seed (MayAppear e.directory r) w.store w₁.store := by
      rw [provisioned]
      exact (Unmoved.refl _ _ _).provision (.inl (caller_of_ofRequest hcaller))
    simp only [Services.scripted]
    cases (Scripted.serve e (UseCase.accountInfo caller.id) w₁).outcome with
    | ok a =>
      dsimp only
      rw [viewed]
      exact admitted.grows
    | error err =>
      dsimp only
      rw [viewed]
      exact admitted.grows
  · rw [hauth]
    dsimp only
    rw [same]
    exact .refl _ _ _

/-- **One request** lets rows appear for its caller and for users that it has resolved, and takes
coins from its caller only. -/
theorem respond_grows (decode : ContentDecoder) (honest : e.script.Honest) (seed : Coins)
    (health : Health) (fresh : TraceId) (w : Scripted) :
    Grows (MayAppear e.directory r) (fun u => r.caller = .ok u) w.store
      (respond (.scripted decode e seed) health fresh r w).2.store := by
  rw [respond_eq]
  rcases Route.ofRequest? r with _ | _ | _ | item | _ | _
  · exact .refl _ _ _
  · exact handleInfo_grows honest w
  · exact (handleSend_truthful honest w).grows
  · exact (handleBuy_truthful honest item w).grows
  · exact .refl _ _ _
  · exact .refl _ _ _

end

/-! ## Runs of requests -/

/-- Runs let rows appear and balances fall as their requests do. -/
theorem afterVisits_grows {seed : Coins} {visits : List Visit}
    (honest : ∀ v ∈ visits, v.stage.script.Honest) (s : Store) :
    Grows (fun u => ∃ v ∈ visits, MayAppear v.stage.directory v.request u)
      (fun u => ∃ v ∈ visits, v.request.caller = .ok u) s (afterVisits seed visits s) := by
  induction visits generalizing s with
  | nil => exact .refl _ _ _
  | cons v rest ih =>
    have first := respond_grows (r := v.request) v.decode (honest v (List.mem_cons_self ..)) seed
      v.health v.fresh ⟨s, 0⟩
    have later := ih (fun v' hv' => honest v' (List.mem_cons_of_mem _ hv')) (v.serve seed s).2
    refine Grows.trans (first.mono ?_ ?_) (later.mono ?_ ?_)
    · exact fun u hu => ⟨v, List.mem_cons_self .., hu⟩
    · exact fun u hu => ⟨v, List.mem_cons_self .., hu⟩
    · exact fun u ⟨v', hv', hu⟩ => ⟨v', List.mem_cons_of_mem _ hv', hu⟩
    · exact fun u ⟨v', hv', hu⟩ => ⟨v', List.mem_cons_of_mem _ hv', hu⟩

/-! ## Transfers -/

/-- A visit that is a transfer of a positive amount to the user whom the identity service gives for
the name in the body. -/
structure Visit.Transfers (v : Visit) (sender recipient : UserId) (amount : Coins) : Prop where
  routed : Route.ofRequest? v.request = some .sendCoin
  caller : v.request.caller = .ok sender
  body : ∃ text name, TransferRequest.ofRequest v.decode v.request = .ok ⟨text, amount⟩ ∧
    Username.ofString text = .ok name ∧ v.stage.directory.idOf? name = some recipient
  positive : amount.isZero = false
  other : recipient ≠ sender

/-- A transfer to somebody else is the unit of a movement behind the provisioning of both. -/
theorem Visit.Transfers.serve {v : Visit} {sender recipient : UserId} {amount : Coins}
    (h : v.Transfers sender recipient amount) (quiet : v.stage.script = .quiet) (seed : Coins)
    (s : Store) :
    let moved := (UseCase.movement sender recipient amount).commitIfOk
      ((s.insertIfAbsent sender seed).insertIfAbsent recipient seed)
    (v.serve seed s).2 = moved.2 ∧ (moved.1 = .ok () → (v.serve seed s).1.status = 200) := by
  intro moved
  obtain ⟨text, name, hbody, hname, resolved⟩ := h.body
  have served : (program v.decode seed v.health v.fresh v.request).runOn
      (.memory v.stage.directory) s = (.ok (v.serve seed s).1, (v.serve seed s).2) :=
    respond_runOn quiet seed v.health v.fresh v.request ⟨s, 0⟩
  obtain ⟨caller, hcaller, hid⟩ : ∃ caller, Caller.ofRequest v.request = .ok caller ∧
      caller.id = sender := by
    have admitted := h.caller
    unfold Request.caller at admitted
    cases hcaller : Caller.ofRequest v.request with
    | ok caller =>
      rw [hcaller] at admitted
      exact ⟨caller, rfl, Except.ok.inj admitted⟩
    | error err =>
      rw [hcaller] at admitted
      cases admitted
  subst hid
  have sent : (UseCase.sendCoins seed caller.id name amount).runOn (.memory v.stage.directory)
      (s.insertIfAbsent caller.id seed) = moved :=
    UseCase.sendCoins_runOn h.positive resolved h.other _
  have handled : (handling v.decode seed v.health v.request (some .sendCoin)).runOn
      (.memory v.stage.directory) s =
        (answered (fun _ => done) moved.1).runOn (.memory v.stage.directory) moved.2 := by
    show (admission seed v.request (sending v.decode seed v.request)).runOn _ _ = _
    rw [runOn_admission hcaller]
    unfold sending
    rw [hbody]
    dsimp only
    rw [hname]
    dsimp only
    rw [UseCase.runOn_andThen, sent]
  rw [program, UseCase.runOn_andThen, h.routed, handled] at served
  rcases moved with ⟨result | result, s'⟩
  · refine ⟨(congrArg Prod.snd served).symm, fun committed => ?_⟩
    cases committed
  · refine ⟨(congrArg Prod.snd served).symm, fun _ => ?_⟩
    have answer := Except.ok.inj (congrArg Prod.fst served)
    rw [← answer]
    rfl

/-- A transfer provisions its recipient, and succeeds if the balances allow it. -/
theorem Visit.Transfers.credits {v : Visit} {sender recipient : UserId} {amount seed : Coins}
    (h : v.Transfers sender recipient amount) (quiet : v.stage.script = .quiet) (s : Store) :
    (v.serve seed s).2.balance? recipient ≠ none ∧
      ∀ rest sum, ((s.balance? sender).getD seed).sub? amount = some rest →
        ((s.balance? recipient).getD seed).add? amount = some sum →
        (v.serve seed s).1.status = 200 ∧ (v.serve seed s).2.balance? sender = some rest ∧
          (v.serve seed s).2.balance? recipient = some sum := by
  obtain ⟨left, answer⟩ := h.serve quiet seed s
  have hne := h.other
  constructor
  · have there : ((s.insertIfAbsent sender seed).insertIfAbsent recipient seed).HasRows
        [recipient] := by
      intro u hu
      obtain rfl := List.mem_singleton.1 hu
      rw [Store.balance?_insertIfAbsent_self]
      rfl
    have kept := (UseCase.movement sender recipient amount).hasRows_commitIfOk there recipient
      (List.mem_singleton.2 rfl)
    rw [left]
    exact Option.isSome_iff_ne_none.1 kept
  · intro rest sum covered fits
    have committed := (UseCase.movement_commits_iff hne.symm
      (s := (s.insertIfAbsent sender seed).insertIfAbsent recipient seed)).2
      ⟨_, rest, _, sum, by simp [hne], covered, by simp [hne.symm], fits, rfl⟩
    rw [committed] at left answer
    rw [left]
    exact ⟨answer rfl, by simp [hne], by simp⟩

/-! ## Accounts that nobody can call as -/

/-- The rows of a store that had none are those of callers and of users given for a name. -/
theorem rows_afterVisits {seed : Coins} {visits : List Visit}
    (honest : ∀ v ∈ visits, v.stage.script.Honest) {s : Store} (empty : ∀ u, s.balance? u = none)
    {u : UserId} (row : (afterVisits seed visits s).balance? u ≠ none) :
    (0 < u.toInt ∧ ∃ v ∈ visits, v.request.caller = .ok u) ∨ ∃ v ∈ visits, v.Resolves u := by
  obtain ⟨v, hv, called | given⟩ := (afterVisits_grows honest s).rows u (empty u) row
  · exact .inl ⟨caller_pos called, v, hv, called⟩
  · exact .inr ⟨v, hv, given⟩

/-- **Where rows come from, and what becomes of those that nobody can call as.**

Over any requests, each on a stage of its own, the rows of a store that had none are those of
callers, whose ids are positive, and of users whose ids the identity service gave for a name.

Nothing keeps the latter from being ids that are not positive.  No request is ever called by such a
user.  Still, whoever sends coins to the name creates the row, gets `200` and moves the coins as far
as the balances allow; and whatever is asked for later, the balance never falls. -/
theorem rows_and_unusable_accounts (seed : Coins) :
    (∀ visits : List Visit, (∀ v ∈ visits, v.stage.script.Honest) →
      ∀ s : Store, (∀ u, s.balance? u = none) → ∀ u, (afterVisits seed visits s).balance? u ≠ none →
        (0 < u.toInt ∧ ∃ v ∈ visits, v.request.caller = .ok u) ∨ ∃ v ∈ visits, v.Resolves u) ∧
    ∀ u : UserId, u.toInt ≤ 0 →
      (∀ r : Request, r.caller ≠ .ok u) ∧
      (∀ (v : Visit) sender amount, v.Transfers sender u amount → v.stage.script = .quiet →
        ∀ s : Store, (v.serve seed s).2.balance? u ≠ none ∧
          ∀ rest sum, ((s.balance? sender).getD seed).sub? amount = some rest →
            ((s.balance? u).getD seed).add? amount = some sum →
            (v.serve seed s).1.status = 200 ∧ (v.serve seed s).2.balance? sender = some rest ∧
              (v.serve seed s).2.balance? u = some sum) ∧
      (∀ visits : List Visit, (∀ v ∈ visits, v.stage.script.Honest) →
        ∀ (s : Store) balance, s.balance? u = some balance →
          ∃ more, (afterVisits seed visits s).balance? u = some more ∧
            balance.toNat ≤ more.toNat) := by
  refine ⟨fun visits honest s empty u row => rows_afterVisits honest empty row, ?_⟩
  intro u unusable
  have nobody : ∀ r : Request, r.caller ≠ .ok u := by
    intro r called
    have positive := caller_pos called
    omega
  refine ⟨nobody, fun v sender amount h quiet s => h.credits quiet s, ?_⟩
  intro visits honest s balance row
  refine (afterVisits_grows honest s).kept u balance row ?_
  rintro ⟨v, -, called⟩
  exact nobody v.request called

/-- A user who sends ten coins to a name. -/
def giftTo (name : String) : Request where
  method := "POST"
  target := "/api/sendCoin".toList
  headers := [textHeader "X-User-Id" "1", textHeader "Content-Type" "application/json"]
  body := Text.Utf8.encode ("\x7b\"toUser\":\"" ++ name ++ "\",\"amount\":10\x7d").toList

/-- The visit in which the identity service gives the id zero for that name. -/
def giftToZero : Visit where
  decode := decodeStored
  stage := { directory := Directory.ofList [(⟨0⟩, "zero")] }
  fresh := zeroTrace
  request := giftTo "zero"

theorem transfers_giftToZero : giftToZero.Transfers ⟨1⟩ ⟨0⟩ ⟨10⟩ where
  routed := by decide +kernel
  caller := by decide +kernel
  body := ⟨"zero", ⟨"zero", by decide⟩, by decide +kernel, by decide +kernel, by decide +kernel⟩
  positive := rfl
  other := by decide

/-- User zero is given a row and ten coins, though nobody can be user zero. -/
theorem rows_and_unusable_accounts_zero :
    (∀ r : Request, r.caller ≠ .ok ⟨0⟩) ∧ giftToZero.Resolves ⟨0⟩ ∧
    (giftToZero.serve ⟨1000⟩ {}).1.status = 200 ∧
    (giftToZero.serve ⟨1000⟩ {}).2.balance? ⟨1⟩ = some ⟨990⟩ ∧
    (giftToZero.serve ⟨1000⟩ {}).2.balance? ⟨0⟩ = some ⟨1010⟩ := by
  obtain ⟨rows, unusable⟩ := rows_and_unusable_accounts ⟨1000⟩
  obtain ⟨nobody, credited, -⟩ := unusable ⟨0⟩ (by decide)
  obtain ⟨row, moved⟩ := credited giftToZero ⟨1⟩ ⟨10⟩ transfers_giftToZero rfl {}
  have origin := rows [giftToZero] (fun v hv => by
    obtain rfl := List.mem_singleton.1 hv
    exact Script.honest_quiet) {} (fun u => rfl) ⟨0⟩ row
  rcases origin with ⟨positive, -⟩ | ⟨v, hv, given⟩
  · exact absurd positive (by decide)
  · obtain rfl := List.mem_singleton.1 hv
    exact ⟨nobody, given, moved ⟨990⟩ ⟨1010⟩ rfl rfl⟩

end CoinLedger.Http
