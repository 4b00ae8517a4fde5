import CoinLedger.Proofs.Http.Answer
import CoinLedger.Proofs.Ledger.Outcomes

/-!
# The answer tells what happened to the ledger

A client that buys or sends coins must be able to trust the status: `200` says that the coins have
moved and are recorded, anything else that they have not.  Failures may strike any call, and two
deadlines may cut the request: one while the caller is provisioned, one while the use case runs.

Each of the two use cases has one unit of work, at its very end, and commits it or leaves the
store alone (`buyItem_ensures`, `sendCoins_ensures`).  What is left to see is that the handlers
answer `200` in the first case only, and that rows are all that a failed request may leave.

What a transfer asks for is what its decoded body says; the statements hold for every decoder.

## Main definitions

* `Bought`, `Sent` — one store is another one after a purchase, or after a transfer.
* `Fulfilled` — what a request asks for has been done.
* `Unmoved` — logs and rows are as before, but for fresh rows of users that the request is about.

## Main results

* `status_eq_ok_iff_fulfilled` — the status tells which of the two it is.
-/

namespace CoinLedger.Http

/-! ## What a request may do to the store -/

/-- One store is another one after the caller has been provisioned and has bought a good. -/
structure Bought (seed : Coins) (caller : UserId) (g : Good) (s s' : Store) : Prop where
  /-- It was done by one unit of work. -/
  unit : (UseCase.purchase caller g).commitIfOk (s.insertIfAbsent caller seed) = (.ok (), s')
  goods : s'.goods = s.goods
  purchases : s'.purchases = s.purchases ++ [⟨caller, g.id⟩]
  transfers : s'.transfers = s.transfers
  paid : ∃ rest, s'.balance? caller = some rest ∧
    rest.toNat + g.price.toNat = ((s.balance? caller).getD seed).toNat
  others : ∀ u, u ≠ caller → s'.balance? u = s.balance? u

/-- One store is another one after two users have been provisioned and one has sent coins to the
other. -/
structure Sent (seed : Coins) (caller recipient : UserId) (amount : Coins) (s s' : Store) :
    Prop where
  /-- It was done by one unit of work. -/
  unit : (UseCase.movement caller recipient amount).commitIfOk
    ((s.insertIfAbsent caller seed).insertIfAbsent recipient seed) = (.ok (), s')
  goods : s'.goods = s.goods
  purchases : s'.purchases = s.purchases
  transfers : s'.transfers = s.transfers ++ [⟨caller, recipient, amount⟩]
  paid : ∃ rest, s'.balance? caller = some rest ∧
    rest.toNat + amount.toNat = ((s.balance? caller).getD seed).toNat
  received : ∃ sum, s'.balance? recipient = some sum ∧
    sum.toNat = ((s.balance? recipient).getD seed).toNat + amount.toNat
  others : ∀ u, u ≠ caller → u ≠ recipient → s'.balance? u = s.balance? u

/-- What a request asks for has been done, and nothing else. -/
def Fulfilled (decode : ContentDecoder) (d : Directory) (seed : Coins) (r : Request)
    (s s' : Store) : Route → Prop
  | .buy item => ∃ caller g, Caller.ofRequest r = .ok caller ∧ s.findGood item = some g ∧
      Bought seed caller.id g s s'
  | .sendCoin => ∃ caller t name recipient, Caller.ofRequest r = .ok caller ∧
      TransferRequest.ofRequest decode r = .ok t ∧ Username.ofString t.toUser = .ok name ∧
      d.idOf? name = some recipient ∧ Sent seed caller.id recipient t.amount s s'
  | _ => False

/-- The users whose rows a request may create: the caller, and whoever is to receive coins. -/
def IsParty (decode : ContentDecoder) (d : Directory) (r : Request) (route : Route) (u : UserId) :
    Prop :=
  (∃ caller, Caller.ofRequest r = .ok caller ∧ caller.id = u) ∨
    (route = .sendCoin ∧ ∃ t name, TransferRequest.ofRequest decode r = .ok t ∧
      Username.ofString t.toUser = .ok name ∧ d.idOf? name = some u)

/-- One store is another one but for fresh rows, each with the seed, of some users. -/
structure Unmoved (seed : Coins) (fresh : UserId → Prop) (s s' : Store) : Prop where
  goods : s'.goods = s.goods
  purchases : s'.purchases = s.purchases
  transfers : s'.transfers = s.transfers
  rows : ∀ u, s'.balance? u = s.balance? u ∨
    (s.balance? u = none ∧ s'.balance? u = some seed ∧ fresh u)

/-! ## The two effects -/

section
variable {seed : Coins} {fresh : UserId → Prop} {s s' : Store} {caller recipient u : UserId}
  {amount : Coins} {g : Good}

theorem Bought.of_commit
    (h : (UseCase.purchase caller g).commitIfOk (s.insertIfAbsent caller seed) = (.ok (), s')) :
    Bought seed caller g s s' := by
  obtain ⟨balance, rest, hbalance, hrest, rfl⟩ := UseCase.purchase_commits_iff.1 h
  have seeded : (s.balance? caller).getD seed = balance := by simpa using hbalance
  refine ⟨h, rfl, rfl, rfl, ⟨rest, by simp, ?_⟩, fun u hu => ?_⟩
  · rw [seeded]
    exact Coins.sub?_eq_some_iff.1 hrest
  · simp [hu.symm]

theorem Sent.of_commit (hne : recipient ≠ caller)
    (h : (UseCase.movement caller recipient amount).commitIfOk
      ((s.insertIfAbsent caller seed).insertIfAbsent recipient seed) = (.ok (), s')) :
    Sent seed caller recipient amount s s' := by
  obtain ⟨source, rest, target, sum, hsource, hrest, htarget, hsum, rfl⟩ :=
    (UseCase.movement_commits_iff hne.symm).1 h
  have seeded : (s.balance? caller).getD seed = source := by simpa [hne] using hsource
  have credited : (s.balance? recipient).getD seed = target := by simpa [hne.symm] using htarget
  refine ⟨h, rfl, rfl, rfl, ⟨rest, by simp [hne], ?_⟩, ⟨sum, by simp, ?_⟩, fun u hu hv => ?_⟩
  · rw [seeded]
    exact Coins.sub?_eq_some_iff.1 hrest
  · rw [credited]
    exact Coins.add?_eq_some_iff.1 hsum
  · simp [hu.symm, hv.symm]

theorem Unmoved.refl (seed : Coins) (fresh : UserId → Prop) (s : Store) :
    Unmoved seed fresh s s :=
  ⟨rfl, rfl, rfl, fun _ => .inl rfl⟩

/-- A row more, of a user who may have one, is still no movement. -/
theorem Unmoved.provision (h : Unmoved seed fresh s s') (hu : fresh u) :
    Unmoved seed fresh s (s'.insertIfAbsent u seed) := by
  refine ⟨h.goods, h.purchases, h.transfers, fun v => ?_⟩
  rw [Store.balance?_insertIfAbsent]
  by_cases huv : u = v
  · subst huv
    rw [if_pos rfl]
    rcases h.rows u with same | ⟨hnone, hseed, -⟩
    · rw [same]
      cases hb : s.balance? u with
      | none => exact .inr ⟨rfl, rfl, hu⟩
      | some balance => exact .inl rfl
    · exact .inr ⟨hnone, by rw [hseed]; rfl, hu⟩
  · rw [if_neg huv]
    exact h.rows v

/-- What has not moved has not been bought or sent. -/
theorem Unmoved.not_fulfilled {d : Directory} {r : Request} {route : Route}
    (h : Unmoved seed fresh s s') : ¬ Fulfilled decode d seed r s s' route := by
  intro done
  cases route with
  | buy item =>
    obtain ⟨_, _, -, -, bought⟩ := done
    have := bought.purchases.symm.trans h.purchases
    simp at this
  | sendCoin =>
    obtain ⟨_, _, _, _, -, -, -, -, sent⟩ := done
    have := sent.transfers.symm.trans h.transfers
    simp at this
  | info => exact done
  | ready => exact done
  | live => exact done

end

/-! ## The handlers against a script -/

variable {decode : ContentDecoder} {e : Stage} {seed : Coins} {r : Request}

/-- What a use case ensures holds of its service, whose caller waits until the limit. -/
theorem Scripted.serve_ensures (honest : e.script.Honest) {α : Type} {u : UseCase α}
    {post : Except LedgerError α → Store → Prop} {w : Scripted}
    (h : u.Ensures e.directory post w.store) :
    post (Scripted.serve e u w).outcome (Scripted.serve e u w).world.store := by
  have meets := h.play honest ⟨0, w.calls⟩
  unfold Scripted.serve
  split
  · next hplay =>
    rw [hplay] at meets
    exact meets
  · next hplay =>
    rw [hplay] at meets
    exact meets

/-- An answer of a handler: done, or failed with a status of its own and nothing moved. -/
def Truthful (decode : ContentDecoder) (d : Directory) (seed : Coins) (r : Request) (route : Route)
    (s : Store) (answer : Except ApiError Response) (s' : Store) : Prop :=
  (answer = .ok done ∧ Fulfilled decode d seed r s s' route) ∨
    ((∃ err, answer = .error err) ∧ Unmoved seed (IsParty decode d r route) s s')

/-- The caller is identified and provisioned, or the store is left alone. -/
theorem authenticate_spec (honest : e.script.Honest) (w : Scripted) :
    (∃ caller w', authenticate (some (.scripted decode e seed)) r w = (.ok caller, w') ∧
      Caller.ofRequest r = .ok caller ∧ w'.store = w.store.insertIfAbsent caller.id seed) ∨
    ∃ err w', authenticate (some (.scripted decode e seed)) r w = (.error err, w') ∧
      w'.store = w.store := by
  unfold authenticate
  cases hcaller : Caller.ofRequest r with
  | error err => exact .inr ⟨err, w, rfl, rfl⟩
  | ok caller =>
    have provisioned := Scripted.serve_ensures honest
      (UseCase.ensureCreated_ensures e.directory seed caller.id w.store)
    simp only [Services.scripted]
    cases hserved : (Scripted.serve e (UseCase.ensureCreated seed caller.id) w).outcome with
    | error err =>
      rw [hserved] at provisioned
      exact .inr ⟨_, _, rfl, provisioned⟩
    | ok _ =>
      rw [hserved] at provisioned
      exact .inl ⟨caller, _, rfl, rfl, provisioned⟩

/-- The caller of a transfer is provisioned and the body is read, or the store is left alone but
for the caller's row. -/
theorem authenticateTransfer_spec (honest : e.script.Honest) (w : Scripted) :
    (∃ caller t w', authenticateTransfer (.scripted decode e seed) r w = (.ok (caller, t), w') ∧
      Caller.ofRequest r = .ok caller ∧ TransferRequest.ofRequest decode r = .ok t ∧
      w'.store = w.store.insertIfAbsent caller.id seed) ∨
    ∃ err w', authenticateTransfer (.scripted decode e seed) r w = (.error err, w') ∧
      (w'.store = w.store ∨ ∃ caller, Caller.ofRequest r = .ok caller ∧
        w'.store = w.store.insertIfAbsent caller.id seed) := by
  unfold authenticateTransfer
  cases hcaller : Caller.ofRequest r with
  | error err => exact .inr ⟨err, w, rfl, .inl rfl⟩
  | ok caller =>
    have provisioned := Scripted.serve_ensures honest
      (UseCase.ensureCreated_ensures e.directory seed caller.id w.store)
    simp only [Services.scripted]
    cases ht : TransferRequest.ofRequest decode r with
    | ok t =>
      cases hserved : (Scripted.serve e (UseCase.ensureCreated seed caller.id) w).outcome with
      | error err =>
        rw [hserved] at provisioned
        exact .inr ⟨_, _, rfl, .inl provisioned⟩
      | ok _ =>
        rw [hserved] at provisioned
        exact .inl ⟨caller, t, _, rfl, rfl, rfl, provisioned⟩
    | error failure =>
      dsimp only
      by_cases late : (Scripted.serve e (UseCase.ensureCreated seed caller.id) w).delayed = true
      · -- The provisioning would take time and is dropped.
        exact .inr ⟨_, w, if_pos late, .inl rfl⟩
      · cases hserved : (Scripted.serve e (UseCase.ensureCreated seed caller.id) w).outcome with
        | error err =>
          rw [hserved] at provisioned
          exact .inr ⟨_, _, if_neg late, .inl provisioned⟩
        | ok _ =>
          rw [hserved] at provisioned
          exact .inr ⟨_, _, if_neg late, .inr ⟨caller, rfl, provisioned⟩⟩

/-- Whatever happens to the calls of a purchase, its handler answers truthfully. -/
theorem handleBuy_truthful (honest : e.script.Honest) (item : String) (w : Scripted) :
    Truthful decode e.directory seed r (.buy item) w.store
      (handleBuy (.scripted decode e seed) item r w).1
      (handleBuy (.scripted decode e seed) item r w).2.store := by
  unfold handleBuy
  rcases authenticate_spec (r := r) honest w with
    ⟨caller, w₁, hauth, hcaller, provisioned⟩ | ⟨err, w₁, hauth, same⟩
  · rw [hauth]
    have party : IsParty decode e.directory r (.buy item) caller.id := .inl ⟨caller, hcaller, rfl⟩
    have bought := Scripted.serve_ensures honest
      (UseCase.buyItem_ensures e.directory caller.id item w₁.store)
    simp only [Services.scripted]
    cases hbuy : (Scripted.serve e (UseCase.buyItem caller.id item) w₁).outcome with
    | error err =>
      rw [hbuy] at bought
      refine .inr ⟨⟨.ledger err, rfl⟩, ?_⟩
      dsimp only
      rw [bought, provisioned]
      exact (Unmoved.refl _ _ _).provision party
    | ok _ =>
      rw [hbuy] at bought
      obtain ⟨g, hg, committed⟩ := bought
      rw [provisioned] at hg committed
      exact .inl ⟨rfl, caller, g, hcaller, hg, .of_commit committed⟩
  · rw [hauth]
    refine .inr ⟨⟨err, rfl⟩, ?_⟩
    dsimp only
    rw [same]
    exact .refl _ _ _

/-- Whatever happens to the calls of a transfer, its handler answers truthfully. -/
theorem handleSend_truthful (honest : e.script.Honest) (w : Scripted) :
    Truthful decode e.directory seed r .sendCoin w.store
      (handleSend (.scripted decode e seed) r w).1
      (handleSend (.scripted decode e seed) r w).2.store := by
  unfold handleSend
  rcases authenticateTransfer_spec (r := r) honest w with
    ⟨caller, t, w₁, hauth, hcaller, ht, provisioned⟩ | ⟨err, w₁, hauth, left⟩
  · rw [hauth]
    have party : IsParty decode e.directory r .sendCoin caller.id := .inl ⟨caller, hcaller, rfl⟩
    have admitted : Unmoved seed (IsParty decode e.directory r .sendCoin) w.store w₁.store := by
      rw [provisioned]
      exact (Unmoved.refl _ _ _).provision party
    dsimp only
    cases hname : Username.ofString t.toUser with
    | error err => exact .inr ⟨⟨_, rfl⟩, admitted⟩
    | ok name =>
      have sent := Scripted.serve_ensures honest
        (UseCase.sendCoins_ensures e.directory seed caller.id name t.amount w₁.store)
      simp only [Services.scripted]
      cases hsend :
          (Scripted.serve e (UseCase.sendCoins seed caller.id name t.amount) w₁).outcome with
      | error err =>
        rw [hsend] at sent
        refine .inr ⟨⟨.ledger err, rfl⟩, ?_⟩
        dsimp only
        rcases sent with same | ⟨v, hv, seeded⟩
        · rw [same]
          exact admitted
        · rw [seeded]
          exact admitted.provision (.inr ⟨rfl, t, name, ht, hname, hv⟩)
      | ok _ =>
        rw [hsend] at sent
        obtain ⟨v, hv, hne, committed⟩ := sent
        rw [provisioned] at committed
        exact .inl ⟨rfl, caller, t, name, v, hcaller, ht, hname, hv, .of_commit hne committed⟩
  · rw [hauth]
    refine .inr ⟨⟨err, rfl⟩, ?_⟩
    dsimp only
    rcases left with same | ⟨caller, hcaller, seeded⟩
    · rw [same]
      exact .refl _ _ _
    · rw [seeded]
      exact (Unmoved.refl _ _ _).provision (.inl ⟨caller, hcaller, rfl⟩)

/-! ## The status -/

/-- **The status tells the truth about the ledger**: under every script of failures and delays and
under every limit, a request that is to buy or to send is answered by `200` exactly if it has been
fulfilled, by one unit of work; otherwise by a status of failure, and then nothing has moved and no
rows have appeared but those of its parties, each with the seed.  What is to be sent is said by the
body as it decodes, whatever decodes it. -/
theorem status_eq_ok_iff_fulfilled (decode : ContentDecoder) (e : Stage)
    (honest : e.script.Honest) (seed : Coins) (health : Health) (fresh : TraceId) (r : Request)
    (route : Route) (routed : Route.ofRequest? r = some route)
    (spends : route = .sendCoin ∨ ∃ item, route = .buy item) (w : Scripted) :
    let answer := respond (.scripted decode e seed) health fresh r w
    (answer.1.status = 200 ↔ Fulfilled decode e.directory seed r w.store answer.2.store route) ∧
    (answer.1.status ≠ 200 → answer.1.status ∈ [400, 401, 500, 504] ∧
      Unmoved seed (IsParty decode e.directory r route) w.store answer.2.store) := by
  rw [respond_eq, routed]
  dsimp only
  have truthful : Truthful decode e.directory seed r route w.store
      (handle (.scripted decode e seed) health (some route) r w).1
      (handle (.scripted decode e seed) health (some route) r w).2.store := by
    rcases spends with rfl | ⟨item, rfl⟩
    · exact handleSend_truthful honest w
    · exact handleBuy_truthful honest item w
  rcases truthful with ⟨hok, fulfilled⟩ | ⟨⟨err, herr⟩, unmoved⟩
  · rw [hok, status_sealed_ok]
    exact ⟨iff_of_true rfl fulfilled, fun h => (h rfl).elim⟩
  · rw [herr, status_sealed_error]
    have failure := err.status_mem
    have hne : err.status ≠ 200 := by
      intro h
      rw [h] at failure
      revert failure
      decide
    exact ⟨iff_of_false hne unmoved.not_fulfilled, fun _ => ⟨failure, unmoved⟩⟩

/-- A request to buy a cup. -/
def cupRequest : Request where
  method := "GET"
  target := "/api/buy/cup".toList
  headers := [⟨Caller.idHeader, [0x37]⟩]
  body := []

/-- A commit that takes longer than a request may take. -/
def slowCommit : Stage where
  script := { Script.quiet with commit := fun _ => { delay := 5000 } }
  limit := some defaultTimeout

theorem honest_slowCommit : slowCommit.script.Honest :=
  { Script.honest_quiet with commit := fun _ => .inl rfl }

/-- A shop that nobody has visited. -/
def emptyShop : Scripted := { store := { goods := Store.standardCatalog } }

/-- The answer to a purchase that is committed too late, and the store after it. -/
def lateAnswer : Response × Scripted :=
  respond (.scripted decodeStored slowCommit ⟨1000⟩) {} zeroTrace cupRequest emptyShop

/-- A user who sends coins to bob, in a body of one stored block.  Its coding is called by some
name. -/
def storedGift (coding : String) : Request where
  method := "POST"
  target := "/api/sendCoin".toList
  headers := [⟨Caller.idHeader, [0x37]⟩,
    ⟨"content-type", Text.Utf8.encode "application/json".toList⟩,
    ⟨"content-encoding", Text.Utf8.encode coding.toList⟩]
  body := [0x78, 0x01, 0x01, 0x0A, 0x00, 0xF5, 0xFF] ++ Text.Utf8.encode "[\"bob\",30]".toList ++
    [0x0F, 0xDF, 0x02, 0xBF]

/-- A stage on which bob is known. -/
def giftStage : Stage where
  directory := Directory.ofList [(⟨8⟩, "bob")]
  limit := some defaultTimeout

/-- The answer to that user, and the store after it. -/
def giftAnswer (coding : String) : Response × Scripted :=
  respond (.scripted decodeStored giftStage ⟨1000⟩) {} zeroTrace (storedGift coding) emptyShop

/-- A purchase that is late with its commit is answered as late; the buyer's row is all it leaves.
A transfer is answered by `200` and moves coins if its body decodes, and by `400` if its body is
said to be in a coding that it is not in. -/
theorem status_of_late_and_encoded :
    slowCommit.script.Honest ∧ Route.ofRequest? cupRequest = some (.buy "cup") ∧
    lateAnswer.1.status = 504 ∧ lateAnswer.2.store.balance? ⟨7⟩ = some ⟨1000⟩ ∧
    Unmoved ⟨1000⟩ (IsParty decodeStored SortedMap.empty cupRequest (.buy "cup")) emptyShop.store
      lateAnswer.2.store ∧
    (giftAnswer "Deflate").1.status = 200 ∧
    Fulfilled decodeStored giftStage.directory ⟨1000⟩ (storedGift "Deflate") emptyShop.store
      (giftAnswer "Deflate").2.store .sendCoin ∧
    (giftAnswer "gzip").1.status = 400 ∧
    Unmoved ⟨1000⟩ (IsParty decodeStored giftStage.directory (storedGift "gzip") .sendCoin)
      emptyShop.store (giftAnswer "gzip").2.store := by
  have routed : Route.ofRequest? cupRequest = some (.buy "cup") := by decide +kernel
  have sends : ∀ coding, Route.ofRequest? (storedGift coding) = some .sendCoin := by
    intro coding
    have plain : Route.ofRequest? (storedGift "") = some .sendCoin := by decide +kernel
    exact plain
  have late : lateAnswer.1.status = 504 := by decide +kernel
  have decoded : (giftAnswer "Deflate").1.status = 200 := by decide +kernel
  have corrupt : (giftAnswer "gzip").1.status = 400 := by decide +kernel
  have lateTruth := status_eq_ok_iff_fulfilled decodeStored slowCommit honest_slowCommit ⟨1000⟩ {}
    zeroTrace cupRequest (.buy "cup") routed (.inr ⟨"cup", rfl⟩) emptyShop
  have giftTruth : ∀ coding, _ := fun coding =>
    status_eq_ok_iff_fulfilled decodeStored giftStage Script.honest_quiet ⟨1000⟩ {} zeroTrace
      (storedGift coding) .sendCoin (sends coding) (.inl rfl) emptyShop
  refine ⟨honest_slowCommit, routed, late, by decide +kernel, (lateTruth.2 ?_).2, decoded,
    (giftTruth "Deflate").1.1 decoded, corrupt, ((giftTruth "gzip").2 ?_).2⟩
  · show lateAnswer.1.status ≠ 200
    rw [late]
    decide
  · show (giftAnswer "gzip").1.status ≠ 200
    rw [corrupt]
    decide

end CoinLedger.Http
