import CoinLedger.Proofs.Ledger.Changes
import CoinLedger.Totals

/-!
# Every account reconciles with the logs

Coins are only created with a row.  After that a balance moves only together with a record: a
transfer names who gave and who got, a receipt names a good, and the good has a price.  So at any
time each balance is what the row began with, plus what the transfers of the run brought, minus
what they took, minus the prices of the receipts of the run — for every user on their own, and
not only in the sum over all users.

`Reconciled` states this of a store against an earlier one and is the invariant of the induction.
Its two last fields are what the creation of a row needs: a user without a row had none before,
and stands in no new record, so the new row begins with nothing to account for.

## Main results

* `Reconciled.change` — each of the three changes keeps all accounts reconciled.
* `after_reconciled` — all accounts are reconciled after every schedule of commands, with any
  failures and callers dropped on the way.
-/

namespace CoinLedger

/-! ## Totals of growing logs -/

theorem totalOf_eq_zero {α : Type} {f : α → Nat} {xs : List α} (h : ∀ x ∈ xs, f x = 0) :
    totalOf f xs = 0 := by
  induction xs with
  | nil => rfl
  | cons x rest ih =>
    rw [totalOf_cons, h x List.mem_cons_self, ih fun y hy => h y (List.mem_cons_of_mem x hy)]

theorem received_append (u : UserId) (ts : List Transfer) (t : Transfer) :
    received u (ts ++ [t]) = received u ts + if t.recipient = u then t.amount.toNat else 0 := by
  simp [received]

theorem sent_append (u : UserId) (ts : List Transfer) (t : Transfer) :
    sent u (ts ++ [t]) = sent u ts + if t.sender = u then t.amount.toNat else 0 := by
  simp [sent]

theorem spent_append (goods : List Good) (u : UserId) (ps : List Purchase) (p : Purchase) :
    spent goods u (ps ++ [p]) =
      spent goods u ps + if p.buyer = u then priceOf goods p.good else 0 := by
  simp [spent]

/-- In a list without two members of one key, a member is found under its key. -/
theorem find?_of_mem {α β : Type} [DecidableEq β] {key : α → β} {xs : List α}
    (distinct : (xs.map key).Nodup) {x : α} (h : x ∈ xs) :
    xs.find? (fun y => key y = key x) = some x := by
  induction xs with
  | nil => cases h
  | cons first rest ih =>
    rw [List.map_cons, List.nodup_cons] at distinct
    rcases List.mem_cons.1 h with rfl | h
    · simp
    · have hne : key first ≠ key x := by
        intro heq
        exact distinct.1 (heq ▸ List.mem_map_of_mem h)
      simpa [hne] using ih distinct.2 h

/-- In a catalog without two goods of one number, a good is found under its number. -/
theorem priceOf_of_mem {goods : List Good} (distinct : (goods.map Good.id).Nodup) {g : Good}
    (h : g ∈ goods) : priceOf goods g.id = g.price.toNat := by
  rw [priceOf, find?_of_mem distinct h]
  rfl

/-! ## The invariant -/

/-- Whether a store is what an earlier one `s` became through some new receipts and transfers, with
every account accounted for. -/
structure Reconciled (seed : Coins) (s : Store) (bought : List Purchase)
    (moved : List Transfer) (s' : Store) : Prop where
  goods : s'.goods = s.goods
  purchases : s'.purchases = s.purchases ++ bought
  transfers : s'.transfers = s.transfers ++ moved
  /-- A balance is what its row began with, and what the new records say. -/
  balance : ∀ u balance, s'.balance? u = some balance →
    (balance.toNat : Int) = ((s.balance? u).getD seed).toNat + received u moved
      - sent u moved - spent s.goods u bought
  /-- No row is lost. -/
  kept : ∀ u, s'.balance? u = none → s.balance? u = none
  /-- A user without a row stands in no new record. -/
  unrecorded : ∀ u, s'.balance? u = none →
    (∀ p ∈ bought, p.buyer ≠ u) ∧ ∀ t ∈ moved, t.sender ≠ u ∧ t.recipient ≠ u

namespace Reconciled

variable {seed : Coins} {s s' : Store} {ps : List Purchase} {ts : List Transfer}

theorem refl (seed : Coins) (s : Store) : Reconciled seed s [] [] s where
  goods := rfl
  purchases := (List.append_nil _).symm
  transfers := (List.append_nil _).symm
  balance u balance h := by
    rw [h]
    simp [received, sent, spent]
  kept _ h := h
  unrecorded _ _ := ⟨by simp, by simp⟩

/-- A new row begins with the seed, and nothing is recorded of its user yet. -/
theorem provision (h : Reconciled seed s ps ts s') (u : UserId) :
    Reconciled seed s ps ts (s'.insertIfAbsent u seed) where
  goods := h.goods
  purchases := h.purchases
  transfers := h.transfers
  balance v balance hv := by
    rw [Store.balance?_insertIfAbsent] at hv
    split at hv
    · next huv =>
      subst huv
      cases hu : s'.balance? u with
      | some before =>
        rw [hu] at hv
        cases hv
        exact h.balance u _ hu
      | none =>
        rw [hu] at hv
        cases hv
        obtain ⟨hps, hts⟩ := h.unrecorded u hu
        have hreceived : received u ts = 0 :=
          totalOf_eq_zero fun t ht => if_neg (hts t ht).2
        have hsent : sent u ts = 0 := totalOf_eq_zero fun t ht => if_neg (hts t ht).1
        have hspent : spent s.goods u ps = 0 := totalOf_eq_zero fun p hp => if_neg (hps p hp)
        rw [h.kept u hu, hreceived, hsent, hspent]
        simp
    · exact h.balance v balance hv
  kept v hv := by
    rw [Store.balance?_insertIfAbsent] at hv
    split at hv
    · cases hv
    · exact h.kept v hv
  unrecorded v hv := by
    rw [Store.balance?_insertIfAbsent] at hv
    split at hv
    · cases hv
    · exact h.unrecorded v hv

/-- A receipt accounts for the price of its good. -/
theorem purchase (distinct : (s.goods.map Good.id).Nodup) (h : Reconciled seed s ps ts s')
    {u : UserId} {g : Good} {balance rest : Coins} (listed : g ∈ s'.goods)
    (hb : s'.balance? u = some balance) (hr : balance.sub? g.price = some rest) :
    Reconciled seed s (ps ++ [⟨u, g.id⟩]) ts ((s'.setBalance u rest).addPurchase ⟨u, g.id⟩) where
  goods := h.goods
  purchases := by
    show s'.purchases ++ [_] = _
    rw [h.purchases, List.append_assoc]
  transfers := h.transfers
  balance v after hv := by
    rw [Store.balance?_addPurchase, Store.balance?_setBalance] at hv
    have hprice : priceOf s.goods g.id = g.price.toNat :=
      priceOf_of_mem distinct (h.goods ▸ listed)
    rw [spent_append]
    by_cases huv : u = v
    · subst huv
      rw [if_pos rfl] at hv
      cases hv
      have before := h.balance u balance hb
      have exact_rest := Coins.sub?_eq_some_iff.1 hr
      rw [if_pos rfl, hprice]
      omega
    · rw [if_neg huv] at hv
      rw [if_neg huv]
      exact h.balance v after hv
  kept v hv := by
    rw [Store.balance?_addPurchase, Store.balance?_setBalance] at hv
    split at hv
    · cases hv
    · exact h.kept v hv
  unrecorded v hv := by
    rw [Store.balance?_addPurchase, Store.balance?_setBalance] at hv
    split at hv
    · cases hv
    · next hne =>
      obtain ⟨hps, hts⟩ := h.unrecorded v hv
      refine ⟨fun p hp => ?_, hts⟩
      rcases List.mem_append.1 hp with hp | hp
      · exact hps p hp
      · rw [List.mem_singleton.1 hp]
        exact hne

/-- A transfer accounts for both of its movements. -/
theorem transfer (h : Reconciled seed s ps ts s') {u v : UserId}
    {amount source rest target sum : Coins} (hne : u ≠ v)
    (hs : s'.balance? u = some source) (hr : source.sub? amount = some rest)
    (ht : s'.balance? v = some target) (hsum : target.add? amount = some sum) :
    Reconciled seed s ps (ts ++ [⟨u, v, amount⟩])
      (((s'.setBalance u rest).setBalance v sum).addTransfer ⟨u, v, amount⟩) where
  goods := h.goods
  purchases := h.purchases
  transfers := by
    show s'.transfers ++ [_] = _
    rw [h.transfers, List.append_assoc]
  balance x after hx := by
    rw [Store.balance?_addTransfer, Store.balance?_setBalance, Store.balance?_setBalance] at hx
    rw [received_append, sent_append]
    dsimp only
    by_cases hv : v = x
    · subst hv
      rw [if_pos rfl] at hx
      cases hx
      have before := h.balance v target ht
      have exact_sum := Coins.add?_eq_some_iff.1 hsum
      rw [if_pos rfl, if_neg hne]
      omega
    · rw [if_neg hv] at hx
      by_cases hu : u = x
      · subst hu
        rw [if_pos rfl] at hx
        cases hx
        have before := h.balance u source hs
        have exact_rest := Coins.sub?_eq_some_iff.1 hr
        rw [if_neg hv, if_pos rfl]
        omega
      · rw [if_neg hu] at hx
        rw [if_neg hv, if_neg hu]
        exact h.balance x after hx
  kept x hx := by
    rw [Store.balance?_addTransfer, Store.balance?_setBalance, Store.balance?_setBalance] at hx
    split at hx
    · cases hx
    · split at hx
      · cases hx
      · exact h.kept x hx
  unrecorded x hx := by
    rw [Store.balance?_addTransfer, Store.balance?_setBalance, Store.balance?_setBalance] at hx
    split at hx
    · cases hx
    · next hv =>
      split at hx
      · cases hx
      · next hu =>
        obtain ⟨hps, hts⟩ := h.unrecorded x hx
        refine ⟨hps, fun t ht => ?_⟩
        rcases List.mem_append.1 ht with ht | ht
        · exact hts t ht
        · rw [List.mem_singleton.1 ht]
          exact ⟨hu, hv⟩

/-- **Every change keeps all accounts reconciled.** -/
theorem change (distinct : (s.goods.map Good.id).Nodup) (h : Reconciled seed s ps ts s')
    {s'' : Store} (hc : Store.Change seed s' s'') : ∃ ps ts, Reconciled seed s ps ts s'' := by
  cases hc with
  | provision u => exact ⟨ps, ts, h.provision u⟩
  | purchase listed hb hr => exact ⟨_, ts, h.purchase distinct listed hb hr⟩
  | transfer hne _ hs hr ht hsum => exact ⟨ps, _, h.transfer hne hs hr ht hsum⟩

end Reconciled

/-- All accounts stay reconciled through any number of changes. -/
theorem Store.Changes.reconciled {seed : Coins} {s s' : Store}
    (distinct : (s.goods.map Good.id).Nodup) (h : Store.Changes seed s s') :
    ∃ ps ts, Reconciled seed s ps ts s' := by
  induction h with
  | refl => exact ⟨[], [], Reconciled.refl seed s⟩
  | tail _ hc ih =>
    obtain ⟨ps, ts, hrec⟩ := ih
    exact hrec.change distinct hc

namespace Interleaving

/-- **Every account reconciles after every run.**  Any number of callers run commands over one
store, in any order of their calls and units of work, with any of these failing and any caller
dropped at any point; then each balance is what its row began with, plus and minus what the
records of the run say, and nobody without a row is recorded. -/
theorem after_reconciled (d : Directory) (seed : Coins) (commands : List Command) (s : Store)
    (distinct : (s.goods.map Good.id).Nodup) (schedule : Schedule)
    (honest : ∀ t ∈ schedule, t.move.Honest) :
    ∃ bought moved, Reconciled seed s bought moved
      ((System.starting (commands.map (Command.program seed)) s).after d schedule).store :=
  (System.after_changes (System.lawful_starting seed commands s) honest).2.reconciled distinct

/-- A shop with one account, one receipt and the standard goods. -/
def smallShop : Store :=
  { balances := SortedMap.ofList [(⟨1⟩, ⟨100⟩)]
    goods := Store.standardCatalog
    purchases := [⟨⟨1⟩, ⟨2⟩⟩] }

/-- A transfer, a purchase and an account view.  The purchase is lost with its commit, the
transfer goes through to a row made on the way, and the view is dropped between its reads. -/
def interrupted : Schedule :=
  [⟨0, .go .quiet⟩, ⟨1, .go .quiet⟩, ⟨0, .go .quiet⟩, ⟨1, .go (.lostCommit (.query "gone"))⟩,
    ⟨2, .go .quiet⟩, ⟨2, .read .balance .quiet⟩, ⟨0, .go .quiet⟩, ⟨2, .abandon⟩]

theorem honest_interrupted : ∀ t ∈ interrupted, t.move.Honest := by
  have quiet := Script.honest_quiet
  have lost := Script.honest_lostCommit (.query "gone")
  simp only [interrupted, List.forall_mem_cons]
  exact ⟨.go quiet, .go quiet, .go quiet, .go lost, .go quiet, .read _ quiet, .go quiet, .abandon,
    fun _ h => nomatch h⟩

/-- The store after the interrupted run. -/
def interruptedStore : Store :=
  ((System.starting
    ([.sendCoins ⟨1⟩ ⟨"bob", by decide⟩ ⟨30⟩, .buyItem ⟨2⟩ "cup", .accountInfo ⟨1⟩].map
      (Command.program ⟨1000⟩)) smallShop).after
    (Directory.ofList [(⟨2⟩, "bob")]) interrupted).store

/-- In the interrupted run one transfer came through, and all accounts reconcile with it. -/
theorem after_reconciled_interrupted :
    (smallShop.goods.map Good.id).Nodup ∧ (∀ t ∈ interrupted, t.move.Honest) ∧
    interruptedStore.transfers = [⟨⟨1⟩, ⟨2⟩, ⟨30⟩⟩] ∧
    ∃ bought moved, Reconciled ⟨1000⟩ smallShop bought moved interruptedStore := by
  have distinct : (smallShop.goods.map Good.id).Nodup := by decide
  refine ⟨distinct, honest_interrupted, by decide, ?_⟩
  exact after_reconciled _ _ _ _ distinct _ honest_interrupted

end Interleaving

end CoinLedger
