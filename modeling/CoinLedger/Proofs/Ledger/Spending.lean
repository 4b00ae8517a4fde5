import CoinLedger.Proofs.Ledger.Accounts
import CoinLedger.Proofs.Ledger.Outcomes
import CoinLedger.Proofs.Ledger.Quiet
import CoinLedger.Proofs.Ledger.Reconciliation

/-!
# What is written is what is read

Buying and sending write rows and records; the account view counts receipts, splits the transfers
by direction and puts names in place of ids.  Here the two are composed.  A row that is written
changes the balance of one view.  A record that is appended changes the inventory of its buyer, or
the two histories of its ends, by one piece or one line at the end; whoever stands in no new record
and has no new balance sees what they saw before (`Store.view?_congr`).

The name that the sender wrote is the name that the sender reads, because the directory gives every
name to one user only.  The good that was paid for is the one that is counted, because every number
in the catalog is the number of one good only.

## Main definitions

* `Store.account` — what a user gets who asks for the account view.
* `ViewsAfterTransfer`, `ViewsAfterPurchase` — all account views after spending.

## Main results

* `UseCase.views_after_spending` — all account views after a transfer and after a purchase.
-/

namespace CoinLedger

/-! ## Names and ids -/

theorem Directory.get?_of_idOf? {d : Directory} {name : Username} {v : UserId}
    (h : d.idOf? name = some v) : d.get? v = some name := by
  obtain ⟨⟨id, n⟩, found, rfl⟩ := Option.map_eq_some_iff.1 h
  have listed : (id, n) ∈ d.entries := List.mem_of_find?_eq_some found
  have hn : n = name := by simpa using List.find?_some found
  exact d.mem_entries_iff.1 (hn ▸ listed)

/-- In a directory of unique names a name is that of one user only. -/
theorem Directory.eq_of_get? {d : Directory} (unique : (d.entries.map Prod.snd).Nodup)
    {name : Username} {v w : UserId} (hv : d.get? v = some name) (hw : d.get? w = some name) :
    w = v := by
  have found : d.entries.find? (fun e => e.2 = name) = some (v, name) :=
    find?_of_mem unique (d.mem_entries_iff.2 hv)
  have again : d.entries.find? (fun e => e.2 = name) = some (w, name) :=
    find?_of_mem unique (d.mem_entries_iff.2 hw)
  exact congrArg Prod.fst (Option.some.inj (again.symm.trans found))

/-! ## The parts of a view -/

namespace Store

variable (s : Store) (d : Directory) (u w : UserId) (amount seed : Coins)

theorem goodOf?_of_mem {s : Store} (distinct : (s.goods.map Good.id).Nodup) {g : Good}
    (h : g ∈ s.goods) : s.goodOf? g.id = some g :=
  find?_of_mem distinct h

/-- One receipt more is one count more. -/
theorem inventory_addPurchase (p : Purchase) :
    (s.addPurchase p).inventory w = s.countPurchase w (s.inventory w) p :=
  List.foldl_append

/-- One transfer more is one line more at the end, for either end of it. -/
theorem history_addTransfer (t : Transfer) :
    (s.addTransfer t).history w =
      { incoming := (s.history w).incoming ++
          if t.recipient = w then [⟨t.sender, t.amount⟩] else []
        outgoing := (s.history w).outgoing ++
          if t.sender = w then [⟨t.recipient, t.amount⟩] else [] } := by
  simp only [history, addTransfer, List.filterMap_append]
  congr 2
  · by_cases h : t.recipient = w <;> simp [h]
  · by_cases h : t.sender = w <;> simp [h]

/-- A view is made of the user's row, receipts and transfers, and of nothing else. -/
theorem view?_congr {s s' : Store} {w : UserId} (balance : s'.balance? w = s.balance? w)
    (inventory : s'.inventory w = s.inventory w) (history : s'.history w = s.history w) :
    s'.view? d w = s.view? d w := by
  rw [view?, view?, balance, inventory, history]

theorem view?_insertIfAbsent_of_ne {u w : UserId} (h : w ≠ u) :
    (s.insertIfAbsent u seed).view? d w = s.view? d w := by
  refine view?_congr d ?_ rfl rfl
  rw [balance?_insertIfAbsent, if_neg h.symm]

theorem view?_setBalance :
    (s.setBalance u amount).view? d w =
      if u = w then some (UseCase.assemble ⟨amount, s.inventory w, s.history w⟩ d)
      else s.view? d w := by
  by_cases h : u = w
  · rw [if_pos h, view?, balance?_setBalance, if_pos h]
    rfl
  · rw [if_neg h]
    refine view?_congr d ?_ rfl rfl
    rw [balance?_setBalance, if_neg h]

/-- A receipt shows in the inventory of its buyer. -/
theorem view?_addPurchase {s : Store} (distinct : (s.goods.map Good.id).Nodup) {g : Good}
    (listed : g ∈ s.goods) :
    (s.addPurchase ⟨u, g.id⟩).view? d w =
      if u = w then
        (s.view? d w).map fun view => { view with inventory := view.inventory.addOne g.name }
      else s.view? d w := by
  by_cases h : u = w
  · have counted : (s.addPurchase ⟨u, g.id⟩).inventory w = (s.inventory w).addOne g.name := by
      rw [inventory_addPurchase, countPurchase, if_pos h, goodOf?_of_mem distinct listed]
    rw [if_pos h, view?, counted, view?, Option.map_map]
    rfl
  · rw [if_neg h]
    refine view?_congr d rfl ?_ rfl
    rw [inventory_addPurchase, countPurchase, if_neg h]

/-- A transfer shows in the histories of its two ends. -/
theorem view?_addTransfer (t : Transfer) :
    (s.addTransfer t).view? d w =
      (s.view? d w).map fun view =>
        { view with
          incoming := view.incoming ++
            UseCase.named d (if t.recipient = w then [⟨t.sender, t.amount⟩] else [])
          outgoing := view.outgoing ++
            UseCase.named d (if t.sender = w then [⟨t.recipient, t.amount⟩] else []) } := by
  rw [view?, history_addTransfer, view?, Option.map_map]
  refine congrArg (Option.map · (s.balance? w)) (funext fun balance => ?_)
  simp only [Function.comp_apply, UseCase.assemble, UseCase.named, List.map_append]
  rfl

/-- What a user gets who asks for the account view. -/
def account : Except LedgerError AccountInfo :=
  ((UseCase.accountInfo w).runOn (.memory d) s).1

variable {s d w}

theorem account_of_view? {view : AccountInfo} (h : s.view? d w = some view) :
    s.account d w = .ok view := by
  rw [account, UseCase.accountInfo_runOn, h]

theorem account_congr {s' : Store} (h : s'.view? d w = s.view? d w) :
    s'.account d w = s.account d w := by
  rw [account, account, UseCase.accountInfo_runOn, UseCase.accountInfo_runOn, h]
  cases s.view? d w <;> rfl

end Store

/-! ## Spending and reading -/

/-- The account views after a transfer, against those before it.  The recipient is the user of the
name that was written, and there is no other. -/
structure ViewsAfterTransfer (d : Directory) (seed : Coins) (s : Store) (u v : UserId)
    (name : Username) (amount : Coins) (s' : Store) : Prop where
  named : ∀ w, d.get? w = some name ↔ w = v
  other : v ≠ u
  /-- The sender reads a lower balance, and the transfer last. -/
  sender : ∃ before rest, s.account d u = .ok before ∧
    rest.toNat + amount.toNat = before.balance.toNat ∧
    s'.account d u = .ok { before with
      balance := rest
      outgoing := before.outgoing ++ [⟨name.text, amount⟩] }
  /-- The recipient, once provisioned, reads a higher balance, and the transfer last. -/
  recipient : ∃ had sum, (s.insertIfAbsent v seed).account d v = .ok had ∧
    sum.toNat = had.balance.toNat + amount.toNat ∧
    s'.account d v = .ok { had with
      balance := sum
      incoming := had.incoming ++ [⟨((d.get? u).map Username.text).getD "", amount⟩] }
  others : ∀ w, w ≠ u → w ≠ v → s'.account d w = s.account d w

/-- The account views after a purchase, against those before it. -/
structure ViewsAfterPurchase (d : Directory) (s : Store) (u : UserId) (g : Good) (s' : Store) :
    Prop where
  /-- The buyer reads a balance lower by the price, and one piece more. -/
  buyer : ∃ before rest, s.account d u = .ok before ∧
    rest.toNat + g.price.toNat = before.balance.toNat ∧
    s'.account d u = .ok { before with
      balance := rest
      inventory := before.inventory.insert g.name ((before.inventory.get? g.name).getD 0 + 1) }
  others : ∀ w, w ≠ u → s'.account d w = s.account d w

section
variable {d : Directory} {seed amount : Coins} {s s' : Store} {u v : UserId} {name : Username}
  {g : Good}

/-- A committed movement shows in the views of its two ends. -/
theorem ViewsAfterTransfer.of_commit (unique : (d.entries.map Prod.snd).Nodup)
    (named : d.get? v = some name) (hvu : v ≠ u)
    (committed : (UseCase.movement u v amount).commitIfOk (s.insertIfAbsent v seed) =
      (.ok (), s')) :
    ViewsAfterTransfer d seed s u v name amount s' := by
  obtain ⟨source, rest, target, sum, hsource, hrest, htarget, hsum, rfl⟩ :=
    (UseCase.movement_commits_iff hvu.symm).1 committed
  have huv : ¬u = v := hvu.symm
  have row : s.balance? u = some source := by
    rw [Store.balance?_insertIfAbsent, if_neg hvu] at hsource
    exact hsource
  have viewed : s.view? d u =
      some (UseCase.assemble ⟨source, s.inventory u, s.history u⟩ d) := by
    rw [Store.view?, row]
    rfl
  have provisioned : (s.insertIfAbsent v seed).view? d v =
      some (UseCase.assemble ⟨target, s.inventory v, s.history v⟩ d) := by
    rw [Store.view?, htarget]
    rfl
  -- The row of either end is not touched by the write to the other.
  have paid : (((s.insertIfAbsent v seed).setBalance u rest).setBalance v sum).view? d u =
      some (UseCase.assemble ⟨rest, s.inventory u, s.history u⟩ d) := by
    rw [Store.view?_setBalance, if_neg hvu, Store.view?_setBalance, if_pos rfl]
    rfl
  have credited : (((s.insertIfAbsent v seed).setBalance u rest).setBalance v sum).view? d v =
      some (UseCase.assemble ⟨sum, s.inventory v, s.history v⟩ d) := by
    rw [Store.view?_setBalance, if_pos rfl]
    rfl
  constructor
  case named => exact fun w => ⟨fun hw => Directory.eq_of_get? unique named hw, fun h => h ▸ named⟩
  case other => exact hvu
  case sender =>
    refine ⟨_, rest, Store.account_of_view? viewed, Coins.sub?_eq_some_iff.1 hrest, ?_⟩
    refine Store.account_of_view? ?_
    rw [Store.view?_addTransfer, paid]
    simp [hvu, UseCase.named, UseCase.assemble, named]
  case recipient =>
    refine ⟨_, sum, Store.account_of_view? provisioned, Coins.add?_eq_some_iff.1 hsum, ?_⟩
    refine Store.account_of_view? ?_
    rw [Store.view?_addTransfer, credited]
    simp [huv, UseCase.named, UseCase.assemble]
  case others =>
    intro w hwu hwv
    refine Store.account_congr ?_
    rw [Store.view?_addTransfer, Store.view?_setBalance, if_neg hwv.symm, Store.view?_setBalance,
      if_neg hwu.symm, Store.view?_insertIfAbsent_of_ne s d seed hwv]
    simp [hwu.symm, hwv.symm, UseCase.named]

/-- A committed purchase shows in the view of its buyer. -/
theorem ViewsAfterPurchase.of_commit (distinct : (s.goods.map Good.id).Nodup)
    (listed : g ∈ s.goods) (committed : (UseCase.purchase u g).commitIfOk s = (.ok (), s')) :
    ViewsAfterPurchase d s u g s' := by
  obtain ⟨balance, rest, hbalance, hrest, rfl⟩ := UseCase.purchase_commits_iff.1 committed
  have viewed : s.view? d u =
      some (UseCase.assemble ⟨balance, s.inventory u, s.history u⟩ d) := by
    rw [Store.view?, hbalance]
    rfl
  have received := fun w =>
    Store.view?_addPurchase (s := s.setBalance u rest) d u w distinct listed
  constructor
  case buyer =>
    refine ⟨_, rest, Store.account_of_view? viewed, Coins.sub?_eq_some_iff.1 hrest, ?_⟩
    refine Store.account_of_view? ?_
    rw [received, if_pos rfl, Store.view?_setBalance, if_pos rfl]
    rfl
  case others =>
    intro w hw
    refine Store.account_congr ?_
    rw [received, if_neg hw.symm, Store.view?_setBalance, if_neg hw.symm]

end

namespace UseCase

/-- A run over the store keeps to what a use case ensures. -/
theorem Ensures.runOn {α : Type} {d : Directory} {post : Except LedgerError α → Store → Prop}
    {p : UseCase α} {s : Store} (h : p.Ensures d post s) :
    post (p.runOn (.memory d) s).1 (p.runOn (.memory d) s).2 := by
  obtain ⟨n, undisturbed⟩ := p.play_quiet (e := { directory := d }) (c := {}) rfl rfl s
  have met := h.play (e := { directory := d }) Script.honest_quiet {}
  rw [undisturbed] at met
  exact met

variable {d : Directory} {seed amount : Coins} {s s' : Store} {u : UserId} {name : Username}
  {item : String}

theorem sendCoins_views (unique : (d.entries.map Prod.snd).Nodup)
    (sent : (sendCoins seed u name amount).runOn (.memory d) s = (.ok (), s')) :
    ∃ v, ViewsAfterTransfer d seed s u v name amount s' := by
  have ensured := (sendCoins_ensures d seed u name amount s).runOn
  rw [sent] at ensured
  obtain ⟨v, hv, hvu, committed⟩ := ensured
  exact ⟨v, .of_commit unique (Directory.get?_of_idOf? hv) hvu committed⟩

theorem buyItem_views (distinct : (s.goods.map Good.id).Nodup)
    (bought : (buyItem u item).runOn (.memory d) s = (.ok (), s')) :
    ∃ g, s.findGood item = some g ∧ ViewsAfterPurchase d s u g s' := by
  have ensured := (buyItem_ensures d u item s).runOn
  rw [bought] at ensured
  obtain ⟨g, hg, committed⟩ := ensured
  exact ⟨g, hg, .of_commit distinct (List.mem_of_find?_eq_some hg) committed⟩

/-- **What is written is what is read**, after a transfer and after a purchase, by their parties
and by everybody else. -/
theorem views_after_spending (d : Directory) (unique : (d.entries.map Prod.snd).Nodup)
    (seed : Coins) (s : Store) (distinct : (s.goods.map Good.id).Nodup) (u : UserId) :
    (∀ name amount s', (sendCoins seed u name amount).runOn (.memory d) s = (.ok (), s') →
      ∃ v, ViewsAfterTransfer d seed s u v name amount s') ∧
    (∀ item s', (buyItem u item).runOn (.memory d) s = (.ok (), s') →
      ∃ g, s.findGood item = some g ∧ ViewsAfterPurchase d s u g s') :=
  ⟨fun _ _ _ sent => sendCoins_views unique sent, fun _ _ bought => buyItem_views distinct bought⟩

/-- A shop whose one customer has bought a cup and given coins to a user without a name. -/
def cornerShop : Store :=
  { balances := SortedMap.ofList [(⟨1⟩, ⟨100⟩), (⟨7⟩, ⟨5⟩)]
    goods := Store.standardCatalog
    purchases := [⟨⟨1⟩, ⟨2⟩⟩]
    transfers := [⟨⟨1⟩, ⟨7⟩, ⟨5⟩⟩] }

/-- The names of that customer and of a user without a row. -/
def neighbours : Directory := Directory.ofList [(⟨1⟩, "alice"), (⟨2⟩, "bob")]

/-- The customer sends coins to the other user, or buys a second cup. -/
theorem views_after_spending_cornerShop :
    (neighbours.entries.map Prod.snd).Nodup ∧ (cornerShop.goods.map Good.id).Nodup ∧
    (∃ s', (sendCoins ⟨1000⟩ ⟨1⟩ ⟨"bob", by decide⟩ ⟨30⟩).runOn (.memory neighbours) cornerShop =
        (.ok (), s') ∧
      ∃ v, ViewsAfterTransfer neighbours ⟨1000⟩ cornerShop ⟨1⟩ v ⟨"bob", by decide⟩ ⟨30⟩ s') ∧
    (∃ s', (buyItem ⟨1⟩ "cup").runOn (.memory neighbours) cornerShop = (.ok (), s') ∧
      ∃ g, cornerShop.findGood "cup" = some g ∧
        ViewsAfterPurchase neighbours cornerShop ⟨1⟩ g s') := by
  have unique : (neighbours.entries.map Prod.snd).Nodup := by decide
  have distinct : (cornerShop.goods.map Good.id).Nodup := by decide
  obtain ⟨sending, buying⟩ :=
    views_after_spending neighbours unique ⟨1000⟩ cornerShop distinct ⟨1⟩
  exact ⟨unique, distinct, ⟨_, rfl, sending _ _ _ rfl⟩, ⟨_, rfl, buying _ _ rfl⟩⟩

end UseCase

end CoinLedger
