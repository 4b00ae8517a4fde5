import CoinLedger.Proofs.Ledger.Spending

/-!
# Programs of different users are independent

A use case reads and writes what belongs to a few users: their rows, their receipts and the
transfers they stand in.  It does the same on any two stores that show these users the same
(`Store.Alike`), and what it writes is about these users only (`Store.Confined`).  Two programs
that are confined to different users therefore do not notice one another, and it does not matter
which of them runs first.

What a program does may depend on the store, so the writes of a confined action are chosen for the
store it starts from.  They are the same for all stores that are alike for its users, which is what
makes the argument go through after the other program has run.

## Main definitions

* `Store.Write`, `Store.writes` — the elementary writes, and a list of them in turn.
* `Store.Alike` — two stores show some users the same.
* `Store.Confined` — an action reads and writes what belongs to some users.
* `Store.Swapped` — what is left of the order in which two actions have run.

## Main results

* `Store.Confined.seq` — one confined action after the other is confined.
* `Store.Confined.swapped` — actions confined to different users may change places.
* `UseCase.confined_ensureCreated`, `UseCase.confined_buyItem`, `UseCase.confined_sendCoins`,
  `UseCase.confined_accountInfo` — the use cases are confined.
-/

namespace CoinLedger

namespace Store

/-! ## Writes -/

/-- An elementary write. -/
inductive Write where
  /-- A balance row is written, be it there or not. -/
  | row (u : UserId) (amount : Coins)
  /-- A receipt is appended. -/
  | receipt (p : Purchase)
  /-- A transfer is appended. -/
  | transfer (t : Transfer)

/-- The users that a write is about. -/
def Write.users : Write → List UserId
  | .row u _ => [u]
  | .receipt p => [p.buyer]
  | .transfer t => [t.sender, t.recipient]

/-- The store after a write. -/
def write (s : Store) : Write → Store
  | .row u amount => s.setBalance u amount
  | .receipt p => s.addPurchase p
  | .transfer t => s.addTransfer t

/-- The store after some writes in turn. -/
def writes (s : Store) (ws : List Write) : Store := ws.foldl write s

@[simp] theorem writes_nil (s : Store) : s.writes [] = s := rfl

@[simp] theorem writes_cons (s : Store) (w : Write) (ws : List Write) :
    s.writes (w :: ws) = (s.write w).writes ws := rfl

theorem writes_append (s : Store) (ws ws' : List Write) :
    s.writes (ws ++ ws') = (s.writes ws).writes ws' :=
  List.foldl_append

@[simp] theorem goods_write (s : Store) (w : Write) : (s.write w).goods = s.goods := by
  cases w <;> rfl

@[simp] theorem goods_writes (s : Store) (ws : List Write) : (s.writes ws).goods = s.goods := by
  induction ws generalizing s with
  | nil => rfl
  | cons w rest ih => rw [writes_cons, ih, goods_write]

/-- Writes append receipts, the same ones to every store. -/
theorem purchases_writes (ws : List Write) :
    ∃ own, ∀ s : Store, (s.writes ws).purchases = s.purchases ++ own := by
  induction ws with
  | nil => exact ⟨[], fun s => (List.append_nil _).symm⟩
  | cons w rest ih =>
    obtain ⟨own, later⟩ := ih
    cases w with
    | row u amount => exact ⟨own, fun s => later _⟩
    | receipt p =>
      refine ⟨p :: own, fun s => ?_⟩
      rw [writes_cons, later]
      exact List.append_assoc _ [p] own
    | transfer t => exact ⟨own, fun s => later _⟩

/-- Writes append transfers, the same ones to every store. -/
theorem transfers_writes (ws : List Write) :
    ∃ own, ∀ s : Store, (s.writes ws).transfers = s.transfers ++ own := by
  induction ws with
  | nil => exact ⟨[], fun s => (List.append_nil _).symm⟩
  | cons w rest ih =>
    obtain ⟨own, later⟩ := ih
    cases w with
    | row u amount => exact ⟨own, fun s => later _⟩
    | receipt p => exact ⟨own, fun s => later _⟩
    | transfer t =>
      refine ⟨t :: own, fun s => ?_⟩
      rw [writes_cons, later]
      exact List.append_assoc _ [t] own

theorem within_nil (users : List UserId) : ∀ w ∈ ([] : List Write), w.users ⊆ users :=
  fun _ hw => (List.not_mem_nil hw).elim

/-! ## What some users are shown -/

/-- Whether two stores show some users the same: the catalog, and what is theirs. -/
structure Alike (users : List UserId) (s s' : Store) : Prop where
  goods : s.goods = s'.goods
  balance : ∀ u ∈ users, s.balance? u = s'.balance? u
  inventory : ∀ u ∈ users, s.inventory u = s'.inventory u
  history : ∀ u ∈ users, s.history u = s'.history u

section
variable {users others : List UserId} {s s' s'' : Store}

theorem Alike.refl (users : List UserId) (s : Store) : Alike users s s :=
  ⟨rfl, fun _ _ => rfl, fun _ _ => rfl, fun _ _ => rfl⟩

theorem Alike.symm (h : Alike users s s') : Alike users s' s where
  goods := h.goods.symm
  balance u hu := (h.balance u hu).symm
  inventory u hu := (h.inventory u hu).symm
  history u hu := (h.history u hu).symm

theorem Alike.trans (h : Alike users s s') (h' : Alike users s' s'') : Alike users s s'' where
  goods := h.goods.trans h'.goods
  balance u hu := (h.balance u hu).trans (h'.balance u hu)
  inventory u hu := (h.inventory u hu).trans (h'.inventory u hu)
  history u hu := (h.history u hu).trans (h'.history u hu)

/-- The same write leaves stores alike. -/
theorem Alike.write (h : Alike users s s') (w : Write) : Alike users (s.write w) (s'.write w) := by
  constructor
  case goods => rw [goods_write, goods_write, h.goods]
  case balance =>
    intro u hu
    cases w with
    | row v amount =>
      show (s.setBalance v amount).balance? u = (s'.setBalance v amount).balance? u
      rw [balance?_setBalance, balance?_setBalance, h.balance u hu]
    | receipt p => exact h.balance u hu
    | transfer t => exact h.balance u hu
  case inventory =>
    intro u hu
    cases w with
    | row v amount => exact h.inventory u hu
    | receipt p =>
      show (s.addPurchase p).inventory u = (s'.addPurchase p).inventory u
      have listed : s.goodOf? p.good = s'.goodOf? p.good := by rw [goodOf?, goodOf?, h.goods]
      rw [inventory_addPurchase, inventory_addPurchase, h.inventory u hu]
      unfold countPurchase
      rw [listed]
    | transfer t => exact h.inventory u hu
  case history =>
    intro u hu
    cases w with
    | row v amount => exact h.history u hu
    | receipt p => exact h.history u hu
    | transfer t =>
      show (s.addTransfer t).history u = (s'.addTransfer t).history u
      rw [history_addTransfer, history_addTransfer, h.history u hu]

theorem Alike.writes (h : Alike users s s') (ws : List Write) :
    Alike users (s.writes ws) (s'.writes ws) := by
  induction ws generalizing s s' with
  | nil => exact h
  | cons w rest ih => exact ih (h.write w)

/-- A write shows to nobody but the users it is about. -/
theorem alike_write {w : Write} (apart : ∀ u ∈ users, u ∉ w.users) :
    Alike users (s.write w) s := by
  constructor
  case goods => exact goods_write s w
  case balance =>
    intro u hu
    cases w with
    | row v amount =>
      have hvu : v ≠ u := fun h => apart u hu (List.mem_singleton.2 h.symm)
      show (s.setBalance v amount).balance? u = s.balance? u
      rw [balance?_setBalance, if_neg hvu]
    | receipt p => rfl
    | transfer t => rfl
  case inventory =>
    intro u hu
    cases w with
    | row v amount => rfl
    | receipt p =>
      have hpu : p.buyer ≠ u := fun h => apart u hu (List.mem_singleton.2 h.symm)
      show (s.addPurchase p).inventory u = s.inventory u
      rw [inventory_addPurchase, countPurchase, if_neg hpu]
    | transfer t => rfl
  case history =>
    intro u hu
    cases w with
    | row v amount => rfl
    | receipt p => rfl
    | transfer t =>
      have hsender : t.sender ≠ u := fun h => apart u hu (List.mem_cons.2 (.inl h.symm))
      have hrecipient : t.recipient ≠ u := by
        intro h
        exact apart u hu (List.mem_cons_of_mem _ (List.mem_singleton.2 h.symm))
      show (s.addTransfer t).history u = s.history u
      rw [history_addTransfer, if_neg hrecipient, if_neg hsender, List.append_nil,
        List.append_nil]

theorem alike_writes {ws : List Write} (within : ∀ w ∈ ws, w.users ⊆ others)
    (apart : ∀ u ∈ users, u ∉ others) : Alike users (s.writes ws) s := by
  induction ws generalizing s with
  | nil => exact .refl users s
  | cons w rest ih =>
    have first : w.users ⊆ others := within w (List.mem_cons_self ..)
    have later : Alike users ((s.write w).writes rest) (s.write w) :=
      ih fun w' hw' => within w' (List.mem_cons_of_mem _ hw')
    exact later.trans (alike_write fun u hu hw => apart u hu (first hw))

/-- A user gets the same account view from stores that are alike for this user. -/
theorem Alike.account (h : Alike users s s') (d : Directory) {u : UserId} (hu : u ∈ users) :
    s.account d u = s'.account d u :=
  account_congr (view?_congr d (h.balance u hu) (h.inventory u hu) (h.history u hu))

/-! ## Confined actions -/

/-- Whether an action reads what belongs to some users, and writes to what belongs to them. -/
def Confined {α : Type} (users : List UserId) (f : Store → α × Store) : Prop :=
  ∀ s, ∃ ws : List Write, (∀ w ∈ ws, w.users ⊆ users) ∧
    ∀ s', Alike users s s' → f s' = ((f s).1, s'.writes ws)

variable {α β : Type} {f : Store → α × Store}

/-- An action that only reads is confined, if alike stores give the same. -/
theorem confined_read (read : Store → α)
    (same : ∀ s s', Alike users s s' → read s' = read s) :
    Confined users fun s => (read s, s) := by
  intro s
  refine ⟨[], Store.within_nil users, fun s' alike => ?_⟩
  exact congrArg (·, s') (same s s' alike)

/-- **One confined action after the other is confined.**  The second one may be any that the first
one can lead to. -/
theorem Confined.seq (hf : Confined users f) {g : α → Store → β × Store}
    (hg : ∀ s, Confined users (g (f s).1)) :
    Confined users fun s => g (f s).1 (f s).2 := by
  intro s
  obtain ⟨ws, within, run⟩ := hf s
  obtain ⟨ws', within', run'⟩ := hg s (s.writes ws)
  refine ⟨ws ++ ws', fun w hw => ?_, fun s' alike => ?_⟩
  · rcases List.mem_append.1 hw with hw | hw
    · exact within w hw
    · exact within' w hw
  · have here : f s = ((f s).1, s.writes ws) := run s (.refl users s)
    have there : f s' = ((f s).1, s'.writes ws) := run s' alike
    have after : (f s).2 = s.writes ws := congrArg Prod.snd here
    show g (f s').1 (f s').2 = ((g (f s).1 (f s).2).1, s'.writes (ws ++ ws'))
    rw [there, run' (s'.writes ws) (alike.writes ws), writes_append, after]

/-! ## Changing places -/

/-- What is left of the order in which two actions have run: `first` and `second` are the stores
after either of them alone, `forth` and `back` those after both. -/
structure Swapped (d : Directory) (s first second forth back : Store) : Prop where
  balances : forth.balances = back.balances
  goods : forth.goods = back.goods
  accounts : ∀ u, forth.account d u = back.account d u
  /-- Each action appends receipts of its own, and the logs differ in which ones come first. -/
  purchases : ∃ own own', first.purchases = s.purchases ++ own ∧
    second.purchases = s.purchases ++ own' ∧
    forth.purchases = s.purchases ++ own ++ own' ∧ back.purchases = s.purchases ++ own' ++ own
  /-- It is the same with the transfers. -/
  transfers : ∃ own own', first.transfers = s.transfers ++ own ∧
    second.transfers = s.transfers ++ own' ∧
    forth.transfers = s.transfers ++ own ++ own' ∧ back.transfers = s.transfers ++ own' ++ own

/-- Writes about different users leave each user with the same, in either order. -/
theorem alike_writes_comm {ws ws' : List Write} (within : ∀ w ∈ ws, w.users ⊆ users)
    (within' : ∀ w ∈ ws', w.users ⊆ others) (apart : ∀ u ∈ users, u ∉ others) (u : UserId) :
    Alike [u] ((s.writes ws).writes ws') ((s.writes ws').writes ws) := by
  -- Only one of the two lists can be about this user, and the other one may be left out.
  by_cases hu : u ∈ others
  · have away : ∀ v ∈ [u], v ∉ users := by
      intro v hv hmine
      obtain rfl := List.mem_singleton.1 hv
      exact apart v hmine hu
    have left : Alike [u] ((s.writes ws).writes ws') (s.writes ws') :=
      (alike_writes within away).writes ws'
    have right : Alike [u] ((s.writes ws').writes ws) (s.writes ws') := alike_writes within away
    exact left.trans right.symm
  · have away : ∀ v ∈ [u], v ∉ others := by
      intro v hv
      obtain rfl := List.mem_singleton.1 hv
      exact hu
    have left : Alike [u] ((s.writes ws).writes ws') (s.writes ws) := alike_writes within' away
    have right : Alike [u] ((s.writes ws').writes ws) (s.writes ws) :=
      (alike_writes within' away).writes ws
    exact left.trans right.symm

theorem swapped_writes (d : Directory) {ws ws' : List Write}
    (within : ∀ w ∈ ws, w.users ⊆ users) (within' : ∀ w ∈ ws', w.users ⊆ others)
    (apart : ∀ u ∈ users, u ∉ others) (s : Store) :
    Swapped d s (s.writes ws) (s.writes ws') ((s.writes ws).writes ws')
      ((s.writes ws').writes ws) := by
  have alike := fun u => alike_writes_comm (s := s) within within' apart u
  constructor
  case balances =>
    exact SortedMap.ext_get? fun u => (alike u).balance u (List.mem_singleton.2 rfl)
  case goods => simp only [goods_writes]
  case accounts => exact fun u => (alike u).account d (List.mem_singleton.2 rfl)
  case purchases =>
    obtain ⟨own, appended⟩ := purchases_writes ws
    obtain ⟨own', appended'⟩ := purchases_writes ws'
    refine ⟨own, own', appended s, appended' s, ?_, ?_⟩
    · rw [appended', appended]
    · rw [appended, appended']
  case transfers =>
    obtain ⟨own, appended⟩ := transfers_writes ws
    obtain ⟨own', appended'⟩ := transfers_writes ws'
    refine ⟨own, own', appended s, appended' s, ?_, ?_⟩
    · rw [appended', appended]
    · rw [appended, appended']

/-- **Actions confined to different users may change places.**  Each of them gives the same result
before the other one and after it. -/
theorem Confined.swapped (d : Directory) {g : Store → β × Store} (hf : Confined users f)
    (hg : Confined others g) (apart : ∀ u ∈ users, u ∉ others) (s : Store) :
    (f s).1 = (f (g s).2).1 ∧ (g (f s).2).1 = (g s).1 ∧
      Swapped d s (f s).2 (g s).2 (g (f s).2).2 (f (g s).2).2 := by
  obtain ⟨ws, within, run⟩ := hf s
  obtain ⟨ws', within', run'⟩ := hg s
  have first : (f s).2 = s.writes ws := congrArg Prod.snd (run s (.refl users s))
  have second : (g s).2 = s.writes ws' := congrArg Prod.snd (run' s (.refl others s))
  have apart' : ∀ u ∈ others, u ∉ users := fun u hu hmine => apart u hmine hu
  have back : f (g s).2 = ((f s).1, (s.writes ws').writes ws) := by
    rw [second]
    exact run _ (alike_writes within' apart).symm
  have forth : g (f s).2 = ((g s).1, (s.writes ws).writes ws') := by
    rw [first]
    exact run' _ (alike_writes within apart').symm
  rw [back, forth, first, second]
  exact ⟨rfl, rfl, swapped_writes d within within' apart s⟩

end

end Store

/-! ## The use cases -/

namespace UseCase

open Store (Alike Confined Write)

variable {α β : Type} {d : Directory} {users : List UserId} {seed : Coins} {u v : UserId}

theorem confined_done (r : Except LedgerError α) :
    Confined users ((done r).runOn (.memory d)) :=
  Store.confined_read (fun _ => r) fun _ _ _ => rfl

/-- A confined call may be followed by whatever is confined after the answers it can give. -/
theorem confined_call {c : Call} {next : Except c.Failure c.Answer → UseCase α}
    (hc : Confined users (Store.call d c))
    (hnext : ∀ s, Confined users ((next (Store.call d c s).1).runOn (.memory d))) :
    Confined users ((call c next).runOn (.memory d)) :=
  Store.Confined.seq (g := fun r => (next r).runOn (.memory d)) hc hnext

theorem confined_ask_bind {c : Call} {f : c.Answer → UseCase α}
    (hc : Confined users (Store.call d c))
    (hf : ∀ s a, (Store.call d c s).1 = .ok a → Confined users ((f a).runOn (.memory d))) :
    Confined users ((ask c >>= f).runOn (.memory d)) := by
  refine confined_call hc fun s => ?_
  cases answer : (Store.call d c s).1 with
  | ok a => exact hf s a answer
  | error e => exact confined_done _

theorem confined_inTransaction {w : Work LedgerError Unit} (hw : Confined users w.commitIfOk) :
    Confined users ((inTransaction w).runOn (.memory d)) :=
  Store.Confined.seq (g := fun r => (done r).runOn (.memory d)) hw fun _ => confined_done _

theorem confined_resolveUser (name : Username) :
    Confined users (Store.call d (.resolveUser name)) :=
  Store.confined_read (fun _ => Except.ok (d.idOf? name)) fun _ _ _ => rfl

theorem confined_findGood (name : String) : Confined users (Store.call d (.findGood name)) := by
  refine Store.confined_read (fun s => Except.ok (s.findGood name)) fun s s' alike => ?_
  rw [Store.findGood, Store.findGood, alike.goods]

/-- Provisioning writes the user's row, or nothing. -/
theorem confined_insertIfAbsent (hu : u ∈ users) :
    Confined users (Store.call d (.insertIfAbsent u seed)) := by
  intro s
  cases hb : s.balance? u with
  | some balance =>
    refine ⟨[], Store.within_nil users, fun s' alike => ?_⟩
    have there : s'.balance? u = some balance := by rw [← alike.balance u hu, hb]
    have kept : s'.insertIfAbsent u seed = s' := by
      unfold Store.insertIfAbsent SortedMap.insertIfAbsent
      rw [if_pos ((SortedMap.contains_iff _ _).2 ⟨balance, there⟩)]
    exact congrArg (Prod.mk _) kept
  | none =>
    refine ⟨[.row u seed], fun w hw => ?_, fun s' alike => ?_⟩
    · obtain rfl := List.mem_singleton.1 hw
      exact List.cons_subset.2 ⟨hu, List.nil_subset _⟩
    · have absent : s'.balances.get? u = none := (alike.balance u hu).symm.trans hb
      have made : s'.insertIfAbsent u seed = s'.setBalance u seed := by
        unfold Store.insertIfAbsent SortedMap.insertIfAbsent SortedMap.contains
        rw [absent]
        rfl
      exact congrArg (Prod.mk _) made

theorem confined_ensureCreated (hu : u ∈ users) :
    Confined users ((ensureCreated seed u).runOn (.memory d)) :=
  confined_call (confined_insertIfAbsent hu) fun _ => confined_done _

/-- A confined unit stays so in its transaction. -/
theorem confined_commitIfOk {w : Work LedgerError Unit}
    (hw : Confined users (w.runOn Store.statement)) : Confined users w.commitIfOk := by
  intro s
  obtain ⟨ws, within, run⟩ := hw s
  have here := run s (.refl users s)
  cases result : (w.runOn Store.statement s).1 with
  | ok a =>
    refine ⟨ws, within, fun s' alike => ?_⟩
    have there := run s' alike
    rw [result] at here there
    unfold Work.commitIfOk
    rw [here, there]
  | error e =>
    refine ⟨[], Store.within_nil users, fun s' alike => ?_⟩
    have there := run s' alike
    rw [result] at here there
    unfold Work.commitIfOk
    rw [here, there]
    rfl

/-- The unit of a purchase writes its buyer's row and receipt. -/
theorem confined_purchase (hu : u ∈ users) (g : Good) :
    Confined users ((purchase u g).runOn Store.statement) := by
  intro s
  cases hb : s.balance? u with
  | none =>
    refine ⟨[], Store.within_nil users, fun s' alike => ?_⟩
    simp only [purchase_runOn, ← alike.balance u hu, hb, Store.writes_nil]
  | some balance =>
    cases hp : balance.sub? g.price with
    | none =>
      refine ⟨[], Store.within_nil users, fun s' alike => ?_⟩
      simp only [purchase_runOn, ← alike.balance u hu, hb, hp, Store.writes_nil]
    | some rest =>
      refine ⟨[.row u rest, .receipt ⟨u, g.id⟩], fun w hw => ?_, fun s' alike => ?_⟩
      · have mine : w.users = [u] := by
          simp only [List.mem_cons, List.not_mem_nil, or_false] at hw
          rcases hw with rfl | rfl <;> rfl
        rw [mine]
        exact List.cons_subset.2 ⟨hu, List.nil_subset _⟩
      · simp only [purchase_runOn, ← alike.balance u hu, hb, hp]
        rfl

/-- The unit of a movement writes the rows of its two users and the transfer between them. -/
theorem confined_movement (hu : u ∈ users) (hv : v ∈ users) (huv : u ≠ v) (amount : Coins) :
    Confined users ((movement u v amount).runOn Store.statement) := by
  intro s
  -- Unless the coins move, the unit has only read, and what it has read is the same elsewhere.
  cases hsource : s.balance? u with
  | none =>
    refine ⟨[], Store.within_nil users, fun s' alike => ?_⟩
    simp only [movement_runOn huv, ← alike.balance u hu, hsource, Store.writes_nil]
  | some source =>
    cases htarget : s.balance? v with
    | none =>
      refine ⟨[], Store.within_nil users, fun s' alike => ?_⟩
      simp only [movement_runOn huv, ← alike.balance u hu, ← alike.balance v hv, hsource, htarget,
        Store.writes_nil]
    | some target =>
      cases hrest : source.sub? amount with
      | none =>
        refine ⟨[], Store.within_nil users, fun s' alike => ?_⟩
        simp only [movement_runOn huv, ← alike.balance u hu, ← alike.balance v hv, hsource,
          htarget, hrest, Store.writes_nil]
      | some rest =>
        cases hsum : target.add? amount with
        | none =>
          refine ⟨[], Store.within_nil users, fun s' alike => ?_⟩
          simp only [movement_runOn huv, ← alike.balance u hu, ← alike.balance v hv, hsource,
            htarget, hrest, hsum, Store.writes_nil]
        | some sum =>
          refine ⟨[.row u rest, .row v sum, .transfer ⟨u, v, amount⟩], fun w hw => ?_,
            fun s' alike => ?_⟩
          · have both : [u, v] ⊆ users := by
              exact List.cons_subset.2 ⟨hu, List.cons_subset.2 ⟨hv, List.nil_subset _⟩⟩
            have mine : w.users ⊆ [u, v] := by
              simp only [List.mem_cons, List.not_mem_nil, or_false] at hw
              rcases hw with rfl | rfl | rfl <;> simp [Write.users]
            exact List.Subset.trans mine both
          · simp only [movement_runOn huv, ← alike.balance u hu, ← alike.balance v hv, hsource,
              htarget, hrest, hsum]
            rfl

/-- Buying is about the buyer. -/
theorem confined_buyItem (hu : u ∈ users) (name : String) :
    Confined users ((buyItem u name).runOn (.memory d)) := by
  refine confined_ask_bind (confined_findGood name) fun s found _ => ?_
  cases found with
  | none => exact confined_done _
  | some g => exact confined_inTransaction (confined_commitIfOk (confined_purchase hu g))

/-- Sending is about the sender, and about the recipient if it comes to looking for one. -/
theorem confined_sendCoins (hu : u ∈ users) {name : Username} {amount : Coins}
    (hv : amount.isZero = false → ∀ v, d.idOf? name = some v → v ∈ users) :
    Confined users ((sendCoins seed u name amount).runOn (.memory d)) := by
  unfold sendCoins
  by_cases zero : amount.isZero = true
  · rw [if_pos zero]
    exact confined_done _
  · rw [if_neg zero]
    refine confined_ask_bind (confined_resolveUser name) fun s resolved answer => ?_
    cases resolved with
    | none => exact confined_done _
    | some v =>
      have found : d.idOf? name = some v := Except.ok.inj answer
      have mine : v ∈ users := hv (eq_false_of_ne_true zero) v found
      dsimp only
      by_cases self : v = u
      · rw [if_pos self]
        exact confined_done _
      · rw [if_neg self]
        have apart : u ≠ v := fun h => self h.symm
        refine confined_ask_bind (confined_insertIfAbsent mine) fun _ _ _ => ?_
        exact confined_inTransaction
          (confined_commitIfOk (confined_movement hu mine apart amount))

/-- Viewing an account is about its user. -/
theorem confined_accountInfo (hu : u ∈ users) :
    Confined users ((accountInfo u).runOn (.memory d)) := by
  intro s
  refine ⟨[], Store.within_nil users, fun s' alike => ?_⟩
  have same : s'.view? d u = s.view? d u :=
    (Store.view?_congr d (alike.balance u hu) (alike.inventory u hu) (alike.history u hu)).symm
  rw [accountInfo_runOn, accountInfo_runOn, same]
  cases s.view? d u <;> rfl

end UseCase

end CoinLedger
