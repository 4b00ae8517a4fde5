import CoinLedger.Proofs.Ledger.Units

/-!
# What may stand in the way of a purchase

A purchase makes up to six calls: it looks the good up, opens a transaction, locks and reads the
row, debits it, writes the receipt and commits.  Each of them may fail.  Three more obstacles are
in the store: no good of the name, no row, too small a balance.  They are met in a fixed order, and
the first one decides: the purchase ends with its error and leaves the store as it was, however far
it had come.  Without an obstacle it is done, as a whole.

The order is written down as a list (`purchaseObstacles`), whose entries are read off the script and
the store before anything is run.

## Main definitions

* `Treatment.failure?` — how a script lets a call fail.
* `purchaseObstacles` — what is in the way, in the order in which it is met.
* `PurchaseGranted` — nothing is in the way.
* `Store.Paid` — what a purchase leaves.

## Main results

* `UseCase.buyItem_play` — the first obstacle decides; without one the good is bought.
-/

namespace CoinLedger

/-! ## Calls that may fail -/

/-- The failure that a call meets instead of being made. -/
def Treatment.failure? {ε α : Type} (t : Treatment ε α) : Option ε :=
  match t.reply with
  | .replaced (.error f) => some f
  | _ => none

/-- An honest treatment is a failure or none at all. -/
theorem Treatment.Honest.apply_eq {σ ε α : Type} {t : Treatment ε α} (h : t.Honest)
    (genuine : σ → Except ε α × σ) (s : σ) :
    t.apply genuine s =
      match t.failure? with
      | some f => (.error f, s)
      | none => genuine s := by
  rcases h with performed | ⟨f, failed⟩
  · rw [apply_of_performed performed]
    simp only [failure?, performed]
  · simp only [apply, failure?, failed]

/-! ## Obstacles -/

section
variable (k : Script) (n : Nat) (s : Store) (u : UserId)

/-- What is in the way of the unit of work of a purchase, whose statements come after `n` calls. -/
def unitObstacles (g : Good) : List (Option LedgerError) :=
  [(k.statement n (.lockBalance u)).failure?.map fun f => .internal (.statement f),
    if s.balance? u = none then some (.balanceNotFound u) else none,
    (s.balance? u).bind fun balance =>
      if balance.toNat < g.price.toNat then some (.insufficientBalance u) else none,
    (k.statement (n + 1) (.decrement u g.price)).failure?.map fun f => .internal (.statement f),
    (k.statement (n + 2) (.insertPurchase ⟨u, g.id⟩)).failure?.map fun f =>
      .internal (.statement f)]

/-- What is in the way of its transaction: the failure to open it, what is in the way of the unit
of work, the failure to commit. -/
def transactionObstacles (g : Good) : List (Option LedgerError) :=
  ((k.begin n).failure?.map fun f => .internal (.transaction f)) ::
    unitObstacles k (n + 1) s u g ++
      [(k.commit (n + 4)).failure?.map fun f => .internal (.transaction f)]

/-- What is in the way of a purchase that begins after `n` calls, in the order in which it is met:
the failure of the look-up, a missing good, what is in the way of the transaction. -/
def purchaseObstacles (name : String) : List (Option LedgerError) :=
  ((k.call n (.findGood name)).failure?.map fun f => .internal (.goods f)) ::
    match s.findGood name with
    | none => [some (.goodNotFound name)]
    | some g => transactionObstacles k (n + 1) s u g

/-- The first of several obstacles. -/
def firstOf (obstacles : List (Option LedgerError)) : Option LedgerError := obstacles.findSome? id

/-- Nothing is in the way of buying a good: it is the first of its name, the user has a row that
covers the price, and none of the six calls fails. -/
structure PurchaseGranted (name : String) (g : Good) : Prop where
  listed : s.findGood name = some g
  covered : ∃ balance, s.balance? u = some balance ∧ g.price.toNat ≤ balance.toNat
  lookup : (k.call n (.findGood name)).failure? = none
  begin : (k.begin (n + 1)).failure? = none
  lock : (k.statement (n + 2) (.lockBalance u)).failure? = none
  debit : (k.statement (n + 3) (.decrement u g.price)).failure? = none
  record : (k.statement (n + 4) (.insertPurchase ⟨u, g.id⟩)).failure? = none
  commit : (k.commit (n + 5)).failure? = none

end

/-- One store is another one after a user has paid for a good. -/
structure Store.Paid (u : UserId) (g : Good) (s s' : Store) : Prop where
  row : ∃ balance rest, s.balance? u = some balance ∧ s'.balance? u = some rest ∧
    rest.toNat + g.price.toNat = balance.toNat
  others : ∀ w, w ≠ u → s'.balance? w = s.balance? w
  goods : s'.goods = s.goods
  purchases : s'.purchases = s.purchases ++ [⟨u, g.id⟩]
  transfers : s'.transfers = s.transfers

theorem Store.Paid.of_rest {u : UserId} {g : Good} {s : Store} {balance rest : Coins}
    (hb : s.balance? u = some balance) (hrest : balance.sub? g.price = some rest) :
    s.Paid u g ((s.setBalance u rest).addPurchase ⟨u, g.id⟩) := by
  refine ⟨⟨balance, rest, hb, by simp, Coins.sub?_eq_some_iff.1 hrest⟩, fun w hw => ?_, rfl, rfl,
    rfl⟩
  simp [hw.symm]

section
variable {k : Script} {n : Nat} {s : Store} {u : UserId} {g : Good} {name : String}

theorem firstOf_cons_none {rest : List (Option LedgerError)} :
    firstOf (none :: rest) = firstOf rest := rfl

theorem firstOf_append {front back : List (Option LedgerError)} :
    firstOf (front ++ back) = (firstOf front).or (firstOf back) :=
  List.findSome?_append

theorem firstOf_eq_none_iff {obstacles : List (Option LedgerError)} :
    firstOf obstacles = none ↔ ∀ o ∈ obstacles, o = none :=
  List.findSome?_eq_none_iff

/-- There is no obstacle in the list exactly if nothing is in the way. -/
theorem firstOf_purchaseObstacles_eq_none_iff :
    firstOf (purchaseObstacles k n s u name) = none ↔
      ∃ g, PurchaseGranted k n s u name g := by
  rw [firstOf_eq_none_iff]
  constructor
  · intro clear
    cases hg : s.findGood name with
    | none =>
      have missing := clear (some (.goodNotFound name)) (by simp [purchaseObstacles, hg])
      cases missing
    | some g =>
      simp only [purchaseObstacles, hg, transactionObstacles, unitObstacles, List.cons_append,
        List.nil_append, List.forall_mem_cons, Option.map_eq_none_iff,
        Option.bind_eq_none_iff] at clear
      obtain ⟨lookup, begun, lock, present, covered, debit, record, commit, -⟩ := clear
      refine ⟨g, hg, ?_, lookup, begun, lock, debit, record, commit⟩
      cases hb : s.balance? u with
      | none => simp [hb] at present
      | some balance =>
        refine ⟨balance, rfl, Nat.le_of_not_lt fun poor => ?_⟩
        simpa [poor] using covered balance hb
  · rintro ⟨g, h⟩
    obtain ⟨balance, hbalance, covered⟩ := h.covered
    have enough : ¬balance.toNat < g.price.toNat := Nat.not_lt.2 covered
    simp [purchaseObstacles, transactionObstacles, unitObstacles, h.listed, h.lookup, h.begin,
      h.lock, h.debit, h.record, h.commit, hbalance, enough]

end

namespace Work

variable {ε α : Type} {e : Stage}

/-- Against an honest script without a limit a statement fails, or is made. -/
theorem play_ask (honest : e.script.Honest) (unlimited : e.limit = none) (q : Statement)
    (next : Except StorageFailure q.Answer → Work ε α) (s : Store) (c : Clock) :
    (ask q next).play e s c =
      match (e.script.statement c.calls q).failure? with
      | some f => (next (.error f)).play e s (c.after (e.script.statement c.calls q).delay)
      | none => (next (Store.statement q s).1).play e (Store.statement q s).2
          (c.after (e.script.statement c.calls q).delay) := by
  rw [play]
  simp only [Stage.allows_of_unlimited unlimited, if_true, (honest.statement c.calls q).apply_eq]
  cases (e.script.statement c.calls q).failure? <;> rfl

/-- Against an honest script without a limit a transaction is opened and committed, or one of both
fails. -/
theorem conclude_eq (honest : e.script.Honest) (unlimited : e.limit = none) (w : Work ε α)
    (s : Store) (c : Clock) :
    w.conclude e s c =
      let c₁ := c.after (e.script.begin c.calls).delay
      match (e.script.begin c.calls).failure? with
      | some f => some (.unopened f, s, c₁)
      | none =>
        match w.play e s c₁ with
        | none => none
        | some (.error err, _, c₂) => some (.failed err, s, c₂)
        | some (.ok a, s', c₂) =>
          let c₃ := c₂.after (e.script.commit c₂.calls).delay
          match (e.script.commit c₂.calls).failure? with
          | some f => some (.uncommitted a f, s, c₃)
          | none => some (.committed a, s', c₃) := by
  rw [conclude]
  simp only [Stage.allows_of_unlimited unlimited, if_true, (honest.begin c.calls).apply_eq]
  cases (e.script.begin c.calls).failure? with
  | some f => rfl
  | none =>
    dsimp only
    rcases w.play e s (c.after (e.script.begin c.calls).delay) with _ | ⟨err | a, s', c₂⟩
    · rfl
    · rfl
    · dsimp only
      rw [(honest.commit c₂.calls).apply_eq]
      cases (e.script.commit c₂.calls).failure? <;> rfl

/-! The guarded operations of a purchase, each as the first part of a unit.  An operation that fails
or finds nothing ends the unit. -/

section
variable (honest : e.script.Honest) (unlimited : e.limit = none) (u : UserId) (s : Store)
  (c : Clock)
include honest unlimited

theorem lock_bind_play (f : Coins → Work LedgerError α) :
    (lock u >>= f).play e s c =
      let c' := c.after (e.script.statement c.calls (.lockBalance u)).delay
      match (e.script.statement c.calls (.lockBalance u)).failure?, s.balance? u with
      | some failure, _ => some (.error (.internal (.statement failure)), s, c')
      | none, none => some (.error (.balanceNotFound u), s, c')
      | none, some balance => (f balance).play e s c' := by
  rw [lock, run]
  simp only [ask_bind, play_ask honest unlimited]
  cases (e.script.statement c.calls (.lockBalance u)).failure? with
  | some failure => rfl
  | none =>
    dsimp only [Store.statement]
    cases s.balance? u <;> rfl

theorem debit_bind_play (amount : Coins) (f : Unit → Work LedgerError α) :
    (debit u amount >>= f).play e s c =
      let c' := c.after (e.script.statement c.calls (.decrement u amount)).delay
      match (e.script.statement c.calls (.decrement u amount)).failure?,
        (s.balance? u).bind (·.sub? amount) with
      | some failure, _ => some (.error (.internal (.statement failure)), s, c')
      | none, none => some (.error (.insufficientBalance u), s, c')
      | none, some rest => (f ()).play e (s.setBalance u rest) c' := by
  rw [debit, run]
  simp only [ask_bind, play_ask honest unlimited]
  cases (e.script.statement c.calls (.decrement u amount)).failure? with
  | some failure => rfl
  | none =>
    dsimp only [Store.statement, Store.decrement]
    cases (s.balance? u).bind (·.sub? amount) <;> rfl

theorem recordPurchase_play (p : Purchase) :
    (recordPurchase p).play e s c =
      let c' := c.after (e.script.statement c.calls (.insertPurchase p)).delay
      match (e.script.statement c.calls (.insertPurchase p)).failure? with
      | some failure => some (.error (.internal (.statement failure)), s, c')
      | none => some (.ok (), s.addPurchase p, c') := by
  rw [recordPurchase, run, play_ask honest unlimited]
  cases (e.script.statement c.calls (.insertPurchase p)).failure? <;> rfl

end

end Work

namespace UseCase

variable {e : Stage}

/-- The first obstacle decides about the unit of a purchase; without one it does what it does
undisturbed, in three statements. -/
theorem purchase_play (honest : e.script.Honest) (unlimited : e.limit = none) (u : UserId)
    (g : Good) (s : Store) (c : Clock) :
    match firstOf (unitObstacles e.script c.calls s u g) with
    | some err => ∃ s' c', (purchase u g).play e s c = some (.error err, s', c')
    | none => ∃ balance rest c', s.balance? u = some balance ∧
        balance.sub? g.price = some rest ∧ c'.calls = c.calls + 3 ∧
        (purchase u g).play e s c =
          some (.ok (), (s.setBalance u rest).addPurchase ⟨u, g.id⟩, c') := by
  rw [purchase, Work.lock_bind_play honest unlimited]
  dsimp only
  cases hlock : (e.script.statement c.calls (.lockBalance u)).failure? with
  | some f => simp [unitObstacles, firstOf, hlock]
  | none =>
    cases hb : s.balance? u with
    | none => simp [unitObstacles, firstOf, hlock, hb]
    | some balance =>
      dsimp only
      rcases Nat.lt_or_ge balance.toNat g.price.toNat with poor | covered
      · have refused := Coins.sub?_eq_none_iff.2 poor
        simp [unitObstacles, firstOf, hlock, hb, poor, refused, Work.play]
      · obtain ⟨rest, hrest⟩ := Coins.exists_sub? covered
        have enough : ¬balance.toNat < g.price.toNat := Nat.not_lt.2 covered
        have go : ¬(balance.sub? g.price).isNone = true := by simp [hrest]
        rw [if_neg go, Work.debit_bind_play honest unlimited, hb, Option.bind_some, hrest]
        dsimp only [Clock.after]
        cases hdebit : (e.script.statement (c.calls + 1) (.decrement u g.price)).failure? with
        | some f => simp [unitObstacles, firstOf, hlock, hb, enough, hdebit]
        | none =>
          dsimp only
          rw [Work.recordPurchase_play honest unlimited]
          dsimp only [Clock.after]
          cases hrecord : (e.script.statement (c.calls + 1 + 1)
              (.insertPurchase ⟨u, g.id⟩)).failure? with
          | some f => simp [unitObstacles, firstOf, hlock, hb, enough, hdebit, hrecord]
          | none => simp [unitObstacles, firstOf, hlock, hb, enough, hdebit, hrecord, hrest]

/-- The first obstacle decides about the transaction of a purchase. -/
theorem purchase_conclude (honest : e.script.Honest) (unlimited : e.limit = none) (u : UserId)
    (g : Good) (s : Store) (c : Clock) :
    match firstOf (transactionObstacles e.script c.calls s u g) with
    | some err => ∃ ending c', (purchase u g).conclude e s c = some (ending, s, c') ∧
        ending.outcome = .error err
    | none => ∃ balance rest c', s.balance? u = some balance ∧
        balance.sub? g.price = some rest ∧
        (purchase u g).conclude e s c =
          some (.committed (), (s.setBalance u rest).addPurchase ⟨u, g.id⟩, c') := by
  rw [Work.conclude_eq honest unlimited, transactionObstacles]
  dsimp only
  cases hbegin : (e.script.begin c.calls).failure? with
  | some f => exact ⟨_, _, rfl, rfl⟩
  | none =>
    have played := purchase_play honest unlimited u g s (c.after (e.script.begin c.calls).delay)
    rw [Option.map_none, List.cons_append, firstOf_cons_none, firstOf_append]
    dsimp only [Clock.after] at played ⊢
    cases hunit : firstOf (unitObstacles e.script (c.calls + 1) s u g) with
    | some err =>
      rw [hunit] at played
      obtain ⟨s', c', hplay⟩ := played
      rw [hplay]
      exact ⟨_, _, rfl, rfl⟩
    | none =>
      rw [hunit] at played
      obtain ⟨balance, rest, c', hb, hrest, hcalls, hplay⟩ := played
      rw [hplay]
      dsimp only [Clock.after] at hcalls ⊢
      rw [hcalls]
      cases hcommit : (e.script.commit (c.calls + 1 + 3)).failure? with
      | some f => exact ⟨_, _, rfl, rfl⟩
      | none => exact ⟨balance, rest, _, hb, hrest, rfl⟩

/-! ## The purchase -/

/-- Against an honest script without a limit a call fails, or is made. -/
theorem ask_bind_play {α : Type} (honest : e.script.Honest) (unlimited : e.limit = none)
    {q : Call} (f : q.Answer → UseCase α) (s : Store) (c : Clock) :
    (ask q >>= f).play e s c =
      let c' := c.after (e.script.call c.calls q).delay
      match (e.script.call c.calls q).failure? with
      | some failure => .finished (.error (.internal (q.fault failure))) s c'
      | none =>
        match Store.call e.directory q s with
        | (.ok a, s') => (f a).play e s' c'
        | (.error failure, s') => .finished (.error (.internal (q.fault failure))) s' c' := by
  rw [ask, call_bind, play]
  simp only [Stage.allows_of_unlimited unlimited, if_true, (honest.call c.calls q).apply_eq]
  cases (e.script.call c.calls q).failure? with
  | some failure => rfl
  | none => rcases Store.call e.directory q s with ⟨failure | a, s'⟩ <;> rfl

/-- A use case that ends in a transaction ends as the transaction does. -/
theorem inTransaction_play (w : Work LedgerError Unit) (s : Store) (c : Clock) :
    (inTransaction w).play e s c =
      match w.conclude e s c with
      | none => .cut s
      | some (ending, s', c') => .finished ending.outcome s' c' := by
  rw [inTransaction, play]
  rcases w.conclude e s c with _ | ⟨ending, s', c'⟩ <;> rfl

section
variable (honest : e.script.Honest) (unlimited : e.limit = none) (u : UserId) (name : String)
  (s : Store) (c : Clock)
include honest unlimited

/-- Without a good of the name the look-up is the only call. -/
theorem buyItem_play_unlisted (unlisted : s.findGood name = none) :
    ∃ err, firstOf (purchaseObstacles e.script c.calls s u name) = some err ∧
      (buyItem u name).play e s c =
        .finished (.error err) s (c.after (e.script.call c.calls (.findGood name)).delay) := by
  rw [buyItem, ask_bind_play honest unlimited, purchaseObstacles, unlisted]
  dsimp only [Store.call]
  cases (e.script.call c.calls (.findGood name)).failure? with
  | some f => exact ⟨_, rfl, rfl⟩
  | none =>
    rw [unlisted]
    exact ⟨_, rfl, rfl⟩

/-- With a good of the name everything hangs on the look-up and on the transaction. -/
theorem buyItem_play_listed {g : Good} (listed : s.findGood name = some g) :
    match firstOf (purchaseObstacles e.script c.calls s u name) with
    | some err => ∃ c', (buyItem u name).play e s c = .finished (.error err) s c'
    | none => ∃ balance rest c', s.balance? u = some balance ∧
        balance.sub? g.price = some rest ∧
        (buyItem u name).play e s c =
          .finished (.ok ()) ((s.setBalance u rest).addPurchase ⟨u, g.id⟩) c' := by
  rw [buyItem, ask_bind_play honest unlimited, purchaseObstacles, listed]
  dsimp only [Store.call]
  cases (e.script.call c.calls (.findGood name)).failure? with
  | some f => exact ⟨_, rfl⟩
  | none =>
    have concluded := purchase_conclude honest unlimited u g s
      (c.after (e.script.call c.calls (.findGood name)).delay)
    rw [Option.map_none, firstOf_cons_none, listed]
    dsimp only
    rw [inTransaction_play]
    dsimp only [Clock.after] at concluded ⊢
    cases hfirst : firstOf (transactionObstacles e.script (c.calls + 1) s u g) with
    | some err =>
      rw [hfirst] at concluded
      obtain ⟨ending, c', hconclude, houtcome⟩ := concluded
      rw [hconclude]
      exact ⟨c', congrArg (Played.finished · s c') houtcome⟩
    | none =>
      rw [hfirst] at concluded
      obtain ⟨balance, rest, c', hb, hrest, hconclude⟩ := concluded
      rw [hconclude]
      exact ⟨balance, rest, c', hb, hrest, rfl⟩

/-- **The first obstacle decides**: the purchase ends with its error, and the store is as it was.
Without an obstacle the price is paid and the receipt is written, and nothing else is changed.  If
there is no good of the name, no transaction is opened. -/
theorem buyItem_play :
    (∀ err, firstOf (purchaseObstacles e.script c.calls s u name) = some err →
      ∃ c', (buyItem u name).play e s c = .finished (.error err) s c') ∧
    (∀ g, PurchaseGranted e.script c.calls s u name g →
      ∃ s' c', (buyItem u name).play e s c = .finished (.ok ()) s' c' ∧ s.Paid u g s') ∧
    (firstOf (purchaseObstacles e.script c.calls s u name) = none ↔
      ∃ g, PurchaseGranted e.script c.calls s u name g) ∧
    (s.findGood name = none →
      ∃ err c', (buyItem u name).play e s c = .finished (.error err) s c' ∧
        c'.calls = c.calls + 1) := by
  refine ⟨fun err first => ?_, fun g granted => ?_, firstOf_purchaseObstacles_eq_none_iff,
    fun unlisted => ?_⟩
  · cases hg : s.findGood name with
    | none =>
      obtain ⟨err', first', played⟩ := buyItem_play_unlisted honest unlimited u name s c hg
      obtain rfl : err = err' := Option.some.inj (first.symm.trans first')
      exact ⟨_, played⟩
    | some g =>
      have played := buyItem_play_listed honest unlimited u name s c hg
      rw [first] at played
      exact played
  · have clear := firstOf_purchaseObstacles_eq_none_iff.2 ⟨g, granted⟩
    have played := buyItem_play_listed honest unlimited u name s c granted.listed
    rw [clear] at played
    obtain ⟨balance, rest, c', hb, hrest, hplay⟩ := played
    exact ⟨_, c', hplay, .of_rest hb hrest⟩
  · obtain ⟨err, -, played⟩ := buyItem_play_unlisted honest unlimited u name s c unlisted
    exact ⟨err, _, played, rfl⟩

end

/-- A shop whose one customer has just enough for a cup. -/
def lastCoins : Store where
  balances := SortedMap.ofList [(⟨1⟩, ⟨20⟩)]
  goods := Store.standardCatalog

/-- The cup is bought for the last coins.  If the commit is lost, after everything else has gone
well, the customer still has them. -/
theorem buyItem_play_lastCoins :
    let lost : Stage := { script := .lostCommit (.query "lost") }
    (∃ s' c', (buyItem ⟨1⟩ "cup").play {} lastCoins {} = .finished (.ok ()) s' c' ∧
      lastCoins.Paid ⟨1⟩ ⟨⟨2⟩, "cup", ⟨20⟩⟩ s') ∧
    lost.script.Honest ∧ lost.limit = none ∧
    ∃ c', (buyItem ⟨1⟩ "cup").play lost lastCoins {} =
      .finished (.error (.internal (.transaction (.query "lost")))) lastCoins c' := by
  intro lost
  have honest : lost.script.Honest := Script.honest_lostCommit _
  obtain ⟨-, granted, -, -⟩ :=
    buyItem_play (e := {}) Script.honest_quiet rfl ⟨1⟩ "cup" lastCoins {}
  obtain ⟨hindered, -, -, -⟩ := buyItem_play (e := lost) honest rfl ⟨1⟩ "cup" lastCoins {}
  refine ⟨granted _ ?_, honest, rfl, hindered _ rfl⟩
  exact ⟨rfl, ⟨⟨20⟩, rfl, Nat.le_refl _⟩, rfl, rfl, rfl, rfl, rfl, rfl⟩

end UseCase

end CoinLedger
