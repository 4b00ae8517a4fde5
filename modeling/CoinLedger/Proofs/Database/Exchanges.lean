import CoinLedger.Proofs.Database.Histories

/-!
# Amounts on their way between the use cases and the database

An amount passes an adapter in one of two directions, and is converted there.  On its way out of
the database it has a place, the row that it stands in (`Cell`); so what a read returns, and what is
made of it, can be compared place by place.  A read is exact (`Exact`) if it gives the amounts of
its rows as they are stored, and fails as soon as one of them is negative.  On its way into the
database an amount is sent as it is or, if a column cannot hold it, not at all (`Sent`).

The six adapters differ in what they read and in which connection they use.  An exchange
(`Exchange`) is a question of a use case together with the state of the database that it meets;
all exchanges are exact (`Exchange.exact`) and send what they are asked to send
(`Exchange.sends`), whatever the database holds and whatever fails in it.

## Main definitions

* `Cell`, `Exact`, `Sent` — places of amounts, and what the two directions do.
* `Exchange`, `Exchange.stored`, `Exchange.returned?`, `Exchange.figures` — a question, with what is
  stored, what of it the database returns, and what is made of that.
* `Exchange.ReadsExactly`, `Exchange.Sends` — the two directions, of an exchange.

## Main results

* `Exchange.exact`, `Exchange.sends` — all adapters.
-/

namespace CoinLedger

namespace Database

/-! ## Amounts in their places -/

/-- Where an amount is kept. -/
inductive Cell where
  | balance (user : UserId)
  | price (id : GoodId) (name : String)
  | transfer (sender recipient : UserId)
  deriving DecidableEq, Repr

/-- Amounts in their places, as numbers. -/
def values {κ : Type} (number : κ → Int) (rows : List (Cell × κ)) : List (Cell × Int) :=
  rows.map fun row => (row.1, number row.2)

/-- What a read returns, by place: a balance, several balances, a good, transfers. -/
def balanceRows (u : UserId) (row : Option Stored) : List (Cell × Stored) :=
  row.toList.map fun n => (.balance u, n)

def lockedRows (rows : List (UserId × Stored)) : List (Cell × Stored) :=
  rows.map fun r => (.balance r.1, r.2)

def priceRows (row : Option GoodRow) : List (Cell × Stored) :=
  row.toList.map fun r => (.price r.id r.name, r.price)

def transferRows (rows : List TransferRow) : List (Cell × Stored) :=
  rows.map fun r => (.transfer r.sender r.recipient, r.amount)

/-- What is made of it, by place. -/
def balanceFigures (u : UserId) (balance : Option Coins) : List (Cell × Coins) :=
  balance.toList.map fun c => (.balance u, c)

def lockedFigures (rows : List (UserId × Coins)) : List (Cell × Coins) :=
  rows.map fun r => (.balance r.1, r.2)

def priceFigures (good : Option Good) : List (Cell × Coins) :=
  good.toList.map fun g => (.price g.id g.name, g.price)

def historyFigures (u : UserId) (h : History) : List (Cell × Coins) :=
  (h.outgoing.map fun e => (.transfer u e.counterpart, e.amount)) ++
    h.incoming.map fun e => (.transfer e.counterpart u, e.amount)

/-! ## Reading -/

/-- A read of rows is exact: it gives their amounts as they are stored, each in its place, and one
negative number fails it. -/
structure Exact (rows : List (Cell × Stored)) (read : Except StorageFailure (List (Cell × Coins))) :
    Prop where
  sound : (∀ row ∈ rows, 0 ≤ row.2.toInt) → ∃ figures, read = .ok figures ∧
    (values (fun c => (c.toNat : Int)) figures).Perm (values Int64.toInt rows)
  corrupt : (∃ row ∈ rows, row.2.toInt < 0) → read = .error negativeStored

theorem exact_nil : Exact [] (.ok []) where
  sound _ := ⟨[], rfl, .refl _⟩
  corrupt h := by simp at h

/-- A single number. -/
theorem exact_singleton {α : Type} (cell : Cell) (n : Stored) (make : Coins → α)
    (figures : α → List (Cell × Coins)) (kept : ∀ c, figures (make c) = [(cell, c)]) :
    Exact [(cell, n)] (((load n).map make).map figures) where
  sound h := by
    have amount : 0 ≤ n.toInt := h (cell, n) List.mem_cons_self
    refine ⟨[(cell, amountOf n)], by rw [load_eq amount, ← kept]; rfl, ?_⟩
    simp only [values, List.map_cons, List.map_nil, toNat_amountOf amount]
    rfl
  corrupt h := by
    obtain ⟨row, hrow, negative⟩ := h
    rw [List.mem_singleton.1 hrow] at negative
    rw [load_negative negative]
    rfl

theorem exact_loadOptional (u : UserId) (row : Option Stored) :
    Exact (balanceRows u row) ((loadOptional row).map (balanceFigures u)) := by
  cases row with
  | none => exact exact_nil
  | some n => exact exact_singleton _ n some _ fun c => rfl

theorem exact_loadGood (row : Option GoodRow) :
    Exact (priceRows row) ((match row with
      | some r => (loadGood r).map some
      | none => .ok none : Except StorageFailure (Option Good)).map priceFigures) := by
  cases row with
  | none => exact exact_nil
  | some r =>
    have made : (loadGood r).map some = (load r.price).map fun c => some ⟨r.id, r.name, c⟩ := by
      unfold loadGood
      cases load r.price <;> rfl
    show Exact _ (((loadGood r).map some).map priceFigures)
    rw [made]
    exact exact_singleton _ r.price _ _ fun c => rfl

theorem loadRows_eq {rows : List (UserId × Stored)} (amounts : ∀ r ∈ rows, 0 ≤ r.2.toInt) :
    loadRows rows = .ok (rows.map fun r => (r.1, amountOf r.2)) := by
  induction rows with
  | nil => rfl
  | cons r rest ih =>
    simp only [loadRows, load_eq (amounts r List.mem_cons_self),
      ih fun r' hr' => amounts r' (List.mem_cons_of_mem r hr')]
    rfl

theorem loadRows_negative {rows : List (UserId × Stored)} (h : ∃ r ∈ rows, r.2.toInt < 0) :
    loadRows rows = .error negativeStored := by
  induction rows with
  | nil => simp at h
  | cons r rest ih =>
    by_cases hr : r.2.toInt < 0
    · simp only [loadRows, load_negative hr]
      rfl
    · have later := ((List.exists_mem_cons_iff _ _ _).1 h).resolve_left hr
      simp only [loadRows, load_eq (Int.not_lt.1 hr), ih later]
      rfl

/-- Rows that are read together. -/
theorem exact_loadRows (rows : List (UserId × Stored)) :
    Exact (lockedRows rows) ((loadRows rows).map lockedFigures) where
  sound h := by
    have amounts : ∀ r ∈ rows, 0 ≤ r.2.toInt := fun r hr =>
      h (.balance r.1, r.2) (List.mem_map_of_mem hr)
    refine ⟨_, by rw [loadRows_eq amounts]; rfl, .of_eq ?_⟩
    simp only [values, lockedFigures, lockedRows, List.map_map]
    refine List.map_congr_left fun r hr => ?_
    simp only [Function.comp_apply, toNat_amountOf (amounts r hr)]
  corrupt h := by
    obtain ⟨row, hrow, negative⟩ := h
    obtain ⟨r, hr, rfl⟩ := List.mem_map.1 hrow
    rw [loadRows_negative ⟨r, hr, negative⟩]
    rfl

/-- A history has the amounts of the rows that it is made from, if these are all the user's. -/
theorem Splits.figures_perm {u : UserId} {rows : List TransferRow} {h : History}
    (splits : Splits u rows h) (own : ∀ r ∈ rows, r.sender = u ∨ r.recipient = u) :
    (values (fun c => (c.toNat : Int)) (historyFigures u h)).Perm
      (values Int64.toInt (transferRows rows)) := by
  have sent : (h.outgoing.map fun e => (Cell.transfer u e.counterpart, (e.amount.toNat : Int))) =
      (rows.filter fun r => r.sender = u).map fun r =>
        (.transfer r.sender r.recipient, r.amount.toInt) := by
    have said := congrArg (List.map fun x => (Cell.transfer u x.1, x.2)) splits.outgoing
    rw [List.map_map, List.map_map] at said
    refine said.trans (List.map_congr_left fun r hr => ?_)
    have sender : r.sender = u := of_decide_eq_true (List.mem_filter.1 hr).2
    rw [sender]
    rfl
  have received :
      (h.incoming.map fun e => (Cell.transfer e.counterpart u, (e.amount.toNat : Int))) =
      (rows.filter fun r => r.sender ≠ u ∧ r.recipient = u).map fun r =>
        (.transfer r.sender r.recipient, r.amount.toInt) := by
    have said := congrArg (List.map fun x => (Cell.transfer x.1 u, x.2)) splits.incoming
    rw [List.map_map, List.map_map] at said
    refine said.trans (List.map_congr_left fun r hr => ?_)
    have recipient : r.recipient = u := (of_decide_eq_true (List.mem_filter.1 hr).2).2
    rw [recipient]
    rfl
  have others : (rows.filter fun r => r.sender ≠ u ∧ r.recipient ≠ u) = [] := by
    rw [List.filter_eq_nil_iff]
    intro r hr
    rcases own r hr with h | h <;> simp [h]
  have all := splits.complete
  rw [others, List.append_nil] at all
  unfold values historyFigures transferRows
  rw [List.map_append, List.map_map, List.map_map, List.map_map]
  refine .trans (.of_eq ?_) (all.map _)
  rw [List.map_append]
  exact congrArg₂ _ sent received

theorem exact_splitTransfers (u : UserId) {rows : List TransferRow}
    (own : ∀ r ∈ rows, r.sender = u ∨ r.recipient = u) :
    Exact (transferRows rows) ((splitTransfers u rows).map (historyFigures u)) where
  sound h := by
    have amounts : ∀ r ∈ rows, 0 ≤ r.amount.toInt := fun r hr =>
      h (.transfer r.sender r.recipient, r.amount) (List.mem_map_of_mem hr)
    obtain ⟨history, made, splits⟩ := splitTransfers_splits u amounts
    exact ⟨_, by rw [made]; rfl, splits.figures_perm own⟩
  corrupt h := by
    obtain ⟨row, hrow, negative⟩ := h
    obtain ⟨r, hr, rfl⟩ := List.mem_map.1 hrow
    rw [splitTransfers_negative u ⟨r, hr, negative⟩]
    rfl

/-! ## Sending -/

/-- A statement with an amount is sent with exactly this amount or, if no column holds it, not
at all. -/
def Sent {α : Type} (amount : Coins) (s : Session)
    (send : Stored → Except StorageFailure α × Session)
    (result : Except StorageFailure α × Session) : Prop :=
  (∃ n : Stored, n.toInt = amount.toNat ∧ result = send n) ∨
    (storedBound ≤ amount.toNat ∧ result = (.error (.query "amount exceeds storable range"), s))

theorem store_cases (amount : Coins) :
    (∃ n : Stored, n.toInt = amount.toNat ∧ store amount = .ok n) ∨
      (storedBound ≤ amount.toNat ∧
        store amount = .error (.query "amount exceeds storable range")) := by
  unfold store
  cases h : toStored? amount with
  | none => exact .inr ⟨toStored?_eq_none_iff.1 h, rfl⟩
  | some n => exact .inl ⟨n, toInt_of_toStored? h, rfl⟩

/-- A statement that is sent as soon as its amount has been converted. -/
theorem sent_of_store {α : Type} {amount : Coins} {s : Session}
    {send : Stored → Except StorageFailure α × Session} {result : Except StorageFailure α × Session}
    (converted : ∀ n, store amount = .ok n → result = send n)
    (refused : ∀ e, store amount = .error e → result = (.error e, s)) :
    Sent amount s send result := by
  rcases store_cases amount with ⟨n, hn, stored⟩ | ⟨large, unstored⟩
  · exact .inl ⟨n, hn, converted n stored⟩
  · exact .inr ⟨large, refused _ unstored⟩

/-! ## Exchanges -/

/-- A question of a use case, inside or outside a unit of work, and the database that it meets. -/
inductive Exchange where
  | statement (q : Statement) (s : Session)
  | call (c : Call) (s : Session)

/-- The tables that a statement on a connection sees. -/
def Session.seen (s : Session) : Tables :=
  match s.transaction with
  | some t => t.tables
  | .none => s.tables

/-- What a query returns on a connection of its own, if it is answered. -/
def fetched? {α : Type} (p : Pool) (f : Faults) (k : Kind) (query : Tables → α) (s : Session) :
    Option α :=
  match p.checkout with
  | .ok () => (s.reconnect.select f k query).1.toOption
  | .error _ => none

namespace Exchange

variable (d : Directory) (p : Pool) (f : Faults)

/-- The rows with amounts that the database returns, if the question reads some and is answered. -/
def returned? : Exchange → Option (List (Cell × Stored))
  | .statement (.lockBalance u) s =>
    (s.select f .lockBalance (Tables.findBalance u)).1.toOption.map (balanceRows u)
  | .statement (.lockBalances us) s =>
    (s.select f .lockBalances (Tables.findBalances us)).1.toOption.map lockedRows
  | .call (.findBalance u) s =>
    (fetched? p f .findBalance (Tables.findBalance u) s).map (balanceRows u)
  | .call (.findGood name) s => (fetched? p f .findGood (Tables.findGood name) s).map priceRows
  | .call (.transfers u) s =>
    (fetched? p f .transfers (Tables.findTransfers u) s).map transferRows
  | _ => none

/-- The rows with amounts that the question is about, as they are stored at that moment. -/
def stored : Exchange → List (Cell × Stored)
  | .statement (.lockBalance u) s => balanceRows u (s.seen.findBalance u)
  | .statement (.lockBalances us) s => lockedRows (s.seen.findBalances us)
  | .call (.findBalance u) s => balanceRows u (s.tables.findBalance u)
  | .call (.findGood name) s => priceRows (s.tables.findGood name)
  | .call (.transfers u) s => transferRows (s.tables.findTransfers u)
  | _ => []

/-- The amounts that reach the use case, or the failure that does. -/
def figures : Exchange → Except StorageFailure (List (Cell × Coins))
  | .statement (.lockBalance u) s =>
    (Database.statement f (.lockBalance u) s).1.map (balanceFigures u)
  | .statement (.lockBalances us) s =>
    (Database.statement f (.lockBalances us) s).1.map lockedFigures
  | .statement q s => (Database.statement f q s).1.map fun _ => []
  | .call (.findBalance u) s => (Database.call d p f (.findBalance u) s).1.map (balanceFigures u)
  | .call (.findGood name) s => (Database.call d p f (.findGood name) s).1.map priceFigures
  | .call (.transfers u) s => (Database.call d p f (.transfers u) s).1.map (historyFigures u)
  | .call (.inventory u) s => (Database.call d p f (.inventory u) s).1.map fun _ => []
  | .call (.insertIfAbsent u seed) s =>
    (Database.call d p f (.insertIfAbsent u seed) s).1.map fun _ => []
  | .call (.resolveUser _) _ => .ok []
  | .call (.resolveNames _) _ => .ok []

/-- Whether a statement with an amount is sent as it is asked for. -/
def Sends : Exchange → Prop
  | .statement (.decrement u amount) s =>
    Sent amount s (fun n => worded (s.execute f .decrement (Tables.decrement u n)))
      (Database.statement f (.decrement u amount) s)
  | .statement (.increment u amount) s =>
    Sent amount s (fun n => worded (s.execute f .increment (Tables.increment u n)))
      (Database.statement f (.increment u amount) s)
  | .statement (.insertTransfer t) s =>
    Sent t.amount s (fun n => thenLoad (fun _ => .ok ())
        (s.execute f .insertTransfer (Tables.insertTransfer ⟨t.sender, t.recipient, n⟩)))
      (Database.statement f (.insertTransfer t) s)
  | .call (.insertIfAbsent u seed) s =>
    Sent seed s (fun n => onConnection p (fun s => thenLoad (fun _ => .ok ())
        (s.execute f .insertBalance (Tables.insertBalance u n))) s)
      (Database.call d p f (.insertIfAbsent u seed) s)
  | _ => True

/-- What the database returns is what is stored, and is read exactly; if it returns no amounts, none
are given. -/
def ReadsExactly (returned : Option (List (Cell × Stored))) (stored : List (Cell × Stored))
    (read : Except StorageFailure (List (Cell × Coins))) : Prop :=
  match returned with
  | some rows => rows = stored ∧ Exact rows read
  | none => ∀ figures, read = .ok figures → figures = []

variable {d p f}

/-- A query that is answered is answered from the tables that it sees. -/
theorem select_eq_ok {α : Type} {s : Session} {k : Kind} {query : Tables → α} {a : α}
    (h : (s.select f k query).1 = .ok a) : a = query s.seen := by
  obtain ⟨tables, received, connected, transaction⟩ := s
  unfold Session.select Session.execute at h
  split at h
  · split at h
    · cases h
    · cases h
    · cases transaction with
      | none =>
        cases h
        rfl
      | some t =>
        simp only [Session.apply, Session.receive] at h
        split at h
        · cases h
        · cases h
          rfl
  · cases h

section

variable {α β : Type} {k : Kind} {query : Tables → α} {load : α → Except StorageFailure β}
  {rows : α → List (Cell × Stored)} {figures : β → List (Cell × Coins)}
  (exact_load : ∀ t, Exact (rows (query t)) ((load (query t)).map figures))
include exact_load

/-- A query on a given connection. -/
theorem readsExactly_select (s : Session) :
    ReadsExactly ((s.select f k query).1.toOption.map rows) (rows (query s.seen))
      ((thenLoad load (s.select f k query)).1.map figures) := by
  cases answer : (s.select f k query).1 with
  | error e =>
    intro _ given
    rw [thenLoad, worded, answer] at given
    cases given
  | ok a =>
    obtain rfl := select_eq_ok answer
    rw [thenLoad, worded, answer]
    exact ⟨rfl, exact_load s.seen⟩

/-- A query on a connection of its own. -/
theorem readsExactly_onConnection (s : Session) :
    ReadsExactly ((fetched? p f k query s).map rows) (rows (query s.tables))
      ((onConnection p (fun s => thenLoad load (s.select f k query)) s).1.map figures) := by
  unfold fetched? onConnection
  cases p.checkout with
  | error e => exact fun _ given => by cases given
  | ok _ => exact readsExactly_select exact_load s.reconnect

end

/-- **What reaches the use cases is what is stored**, and no amount that is stored as a negative
number does. -/
theorem exact (x : Exchange) : ReadsExactly (x.returned? p f) x.stored (x.figures d p f) := by
  have nothing : ∀ {α : Type} (r : Except StorageFailure α),
      ReadsExactly none [] (r.map fun _ => []) := by
    rintro α (e | a) figures given <;> cases given
    rfl
  cases x with
  | statement q s =>
    cases q with
    | lockBalance u => exact readsExactly_select (fun t => exact_loadOptional u _) s
    | lockBalances us => exact readsExactly_select (fun t => exact_loadRows _) s
    | decrement u amount => exact nothing _
    | increment u amount => exact nothing _
    | insertPurchase purchase => exact nothing _
    | insertTransfer t => exact nothing _
  | call c s =>
    cases c with
    | insertIfAbsent u seed => exact nothing _
    | findBalance u => exact readsExactly_onConnection (fun t => exact_loadOptional u _) s
    | findGood name => exact readsExactly_onConnection (fun t => exact_loadGood _) s
    | inventory u => exact nothing _
    | transfers u =>
      refine readsExactly_onConnection (fun t => exact_splitTransfers u fun r hr => ?_) s
      simpa using (List.mem_filter.1 hr).2
    | resolveUser name => exact nothing (.ok ())
    | resolveNames us => exact nothing (.ok ())

/-- **What is sent to the database is what was asked for.** -/
theorem sends (x : Exchange) : x.Sends d p f := by
  cases x with
  | statement q s =>
    cases q with
    | decrement u amount =>
      exact sent_of_store (fun n h => by simp only [Database.statement, h])
        fun e h => by simp only [Database.statement, h]
    | increment u amount =>
      exact sent_of_store (fun n h => by simp only [Database.statement, h])
        fun e h => by simp only [Database.statement, h]
    | insertTransfer t =>
      exact sent_of_store (fun n h => by simp only [Database.statement, h])
        fun e h => by simp only [Database.statement, h]
    | _ => trivial
  | call c s =>
    cases c with
    | insertIfAbsent u seed =>
      exact sent_of_store (fun n h => by simp only [Database.call, h])
        fun e h => by simp only [Database.call, h]
    | _ => trivial

end Exchange

end Database

end CoinLedger
