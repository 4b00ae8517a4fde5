import CoinLedger.Proofs.Database.Reading
import CoinLedger.Proofs.Database.Room
import Mathlib.Data.List.Infix

/-!
# The database refines the store in memory

Tables that read as a store (`Tables.Reads`) go on doing so: a statement that fits answers as the
store answers, and what it leaves reads as what the store becomes.  This is lifted from statements
to units of work, from units to transactions, from calls and transactions to use cases, and from
use cases to commands served one after the other.

A transaction works on tables of its own, so its steps are followed on these (`Session.WorksOn`).
They take the place of the committed tables only with the commit, and after a rollback the
committed ones still read as the store that the unit was begun in.

The database is taken to be within reach and to do what its statements mean; nothing is assumed of
the connection that a command finds.

## Main definitions

* `Session.WorksOn` — a connection in the middle of a sound transaction.
* `Backing.serve` — commands served one after the other.

## Main results

* `runOn_reads`, `transact_reads` — a unit of work inside its transaction, and around it.
* `UseCase.runOn_reads` — use cases.
* `serve_refines` — any sequence of commands.
-/

namespace CoinLedger

namespace Database

open Tables

/-! ## Statements -/

/-- Whether a connection is in the middle of a sound transaction on given tables. -/
structure Session.WorksOn (s : Session) (t : Tables) : Prop where
  connected : s.connected = true
  transaction : s.transaction = some { tables := t }

theorem Session.WorksOn.execute {s : Session} {t t' : Tables} (h : s.WorksOn t) {α : Type}
    {effect : Tables → Except SqlState (α × Tables)} {a : α} (he : effect t = .ok (a, t'))
    (k : Kind) :
    ∃ s', s.execute Faults.none k effect = (.ok a, s') ∧ s'.WorksOn t' ∧ s'.tables = s.tables := by
  refine ⟨{ s.receive k with transaction := some { tables := t' } }, ?_, ⟨h.connected, rfl⟩, rfl⟩
  have open_transaction : (s.receive k).transaction = some { tables := t } := h.transaction
  simp [Session.execute, h.connected, Session.fault?, Faults.none, Session.apply,
    open_transaction, he]

theorem Session.WorksOn.select {s : Session} {t : Tables} (h : s.WorksOn t) {α : Type}
    (query : Tables → α) (k : Kind) :
    ∃ s', s.select Faults.none k query = (.ok (query t), s') ∧ s'.WorksOn t ∧
      s'.tables = s.tables :=
  h.execute rfl k

theorem Session.reconnect_execute (s : Session) {t' : Tables} {α : Type}
    {effect : Tables → Except SqlState (α × Tables)} {a : α} (he : effect s.tables = .ok (a, t'))
    (k : Kind) :
    ∃ s', s.reconnect.execute Faults.none k effect = (.ok a, s') ∧ s'.tables = t' := by
  refine ⟨{ s.reconnect.receive k with tables := t' }, ?_, rfl⟩
  simp [Session.execute, Session.fault?, Faults.none, Session.apply, Session.reconnect,
    Session.receive, he]

theorem Session.reconnect_select (s : Session) {α : Type} (query : Tables → α) (k : Kind) :
    ∃ s', s.reconnect.select Faults.none k query = (.ok (query s.tables), s') ∧
      s'.tables = s.tables :=
  s.reconnect_execute rfl k

/-- A connection whose transaction has just been opened. -/
def Session.begun (s : Session) : Session :=
  { s.reconnect.receive .begin with transaction := some { tables := s.tables } }

theorem Session.begin_reconnect (s : Session) :
    s.reconnect.begin Faults.none = (.ok (), s.begun) := rfl

theorem Session.begun_worksOn (s : Session) : s.begun.WorksOn s.tables := ⟨rfl, rfl⟩

theorem statement_reads {s : Session} {t : Tables} {m : Store} (h : s.WorksOn t)
    (reads : t.Reads m) {q : Statement} (fits : q.Fits m) :
    ∃ s' t', statement Faults.none q s = ((Store.statement q m).1, s') ∧ s'.WorksOn t' ∧
      s'.tables = s.tables ∧ t'.Reads (Store.statement q m).2 := by
  cases q with
  | lockBalance u =>
    obtain ⟨s', hs, works, tables⟩ := h.select (Tables.findBalance u) .lockBalance
    refine ⟨s', t, ?_, works, tables, reads⟩
    rw [Database.statement, hs, ← reads.ledger]
    exact Prod.ext (loadOptional_findBalance reads.lawful u) rfl
  | lockBalances us =>
    obtain ⟨s', hs, works, tables⟩ := h.select (Tables.findBalances us) .lockBalances
    refine ⟨s', t, ?_, works, tables, reads⟩
    rw [Database.statement, hs, ← reads.ledger]
    exact Prod.ext (loadRows_findBalances reads.lawful us) rfl
  | decrement u amount =>
    obtain ⟨n, hn⟩ := exists_toStored? fits
    obtain ⟨t', ht, reads'⟩ := reads.decrement u hn
    obtain ⟨s', hs, works, tables⟩ := h.execute ht .decrement
    refine ⟨s', t', ?_, works, tables, reads'⟩
    simp only [Database.statement, store, hn, hs]
    rfl
  | increment u amount =>
    obtain ⟨storable, room⟩ := fits
    obtain ⟨n, hn⟩ := exists_toStored? storable
    obtain ⟨k, t', ht, hk, reads'⟩ := reads.increment u hn room
    obtain ⟨s', hs, works, tables⟩ := h.execute ht .increment
    refine ⟨s', t', ?_, works, tables, reads'⟩
    simp only [Database.statement, store, hn, hs, Store.statement, hk]
    rfl
  | insertPurchase p =>
    obtain ⟨k, t', ht, reads'⟩ := reads.insertPurchase fits
    obtain ⟨s', hs, works, tables⟩ := h.execute ht .insertPurchase
    refine ⟨s', t', ?_, works, tables, reads'⟩
    simp only [Database.statement, hs]
    rfl
  | insertTransfer e =>
    obtain ⟨positive, storable, parties⟩ := fits
    obtain ⟨n, hn⟩ := exists_toStored? storable
    obtain ⟨k, t', ht, reads'⟩ := reads.insertTransfer hn positive parties
    obtain ⟨s', hs, works, tables⟩ := h.execute ht .insertTransfer
    refine ⟨s', t', ?_, works, tables, reads'⟩
    simp only [Database.statement, store, hn, hs]
    rfl

/-! ## Units of work -/

theorem runOn_reads {ε α : Type} {w : Work ε α} {s : Session} {t : Tables} {m : Store}
    (h : s.WorksOn t) (reads : t.Reads m) (fits : w.Fits m) :
    ∃ s' t', w.runOn (statement Faults.none) s = ((w.runOn Store.statement m).1, s') ∧
      s'.WorksOn t' ∧ s'.tables = s.tables ∧ t'.Reads (w.runOn Store.statement m).2 := by
  induction w generalizing s t m with
  | done r => exact ⟨s, t, rfl, h, rfl, reads⟩
  | ask q next ih =>
    obtain ⟨s₁, t₁, answered, works, tables, reads₁⟩ := statement_reads h reads fits.1
    obtain ⟨s₂, t₂, ran, works₂, tables₂, reads₂⟩ := ih _ works reads₁ fits.2
    refine ⟨s₂, t₂, ?_, works₂, tables₂.trans tables, reads₂⟩
    rw [Work.runOn_ask, answered]
    exact ran

variable {p : Pool} (reachable : p.reachable = true)
include reachable

theorem checkout_reachable : p.checkout = .ok () := if_pos reachable

/-- Work that fails on a sound connection is rolled back, and the tables are as before. -/
theorem transact_failed {w : Work LedgerError Unit} {s s₂ : Session} {e : LedgerError}
    (ran : w.runOn (statement Faults.none) s.begun = (.error e, s₂))
    (connected : s₂.connected = true) (tables : s₂.tables = s.tables) :
    ∃ s', transact p Faults.none w s = (.error e, s') ∧ s'.tables = s.tables := by
  refine ⟨(s₂.rollback Faults.none).2, ?_, ?_⟩
  · simp only [transact, conclude, checkout_reachable reachable, Session.begin_reconnect, ran]
    rfl
  · rw [← tables]
    simp [Session.rollback, connected, Session.fault?, Faults.none, Session.discard,
      Session.receive]

/-- Work that succeeds is committed, and its tables take the place of those before. -/
theorem transact_committed {w : Work LedgerError Unit} {s s₂ : Session} {t : Tables}
    (ran : w.runOn (statement Faults.none) s.begun = (.ok (), s₂)) (works : s₂.WorksOn t) :
    ∃ s', transact p Faults.none w s = (.ok (), s') ∧ s'.tables = t := by
  have open_transaction : (s₂.receive .commit).transaction = some { tables := t } :=
    works.transaction
  have committed : s₂.commit Faults.none = (.ok (), (s₂.receive .commit).keep) := by
    simp [Session.commit, works.connected, Session.fault?, Faults.none]
  refine ⟨(s₂.receive .commit).keep, ?_, by simp [Session.keep, open_transaction]⟩
  simp only [transact, conclude, checkout_reachable reachable, Session.begin_reconnect, ran,
    committed]
  rfl

theorem transact_reads {w : Work LedgerError Unit} {s : Session} {m : Store}
    (reads : s.tables.Reads m) (fits : w.Fits m) :
    ∃ s', transact p Faults.none w s = ((w.commitIfOk m).1, s') ∧
      s'.tables.Reads (w.commitIfOk m).2 := by
  obtain ⟨s₂, t₂, ran, works, tables, reads₂⟩ := runOn_reads s.begun_worksOn reads fits
  unfold Work.commitIfOk
  rcases hw : w.runOn Store.statement m with ⟨e | a, m'⟩
  · rw [hw] at ran
    obtain ⟨s', ended, kept⟩ := transact_failed reachable ran works.connected tables
    exact ⟨s', ended, by rw [kept]; exact reads⟩
  · rw [hw] at ran reads₂
    obtain ⟨s', ended, written⟩ := transact_committed reachable ran works
    exact ⟨s', ended, by rw [written]; exact reads₂⟩

/-! ## Calls -/

/-- A query on a connection of its own is answered from the tables, which it leaves alone. -/
theorem onConnection_select {α β : Type} (s : Session) (query : Tables → α) (k : Kind)
    (read : Session → α → Except StorageFailure β) :
    ∃ s', onConnection p (fun s => thenLoad (read s) (s.select Faults.none k query)) s =
        (read s.reconnect (query s.tables), s') ∧ s'.tables = s.tables := by
  obtain ⟨s', hs, tables⟩ := s.reconnect_select query k
  refine ⟨s', ?_, tables⟩
  simp only [onConnection, checkout_reachable reachable, hs]
  rfl

theorem call_reads (d : Directory) {s : Session} {m : Store} (reads : s.tables.Reads m) {c : Call}
    (fits : c.Fits) :
    ∃ s', call d p Faults.none c s = ((Store.call d c m).1, s') ∧
      s'.tables.Reads (Store.call d c m).2 := by
  cases c with
  | insertIfAbsent u seed =>
    obtain ⟨n, hn⟩ := exists_toStored? fits
    obtain ⟨k, t', ht, reads'⟩ := reads.insertBalance u hn
    obtain ⟨s', hs, tables⟩ := s.reconnect_execute ht .insertBalance
    refine ⟨s', ?_, by rw [tables]; exact reads'⟩
    simp only [call, store, hn, onConnection, checkout_reachable reachable, hs]
    rfl
  | findBalance u =>
    obtain ⟨s', hs, tables⟩ := onConnection_select reachable s (Tables.findBalance u) .findBalance
      fun _ => loadOptional
    have loaded := loadOptional_findBalance reads.lawful u
    rw [reads.ledger] at loaded
    exact ⟨s', hs.trans (Prod.ext loaded rfl), by rw [tables]; exact reads⟩
  | findGood name =>
    obtain ⟨s', hs, tables⟩ := s.reconnect_select (Tables.findGood name) .findGood
    have loaded := loadGood_findGood reads.lawful name
    rw [reads.ledger] at loaded
    refine ⟨s', ?_, by rw [tables]; exact reads⟩
    simp only [call, onConnection, checkout_reachable reachable, hs]
    exact Prod.ext loaded rfl
  | inventory u =>
    obtain ⟨s', hs, tables⟩ := onConnection_select reachable s (Tables.countPurchases u) .inventory
      fun s rows => loadInventory (changeCounts Faults.none s rows)
    have loaded := loadInventory_countPurchases s.tables u
    rw [reads.ledger] at loaded
    exact ⟨s', hs.trans (Prod.ext loaded rfl), by rw [tables]; exact reads⟩
  | transfers u =>
    obtain ⟨s', hs, tables⟩ := onConnection_select reachable s (Tables.findTransfers u) .transfers
      fun _ => splitTransfers u
    have loaded := splitTransfers_findTransfers reads.lawful u
    rw [reads.ledger] at loaded
    exact ⟨s', hs.trans (Prod.ext loaded rfl), by rw [tables]; exact reads⟩
  | resolveUser name => exact ⟨s, rfl, reads⟩
  | resolveNames us => exact ⟨s, rfl, reads⟩

theorem gather_reads (d : Directory) {s : Session} {m : Store} (reads : s.tables.Reads m)
    (u : UserId) :
    ∃ s', (backing d p Faults.none).gather u s = (((Backing.memory d).gather u m).1, s') ∧
      s'.tables.Reads ((Backing.memory d).gather u m).2 := by
  obtain ⟨s₁, h₁, reads₁⟩ := call_reads reachable d reads (c := .findBalance u) trivial
  obtain ⟨s₂, h₂, reads₂⟩ := call_reads reachable d reads₁ (c := .inventory u) trivial
  obtain ⟨s₃, h₃, reads₃⟩ := call_reads reachable d reads₂ (c := .transfers u) trivial
  have together : arrivals p = {} := if_pos reachable
  refine ⟨s₃, ?_, reads₃⟩
  simp only [Backing.gather, backing, h₁, h₂, h₃, together]
  rfl

end Database

/-! ## Use cases -/

open Database

theorem UseCase.runOn_reads {α : Type} {p : Pool} (reachable : p.reachable = true) (d : Directory)
    {u : UseCase α} {s : Session} {m : Store} (reads : s.tables.Reads m) (fits : u.Fits d m) :
    ∃ s', u.runOn (backing d p Faults.none) s = ((u.runOn (Backing.memory d) m).1, s') ∧
      s'.tables.Reads (u.runOn (Backing.memory d) m).2 := by
  induction u generalizing s m with
  | done r => exact ⟨s, rfl, reads⟩
  | call c next ih =>
    obtain ⟨s₁, answered, reads₁⟩ := call_reads reachable d reads fits.1
    obtain ⟨s₂, ran, reads₂⟩ := ih _ reads₁ fits.2
    refine ⟨s₂, ?_, reads₂⟩
    simp only [UseCase.runOn, backing, answered]
    exact ran
  | transact w next ih =>
    obtain ⟨s₁, ended, reads₁⟩ := transact_reads reachable reads fits.1
    obtain ⟨s₂, ran, reads₂⟩ := ih _ reads₁ fits.2
    refine ⟨s₂, ?_, reads₂⟩
    simp only [UseCase.runOn, backing, ended]
    exact ran
  | gather user next ih =>
    obtain ⟨s₁, gathered, reads₁⟩ := gather_reads reachable d reads user
    obtain ⟨s₂, ran, reads₂⟩ := ih _ reads₁ fits
    refine ⟨s₂, ?_, reads₂⟩
    simp only [UseCase.runOn, gathered]
    exact ran

/-! ## Commands in turn -/

/-- Serves commands one after the other, each of them a run of its own. -/
def Backing.serve {σ : Type} (p : Backing σ) (seed : Coins) :
    List Command → σ → List (Except LedgerError (Option AccountInfo)) × σ
  | [], w => ([], w)
  | c :: rest, w =>
    let (outcome, w₁) := (c.program seed).runOn p w
    let (outcomes, w₂) := p.serve seed rest w₁
    (outcome :: outcomes, w₂)

namespace Database

/-- What has been stored can be stored. -/
theorem Tables.Reads.storable {t : Tables} {m : Store} (reads : t.Reads m) :
    m.Storable ∧ ∀ g ∈ m.goods, g.price.Storable := by
  constructor
  · intro u balance hu
    rw [reads.balance?] at hu
    obtain ⟨n, -, rfl⟩ := Option.map_eq_some_iff.1 hu
    exact toNat_amountOf_lt n
  · intro g hg
    rw [← reads.ledger] at hg
    obtain ⟨r, -, rfl⟩ := List.mem_map.1 hg
    exact toNat_amountOf_lt r.price

theorem serve_reads {p : Pool} (reachable : p.reachable = true) (d : Directory) {seed : Coins}
    (hseed : seed.Storable) {commands : List Command} {s : Session} {m : Store}
    (reads : s.tables.Reads m)
    (storable : ∀ served, served <+: commands →
      ((Backing.memory d).serve seed served m).2.Storable) :
    ∃ s', (backing d p Faults.none).serve seed commands s =
        (((Backing.memory d).serve seed commands m).1, s') ∧
      s'.tables.Reads ((Backing.memory d).serve seed commands m).2 := by
  induction commands generalizing s m with
  | nil => exact ⟨s, rfl, reads⟩
  | cons c rest ih =>
    have after : ((c.program seed).runOn (Backing.memory d) m).2.Storable :=
      storable [c] (List.prefix_append [c] rest)
    have fits := c.program_fits hseed reads.storable.2 reads.storable.1 after
    obtain ⟨s₁, ran, reads₁⟩ := UseCase.runOn_reads reachable d reads fits
    obtain ⟨s₂, served, reads₂⟩ := ih reads₁ fun done hdone =>
      storable (c :: done) ((List.prefix_cons_inj c).2 hdone)
    refine ⟨s₂, ?_, reads₂⟩
    rw [Backing.serve, ran]
    dsimp only
    rw [served]
    rfl

/-- **The database refines the store in memory.**  Commands that are served over lawful tables come
to what they come to over the store that the tables read as, and leave lawful tables that read as
the store that is left there, as long as no balance outgrows its column. -/
theorem serve_refines {p : Pool} (reachable : p.reachable = true) (d : Directory) {seed : Coins}
    (hseed : seed.Storable) (commands : List Command) {s : Session} (lawful : s.tables.Lawful)
    (storable : ∀ served, served <+: commands →
      ((Backing.memory d).serve seed served s.tables.ledger).2.Storable) :
    let real := (backing d p Faults.none).serve seed commands s
    let memory := (Backing.memory d).serve seed commands s.tables.ledger
    real.1 = memory.1 ∧ real.2.tables.ledger = memory.2 ∧ real.2.tables.Lawful := by
  obtain ⟨s', served, reads⟩ := serve_reads reachable d hseed ⟨lawful, rfl⟩ storable
  dsimp only
  rw [served]
  exact ⟨rfl, reads.ledger, reads.lawful⟩

/-- A shop that sells a cup, with two customers. -/
def cupShop : Tables where
  balances := SortedMap.ofList [(⟨1⟩, 50), (⟨2⟩, 9223372036854775000)]
  goods := [⟨⟨1⟩, "cup", 20⟩]

theorem lawful_cupShop : cupShop.Lawful where
  balances := by decide
  prices := by decide
  goodIds := by decide
  goodNames := by decide
  purchases := by decide
  amounts := by decide
  parties := by decide

/-- The names of the customers, and of somebody without a row. -/
def cupNames : Directory := Directory.ofList [(⟨1⟩, "alice"), (⟨2⟩, "bob"), (⟨3⟩, "carol")]

/-- A transfer to a third user, who thereby gets a row, then a purchase and two refusals, and what
is left in the end. -/
def cupCommands : List Command :=
  [.sendCoins ⟨1⟩ ⟨"carol", by decide⟩ ⟨30⟩, .buyItem ⟨1⟩ "cup", .buyItem ⟨1⟩ "cup",
    .sendCoins ⟨2⟩ ⟨"carol", by decide⟩ ⟨9223372036854775808⟩, .accountInfo ⟨1⟩]

/-- At the cup shop the first two commands go through and the next two are refused, over the
database as in memory. -/
theorem serve_refines_cupShop :
    cupShop.Lawful ∧
    (∀ served, served <+: cupCommands →
      ((Backing.memory cupNames).serve ⟨1000⟩ served cupShop.ledger).2.Storable) ∧
    let real := (backing cupNames ⟨{ url := "" }, true⟩ Faults.none).serve ⟨1000⟩ cupCommands
      { tables := cupShop }
    real.1 = [.ok none, .ok none, .error (.insufficientBalance ⟨1⟩),
      .error (.insufficientBalance ⟨2⟩),
      .ok (some
        { balance := ⟨0⟩, inventory := SortedMap.ofList [("cup", 1)]
          incoming := [], outgoing := [⟨"carol", ⟨30⟩⟩] })] ∧
    real.2.tables.ledger.balances =
      SortedMap.ofList [(⟨1⟩, ⟨0⟩), (⟨2⟩, ⟨9223372036854775000⟩), (⟨3⟩, ⟨1030⟩)] := by
  have storable : ∀ served, served <+: cupCommands →
      ((Backing.memory cupNames).serve ⟨1000⟩ served cupShop.ledger).2.Storable := by
    have each : ∀ served ∈ cupCommands.inits,
        ((Backing.memory cupNames).serve ⟨1000⟩ served cupShop.ledger).2.Storable := by
      decide +kernel
    exact fun served h => each served ((List.mem_inits served cupCommands).2 h)
  have seed : Coins.Storable ⟨1000⟩ := by decide
  obtain ⟨outcomes, tables, -⟩ := serve_refines (p := ⟨{ url := "" }, true⟩) rfl cupNames seed
    cupCommands (s := { tables := cupShop }) lawful_cupShop storable
  refine ⟨lawful_cupShop, storable, ?_, ?_⟩
  · rw [outcomes]
    decide +kernel
  · rw [tables]
    decide +kernel

end Database

end CoinLedger
