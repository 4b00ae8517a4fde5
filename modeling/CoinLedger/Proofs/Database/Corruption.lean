import CoinLedger.Command
import CoinLedger.Proofs.Database.Coordination
import CoinLedger.Proofs.Database.Exchanges
import CoinLedger.Proofs.Ledger.Gathering
import CoinLedger.Proofs.Ledger.Operations
import CoinLedger.Proofs.Ledger.Redaction

/-!
# Corrupt rows never become money

The schema keeps negative numbers out of the tables, but a use case does not know how the rows it
reads came there.  So the database may hold anything here.  A run is taken apart into its exchanges
with the database, each at the state of the database that it meets (`UseCase.exchanges`); that a
single exchange does not bend an amount is known of all of them.

What is left is what becomes of the run.  An exchange that returns a negative amount fails.  All use
cases are such that a failure ends them, so a unit of work is not committed after it, and nothing is
written any more: the tables stay as that exchange has met them (`UseCase.halts`).  It remains to be
seen what may have been written before, and this is the only place where the commands are looked at
one by one (`Command.makes`).

## Main definitions

* `UseCase.exchanges` — the exchanges of a run.
* `Exchange.Corrupt` — a negative amount among the rows returned.
* `UseCase.Halted` — how a run ends that meets one.
* `Command.Makes` — what is known of the exchanges of a command, whatever the database holds.

## Main results

* `UseCase.halts` — a corrupt row ends every use case, and all writing.
* `Command.corruption_contained` — the four commands.
-/

namespace CoinLedger

namespace Database

/-! ## Exchanges with a negative amount -/

namespace Exchange

/-- The database that the exchange meets. -/
def session : Exchange → Session
  | .statement _ s => s
  | .call _ s => s

section
variable (d : Directory) (p : Pool) (f : Faults)

/-- Whether a negative amount is among the rows returned. -/
def Corrupt (x : Exchange) : Prop :=
  ∃ rows, x.returned? p f = some rows ∧ ∃ row ∈ rows, row.2.toInt < 0

/-- With which error one of the reads of an account fails. -/
def FailsAs (e : LedgerError) : Exchange → Prop
  | .call (.findBalance u) s =>
    requireBalance u (Database.call d p f (.findBalance u) s).1 = .error e
  | .call (.inventory u) s => requireHistory (Database.call d p f (.inventory u) s).1 = .error e
  | .call (.transfers u) s => requireHistory (Database.call d p f (.transfers u) s).1 = .error e
  | _ => False

end

variable {d : Directory} {p : Pool} {f : Faults}

theorem Corrupt.figures {x : Exchange} (h : x.Corrupt p f) :
    x.figures d p f = .error negativeStored := by
  obtain ⟨rows, returned, negative⟩ := h
  have read := x.exact (d := d) (p := p) (f := f)
  rw [returned] at read
  exact read.2.corrupt negative

theorem eq_error_of_map {ε α β : Type} {r : Except ε α} {g : α → β} {e : ε}
    (h : r.map g = .error e) : r = .error e := by
  cases r <;> cases h
  rfl

theorem Corrupt.statement {q : Statement} {s : Session} (h : (Exchange.statement q s).Corrupt p f) :
    (Database.statement f q s).1 = .error negativeStored := by
  have failed := h.figures (d := SortedMap.empty)
  cases q <;> exact eq_error_of_map failed

end Exchange

/-! ## Calls and the tables -/

theorem Session.select_tables (s : Session) (f : Faults) {α : Type} (k : Kind)
    (query : Tables → α) : (s.select f k query).2.tables = s.tables := by
  obtain ⟨tables, received, connected, transaction⟩ := s
  unfold Session.select Session.execute
  split
  · split
    · rfl
    · rfl
    · rcases transaction with _ | ⟨own, _ | _⟩ <;> rfl
  · rfl

theorem onConnection_tables {α : Type} {p : Pool}
    {send : Session → Except StorageFailure α × Session}
    (kept : ∀ s, (send s).2.tables = s.tables) (s : Session) :
    (onConnection p send s).2.tables = s.tables := by
  unfold onConnection
  split
  · rfl
  · exact kept s.reconnect

/-- Only the creation of a row may change the tables. -/
theorem call_tables (d : Directory) (p : Pool) (f : Faults) {c : Call}
    (h : ∀ u seed, c ≠ .insertIfAbsent u seed) (s : Session) :
    (call d p f c s).2.tables = s.tables := by
  cases c with
  | insertIfAbsent u seed => exact absurd rfl (h u seed)
  | findBalance u => exact onConnection_tables (fun s => s.select_tables f _ _) s
  | findGood name => exact onConnection_tables (fun s => s.select_tables f _ _) s
  | inventory u => exact onConnection_tables (fun s => s.select_tables f _ _) s
  | transfers u => exact onConnection_tables (fun s => s.select_tables f _ _) s
  | resolveUser name => rfl
  | resolveNames us => rfl

/-- A call that returns a negative amount fails, and changes nothing. -/
theorem Exchange.Corrupt.call {d : Directory} {p : Pool} {f : Faults} {c : Call} {s : Session}
    (h : (Exchange.call c s).Corrupt p f) :
    ∃ e s', Database.call d p f c s = (.error e, s') ∧ s'.tables = s.tables := by
  have failed := h.figures (d := d)
  have read : ∀ u seed, c ≠ .insertIfAbsent u seed := by
    rintro u seed rfl
    obtain ⟨rows, returned, -⟩ := h
    cases returned
  have error : ∃ e, (Database.call d p f c s).1 = .error e := by
    cases c with
    | resolveUser name => cases failed
    | resolveNames us => cases failed
    | _ => exact ⟨_, eq_error_of_map failed⟩
  obtain ⟨e, failed⟩ := error
  exact ⟨e, _, Prod.ext failed rfl, call_tables d p f read s⟩

/-- Outside a transaction a statement that succeeds has its effect on the tables. -/
theorem Session.execute_ok {α : Type} {s s' : Session} (free : s.transaction = none) {f : Faults}
    {k : Kind} {effect : Tables → Except SqlState (α × Tables)} {a : α}
    (h : s.execute f k effect = (.ok a, s')) : effect s.tables = .ok (a, s'.tables) := by
  obtain ⟨tables, received, connected, transaction⟩ := s
  obtain rfl : transaction = none := free
  unfold Session.execute at h
  split at h
  · split at h
    · cases h
    · cases h
    · simp only [Session.apply, Session.receive] at h
      split at h
      · next done =>
        cases h
        exact done
      · cases h
  · cases h

/-- A row that is created is created with the seed. -/
theorem call_insertIfAbsent {d : Directory} {p : Pool} {f : Faults} {u : UserId} {seed : Coins}
    {s s' : Session} (h : call d p f (.insertIfAbsent u seed) s = (.ok (), s')) :
    ∃ (n : Stored) (k : Nat), n.toInt = seed.toNat ∧
      s.tables.insertBalance u n = .ok (k, s'.tables) := by
  rcases store_cases seed with ⟨n, hn, stored⟩ | ⟨-, refused⟩
  · simp only [call, stored, onConnection] at h
    split at h
    · cases h
    · rcases sent : s.reconnect.execute f .insertBalance (Tables.insertBalance u n) with ⟨e | k, s₁⟩
      · rw [sent] at h
        cases h
      · rw [sent] at h
        cases h
        exact ⟨n, k, hn, Session.execute_ok (s := s.reconnect) rfl sent⟩
  · simp only [call, refused] at h
    cases h

/-! ## Units of work -/

/-- The database with the three reads of an account finished in any order. -/
def backingAt (d : Directory) (p : Pool) (f : Faults) (a : Arrivals) : Backing Session :=
  { backing d p f with arrivals := a }

end Database

open Database

namespace Work

variable {ε α : Type} {p : Pool} {f : Faults}

/-- The statements of a unit in turn, as exchanges. -/
def exchanges (f : Faults) : Work ε α → Session → List Exchange
  | done _, _ => []
  | ask q next, s =>
    .statement q s :: (next (statement f q s).1).exchanges f (statement f q s).2

/-- The exchanges of a unit in its transaction; there are none if it is not opened. -/
def unitExchanges (p : Pool) (f : Faults) (w : Work ε α) (s : Session) : List Exchange :=
  match p.checkout with
  | .error _ => []
  | .ok () =>
    match s.reconnect.begin f with
    | (.error _, _) => []
    | (.ok (), s₁) => w.exchanges f s₁

/-- What comes after a statement is of the same kind, since an error is. -/
theorem FaultsOnFailure.after {q : Statement}
    {next : Except StorageFailure q.Answer → Work LedgerError α} (h : (ask q next).FaultsOnFailure)
    (r : Except StorageFailure q.Answer) : (next r).FaultsOnFailure := by
  cases r with
  | ok a => exact h.2 a
  | error e =>
    obtain ⟨g, ended⟩ := h.1 e
    rw [ended]
    trivial

/-- A corrupt row ends a unit with a fault. -/
theorem runOn_of_corrupt {w : Work LedgerError α} (hw : w.FaultsOnFailure) {s : Session}
    {x : Exchange} (hx : x ∈ w.exchanges f s) (corrupt : x.Corrupt p f) :
    ∃ g, (w.runOn (statement f) s).1 = .error (.internal g) := by
  induction w generalizing s with
  | done r => exact absurd hx List.not_mem_nil
  | ask q next ih =>
    rw [runOn_ask]
    rcases List.mem_cons.1 hx with rfl | later
    · obtain ⟨g, ended⟩ := hw.1 negativeStored
      rw [corrupt.statement, ended]
      exact ⟨g, rfl⟩
    · exact ih _ (hw.after _) later

/-- The statements of a unit do not see the tables change that are committed. -/
theorem exchanges_tables (w : Work ε α) {s : Session} (h : s.Guarded) :
    ∀ x ∈ w.exchanges f s, x.session.tables = s.tables := by
  induction w generalizing s with
  | done r => exact fun x hx => absurd hx List.not_mem_nil
  | ask q next ih =>
    intro x hx
    obtain ⟨guarded, kept⟩ := h.statement f q
    rcases List.mem_cons.1 hx with rfl | later
    · rfl
    · exact (ih _ guarded x later).trans kept

theorem mem_unitExchanges {w : Work ε α} {s : Session} {x : Exchange} :
    x ∈ w.unitExchanges p f s ↔ ∃ s₁, p.checkout = .ok () ∧
      s.reconnect.begin f = (.ok (), s₁) ∧ x ∈ w.exchanges f s₁ := by
  unfold unitExchanges
  rcases p.checkout with e | ⟨⟩
  · simp
  · rcases s.reconnect.begin f with ⟨e | ⟨⟩, s₁⟩ <;> simp

theorem unitExchanges_tables (w : Work ε α) (s : Session) :
    ∀ x ∈ w.unitExchanges p f s, x.session.tables = s.tables := by
  intro x hx
  obtain ⟨s₁, -, opened, hx⟩ := mem_unitExchanges.1 hx
  have kept := s.reconnect.begin_tables f
  rw [opened] at kept
  exact (w.exchanges_tables (Session.begin_guarded opened) x hx).trans kept

/-- A transaction that meets a corrupt row is rolled back. -/
theorem transact_of_corrupt {w : Work LedgerError Unit} (hw : w.FaultsOnFailure) {s : Session}
    {x : Exchange} (hx : x ∈ w.unitExchanges p f s) (corrupt : x.Corrupt p f) :
    ∃ g, (transact p f w s).1 = .error (.internal g) ∧
      (transact p f w s).2.tables = s.tables := by
  obtain ⟨s₁, taken, opened, hx⟩ := mem_unitExchanges.1 hx
  obtain ⟨g, ended⟩ := runOn_of_corrupt hw hx corrupt
  have ending : (Database.conclude p f w s).1 = .failed (.internal g) := by
    rw [Database.conclude, taken, opened]
    dsimp only
    rcases ran : w.runOn (statement f) s₁ with ⟨r, s₂⟩
    rw [ran] at ended
    rw [show r = .error (.internal g) from ended]
  refine ⟨g, congrArg Ending.outcome ending, ?_⟩
  rcases conclude_tables p f w s with ⟨a, committed⟩ | kept
  · rw [ending] at committed
    cases committed
  · exact kept

end Work

namespace UseCase

section
variable {α : Type} (d : Directory) (p : Pool) (f : Faults) (a : Arrivals)

/-- The three reads of an account; each meets what the one before it left. -/
def reads (user : UserId) (s : Session) : List Exchange :=
  let s₁ := (Database.call d p f (.findBalance user) s).2
  let s₂ := (Database.call d p f (.inventory user) s₁).2
  [.call (.findBalance user) s, .call (.inventory user) s₁, .call (.transfers user) s₂]

/-- The exchanges of a run in turn, those of its units among them. -/
def exchanges : UseCase α → Session → List Exchange
  | done _, _ => []
  | call c next, s =>
    .call c s :: (next (Database.call d p f c s).1).exchanges (Database.call d p f c s).2
  | transact w next, s =>
    w.unitExchanges p f s ++
      (next (Database.transact p f w s).1).exchanges (Database.transact p f w s).2
  | gather user next, s =>
    reads d p f user s ++
      (next ((backingAt d p f a).gather user s).1).exchanges ((backingAt d p f a).gather user s).2

end

variable {α β : Type} {d : Directory} {p : Pool} {f : Faults} {a : Arrivals}

theorem mem_exchanges_ask_bind {c : Call} {k : c.Answer → UseCase β} {s : Session} {x : Exchange} :
    x ∈ (ask c >>= k).exchanges d p f a s ↔
      x = .call c s ∨ ∃ answer s', Database.call d p f c s = (.ok answer, s') ∧
        x ∈ (k answer).exchanges d p f a s' := by
  rw [ask, call_bind, exchanges, List.mem_cons]
  rcases Database.call d p f c s with ⟨e | answer, s'⟩
  · simp [exchanges]
  · simp

theorem mem_exchanges_ask {c : Call} {s : Session} {x : Exchange} :
    x ∈ (ask c).exchanges d p f a s ↔ x = .call c s := by
  rw [ask, exchanges, List.mem_cons]
  cases (Database.call d p f c s).1 <;> simp [exchanges]

theorem mem_exchanges_inTransaction {w : Work LedgerError Unit} {s : Session} {x : Exchange} :
    x ∈ (inTransaction w).exchanges d p f a s ↔ x ∈ w.unitExchanges p f s := by
  simp [inTransaction, exchanges]

/-- What is made of a result in the end takes no exchange. -/
theorem exchanges_bind_pure (u : UseCase α) (g : α → β) (s : Session) :
    (u >>= fun r => pure (g r)).exchanges d p f a s = u.exchanges d p f a s := by
  induction u generalizing s with
  | done r => cases r <;> rfl
  | call c next ih => exact congrArg _ (ih _ _)
  | transact w next ih => exact congrArg _ (ih _ _)
  | gather user next ih => exact congrArg _ (ih _ _)

theorem FaultsOnFailure.bind_pure {u : UseCase α} (hu : u.FaultsOnFailure) (g : α → β) :
    (u >>= fun r => pure (g r)).FaultsOnFailure := by
  have ends : ∀ {v : UseCase α} {e : LedgerError}, v = done (.error e) →
      (v >>= fun r => pure (g r)) = done (.error e) := by
    rintro _ _ rfl
    rfl
  induction u with
  | done r => cases r <;> trivial
  | call c next ih =>
    refine ⟨fun failure => ?_, fun r => ih (.ok r) (hu.2 r)⟩
    obtain ⟨fault, ended⟩ := hu.1 failure
    exact ⟨fault, ends ended⟩
  | transact w next ih => exact ⟨hu.1, fun e => ends (hu.2.1 e), fun r => ih (.ok r) (hu.2.2 r)⟩
  | gather user next ih => exact ⟨fun e => ends (hu.1 e), fun r => ih (.ok r) (hu.2 r)⟩

/-! ## The end of a run -/

section
variable (d p f a) (user : UserId) (s : Session)

theorem findBalance_tables :
    (Database.call d p f (.findBalance user) s).2.tables = s.tables :=
  call_tables d p f (fun _ _ h => by cases h) s

theorem inventory_tables :
    (Database.call d p f (.inventory user) s).2.tables = s.tables :=
  call_tables d p f (fun _ _ h => by cases h) s

/-- Reading an account leaves the tables alone. -/
theorem gather_tables : ((backingAt d p f a).gather user s).2.tables = s.tables :=
  (call_tables d p f (c := .transfers user) (fun _ _ h => by cases h) _).trans
    ((inventory_tables d p f user _).trans (findBalance_tables d p f user s))

theorem mem_reads {x : Exchange} : x ∈ reads d p f user s ↔
    x = .call (.findBalance user) s ∨
    x = .call (.inventory user) (Database.call d p f (.findBalance user) s).2 ∨
    x = .call (.transfers user) (Database.call d p f (.inventory user)
      (Database.call d p f (.findBalance user) s).2).2 := by
  simp [reads]

theorem reads_tables : ∀ x ∈ reads d p f user s, x.session.tables = s.tables := by
  intro x hx
  obtain rfl | rfl | rfl := (mem_reads d p f user s).1 hx
  · rfl
  · exact findBalance_tables d p f user s
  · exact (inventory_tables d p f user _).trans (findBalance_tables d p f user s)

end

/-- The three reads of an account, joined at the moments at which they are there. -/
def accountReads (d : Directory) (p : Pool) (f : Faults) (a : Arrivals) (user : UserId)
    (s : Session) : AccountReads :=
  let s₁ := (Database.call d p f (.findBalance user) s).2
  let s₂ := (Database.call d p f (.inventory user) s₁).2
  { balance := ⟨(Database.call d p f (.findBalance user) s).1, a.balance⟩
    inventory := ⟨(Database.call d p f (.inventory user) s₁).1, a.inventory⟩
    transfers := ⟨(Database.call d p f (.transfers user) s₂).1, a.transfers⟩ }

/-- A failure of the reads is the failure of one of them. -/
theorem exists_failsAs {user : UserId} {s : Session} {e : LedgerError} {t : Nat}
    (fails : (accountReads d p f a user s).Fails user e t) :
    ∃ y ∈ reads d p f user s, y.FailsAs d p f e := by
  have first := (mem_reads d p f user s).2 (.inl rfl)
  have second := (mem_reads d p f user s).2 (.inr (.inl rfl))
  have third := (mem_reads d p f user s).2 (.inr (.inr rfl))
  cases fails with
  | balance failed => exact ⟨_, first, congrArg (requireBalance user) failed⟩
  | noBalance missing => exact ⟨_, first, congrArg (requireBalance user) missing⟩
  | inventory failed => exact ⟨_, second, congrArg requireHistory failed⟩
  | transfers failed => exact ⟨_, third, congrArg requireHistory failed⟩

/-- The reads of an account fail together if one of them returns a negative amount. -/
theorem gather_of_corrupt {user : UserId} {s : Session} {x : Exchange}
    (hx : x ∈ reads d p f user s) (corrupt : x.Corrupt p f) :
    ∃ e, ((backingAt d p f a).gather user s).1 = .error e ∧
      ∃ y ∈ reads d p f user s, y.FailsAs d p f e := by
  have failure : ∃ e t, (accountReads d p f a user s).Fails user e t := by
    obtain rfl | rfl | rfl := (mem_reads d p f user s).1 hx <;>
      obtain ⟨e, s', failed, -⟩ := corrupt.call (d := d)
    · exact ⟨_, _, .balance (congrArg Prod.fst failed)⟩
    · exact ⟨_, _, .inventory (congrArg Prod.fst failed)⟩
    · exact ⟨_, _, .transfers (congrArg Prod.fst failed)⟩
  obtain ⟨e, t, fails, -, joined⟩ := AccountReads.joined_of_fails failure
  exact ⟨e, congrArg Timed.value joined, exists_failsAs fails⟩

/-- How a run ends that has met a corrupt row in one of its exchanges.  The error is a fault of the
service, or the error of another one of the reads that were made together; nothing is written after
the row has been read. -/
structure Halted (d : Directory) (p : Pool) (f : Faults) (xs : List Exchange) (x : Exchange)
    (run : Except LedgerError α × Session) : Prop where
  failed : ∃ e, run.1 = .error e ∧ ((∃ g, e = .internal g) ∨ ∃ y ∈ xs, y.FailsAs d p f e)
  kept : run.2.tables = x.session.tables

theorem Halted.mono {xs ys : List Exchange} {x : Exchange} {run : Except LedgerError α × Session}
    (h : Halted d p f xs x run) (sub : xs ⊆ ys) : Halted d p f ys x run where
  failed := by
    obtain ⟨e, failed, fault | ⟨y, hy, fails⟩⟩ := h.failed
    · exact ⟨e, failed, .inl fault⟩
    · exact ⟨e, failed, .inr ⟨y, sub hy, fails⟩⟩
  kept := h.kept

theorem FaultsOnFailure.after_call {c : Call} {next : Except c.Failure c.Answer → UseCase α}
    (h : (call c next).FaultsOnFailure) (r : Except c.Failure c.Answer) :
    (next r).FaultsOnFailure := by
  cases r with
  | ok r => exact h.2 r
  | error e =>
    obtain ⟨g, ended⟩ := h.1 e
    rw [ended]
    trivial

theorem FaultsOnFailure.after_transact {w : Work LedgerError Unit}
    {next : Except LedgerError Unit → UseCase α} (h : (transact w next).FaultsOnFailure)
    (r : Except LedgerError Unit) : (next r).FaultsOnFailure := by
  cases r with
  | ok r => exact h.2.2 r
  | error e =>
    rw [h.2.1 e]
    trivial

theorem FaultsOnFailure.after_gather {user : UserId}
    {next : Except LedgerError Holdings → UseCase α} (h : (gather user next).FaultsOnFailure)
    (r : Except LedgerError Holdings) : (next r).FaultsOnFailure := by
  cases r with
  | ok r => exact h.2 r
  | error e =>
    rw [h.1 e]
    trivial

/-- **A corrupt row ends every use case that gives up on a failure.** -/
theorem halts {u : UseCase α} (hu : u.FaultsOnFailure) {s : Session} {x : Exchange}
    (hx : x ∈ u.exchanges d p f a s) (corrupt : x.Corrupt p f) :
    Halted d p f (u.exchanges d p f a s) x (u.runOn (backingAt d p f a) s) := by
  induction u generalizing s with
  | done r => exact absurd hx List.not_mem_nil
  | call c next ih =>
    show Halted d p f _ x ((next (Database.call d p f c s).1).runOn (backingAt d p f a)
      (Database.call d p f c s).2)
    rcases List.mem_cons.1 hx with rfl | later
    · obtain ⟨e, s', failed, kept⟩ := corrupt.call (d := d)
      obtain ⟨g, ended⟩ := hu.1 e
      rw [failed, ended]
      exact ⟨⟨_, rfl, .inl ⟨g, rfl⟩⟩, kept⟩
    · exact (ih _ (hu.after_call _) later).mono (List.subset_cons_self _ _)
  | transact w next ih =>
    show Halted d p f _ x ((next (Database.transact p f w s).1).runOn (backingAt d p f a)
      (Database.transact p f w s).2)
    rcases List.mem_append.1 hx with within | later
    · obtain ⟨g, failed, kept⟩ := Work.transact_of_corrupt hu.1 within corrupt
      rw [failed, hu.2.1]
      exact ⟨⟨_, rfl, .inl ⟨g, rfl⟩⟩, kept.trans (w.unitExchanges_tables s x within).symm⟩
    · exact (ih _ (hu.after_transact _) later).mono (List.subset_append_right _ _)
  | gather user next ih =>
    show Halted d p f _ x ((next ((backingAt d p f a).gather user s).1).runOn (backingAt d p f a)
      ((backingAt d p f a).gather user s).2)
    rcases List.mem_append.1 hx with within | later
    · obtain ⟨e, failed, y, hy, cause⟩ := gather_of_corrupt within corrupt
      rw [failed, hu.1]
      exact ⟨⟨e, rfl, .inr ⟨y, List.mem_append_left _ hy, cause⟩⟩,
        (gather_tables d p f a user s).trans (reads_tables d p f user s x within).symm⟩
    · exact (ih _ (hu.after_gather _) later).mono (List.subset_append_right _ _)

end UseCase

/-! ## What is sent -/

/-- The amount that a statement sends. -/
def Statement.amount? : Statement → Option Coins
  | .decrement _ amount => some amount
  | .increment _ amount => some amount
  | .insertTransfer t => some t.amount
  | _ => none

namespace Work

variable {ε α β : Type} {amount : Coins}

/-- Whether a unit sends no amount but a given one. -/
def Carries (amount : Coins) : Work ε α → Prop
  | done _ => True
  | ask q next => (∀ c, q.amount? = some c → c = amount) ∧ ∀ r, (next r).Carries amount

theorem Carries.bind {w : Work ε α} {g : α → Work ε β} (hw : w.Carries amount)
    (hg : ∀ r, (g r).Carries amount) : (w >>= g).Carries amount := by
  induction w with
  | done r =>
    cases r with
    | ok r => exact hg r
    | error e => trivial
  | ask q next ih => exact ⟨hw.1, fun r => ih r (hw.2 r)⟩

theorem carries_run {q : Statement} (h : ∀ c, q.amount? = some c → c = amount) :
    (run q).Carries amount :=
  ⟨h, fun r => by cases r <;> trivial⟩

theorem carries_lock (u : UserId) : (lock u).Carries amount :=
  (carries_run fun _ h => by cases h).bind fun balance => by cases balance <;> trivial

theorem carries_findLocked (rows : List (UserId × Coins)) (u : UserId) :
    (findLocked rows u).Carries amount := by
  unfold findLocked
  split <;> trivial

theorem carries_lockPair (u v : UserId) : (lockPair u v).Carries amount :=
  (carries_run fun _ h => by cases h).bind fun rows => (carries_findLocked rows u).bind fun _ =>
    (carries_findLocked rows v).bind fun _ => trivial

theorem carries_debit (u : UserId) : (debit u amount).Carries amount :=
  (carries_run (q := .decrement u amount) fun _ h => (Option.some.inj h).symm).bind fun _ => by
    split <;> trivial

theorem carries_credit (u : UserId) : (credit u amount).Carries amount :=
  (carries_run (q := .increment u amount) fun _ h => (Option.some.inj h).symm).bind fun _ => by
    split <;> trivial

/-- The exchanges of a unit that carries one amount. -/
theorem Carries.exchanges {w : Work ε α} (h : w.Carries amount) {f : Faults} {s : Session} :
    ∀ x ∈ w.exchanges f s, ∃ q s', x = .statement q s' ∧
      ∀ c, q.amount? = some c → c = amount := by
  induction w generalizing s with
  | done r => exact fun x hx => absurd hx List.not_mem_nil
  | ask q next ih =>
    intro x hx
    rcases List.mem_cons.1 hx with rfl | later
    · exact ⟨q, s, rfl, h.1⟩
    · exact ih _ (h.2 _) x later

theorem Carries.unitExchanges {w : Work ε α} (h : w.Carries amount) {p : Pool} {f : Faults}
    {s : Session} : ∀ x ∈ w.unitExchanges p f s, ∃ q s', x = .statement q s' ∧
      ∀ c, q.amount? = some c → c = amount := by
  intro x hx
  obtain ⟨s₁, -, -, hx⟩ := mem_unitExchanges.1 hx
  exact h.exchanges x hx

end Work

/-- A purchase sends the price. -/
theorem UseCase.carries_purchase (u : UserId) (g : Good) : (purchase u g).Carries g.price :=
  (Work.carries_lock u).bind fun balance => by
    split
    · trivial
    · exact (Work.carries_debit u).bind fun _ => Work.carries_run fun _ h => by cases h

/-- A movement sends the amount that is moved. -/
theorem UseCase.carries_movement (u v : UserId) (amount : Coins) :
    (movement u v amount).Carries amount :=
  (Work.carries_lockPair u v).bind fun balances => by
    dsimp only
    split
    · trivial
    · split
      · trivial
      · exact (Work.carries_debit u).bind fun _ => (Work.carries_credit v).bind fun _ =>
          Work.carries_run fun _ h => (Option.some.inj h).symm

/-! ## The commands -/

namespace Command

section
variable (d : Directory) (p : Pool) (f : Faults) (seed : Coins)

/-- The amounts that a unit of a command is to send: those that are asked for, and a price that has
been read. -/
def Asks (xs : List Exchange) : Command → Coins → Prop
  | sendCoins _ _ requested, amount => amount = requested
  | buyItem _ name, amount => ∃ s cell, .call (.findGood name) s ∈ xs ∧
      (Exchange.call (.findGood name) s).figures d p f = .ok [(cell, amount)]
  | _, _ => False

/-- What a command may leave behind also if it fails: the row of a recipient, with the seed. -/
def Provisions (t t' : Tables) : Command → Prop
  | sendCoins _ name _ => ∃ (v : UserId) (n : Stored) (k : Nat), d.idOf? name = some v ∧
      n.toInt = seed.toNat ∧ t.insertBalance v n = .ok (k, t')
  | _ => False

end

variable {d : Directory} {p : Pool} {f : Faults} {a : Arrivals} {seed : Coins}

theorem faultsOnFailure_program (c : Command) : (c.program seed).FaultsOnFailure := by
  cases c with
  | ensureCreated u => exact (UseCase.faultsOnFailure_ensureCreated seed u).bind_pure _
  | buyItem u name => exact (UseCase.faultsOnFailure_buyItem u name).bind_pure _
  | sendCoins u name amount =>
    exact (UseCase.faultsOnFailure_sendCoins seed u name amount).bind_pure _
  | accountInfo u => exact (UseCase.faultsOnFailure_accountInfo u).bind_pure _

/-- What is known of an exchange in a run of a command, whatever the database holds. -/
structure Makes (d : Directory) (p : Pool) (f : Faults) (seed : Coins) (c : Command) (s : Session)
    (xs : List Exchange) (x : Exchange) : Prop where
  /-- A row is created with the seed. -/
  created : ∀ u amount s', x = .call (.insertIfAbsent u amount) s' → amount = seed
  /-- The statements of a unit send what is asked for. -/
  moved : ∀ q s' amount, x = .statement q s' → q.amount? = some amount → c.Asks d p f xs amount
  /-- Reads are made together for the account view only. -/
  together : ∀ e, x.FailsAs d p f e → ∃ u, c = .accountInfo u
  /-- Only the row of a recipient is written before. -/
  met : x.session.tables = s.tables ∨ c.Provisions d seed s.tables x.session.tables

/-- The exchanges of a unit, if it carries what is asked for. -/
theorem makes_unit {c : Command} {w : Work LedgerError Unit} {amount : Coins}
    (carries : w.Carries amount) {s s₁ : Session} {xs : List Exchange}
    (asked : c.Asks d p f xs amount)
    (met : s₁.tables = s.tables ∨ c.Provisions d seed s.tables s₁.tables) {x : Exchange}
    (hx : x ∈ w.unitExchanges p f s₁) : c.Makes d p f seed s xs x := by
  obtain ⟨q, s', rfl, sent⟩ := carries.unitExchanges x hx
  have kept := w.unitExchanges_tables s₁ _ hx
  exact
    { created := fun u amount s' h => by cases h
      moved := fun q' s'' amount' h h' => by
        cases h
        rw [sent amount' h']
        exact asked
      together := fun e h => h.elim
      met := by rwa [kept] }

/-- A call that is made while at most the row of a recipient has been written. -/
theorem makes_call {c : Command} {q : Call} {s s₁ : Session} {xs : List Exchange}
    (created : ∀ u amount, q = .insertIfAbsent u amount → amount = seed)
    (together : ∀ e, (Exchange.call q s₁).FailsAs d p f e → ∃ u, c = .accountInfo u)
    (met : s₁.tables = s.tables ∨ c.Provisions d seed s.tables s₁.tables) :
    c.Makes d p f seed s xs (.call q s₁) where
  created u amount s' h := by
    cases h
    exact created u amount rfl
  moved q' s' amount h := by cases h
  together := together
  met := met

theorem makes_ensureCreated (u : UserId) (s : Session) (xs : List Exchange) :
    ∀ x ∈ (UseCase.ensureCreated seed u).exchanges d p f a s,
      (ensureCreated u).Makes d p f seed s xs x := by
  intro x hx
  obtain rfl := UseCase.mem_exchanges_ask.1 hx
  exact makes_call (fun _ _ h => by cases h; rfl) (fun _ h => h.elim) (.inl rfl)

theorem makes_buyItem (u : UserId) (name : String) (s : Session) :
    ∀ x ∈ (UseCase.buyItem u name).exchanges d p f a s,
      (buyItem u name).Makes d p f seed s ((UseCase.buyItem u name).exchanges d p f a s) x := by
  intro x hx
  have asked : Exchange.call (.findGood name) s ∈ (UseCase.buyItem u name).exchanges d p f a s :=
    UseCase.mem_exchanges_ask_bind.2 (.inl rfl)
  rcases UseCase.mem_exchanges_ask_bind.1 hx with rfl | ⟨good, s₁, answered, later⟩
  · exact makes_call (fun _ _ h => by cases h) (fun _ h => h.elim) (.inl rfl)
  · cases good with
    | none => cases later
    | some g =>
      have kept := call_tables d p f (c := .findGood name) (fun _ _ h => by cases h) s
      rw [answered] at kept
      have price : (Exchange.call (.findGood name) s).figures d p f =
          .ok [(.price g.id g.name, g.price)] := by
        simp only [Exchange.figures, answered]
        rfl
      exact makes_unit (c := buyItem u name) (UseCase.carries_purchase u g)
        ⟨s, .price g.id g.name, asked, price⟩ (.inl kept)
        (UseCase.mem_exchanges_inTransaction.1 later)

theorem makes_sendCoins (u : UserId) (name : Username) (amount : Coins) (s : Session)
    (xs : List Exchange) :
    ∀ x ∈ (UseCase.sendCoins seed u name amount).exchanges d p f a s,
      (sendCoins u name amount).Makes d p f seed s xs x := by
  intro x hx
  unfold UseCase.sendCoins at hx
  split at hx
  · cases hx
  · rcases UseCase.mem_exchanges_ask_bind.1 hx with rfl | ⟨found, s₁, answered, later⟩
    · exact makes_call (fun _ _ h => by cases h) (fun _ h => h.elim) (.inl rfl)
    · have resolved : d.idOf? name = found := Except.ok.inj (congrArg Prod.fst answered)
      obtain rfl : s = s₁ := congrArg Prod.snd answered
      cases found with
      | none => cases later
      | some v =>
        dsimp only at later
        split at later
        · cases later
        · rcases UseCase.mem_exchanges_ask_bind.1 later with rfl | ⟨_, s₂, created, unit⟩
          · exact makes_call (fun _ _ h => by cases h; rfl) (fun _ h => h.elim) (.inl rfl)
          · obtain ⟨n, k, hn, inserted⟩ := call_insertIfAbsent created
            exact makes_unit (c := sendCoins u name amount) (UseCase.carries_movement u v amount)
              rfl (.inr ⟨v, n, k, resolved, hn, inserted⟩)
              (UseCase.mem_exchanges_inTransaction.1 unit)

theorem makes_accountInfo (u : UserId) (s : Session) (xs : List Exchange) :
    ∀ x ∈ (UseCase.accountInfo u).exchanges d p f a s,
      (accountInfo u).Makes d p f seed s xs x := by
  intro x hx
  rcases List.mem_append.1 hx with read | later
  · have met := UseCase.reads_tables d p f u s x read
    obtain rfl | rfl | rfl := (UseCase.mem_reads d p f u s).1 read <;>
      exact makes_call (fun _ _ h => by cases h) (fun _ _ => ⟨u, rfl⟩) (.inl met)
  · have kept := UseCase.gather_tables d p f a u s
    cases gathered : ((backingAt d p f a).gather u s).1 with
    | error e =>
      rw [gathered] at later
      cases later
    | ok h =>
      rw [gathered] at later
      dsimp only at later
      split at later
      · cases later
      · rcases UseCase.mem_exchanges_ask_bind.1 later with rfl | ⟨_, _, _, rest⟩
        · exact makes_call (fun _ _ h => by cases h) (fun _ h => h.elim) (.inl kept)
        · cases rest

theorem makes (c : Command) (s : Session) :
    ∀ x ∈ (c.program seed).exchanges d p f a s,
      c.Makes d p f seed s ((c.program seed).exchanges d p f a s) x := by
  cases c with
  | ensureCreated u =>
    rw [program, UseCase.exchanges_bind_pure]
    exact makes_ensureCreated u s _
  | buyItem u name =>
    rw [program, UseCase.exchanges_bind_pure]
    exact makes_buyItem u name s
  | sendCoins u name amount =>
    rw [program, UseCase.exchanges_bind_pure]
    exact makes_sendCoins u name amount s _
  | accountInfo u =>
    rw [program, UseCase.exchanges_bind_pure]
    exact makes_accountInfo u s _

/-- **Corrupt rows never become money.**  A command is run over the database, whatever this holds,
whatever fails in it and in whichever order reads are there that are made together.  What reaches
the command is what is stored, and what is sent is what is asked for.  A negative number among the
rows that a read returns fails the read and ends the command with a fault; the account view may
report the failure of another one of its reads in its place.  The tables stay as they were, except
that the row of a recipient may have been created. -/
theorem corruption_contained (d : Directory) (p : Pool) (f : Faults) (a : Arrivals) (seed : Coins)
    (c : Command) (s : Session) :
    let xs := (c.program seed).exchanges d p f a s
    let run := (c.program seed).runOn (backingAt d p f a) s
    (∀ x ∈ xs, Exchange.ReadsExactly (x.returned? p f) x.stored (x.figures d p f) ∧
      x.Sends d p f ∧ c.Makes d p f seed s xs x) ∧
    ∀ x ∈ xs, x.Corrupt p f →
      x.figures d p f = .error negativeStored ∧
      (∃ e, run.1 = .error e ∧ ((∃ g, e = .internal g) ∨
        (∃ u, c = .accountInfo u) ∧ ∃ y ∈ xs, y.FailsAs d p f e)) ∧
      (run.2.tables = s.tables ∨ c.Provisions d seed s.tables run.2.tables) := by
  intro xs run
  refine ⟨fun x hx => ⟨x.exact, x.sends, c.makes s x hx⟩, fun x hx corrupt => ?_⟩
  have halted := UseCase.halts (faultsOnFailure_program c) hx corrupt
  refine ⟨corrupt.figures, ?_, ?_⟩
  · obtain ⟨e, failed, fault | ⟨y, hy, fails⟩⟩ := halted.failed
    · exact ⟨e, failed, .inl fault⟩
    · exact ⟨e, failed, .inr ⟨(c.makes s y hy).together e fails, y, hy, fails⟩⟩
  · have met := (c.makes s x hx).met
    rwa [← halted.kept] at met

/-- The row of a recipient is there after the row of the sender has turned out to be corrupt. -/
example :
    let run := ((sendCoins ⟨1⟩ ⟨"bob", by decide⟩ ⟨10⟩).program ⟨1000⟩).runOn
      (backing (Directory.ofList [(⟨2⟩, "bob")]) ⟨{ url := "" }, true⟩ Faults.none)
      { tables := { balances := SortedMap.ofList [(⟨1⟩, -5)] } }
    run.1 = .error (.internal (.statement negativeStored)) ∧
      run.2.tables.balances = SortedMap.ofList [(⟨1⟩, -5), (⟨2⟩, 1000)] := by
  decide

end Command

end CoinLedger
