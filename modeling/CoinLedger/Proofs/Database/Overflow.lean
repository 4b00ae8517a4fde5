import CoinLedger.Proofs.Database.Refinement

/-!
# Credits that a column cannot hold

Before it moves anything a transfer asks whether the recipient's balance can hold the amount, and
refuses as the caller's mistake if it cannot.  It asks about amounts, which end at two to the
sixty-fourth; the column ends at half of that.  Balances that are read from columns never add up
to the first bound, so over the database the refusal never takes place.  A credit which passes the
second bound is left for the database to refuse, in the middle of the transaction: what should have
been the caller's mistake comes out as an internal error.

Nothing is lost by it, since the transaction is rolled back.

## Main results

* `exists_add?_of_storable` — the check does not notice amounts that are stored.
* `movement_outOfRange` — how the unit of work ends.
* `sendCoins_outOfRange` — how the transfer ends, and that the tables are left as they were.
-/

namespace CoinLedger

namespace Database

open Tables UseCase

/-! ## The statement that fails -/

theorem Tables.increment_outOfRange {t : Tables} {u : UserId} {b n : Stored}
    (hb : t.balances.get? u = some b) (exceeds : (storedBound : Int) ≤ b.toInt + n.toInt) :
    t.increment u n = .error outOfRange := by
  simp only [Tables.increment, hb]
  exact if_neg (Int.not_lt.2 exceeds)

/-- A failed statement spoils its transaction; the connection and the committed tables remain. -/
theorem Session.WorksOn.execute_error {s : Session} {t : Tables} (h : s.WorksOn t) {α : Type}
    {effect : Tables → Except SqlState (α × Tables)} {code : SqlState} (he : effect t = .error code)
    (k : Kind) :
    ∃ s', s.execute Faults.none k effect = (.error (.state code), s') ∧ s'.connected = true ∧
      s'.tables = s.tables := by
  refine ⟨(s.receive k).spoil, ?_, h.connected, rfl⟩
  have open_transaction : (s.receive k).transaction = some { tables := t } := h.transaction
  simp [Session.execute, h.connected, Session.fault?, Faults.none, Session.apply,
    open_transaction, he]

/-- How the failure of the database to hold a sum reaches the caller. -/
def outOfRangeFault : LedgerError := .internal (.statement (.query "database error"))

theorem credit_outOfRange {s : Session} {t : Tables} {m : Store} (h : s.WorksOn t)
    (reads : t.Reads m) {v : UserId} {amount target : Coins} (hamount : amount.Storable)
    (hv : m.balance? v = some target) (exceeds : storedBound ≤ target.toNat + amount.toNat) :
    ∃ s', (Work.credit v amount).runOn (statement Faults.none) s = (.error outOfRangeFault, s') ∧
      s'.connected = true ∧ s'.tables = s.tables := by
  obtain ⟨n, hn⟩ := exists_toStored? hamount
  have hint := toInt_of_toStored? hn
  rw [reads.balance?] at hv
  obtain ⟨b, hb, hread⟩ := Option.map_eq_some_iff.1 hv
  have hval := toNat_amountOf (reads.lawful.balance hb)
  rw [hread] at hval
  have refused := increment_outOfRange hb (n := n) (by rw [← hval, hint]; exact_mod_cast exceeds)
  obtain ⟨s', hs, connected, tables⟩ := h.execute_error refused .increment
  refine ⟨s', ?_, connected, tables⟩
  have answered : statement Faults.none (.increment v amount) s =
      (.error (.query "database error"), s') := by
    simp only [statement, store, hn, hs]
    rfl
  rw [Work.credit, Work.run, Work.ask_bind, Work.runOn_ask, answered]
  rfl

/-! ## The transfer -/

/-- The check before a credit does not notice amounts that are stored: any two of them have a
sum. -/
theorem exists_add?_of_storable {a b : Coins} (ha : a.Storable) (hb : b.Storable) :
    ∃ c, a.add? b = some c := by
  have ha : a.toNat < 9223372036854775808 := ha
  have hb : b.toNat < 9223372036854775808 := hb
  have sum : a.toNat + b.toNat < 18446744073709551616 := by omega
  exact Coins.exists_add? sum

section

variable {u v : UserId} {amount source target : Coins}

/-- The rows are locked, the amount is debited, and then the credit fails. -/
theorem movement_outOfRange {s : Session} {t : Tables} {m : Store} (h : s.WorksOn t)
    (reads : t.Reads m) (hne : u ≠ v) (hu : m.balance? u = some source)
    (hv : m.balance? v = some target) (covered : amount.toNat ≤ source.toNat)
    (exceeds : storedBound ≤ target.toNat + amount.toNat) :
    ∃ s', (movement u v amount).runOn (statement Faults.none) s = (.error outOfRangeFault, s') ∧
      s'.connected = true ∧ s'.tables = s.tables := by
  have hsource : source.Storable := reads.storable.1 u source hu
  have htarget : target.Storable := reads.storable.1 v target hv
  have hamount : amount.Storable := Nat.lt_of_le_of_lt covered hsource
  obtain ⟨rest, hrest⟩ := Coins.exists_sub? covered
  obtain ⟨sum, hsum⟩ := exists_add?_of_storable htarget hamount
  obtain ⟨s₁, t₁, locked, works₁, tables₁, reads₁⟩ :=
    runOn_reads h reads (Work.fits_lockPair u v m)
  rw [Work.lockPair_runOn, hu, hv] at locked reads₁
  obtain ⟨s₂, t₂, debited, works₂, tables₂, reads₂⟩ :=
    runOn_reads works₁ reads₁ (Work.fits_debit hamount u m)
  rw [Work.debit_runOn, hu, Option.bind_some, hrest] at debited reads₂
  have hv₂ : (m.setBalance u rest).balance? v = some target := by
    rw [Store.balance?_setBalance, if_neg hne, hv]
  obtain ⟨s₃, credited, connected, tables₃⟩ := credit_outOfRange works₂ reads₂ hamount hv₂ exceeds
  refine ⟨s₃, ?_, connected, (tables₃.trans tables₂).trans tables₁⟩
  rw [movement, Work.runOn_bind, locked]
  dsimp only
  rw [hrest, hsum, if_neg (by simp), if_neg (by simp), Work.runOn_bind, debited]
  dsimp only
  rw [Work.runOn_bind, credited]

/-- **A credit that passes the bound of the column is an internal error**, whatever the amounts are
that add up to it.  The tables are left as they were. -/
theorem sendCoins_outOfRange {p : Pool} (reachable : p.reachable = true) {d : Directory}
    {seed : Coins} (hseed : seed.Storable) {s : Session} (lawful : s.tables.Lawful) (hne : u ≠ v)
    {name : Username} (resolved : d.idOf? name = some v) (positive : 0 < amount.toNat)
    (hu : s.tables.ledger.balance? u = some source) (hv : s.tables.ledger.balance? v = some target)
    (covered : amount.toNat ≤ source.toNat) (exceeds : storedBound ≤ target.toNat + amount.toNat) :
    let run := (sendCoins seed u name amount).runOn (backing d p Faults.none) s
    run.1 = .error (.internal (.statement (.query "database error"))) ∧
      run.2.tables = s.tables := by
  -- The recipient has a row already, and provisioning leaves the tables alone.
  obtain ⟨n, hn⟩ := exists_toStored? hseed
  have present : s.tables.balances.contains v = true := by
    rw [balance?_ledger] at hv
    obtain ⟨b, hb, -⟩ := Option.map_eq_some_iff.1 hv
    exact (SortedMap.contains_iff _ _).2 ⟨b, hb⟩
  have kept : insertBalance v n s.tables = .ok (0, s.tables) := if_pos present
  obtain ⟨s₁, hs, tables₁⟩ := s.reconnect_execute kept .insertBalance
  have provisioned : (backing d p Faults.none).call (.insertIfAbsent v seed) s = (.ok (), s₁) := by
    simp only [backing, call, store, hn, onConnection, checkout_reachable reachable, hs]
    rfl
  -- The transfer fails in its transaction.
  have reads : s₁.tables.Reads s.tables.ledger := by
    rw [tables₁]
    exact ⟨lawful, rfl⟩
  obtain ⟨s₂, moved, connected, tables₂⟩ :=
    movement_outOfRange s₁.begun_worksOn reads hne hu hv covered exceeds
  obtain ⟨s', ended, tables'⟩ := transact_failed reachable moved connected tables₂
  have ran : (sendCoins seed u name amount).runOn (backing d p Faults.none) s =
      (.error outOfRangeFault, s') := by
    have nonzero : ¬amount.isZero = true := by
      rw [Coins.isZero_iff]
      omega
    have answered : (backing d p Faults.none).call (.resolveUser name) s = (.ok (some v), s) := by
      rw [← resolved]
      rfl
    rw [sendCoins, if_neg nonzero, runOn_ask_bind answered]
    dsimp only
    rw [if_neg hne.symm, ensureCreated, runOn_ask_bind provisioned]
    exact ended
  rw [ran]
  exact ⟨rfl, tables'.trans tables₁⟩

end

/-- Two accounts, one of which holds as much as a column can. -/
def fullAccount : Tables where
  balances := SortedMap.ofList [(⟨1⟩, 10), (⟨2⟩, 9223372036854775807)]

/-- One coin more is an internal error. -/
theorem sendCoins_outOfRange_fullAccount :
    fullAccount.Lawful ∧ fullAccount.ledger.balance? ⟨2⟩ = some ⟨9223372036854775807⟩ ∧
    let run := (sendCoins ⟨1000⟩ ⟨1⟩ ⟨"bob", by decide⟩ ⟨1⟩).runOn
      (backing (Directory.ofList [(⟨2⟩, "bob")]) ⟨{ url := "" }, true⟩ Faults.none)
      { tables := fullAccount }
    run.1 = .error (.internal (.statement (.query "database error"))) ∧
    run.2.tables = fullAccount := by
  have lawful : fullAccount.Lawful := by constructor <;> decide
  have full : fullAccount.ledger.balance? ⟨2⟩ = some ⟨9223372036854775807⟩ := by decide
  have poor : fullAccount.ledger.balance? ⟨1⟩ = some ⟨10⟩ := by decide
  refine ⟨lawful, full, ?_⟩
  exact sendCoins_outOfRange rfl (by decide) lawful (by decide) (by decide) (by decide) poor full
    (by decide) (by decide)

end Database

end CoinLedger
