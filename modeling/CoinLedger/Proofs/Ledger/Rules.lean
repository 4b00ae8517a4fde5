import CoinLedger.Command

/-!
# What the use cases may do, whatever they are answered

`Rules` say which calls a program may make, which units of work it may run, and what it may take
for granted about answers.  `UseCase.Obeys` is recursive in the program and quantifies over every
answer and every failure, so it survives each step of a program in any surroundings: other callers
at work in between, failing calls, a program that is dropped half way.

The rules of the ledger (`ledgerRules`) are the ones that every command obeys: rows are created
with the seed, only listed goods are bought, and coins move between two different users in a
positive amount.

## Main results

* `UseCase.Obeys.bind` — rules are checked piece by piece.
* `Command.program_obeys` — every command obeys the rules of the ledger.
* `UseCase.Obeys.unit_of_mayRun` — what a program may run is what its rules allow.
-/

namespace CoinLedger

/-- What a program may do and may rely on. -/
structure Rules where
  /-- The calls it may make. -/
  call : Call → Prop
  /-- The answers it has to cope with. -/
  answer : (c : Call) → c.Answer → Prop
  /-- The units of work it may run. -/
  unit : Work LedgerError Unit → Prop

namespace UseCase

variable {α β : Type}

/-- Whether a program stays within the rules, whatever happens around it. -/
def Obeys (k : Rules) : UseCase α → Prop
  | done _ => True
  | call c next => k.call c ∧ (∀ f, (next (.error f)).Obeys k) ∧
      ∀ a, k.answer c a → (next (.ok a)).Obeys k
  | transact w next => k.unit w ∧ ∀ r, (next r).Obeys k
  | gather _ next => ∀ r, (next r).Obeys k

theorem Obeys.bind {k : Rules} {p : UseCase α} {f : α → UseCase β} (hp : p.Obeys k)
    (hf : ∀ a, (f a).Obeys k) : (p >>= f).Obeys k := by
  induction p with
  | done r =>
    cases r with
    | ok a => exact hf a
    | error e => trivial
  | call c next ih =>
    exact ⟨hp.1, fun failure => ih _ (hp.2.1 failure), fun a ha => ih _ (hp.2.2 a ha)⟩
  | transact w next ih => exact ⟨hp.1, fun r => ih r (hp.2 r)⟩
  | gather u next ih => exact fun r => ih r (hp r)

/-- A single call may be followed by whatever copes with the answers that the rules foresee. -/
theorem Obeys.ask_bind {k : Rules} {c : Call} {f : c.Answer → UseCase β} (hc : k.call c)
    (hf : ∀ a, k.answer c a → (f a).Obeys k) : (ask c >>= f).Obeys k :=
  ⟨hc, fun _ => trivial, fun a ha => hf a ha⟩

/-- The units of work that a program may come to run, whatever it is answered. -/
inductive MayRun : UseCase α → Work LedgerError Unit → Prop where
  | now {w : Work LedgerError Unit} {next : Except LedgerError Unit → UseCase α} :
      MayRun (transact w next) w
  | afterCall {c : Call} {next : Except c.Failure c.Answer → UseCase α}
      {w : Work LedgerError Unit} (r : Except c.Failure c.Answer) :
      MayRun (next r) w → MayRun (call c next) w
  | afterUnit {v w : Work LedgerError Unit} {next : Except LedgerError Unit → UseCase α}
      (r : Except LedgerError Unit) : MayRun (next r) w → MayRun (transact v next) w
  | afterReads {u : UserId} {next : Except LedgerError Holdings → UseCase α}
      {w : Work LedgerError Unit} (r : Except LedgerError Holdings) :
      MayRun (next r) w → MayRun (gather u next) w

/-- Under rules that foresee every answer, a program runs nothing but what they allow. -/
theorem Obeys.unit_of_mayRun {k : Rules} (every : ∀ c a, k.answer c a) {p : UseCase α}
    {w : Work LedgerError Unit} (hp : p.Obeys k) (h : p.MayRun w) : k.unit w := by
  induction h with
  | now => exact hp.1
  | afterCall r _ ih =>
    cases r with
    | ok a => exact ih (hp.2.2 a (every _ a))
    | error f => exact ih (hp.2.1 f)
  | afterUnit r _ ih => exact ih (hp.2 r)
  | afterReads r _ ih => exact ih (hp r)

end UseCase

/-! ## The rules of the ledger -/

/-- A unit of work of the ledger: a purchase of a listed good, or a movement of a positive amount
between two different users. -/
inductive LedgerUnit (listed : Good → Prop) : Work LedgerError Unit → Prop where
  | purchase (u : UserId) {g : Good} : listed g → LedgerUnit listed (UseCase.purchase u g)
  | movement {u v : UserId} {amount : Coins} : u ≠ v → 0 < amount.toNat →
      LedgerUnit listed (UseCase.movement u v amount)

/-- Rows are created with the seed, a look-up finds listed goods, and nothing but purchases and
movements is run. -/
def ledgerRules (seed : Coins) (listed : Good → Prop) : Rules where
  call
    | .insertIfAbsent _ amount => amount = seed
    | _ => True
  answer
    | .findGood _, some g => listed g
    | _, _ => True
  unit := LedgerUnit listed

namespace UseCase

variable {seed : Coins} {listed : Good → Prop}

theorem ensureCreated_obeys (u : UserId) : (ensureCreated seed u).Obeys (ledgerRules seed listed) :=
  ⟨rfl, fun _ => trivial, fun _ _ => trivial⟩

theorem buyItem_obeys (u : UserId) (name : String) :
    (buyItem u name).Obeys (ledgerRules seed listed) := by
  refine Obeys.ask_bind trivial fun found hfound => ?_
  cases found with
  | none => trivial
  | some g => exact ⟨.purchase u hfound, fun _ => trivial⟩

theorem sendCoins_obeys (u : UserId) (name : Username) (amount : Coins) :
    (sendCoins seed u name amount).Obeys (ledgerRules seed listed) := by
  unfold sendCoins
  split
  · trivial
  · next positive =>
    rw [Coins.isZero_iff] at positive
    refine Obeys.ask_bind trivial fun found _ => ?_
    cases found with
    | none => trivial
    | some v =>
      dsimp only
      split
      · trivial
      · next hne =>
        refine (ensureCreated_obeys v).bind fun _ => ⟨?_, fun _ => trivial⟩
        exact .movement (fun h => hne h.symm) (by omega)

theorem accountInfo_obeys (u : UserId) : (accountInfo u).Obeys (ledgerRules seed listed) := by
  intro reads
  cases reads with
  | error e => trivial
  | ok h =>
    dsimp only
    split
    · trivial
    · exact Obeys.ask_bind trivial fun _ _ => trivial

end UseCase

/-- Every command obeys the rules of the ledger. -/
theorem Command.program_obeys (seed : Coins) (listed : Good → Prop) (c : Command) :
    (c.program seed).Obeys (ledgerRules seed listed) := by
  cases c with
  | ensureCreated u => exact (UseCase.ensureCreated_obeys u).bind fun _ => trivial
  | buyItem u name => exact (UseCase.buyItem_obeys u name).bind fun _ => trivial
  | sendCoins u name amount => exact (UseCase.sendCoins_obeys u name amount).bind fun _ => trivial
  | accountInfo u => exact (UseCase.accountInfo_obeys u).bind fun _ => trivial

end CoinLedger
