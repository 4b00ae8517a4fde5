import CoinLedger.Backing
import CoinLedger.Script

/-!
# Undisturbed runs

Against the quiet script every call is made at once and as it is.  A run then takes no time, so no
limit cuts it, and it does what the same program does when it is simply run over the store.

## Main results

* `Work.conclude_quiet` — a unit of work in its transaction is `commitIfOk`.
* `UseCase.play_quiet` — a use case is run to its end.
-/

namespace CoinLedger

@[simp] theorem Treatment.apply_untouched {σ ε α : Type} (genuine : σ → Except ε α × σ) (s : σ) :
    ({} : Treatment ε α).apply genuine s = genuine s :=
  apply_of_performed rfl genuine s

/-- Reads that are there at one moment are joined at this moment. -/
theorem gatherReads_at_once (user : UserId) (balance : Except StorageFailure (Option Coins))
    (inventory : Except StorageFailure Inventory) (transfers : Except StorageFailure History)
    (moment : Nat) :
    gatherReads user ⟨balance, moment⟩ ⟨inventory, moment⟩ ⟨transfers, moment⟩ =
      ⟨(gatherReads user ⟨balance, 0⟩ ⟨inventory, 0⟩ ⟨transfers, 0⟩).value, moment⟩ := by
  unfold gatherReads
  cases requireBalance user balance <;> cases requireHistory inventory <;>
    cases requireHistory transfers <;>
    simp [Join.join, Join.failures, Join.failure?, Join.earliest, Except.map]

section
variable {e : Stage} (quiet : e.script = .quiet) {c : Clock} (intime : e.allows c.time = true)
include quiet intime

theorem Work.play_quiet {ε α : Type} (w : Work ε α) (s : Store) :
    ∃ n, w.play e s c =
      some ((w.runOn Store.statement s).1, (w.runOn Store.statement s).2, ⟨c.time, n⟩) := by
  induction w generalizing s c with
  | done r => exact ⟨c.calls, rfl⟩
  | ask q next ih =>
    have now : e.allows (c.after 0).time = true := intime
    obtain ⟨n, hn⟩ := ih (Store.statement q s).1 now (Store.statement q s).2
    refine ⟨n, ?_⟩
    simp only [play, quiet, Script.quiet, now, if_true, Treatment.apply_untouched]
    exact hn

/-- A unit of work that nothing disturbs commits if it succeeds. -/
theorem Work.conclude_quiet (w : Work LedgerError Unit) (s : Store) :
    ∃ ending n, w.conclude e s c = some (ending, (w.commitIfOk s).2, ⟨c.time, n⟩) ∧
      ending.outcome = (w.commitIfOk s).1 := by
  have begun : e.allows (c.after 0).time = true := intime
  obtain ⟨n, hn⟩ := w.play_quiet quiet begun s
  have ended : e.allows ((⟨(c.after 0).time, n⟩ : Clock).after 0).time = true := intime
  unfold conclude commitIfOk
  rcases hrun : w.runOn Store.statement s with ⟨result | result, s'⟩
  · rw [hrun] at hn
    refine ⟨.failed result, n, ?_, rfl⟩
    simp only [quiet, Script.quiet, begun, if_true, Treatment.apply_untouched, hn]
    rfl
  · rw [hrun] at hn
    refine ⟨.committed result, n + 1, ?_, rfl⟩
    simp only [quiet, Script.quiet, begun, ended, if_true, Treatment.apply_untouched, hn]
    rfl

/-- **A use case that nothing disturbs is run to its end**, whatever the limit. -/
theorem UseCase.play_quiet {α : Type} (p : UseCase α) (s : Store) :
    ∃ n, p.play e s c =
      .finished (p.runOn (.memory e.directory) s).1 (p.runOn (.memory e.directory) s).2
        ⟨c.time, n⟩ := by
  induction p generalizing s c with
  | done r => exact ⟨c.calls, rfl⟩
  | call q next ih =>
    have now : e.allows (c.after 0).time = true := intime
    obtain ⟨n, hn⟩ := ih (Store.call e.directory q s).1 now (Store.call e.directory q s).2
    refine ⟨n, ?_⟩
    simp only [play, quiet, Script.quiet, now, if_true, Treatment.apply_untouched]
    exact hn
  | transact w next ih =>
    obtain ⟨ending, m, hconclude, houtcome⟩ := w.conclude_quiet quiet intime s
    have still : e.allows (⟨c.time, m⟩ : Clock).time = true := intime
    obtain ⟨n, hn⟩ := ih (w.commitIfOk s).1 still (w.commitIfOk s).2
    refine ⟨n, ?_⟩
    simp only [play, hconclude, houtcome]
    exact hn
  | gather u next ih =>
    have reads : e.reads s c u =
        ⟨((Backing.memory e.directory).gather u s).1, c.time⟩ := by
      simp only [Stage.reads, Stage.read, quiet, Script.quiet, Treatment.apply_untouched,
        Nat.add_zero]
      exact gatherReads_at_once u _ _ _ c.time
    have still : e.allows (⟨c.time, c.calls + 3⟩ : Clock).time = true := intime
    obtain ⟨n, hn⟩ := ih ((Backing.memory e.directory).gather u s).1 still s
    refine ⟨n, ?_⟩
    simp only [play, reads, intime, if_true]
    exact hn

end

end CoinLedger
