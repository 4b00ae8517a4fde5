import CoinLedger.Interleaving
import CoinLedger.Proofs.Concurrency.Direct
import CoinLedger.Proofs.Ledger.Quiet

/-!
# Interleaved runs are serial

Any number of direct programs may interleave: each takes effect as a whole at the moment of its
unit of work, and its provisioning, which came before, might as well have been done at that moment.

The invariant (`System.Tracks`) compares the store with the one that the programs whose units have
run would have left one after the other.  The two differ by fresh rows only, and each of these was
made for a program that is still at work.

## Main definitions

* `System.Tracks` — the invariant.
* `System.SerialOrder` — orders of the callers that keep the order of the units.

## Main results

* `System.tracks_after` — the invariant holds along every run without failures.
* `System.serial_of_finished` — the programs could have been run one at a time, in any such order.
-/

namespace CoinLedger

namespace Interleaving

open UseCase

namespace System

variable {α : Type} {d : Directory} {seed : Coins} {programs : List (UseCase α)} {s : Store}

/-! ## One at a time -/

theorem serially_append (a b : List Nat) (s : Store) :
    serially d programs (a ++ b) s =
      ((serially d programs a s).1 ++ (serially d programs b (serially d programs a s).2).1,
        (serially d programs b (serially d programs a s).2).2) := by
  induction a generalizing s with
  | nil => rfl
  | cons i rest ih =>
    simp only [List.cons_append, serially]
    cases hi : programs[i]? with
    | none => exact ih s
    | some p =>
      dsimp only
      rw [ih]
      rfl

/-- Only callers in the order have results. -/
theorem fst_mem_of_mem_serially {order : List Nat} {e : Nat × Except LedgerError α}
    (he : e ∈ (serially d programs order s).1) : e.1 ∈ order := by
  induction order generalizing s with
  | nil => exact (List.not_mem_nil he).elim
  | cons i rest ih =>
    simp only [serially] at he
    cases hi : programs[i]? with
    | none =>
      rw [hi] at he
      exact List.mem_cons_of_mem i (ih he)
    | some p =>
      rw [hi] at he
      rcases List.mem_cons.1 he with rfl | he
      · exact List.mem_cons_self
      · exact List.mem_cons_of_mem i (ih he)

/-- Callers that there are have results, in the order in which they are run. -/
theorem map_fst_serially {order : List Nat} (known : ∀ i ∈ order, i < programs.length)
    (s : Store) : (serially d programs order s).1.map Prod.fst = order := by
  induction order generalizing s with
  | nil => rfl
  | cons i rest ih =>
    have hi := List.getElem?_eq_getElem (known i List.mem_cons_self)
    simp only [serially, hi, List.map_cons]
    rw [ih fun j hj => known j (List.mem_cons_of_mem i hj)]

variable (direct : ∀ p ∈ programs, p.Direct d seed s.goods [])
include direct

theorem goods_serially (order : List Nat) {s' : Store} (hs : s'.goods = s.goods) :
    (serially d programs order s').2.goods = s.goods := by
  induction order generalizing s' with
  | nil => exact hs
  | cons i rest ih =>
    simp only [serially]
    cases hi : programs[i]? with
    | none => exact ih hs
    | some p => exact ih ((direct p (List.mem_of_getElem? hi)).goods_runOn hs)

/-- Whole programs, one after the other, do not notice who has been provisioned before. -/
theorem serially_provision (order : List Nat) (users : List UserId) {s' : Store}
    (hs : s'.goods = s.goods) :
    serially d programs order (s'.provision seed users) =
      ((serially d programs order s').1,
        (serially d programs order s').2.provision seed users) := by
  induction order generalizing s' with
  | nil => rfl
  | cons i rest ih =>
    simp only [serially]
    cases hi : programs[i]? with
    | none => exact ih hs
    | some p =>
      have hp := direct p (List.mem_of_getElem? hi)
      have none : s'.HasRows [] := fun _ hu => nomatch hu
      dsimp only
      rw [hp.runOn_provision hs none users, ih (hp.goods_runOn hs)]

omit direct

/-! ## The invariant -/

/-- How an interleaved run stands against the programs run one at a time, in the order of their
units of work.  `did` names the users that each program at work has provisioned so far, and `made`
those that have been provisioned ahead of the serial run. -/
structure Tracks (d : Directory) (seed : Coins) (programs : List (UseCase α)) (s : Store)
    (did : Nat → List UserId) (made : List UserId) (y : System α) : Prop where
  known : ∀ i ∈ y.units, i < programs.length
  once : y.units.Nodup
  callers : y.tasks.length = programs.length
  store : y.store = (serially d programs y.units s).2.provision seed made
  /-- A program whose unit has not run stands where its provisioning has brought it. -/
  atWork : ∀ i p, programs[i]? = some p → i ∉ y.units →
    ∃ q, y.tasks[i]? = some (.active q) ∧ Stands d seed s.goods made p q (did i)
  /-- A program whose unit has run is over, with the result of the serial run. -/
  ended : ∀ i ∈ y.units, (y.result? i).isSome
  served : ∀ e ∈ (serially d programs y.units s).1, y.result? e.1 = some e.2
  /-- Rows are ahead of the serial run only for programs at work. -/
  early : ∀ u ∈ made, (serially d programs y.units s).2.HasRows [u] ∨
    ∃ i, i < programs.length ∧ i ∉ y.units ∧ u ∈ did i

/-- The invariant holds before anything has happened. -/
theorem tracks_starting (direct : ∀ p ∈ programs, p.Direct d seed s.goods []) :
    Tracks d seed programs s (fun _ => []) [] (starting programs s) where
  known _ h := nomatch h
  once := List.nodup_nil
  callers := by simp [starting]
  store := rfl
  atWork i p hp _ := by
    refine ⟨p, by simp [starting, hp], direct p (List.mem_of_getElem? hp), fun _ _ => rfl, ?_⟩
    exact List.Subset.refl _
  ended _ h := nomatch h
  served _ h := nomatch h
  early _ h := nomatch h

theorem result?_eq_some_iff {y : System α} {i : Nat} {r : Except LedgerError α} :
    y.result? i = some r ↔ y.tasks[i]? = some (.active (.done r)) := by
  unfold result?
  cases y.tasks[i]? with
  | none => simp
  | some task =>
    rcases task with (r' | _ | _ | _) | _ | _ <;> simp [Task.result?]

theorem result?_of_set {y y' : System α} {i j : Nat} {task : Task α}
    (hy : y'.tasks = y.tasks.set i task) (hji : j ≠ i) : y'.result? j = y.result? j := by
  unfold result?
  rw [hy, List.getElem?_set_ne fun h => hji h.symm]

section
variable {did : Nat → List UserId} {made : List UserId} {y : System α} {i : Nat} {p : UseCase α}

/-- A call of a program at work keeps the invariant. -/
theorem Tracks.call (h : Tracks d seed programs s did made y) (hp : programs[i]? = some p)
    (hi : i ∉ y.units) {c : Call} {next : Except c.Failure c.Answer → UseCase α} {a : c.Answer}
    (task : y.tasks[i]? = some (.active (.call c next)))
    (standing : Stands d seed s.goods (made ++ c.creates) p (next (.ok a)) (did i ++ c.creates)) :
    Tracks d seed programs s (Function.update did i (did i ++ c.creates)) (made ++ c.creates)
      { y with
        tasks := y.tasks.set i (.active (next (.ok a)))
        store := y.store.provision seed c.creates } where
  known := h.known
  once := h.once
  callers := by rw [List.length_set, h.callers]
  store := by
    show y.store.provision seed c.creates = _
    rw [h.store, Store.provision_provision]
  atWork j p' hp' hj := by
    by_cases hji : j = i
    · subst hji
      obtain rfl : p' = p := Option.some_inj.1 (hp'.symm.trans hp)
      have there := (List.getElem?_eq_some_iff.1 task).1
      rw [Function.update_self]
      exact ⟨next (.ok a), List.getElem?_set_self there, standing⟩
    · obtain ⟨q, hq, other⟩ := h.atWork j p' hp' hj
      rw [Function.update_of_ne hji]
      refine ⟨q, ?_, other.mono (List.subset_append_left _ _)⟩
      show (y.tasks.set i _)[j]? = _
      rw [List.getElem?_set_ne fun h => hji h.symm]
      exact hq
  ended j hj := by
    have hji : j ≠ i := fun h => hi (h ▸ hj)
    rw [result?_of_set rfl hji]
    exact h.ended j hj
  served e he := by
    have hei : e.1 ≠ i := fun h => hi (h ▸ fst_mem_of_mem_serially he)
    rw [result?_of_set rfl hei]
    exact h.served e he
  early u hu := by
    have caller : i < programs.length := (List.getElem?_eq_some_iff.1 hp).1
    rcases List.mem_append.1 hu with hu | hu
    · rcases h.early u hu with there | ⟨j, hj, hju, huj⟩
      · exact .inl there
      · refine .inr ⟨j, hj, hju, ?_⟩
        by_cases hji : j = i
        · subst hji
          rw [Function.update_self]
          exact List.mem_append_left _ huj
        · rw [Function.update_of_ne hji]
          exact huj
    · refine .inr ⟨i, caller, hi, ?_⟩
      rw [Function.update_self]
      exact List.mem_append_right _ hu

/-- The unit of a program at work keeps the invariant: the serial run is longer by this program,
and its provisioning is not ahead of it any more. -/
theorem Tracks.unit (direct : ∀ p ∈ programs, p.Direct d seed s.goods [])
    (h : Tracks d seed programs s did made y) (hp : programs[i]? = some p) (hi : i ∉ y.units)
    {w : Work LedgerError Unit} {next : Except LedgerError Unit → UseCase α}
    (task : y.tasks[i]? = some (.active (.transact w next)))
    (standing : Stands d seed s.goods made p (.transact w next) (did i)) :
    Tracks d seed programs s did made
      { tasks := y.tasks.set i (.active (next (w.commitIfOk y.store).1))
        store := (w.commitIfOk y.store).2
        units := y.units ++ [i] } := by
  have caller : i < programs.length := (List.getElem?_eq_some_iff.1 hp).1
  obtain ⟨r, z', whole, answer, committed, own, later⟩ :=
    standing.unit (goods_serially direct y.units rfl)
  rw [← h.store] at answer committed
  have longer : serially d programs (y.units ++ [i]) s =
      ((serially d programs y.units s).1 ++ [(i, r)], z') := by
    rw [serially_append]
    simp only [serially, hp]
    rw [whole]
  have there := (List.getElem?_eq_some_iff.1 task).1
  have mine : (y.tasks.set i (.active (next (w.commitIfOk y.store).1)))[i]? =
      some (.active (.done r)) := by
    rw [List.getElem?_set_self there, answer]
  constructor
  case known =>
    intro j hj
    rcases List.mem_append.1 hj with hj | hj
    · exact h.known j hj
    · exact List.mem_singleton.1 hj ▸ caller
  case once =>
    refine List.nodup_append.2 ⟨h.once, List.pairwise_singleton _ i, fun j hj k hk hjk => ?_⟩
    rw [List.mem_singleton] at hk
    exact hi (hk ▸ hjk ▸ hj)
  case callers => rw [List.length_set, h.callers]
  case store =>
    show (w.commitIfOk y.store).2 = (serially d programs (y.units ++ [i]) s).2.provision seed made
    rw [committed, longer]
  case atWork =>
    intro j p' hp' hj
    have hju : j ∉ y.units := fun h => hj (List.mem_append_left _ h)
    have hji : j ≠ i := fun h => hj (List.mem_append_right _ (List.mem_singleton.2 h))
    obtain ⟨q, hq, other⟩ := h.atWork j p' hp' hju
    refine ⟨q, ?_, other⟩
    show (y.tasks.set i _)[j]? = _
    rw [List.getElem?_set_ne fun h => hji h.symm]
    exact hq
  case ended =>
    intro j hj
    by_cases hji : j = i
    · rw [hji, result?_eq_some_iff.2 mine]
      rfl
    · rw [result?_of_set rfl hji]
      rcases List.mem_append.1 hj with hj | hj
      · exact h.ended j hj
      · exact (hji (List.mem_singleton.1 hj)).elim
  case served =>
    intro e he
    rw [longer] at he
    rcases List.mem_append.1 he with he | he
    · have hei : e.1 ≠ i := fun h => hi (h ▸ fst_mem_of_mem_serially he)
      rw [result?_of_set rfl hei]
      exact h.served e he
    · rw [List.mem_singleton.1 he]
      exact result?_eq_some_iff.2 mine
  case early =>
    intro u hu
    show (serially d programs (y.units ++ [i]) s).2.HasRows [u] ∨ _
    rw [longer]
    rcases h.early u hu with there | ⟨j, hj, hju, huj⟩
    · exact .inl (later [u] there)
    · by_cases hji : j = i
      · subst hji
        exact .inl fun v hv => own v (List.mem_singleton.1 hv ▸ huj)
      · refine .inr ⟨j, hj, fun h => ?_, huj⟩
        rcases List.mem_append.1 h with h | h
        · exact hju h
        · exact hji (List.mem_singleton.1 h)

/-- A turn that leaves its caller and the store alone leaves the system alone. -/
theorem step_still {t : Turn} {task : Task α} (ht : y.tasks[t.caller]? = some task)
    (hstep : task.step d t.move y.store = (task, y.store))
    (off : (task.atUnit && t.move.goesOn) = false) : y.step d t = y := by
  unfold step
  rw [ht]
  simp only [hstep, off]
  have hset : y.tasks.set t.caller task = y.tasks := by
    obtain ⟨hlt, heq⟩ := List.getElem?_eq_some_iff.1 ht
    rw [← heq]
    exact List.set_getElem_self hlt
  rw [hset]
  rfl

/-- A calm turn of a caller that is about to make a steady call. -/
theorem step_call {c : Call} {next : Except c.Failure c.Answer → UseCase α} {a : c.Answer}
    (ht : y.tasks[i]? = some (.active (.call c next))) (steady : c.Steady d seed s.goods a)
    (goods : y.store.goods = s.goods) :
    y.step d ⟨i, .go .quiet⟩ =
      { y with
        tasks := y.tasks.set i (.active (next (.ok a)))
        store := y.store.provision seed c.creates } := by
  unfold step
  simp only [ht, Task.step, Script.quiet, Treatment.apply_untouched, steady _ goods]
  rfl

/-- A calm turn of a caller that is about to run a unit of work. -/
theorem step_unit {w : Work LedgerError Unit} {next : Except LedgerError Unit → UseCase α}
    (ht : y.tasks[i]? = some (.active (.transact w next))) :
    y.step d ⟨i, .go .quiet⟩ =
      { tasks := y.tasks.set i (.active (next (w.commitIfOk y.store).1))
        store := (w.commitIfOk y.store).2
        units := y.units ++ [i] } := by
  obtain ⟨ending, n, hconclude, houtcome⟩ :=
    w.conclude_quiet (e := { directory := d, script := .quiet }) (c := {}) rfl rfl y.store
  unfold step
  simp only [ht, Task.step, hconclude, houtcome]
  rfl

/-- **Every turn without failures keeps the invariant.** -/
theorem Tracks.step (direct : ∀ p ∈ programs, p.Direct d seed s.goods [])
    (h : Tracks d seed programs s did made y) {t : Turn} (calm : t.move.Calm) :
    ∃ did made, Tracks d seed programs s did made (y.step d t) := by
  have unchanged : y.step d t = y → ∃ did made, Tracks d seed programs s did made (y.step d t) :=
    fun still => ⟨did, made, by rw [still]; exact h⟩
  have goods : y.store.goods = s.goods := by
    rw [h.store, Store.goods_provision]
    exact goods_serially direct y.units rfl
  obtain ⟨i, move⟩ := t
  cases htask : y.tasks[i]? with
  | none =>
    apply unchanged
    unfold System.step
    rw [htask]
  | some task =>
    have caller : i < programs.length := h.callers ▸ (List.getElem?_eq_some_iff.1 htask).1
    have hp := List.getElem?_eq_getElem caller
    by_cases hi : i ∈ y.units
    · -- The caller's program is over.
      obtain ⟨r, hr⟩ := Option.isSome_iff_exists.1 (h.ended i hi)
      obtain rfl : task = .active (.done r) :=
        Option.some_inj.1 (htask.symm.trans (result?_eq_some_iff.1 hr))
      apply unchanged
      cases calm <;> exact step_still htask rfl rfl
    · obtain ⟨q, hq, standing⟩ := h.atWork i _ hp hi
      obtain rfl : task = .active q := Option.some_inj.1 (htask.symm.trans hq)
      cases calm with
      | read which =>
        apply unchanged
        refine step_still htask ?_ (Bool.and_false _)
        cases q <;> rfl
      | go =>
        cases q with
        | done r => exact unchanged (step_still htask rfl rfl)
        | gather u next => exact standing.direct.elim
        | call c next =>
          obtain ⟨a, steady, standing'⟩ := standing.call
          rw [step_call htask steady goods]
          exact ⟨_, _, h.call hp hi htask standing'⟩
        | transact w next =>
          rw [step_unit htask]
          exact ⟨_, _, h.unit direct hp hi htask standing⟩

end

/-- The invariant holds along every run without failures. -/
theorem tracks_after (direct : ∀ p ∈ programs, p.Direct d seed s.goods []) {schedule : Schedule}
    (calm : ∀ t ∈ schedule, t.move.Calm) :
    ∃ did made, Tracks d seed programs s did made ((starting programs s).after d schedule) := by
  refine after_induction (I := fun y => ∃ did made, Tracks d seed programs s did made y) ?_
    ⟨_, _, tracks_starting direct⟩
  rintro y ⟨did, made, h⟩ t ht
  exact h.step direct (calm t ht)

/-! ## Serial orders -/

/-- Whether an order names each of a number of callers once, and those whose units of work were
run in the order of the units. -/
structure SerialOrder (count : Nat) (units order : List Nat) : Prop where
  callers : order.Perm (List.range count)
  units : order.filter (· ∈ units) = units

/-- The callers whose units were run may go first, and the others may follow in any order. -/
theorem exists_serialOrder {count : Nat} {units : List Nat} (known : ∀ i ∈ units, i < count)
    (once : units.Nodup) : ∃ order, SerialOrder count units order := by
  refine ⟨units ++ (List.range count).filter (· ∉ units), ?_, ?_⟩
  · have others : ((List.range count).filter (· ∉ units)).Nodup := List.nodup_range.filter _
    refine (List.perm_ext_iff_of_nodup (List.nodup_append.2 ⟨once, others, ?_⟩)
      List.nodup_range).2 fun i => ?_
    · rintro i hi j hj rfl
      simp [hi] at hj
    · by_cases hi : i ∈ units
      · simp [hi, known i hi]
      · simp [hi]
  · rw [List.filter_append, List.filter_filter]
    have mine : units.filter (· ∈ units) = units := List.filter_eq_self.2 fun i hi => by simpa
    have others : (List.range count).filter (fun i => decide (i ∈ units) && decide (i ∉ units)) =
        [] := List.filter_eq_nil_iff.2 fun i _ => by simp
    rw [mine, others, List.append_nil]

/-- Programs that only provision may stand anywhere in an order: the results are the same, and the
store is that of the others with the rows that they make sure of. -/
theorem serially_filter (direct : ∀ p ∈ programs, p.Direct d seed s.goods []) {units : List Nat}
    {did : Nat → List UserId} {result : Nat → Option (Except LedgerError α)}
    (settled : ∀ i p, programs[i]? = some p → i ∉ units → ∃ r, result i = some r ∧
      ∀ z : Store, z.goods = s.goods → p.runOn (.memory d) z = (r, z.provision seed (did i)))
    {order : List Nat} (known : ∀ i ∈ order, i < programs.length) {z : Store}
    (goods : z.goods = s.goods)
    (served : ∀ e ∈ (serially d programs (order.filter (· ∈ units)) z).1,
      result e.1 = some e.2) :
    (serially d programs order z).2 =
        (serially d programs (order.filter (· ∈ units)) z).2.provision seed
          ((order.filter (· ∉ units)).flatMap did) ∧
      ∀ e ∈ (serially d programs order z).1, result e.1 = some e.2 := by
  induction order generalizing z with
  | nil => exact ⟨rfl, fun _ h => nomatch h⟩
  | cons i rest ih =>
    have known' : ∀ j ∈ rest, j < programs.length :=
      fun j hj => known j (List.mem_cons_of_mem i hj)
    obtain ⟨p, hi⟩ : ∃ p, programs[i]? = some p :=
      ⟨_, List.getElem?_eq_getElem (known i List.mem_cons_self)⟩
    have hp := direct p (List.mem_of_getElem? hi)
    by_cases hu : i ∈ units
    · have kept : (i :: rest).filter (· ∈ units) = i :: rest.filter (· ∈ units) :=
        List.filter_cons_of_pos (by simpa using hu)
      have dropped : (i :: rest).filter (· ∉ units) = rest.filter (· ∉ units) :=
        List.filter_cons_of_neg (by simpa using hu)
      rw [kept] at served ⊢
      rw [dropped]
      simp only [serially, hi] at served ⊢
      obtain ⟨store, results⟩ := ih known' (hp.goods_runOn goods)
        fun e he => served e (List.mem_cons_of_mem _ he)
      refine ⟨store, fun e he => ?_⟩
      rcases List.mem_cons.1 he with rfl | he
      · exact served _ List.mem_cons_self
      · exact results e he
    · have kept : (i :: rest).filter (· ∈ units) = rest.filter (· ∈ units) :=
        List.filter_cons_of_neg (by simpa using hu)
      have dropped : (i :: rest).filter (· ∉ units) = i :: rest.filter (· ∉ units) :=
        List.filter_cons_of_pos (by simpa using hu)
      obtain ⟨r, hr, hrun⟩ := settled i p hi hu
      rw [kept] at served ⊢
      rw [dropped]
      simp only [serially, hi, hrun z goods, List.flatMap_cons]
      have moved := serially_provision direct (rest.filter (· ∈ units)) (did i) goods
      have goods' : (z.provision seed (did i)).goods = s.goods := by
        rw [Store.goods_provision, goods]
      obtain ⟨store, results⟩ := ih known' goods' (by rw [moved]; exact served)
      refine ⟨?_, fun e he => ?_⟩
      · rw [store, moved, Store.provision_provision]
      · rcases List.mem_cons.1 he with rfl | he
        · exact hr
        · exact results e he

/-- **Every finished run without failures is serial**: run one at a time, in any order that keeps
the order of the units, the programs have the same results and leave the same store. -/
theorem serial_of_finished (direct : ∀ p ∈ programs, p.Direct d seed s.goods [])
    {schedule : Schedule} (calm : ∀ t ∈ schedule, t.move.Calm) {y : System α}
    (run : y = (starting programs s).after d schedule) (finished : y.Finished) :
    (∃ order, SerialOrder programs.length y.units order) ∧
    ∀ order, SerialOrder programs.length y.units order →
      (serially d programs order s).2 = y.store ∧
      (serially d programs order s).1.map Prod.fst = order ∧
      ∀ e ∈ (serially d programs order s).1, y.result? e.1 = some e.2 := by
  obtain ⟨did, made, h⟩ := tracks_after direct calm
  rw [← run] at h
  refine ⟨exists_serialOrder h.known h.once, fun order horder => ?_⟩
  have known : ∀ i ∈ order, i < programs.length :=
    fun i hi => List.mem_range.1 (horder.callers.mem_iff.1 hi)
  -- Who has not run a unit of work has come to its end by provisioning alone.
  have settled : ∀ i p, programs[i]? = some p → i ∉ y.units → ∃ r, y.result? i = some r ∧
      ∀ z : Store, z.goods = s.goods →
        p.runOn (.memory d) z = (r, z.provision seed (did i)) := by
    intro i p hp hi
    obtain ⟨q, hq, standing⟩ := h.atWork i p hp hi
    have ended : (Task.active q).result?.isSome := finished _ (List.mem_of_getElem? hq)
    cases q with
    | done r => exact ⟨r, result?_eq_some_iff.2 hq, standing.resumes⟩
    | call c next => cases ended
    | transact w next => cases ended
    | gather u next => cases ended
  have served : ∀ e ∈ (serially d programs (order.filter (· ∈ y.units)) s).1,
      y.result? e.1 = some e.2 := by
    rw [horder.units]
    exact h.served
  obtain ⟨store, results⟩ := serially_filter direct settled known rfl served
  refine ⟨?_, map_fst_serially known s, results⟩
  rw [store, horder.units, h.store]
  refine Store.provision_congr fun u hu => ?_
  simp only [List.mem_flatMap, List.mem_filter, decide_eq_true_eq]
  constructor
  · rintro ⟨i, ⟨hi, hiu⟩, hud⟩
    have hp := List.getElem?_eq_getElem (known i hi)
    obtain ⟨_, -, standing⟩ := h.atWork i _ hp hiu
    exact standing.among hud
  · intro hmade
    rcases h.early u hmade with there | ⟨i, hi, hiu, hud⟩
    · have row := there u (List.mem_singleton.2 rfl)
      rw [hu] at row
      cases row
    · exact ⟨i, ⟨horder.callers.mem_iff.2 (List.mem_range.2 hi), hiu⟩, hud⟩

end System

end Interleaving

end CoinLedger
