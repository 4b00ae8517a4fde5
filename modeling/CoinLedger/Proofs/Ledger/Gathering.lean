import CoinLedger.Proofs.Identity.Names
import CoinLedger.Proofs.Ledger.Calls
import Mathlib.Data.List.Forall2

/-!
# Gathering an account view

The three reads of an account run at the same time.  The first one to fail ends the use case, so
nothing is asked of the identity service before all of them are there.  Then every other party of
the history is asked for once, and each line of the history keeps its place and its amount and gets
the name that came for it.

## Main definitions

* `AccountReads`, `Stage.accountReads` — the three reads, each with its moment.
* `AccountReads.Fails`, `AccountReads.Give` — what is wrong with them, and what they give.
* `AccountInfo.Shows` — a view shows some holdings under some names.

## Main results

* `AccountReads.joined_of_fails`, `AccountReads.joined_of_give` — the reads joined.
* `UseCase.accountInfo_all_or_nothing` — the use case.
-/

namespace CoinLedger

/-! ## The reads -/

/-- The reads of an account, each with the moment at which it is there. -/
structure AccountReads where
  balance : Timed (Except StorageFailure (Option Coins))
  inventory : Timed (Except StorageFailure Inventory)
  transfers : Timed (Except StorageFailure History)

/-- The reads of an account in a run. -/
def Stage.accountReads (e : Stage) (s : Store) (c : Clock) (u : UserId) : AccountReads where
  balance := e.read s c (.findBalance u)
  inventory := e.read s { c with calls := c.calls + 1 } (.inventory u)
  transfers := e.read s { c with calls := c.calls + 2 } (.transfers u)

namespace AccountReads

/-- One of the reads fails: with which error of the use case, and at which moment. -/
inductive Fails (r : AccountReads) (u : UserId) : LedgerError → Nat → Prop
  | balance {f : StorageFailure} (failed : r.balance.value = .error f) :
      r.Fails u (.internal (.balances f)) r.balance.moment
  | noBalance (missing : r.balance.value = .ok none) :
      r.Fails u (.balanceNotFound u) r.balance.moment
  | inventory {f : StorageFailure} (failed : r.inventory.value = .error f) :
      r.Fails u (.internal (.history f)) r.inventory.moment
  | transfers {f : StorageFailure} (failed : r.transfers.value = .error f) :
      r.Fails u (.internal (.history f)) r.transfers.moment

/-- What the reads give if none of them fails. -/
structure Give (r : AccountReads) (h : Holdings) : Prop where
  balance : r.balance.value = .ok (some h.balance)
  inventory : r.inventory.value = .ok h.inventory
  transfers : r.transfers.value = .ok h.history

/-- The moment at which the last of the reads is there. -/
def last (r : AccountReads) : Nat :=
  max r.balance.moment (max r.inventory.moment r.transfers.moment)

/-- The reads joined. -/
def joined (r : AccountReads) (u : UserId) : Timed (Except LedgerError Holdings) :=
  gatherReads u r.balance r.inventory r.transfers

/-- The failures that the join chooses from. -/
def failures (r : AccountReads) (u : UserId) : List (Timed LedgerError) :=
  Join.failures ⟨requireBalance u r.balance.value, r.balance.moment⟩
    ⟨requireHistory r.inventory.value, r.inventory.moment⟩
    ⟨requireHistory r.transfers.value, r.transfers.moment⟩

variable {r : AccountReads} {u : UserId}

theorem mem_failures_iff {f : Timed LedgerError} :
    f ∈ r.failures u ↔ r.Fails u f.value f.moment := by
  obtain ⟨⟨balance, t₁⟩, ⟨inventory, t₂⟩, ⟨transfers, t₃⟩⟩ := r
  obtain ⟨err, t⟩ := f
  rw [failures, Join.mem_failures]
  constructor
  · rintro (⟨failed, rfl⟩ | ⟨failed, rfl⟩ | ⟨failed, rfl⟩)
    · -- A balance fails in two ways: the read does, or there is no row.
      rcases balance with f | _ | amount <;> cases failed
      · exact .balance rfl
      · exact .noBalance rfl
    · cases inventory <;> cases failed
      exact .inventory rfl
    · cases transfers <;> cases failed
      exact .transfers rfl
  · rintro (failed | missing | failed | failed)
    · cases failed
      exact .inl ⟨rfl, rfl⟩
    · cases missing
      exact .inl ⟨rfl, rfl⟩
    · cases failed
      exact .inr (.inl ⟨rfl, rfl⟩)
    · cases failed
      exact .inr (.inr ⟨rfl, rfl⟩)

/-- Reads of which none fails give something. -/
theorem exists_give (sound : ∀ err t, ¬r.Fails u err t) : ∃ h, r.Give h := by
  obtain ⟨⟨balance, t₁⟩, ⟨inventory, t₂⟩, ⟨transfers, t₃⟩⟩ := r
  rcases balance with f | _ | amount
  · exact absurd (.balance rfl) (sound (.internal (.balances f)) t₁)
  · exact absurd (.noBalance rfl) (sound (.balanceNotFound u) t₁)
  · rcases inventory with f | i
    · exact absurd (.inventory rfl) (sound (.internal (.history f)) t₂)
    · rcases transfers with f | h
      · exact absurd (.transfers rfl) (sound (.internal (.history f)) t₃)
      · exact ⟨⟨amount, i, h⟩, rfl, rfl, rfl⟩

/-- The join of reads that fail is over with one that no other fails before. -/
theorem joined_of_fails (fails : ∃ err t, r.Fails u err t) :
    ∃ err t, r.Fails u err t ∧ (∀ err' t', r.Fails u err' t' → t ≤ t') ∧
      r.joined u = ⟨.error err, t⟩ := by
  obtain ⟨err, t, failed⟩ := fails
  have some_failure : (⟨err, t⟩ : Timed LedgerError) ∈ r.failures u := mem_failures_iff.2 failed
  cases listed : r.failures u with
  | nil => rw [listed] at some_failure; cases some_failure
  | cons f rest =>
    have reported : Join.earliest f rest ∈ r.failures u := listed ▸ Join.earliest_mem f rest
    refine ⟨_, _, mem_failures_iff.1 reported, fun err' t' failed' => ?_, ?_⟩
    · have other : (⟨err', t'⟩ : Timed LedgerError) ∈ f :: rest :=
        listed ▸ mem_failures_iff.2 failed'
      exact Join.earliest_at_le f rest _ other
    · unfold failures at listed
      unfold joined gatherReads Join.join
      rw [listed]
      rfl

theorem joined_of_give {h : Holdings} (give : r.Give h) : r.joined u = ⟨.ok h, r.last⟩ := by
  obtain ⟨⟨_, _⟩, ⟨_, _⟩, ⟨_, _⟩⟩ := r
  obtain ⟨rfl, rfl, rfl⟩ := give
  rfl

end AccountReads

/-! ## The view -/

theorem History.counterparts_eq_nil_iff {h : History} :
    h.counterparts = [] ↔ h.incoming = [] ∧ h.outgoing = [] := by
  rw [← List.append_eq_nil_iff, List.eq_nil_iff_forall_not_mem, List.eq_nil_iff_forall_not_mem]
  simp only [mem_counterparts, not_exists, not_and]
  exact ⟨fun nobody x hx => nobody x.counterpart x hx rfl, fun empty v x hx => (empty x hx).elim⟩

/-- A line of a history as it is shown: its amount, and the name of the other party, which is empty
exactly if there is none. -/
structure NamedEntry.Shows (line : NamedEntry) (nameOf : UserId → Option Username) (x : Entry) :
    Prop where
  amount : line.amount = x.amount
  named : ∀ name, nameOf x.counterpart = some name → line.counterpart = name.text
  empty_iff : line.counterpart = "" ↔ nameOf x.counterpart = none

/-- A view that shows some holdings, each line of the history in its place. -/
structure AccountInfo.Shows (view : AccountInfo) (nameOf : UserId → Option Username)
    (h : Holdings) : Prop where
  balance : view.balance = h.balance
  inventory : view.inventory = h.inventory
  incoming : List.Forall₂ (fun x line => line.Shows nameOf x) h.history.incoming view.incoming
  outgoing : List.Forall₂ (fun x line => line.Shows nameOf x) h.history.outgoing view.outgoing

/-- A username is not the empty text. -/
theorem Username.text_ne_empty (name : Username) : name.text ≠ "" := by
  intro empty
  have filled := (usernameDefect?_eq_none_iff.1 name.valid).2
  rw [empty] at filled
  exact filled rfl

namespace UseCase

theorem forall₂_named (names : Names) (entries : List Entry) :
    List.Forall₂ (fun x line => line.Shows names.get? x) entries (named names entries) := by
  rw [named, List.forall₂_map_right_iff, List.forall₂_same]
  intro x _
  refine ⟨rfl, fun name found => ?_, ?_⟩
  · simp only [found, Option.map_some, Option.getD_some]
  · cases found : names.get? x.counterpart with
    | none => simp
    | some name => simp [name.text_ne_empty]

theorem shows_assemble (h : Holdings) (names : Names) :
    (assemble h names).Shows names.get? h where
  balance := rfl
  inventory := rfl
  incoming := forall₂_named names h.history.incoming
  outgoing := forall₂_named names h.history.outgoing

/-! ## The use case -/

variable {e : Stage} (unlimited : e.limit = none) (s : Store) (c : Clock) {u : UserId}
include unlimited

/-- The use case is over when a read has failed. -/
theorem accountInfo_of_error {err : LedgerError} {t : Nat}
    (failed : (e.accountReads s c u).joined u = ⟨.error err, t⟩) :
    (accountInfo u).play e s c = .finished (.error err) s ⟨t, c.calls + 3⟩ ∧
      (accountInfo u).calls e s c = [] := by
  have reads : e.reads s c u = ⟨.error err, t⟩ := failed
  simp only [accountInfo, play, calls, reads, Stage.allows_of_unlimited unlimited, if_true]
  exact ⟨trivial, trivial⟩

/-- Nobody is asked for a history without other parties. -/
theorem accountInfo_of_nobody {h : Holdings} {t : Nat}
    (given : (e.accountReads s c u).joined u = ⟨.ok h, t⟩) (nobody : h.history.counterparts = []) :
    (accountInfo u).play e s c =
        .finished (.ok (assemble h SortedMap.empty)) s ⟨t, c.calls + 3⟩ ∧
      (accountInfo u).calls e s c = [] := by
  have reads : e.reads s c u = ⟨.ok h, t⟩ := given
  simp only [accountInfo, play, calls, reads, Stage.allows_of_unlimited unlimited, if_true, nobody]
  exact ⟨trivial, trivial⟩

/-- The other parties are asked for once, and the view is put together from the answer. -/
theorem accountInfo_of_somebody {h : Holdings} {t : Nat}
    (given : (e.accountReads s c u).joined u = ⟨.ok h, t⟩)
    (somebody : h.history.counterparts ≠ []) :
    let asked := e.read s ⟨t, c.calls + 3⟩ (.resolveNames h.history.counterparts)
    (accountInfo u).play e s c =
        .finished ((asked.value.mapError fun f => .internal (.identity f)).map (assemble h)) s
          ⟨asked.moment, c.calls + 4⟩ ∧
      (accountInfo u).calls e s c =
        [(.resolveNames h.history.counterparts, asked.moment)] := by
  intro asked
  have reads : e.reads s c u = ⟨.ok h, t⟩ := given
  have unchanged : ∀ t : Treatment IdentityFailure Names,
      (t.apply (Store.call e.directory (.resolveNames h.history.counterparts)) s).2 = s := by
    rintro ⟨delay, change | result⟩ <;> rfl
  constructor
  · simp only [accountInfo, play, reads, Stage.allows_of_unlimited unlimited, if_true,
      if_neg somebody, play_ask_bind unlimited]
    have still := unchanged (e.script.call (c.calls + 3) (.resolveNames h.history.counterparts))
    split
    · next names s' answered =>
      rw [answered] at still
      have value : asked.value = .ok names := congrArg Prod.fst answered
      rw [value, ← still]
      rfl
    · next f s' answered =>
      rw [answered] at still
      have value : asked.value = .error f := congrArg Prod.fst answered
      rw [value, ← still]
      rfl
  · simp only [accountInfo, calls, reads, Stage.allows_of_unlimited unlimited, if_true,
      if_neg somebody]
    exact calls_ask_last unlimited s ⟨t, c.calls + 3⟩ fun _ _ _ => rfl

omit unlimited

/-- **An account view is all or nothing.**  If a read fails, the answer is the error of one that no
other failed before, and nobody is asked for a name.  Otherwise the other parties, if there are any,
are asked for once, all of them and in ascending order.  A failure to name them is answered as such;
any names make a view, and so does any answer with good keys, whatever texts it has for names. -/
theorem accountInfo_all_or_nothing (d : Directory) (k : Script) (s : Store) (c : Clock)
    (u : UserId) :
    let e : Stage := { directory := d, script := k }
    let p := accountInfo u
    let reads := e.accountReads s c u
    ((∃ err t, reads.Fails u err t) → ∃ err t, reads.Fails u err t ∧
      (∀ err' t', reads.Fails u err' t' → t ≤ t') ∧
      p.play e s c = .finished (.error err) s ⟨t, c.calls + 3⟩ ∧ p.calls e s c = []) ∧
    ((∀ err t, ¬reads.Fails u err t) → ∃ h, reads.Give h ∧
      let ids := h.history.counterparts
      ids.Pairwise (· < ·) ∧
      (∀ v, v ∈ ids ↔ ∃ x ∈ h.history.incoming ++ h.history.outgoing, x.counterpart = v) ∧
      (ids = [] → p.calls e s c = [] ∧
        p.play e s c = .finished (.ok { balance := h.balance, inventory := h.inventory }) s
          ⟨reads.last, c.calls + 3⟩) ∧
      (ids ≠ [] →
        let asked := e.read s ⟨reads.last, c.calls + 3⟩ (.resolveNames ids)
        let finish : Clock := ⟨asked.moment, c.calls + 4⟩
        p.calls e s c = [(.resolveNames ids, asked.moment)] ∧
        (∀ f, asked.value = .error f →
          p.play e s c = .finished (.error (.internal (.identity f))) s finish) ∧
        (∀ names, asked.value = .ok names →
          ∃ view, p.play e s c = .finished (.ok view) s finish ∧ view.Shows names.get? h) ∧
        ∀ status body entries, Identity.isSuccess status = true →
          Identity.entries? (Identity.bodyOf status body) = some entries →
          (∀ x ∈ entries, Identity.WrittenEntry.Keyed x) →
          asked.value = Identity.foundNames (.answered status body) →
          ∃ view, p.play e s c = .finished (.ok view) s finish ∧
            view.Shows (Identity.lastGivenTo? · entries) h)) := by
  intro e p reads
  have unlimited : e.limit = none := rfl
  refine ⟨fun fails => ?_, fun sound => ?_⟩
  · obtain ⟨err, t, failed, first, joined⟩ := reads.joined_of_fails fails
    exact ⟨err, t, failed, first, accountInfo_of_error unlimited s c joined⟩
  · obtain ⟨h, give⟩ := reads.exists_give sound
    have joined : reads.joined u = ⟨.ok h, reads.last⟩ := reads.joined_of_give give
    refine ⟨h, give, ?_⟩
    intro ids
    refine ⟨pairwise_ascending _, fun v => History.mem_counterparts, fun nobody => ?_,
      fun somebody => ?_⟩
    · obtain ⟨played, calls⟩ := accountInfo_of_nobody unlimited s c joined nobody
      obtain ⟨no_incoming, no_outgoing⟩ := History.counterparts_eq_nil_iff.1 nobody
      refine ⟨calls, played.trans ?_⟩
      simp only [assemble, named, no_incoming, no_outgoing, List.map_nil]
    · obtain ⟨played, calls⟩ := accountInfo_of_somebody unlimited s c joined somebody
      intro asked finish
      have shown : ∀ names, asked.value = .ok names →
          ∃ view, p.play e s c = .finished (.ok view) s finish ∧ view.Shows names.get? h := by
        intro names answered
        refine ⟨assemble h names, played.trans ?_, shows_assemble h names⟩
        show Played.finished ((asked.value.mapError _).map _) s finish = _
        rw [answered]
        rfl
      refine ⟨calls, fun f failed => played.trans ?_, shown, ?_⟩
      · show Played.finished ((asked.value.mapError _).map _) s finish = _
        rw [failed]
        rfl
      · intro status body entries success listed keyed answered
        obtain ⟨names, found, read⟩ := Identity.foundNames_of_keyed success listed keyed
        rw [← funext read]
        exact shown names (answered.trans found)

/-- An answer of the identity service in which one user is bob and another has a blank for a
name. -/
def blankAnswer : List UInt8 :=
  "\x7b\"usernames\":\x7b\"2\":\"bob\",\"4\":\" \"\x7d\x7d".toUTF8.toList

/-- A history with three other parties, one of them in both directions. -/
def busyHistory : History where
  incoming := [⟨⟨4⟩, ⟨5⟩⟩, ⟨⟨2⟩, ⟨7⟩⟩]
  outgoing := [⟨⟨2⟩, ⟨1⟩⟩, ⟨⟨9⟩, ⟨3⟩⟩]

/-- The history is there after six, and its names take twenty more. -/
def blankNames : Script :=
  { Script.quiet with
    call := fun _ q => match q with
      | .transfers _ => { delay := 6, reply := .replaced (.ok busyHistory) }
      | .resolveNames _ =>
        { delay := 20, reply := .replaced (Identity.foundNames (.answered 200 blankAnswer)) }
      | _ => {} }

/-- Three users are asked for, and the view is there although only one of them has a name.  Without
a row the balance fails first, and nobody is asked for. -/
theorem accountInfo_all_or_nothing_blankNames :
    let e : Stage := { script := blankNames }
    let s : Store := { balances := SortedMap.ofList [(⟨1⟩, ⟨100⟩)] }
    let h : Holdings := ⟨⟨100⟩, SortedMap.empty, busyHistory⟩
    ((accountInfo ⟨1⟩).calls e s {} = [(.resolveNames [⟨2⟩, ⟨4⟩, ⟨9⟩], 26)] ∧
      ∃ view, (accountInfo ⟨1⟩).play e s {} = .finished (.ok view) s ⟨26, 4⟩ ∧
        view.Shows (Identity.lastGivenTo? · [("2", "bob"), ("4", " ")]) h) ∧
    ((accountInfo ⟨1⟩).calls e {} {} = [] ∧
      (accountInfo ⟨1⟩).play e {} {} = .finished (.error (.balanceNotFound ⟨1⟩)) {} ⟨0, 3⟩) := by
  intro e s h
  constructor
  · have sound : ∀ err t, ¬(e.accountReads s {} ⟨1⟩).Fails ⟨1⟩ err t := by
      intro err t fails
      rcases fails with failed | failed | failed | failed <;> cases failed
    obtain ⟨h', give, -, -, -, asked⟩ :=
      (accountInfo_all_or_nothing SortedMap.empty blankNames s {} ⟨1⟩).2 sound
    have same : h' = h := by
      obtain ⟨balance, inventory, history⟩ := h'
      have hb : some (⟨100⟩ : Coins) = some balance := Except.ok.inj give.balance
      have hi : SortedMap.empty = inventory := Except.ok.inj give.inventory
      have ht : busyHistory = history := Except.ok.inj give.transfers
      cases hb
      cases hi
      cases ht
      rfl
    subst same
    obtain ⟨calls, -, -, named⟩ := asked (by decide)
    refine ⟨calls, named 200 blankAnswer _ rfl (by decide +kernel) ?_ rfl⟩
    intro x hx
    simp only [List.mem_cons, List.not_mem_nil, or_false] at hx
    rcases hx with rfl | rfl
    · exact ⟨⟨2⟩, by decide +kernel⟩
    · exact ⟨⟨4⟩, by decide +kernel⟩
  · obtain ⟨err, t, fails, -, played, calls⟩ :=
      (accountInfo_all_or_nothing SortedMap.empty blankNames {} {} ⟨1⟩).1 ⟨_, _, .noBalance rfl⟩
    refine ⟨calls, ?_⟩
    rcases fails with failed | failed | failed | failed <;> cases failed
    exact played

end UseCase

end CoinLedger
