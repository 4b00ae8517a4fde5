import CoinLedger.Proofs.Ledger.Circulation
import CoinLedger.Proofs.Ledger.Limits
import CoinLedger.Proofs.Ledger.Outcomes

/-!
# Units of work that distrust their locks

Both units of work look at locked balances before they write.  This is not what keeps the ledger
right: a debit asks again whether the balance covers it, a credit whether the sum is in range, and
a unit that fails at either of them is rolled back, even if the other one has been done already.
So the locks may answer anything.

`Work.Secures` is what a unit makes sure of under such answers: after every success, whatever was
read under a lock and whichever statements failed, the other statements being as they are.

## Main definitions

* `Script.FalseLocks` — scripts in which locks may answer anything.
* `Work.Secures` — what holds after each success of a unit.

## Main results

* `Work.Secures.conclude` — a transaction leaves what its unit secures, or nothing.
* `UseCase.secures_movement`, `UseCase.secures_purchase` — the two units.
* `UseCase.sound_despite_locks` — transfers and purchases.
-/

namespace CoinLedger

/-- Whether a statement reads rows under a lock. -/
def Statement.ReadsLocked : Statement → Prop
  | lockBalance _ => True
  | lockBalances _ => True
  | _ => False

/-- Scripts in which only locks may answer what is not so.  Any other statement is performed as it
is or fails, as do the beginning and the end of a transaction. -/
structure Script.FalseLocks (k : Script) : Prop where
  call : ∀ n q, (k.call n q).reply = .performed id
  statement : ∀ n q, ¬q.ReadsLocked → (k.statement n q).Honest
  begin : ∀ n, (k.begin n).Honest
  commit : ∀ n, (k.commit n).Honest

/-- A lock writes nothing, whatever becomes of it. -/
theorem Treatment.apply_snd_of_locks {q : Statement} (locks : q.ReadsLocked)
    (t : Treatment StorageFailure q.Answer) (s : Store) :
    (t.apply (Store.statement q) s).2 = s := by
  obtain ⟨delay, change | result⟩ := t
  · cases q <;> first | rfl | exact locks.elim
  · rfl

namespace Work

variable {ε α β : Type}

/-- Whether a condition holds after each success of a unit, whatever its locks answer and whichever
of its statements fail. -/
def Secures (post : α → Store → Prop) : Work ε α → Store → Prop
  | done r, s => ∀ a, r = .ok a → post a s
  | ask q next, s =>
    (∀ f, (next (.error f)).Secures post s) ∧
      (q.ReadsLocked → ∀ a, (next (.ok a)).Secures post s) ∧
      (¬q.ReadsLocked → (next (Store.statement q s).1).Secures post (Store.statement q s).2)

theorem Secures.bind {post : β → Store → Prop} {w : Work ε α} {f : α → Work ε β} {s : Store}
    (h : w.Secures (fun a s' => (f a).Secures post s') s) : (w >>= f).Secures post s := by
  induction w generalizing s with
  | done r =>
    cases r with
    | ok a => exact h a rfl
    | error err => exact fun a failed => by cases failed
  | ask q next ih =>
    obtain ⟨fails, locked, made⟩ := h
    exact ⟨fun f => ih _ (fails f), fun locks a => ih _ (locked locks a),
      fun real => ih _ (made real)⟩

/-- What a unit secures holds after each of its successes in a run. -/
theorem Secures.play {e : Stage} (falseLocks : e.script.FalseLocks) {post : α → Store → Prop}
    {w : Work ε α} {s s' : Store} {c c' : Clock} {a : α} (h : w.Secures post s)
    (played : w.play e s c = some (.ok a, s', c')) : post a s' := by
  induction w generalizing s c with
  | done r =>
    cases played
    exact h a rfl
  | ask q next ih =>
    obtain ⟨fails, locked, made⟩ := h
    simp only [Work.play] at played
    split at played
    · by_cases locks : q.ReadsLocked
      · -- The answer may be any, but the store is the one before.
        rw [Treatment.apply_snd_of_locks locks] at played
        rcases told : ((e.script.statement c.calls q).apply (Store.statement q) s).1 with f | answer
        · rw [told] at played
          exact ih _ (fails f) played
        · rw [told] at played
          exact ih _ (locked locks answer) played
      · rcases (falseLocks.statement c.calls q locks).apply_cases (Store.statement q) s with
          genuine | ⟨f, failed⟩
        · rw [genuine] at played
          exact ih _ (made locks) played
        · rw [failed] at played
          exact ih _ (fails f) played
    · cases played

/-- **A transaction leaves what its unit secures**, or the store as it was. -/
theorem Secures.conclude {e : Stage} (falseLocks : e.script.FalseLocks) {post : α → Store → Prop}
    {w : Work LedgerError α} {s s' : Store} {c c' : Clock} {ending : Ending LedgerError α}
    (h : w.Secures post s) (concluded : w.conclude e s c = some (ending, s', c')) :
    (∃ a, ending.outcome = .ok a ∧ post a s') ∨ ∃ err, ending.outcome = .error err ∧ s' = s := by
  rcases conclude_cases concluded with ⟨a, c₁, c₂, succeeded, played⟩ | failed
  · exact .inl ⟨a, succeeded, h.play falseLocks played⟩
  · exact .inr failed

/-! ## The guarded operations -/

section
variable {s : Store} {u v : UserId} {amount : Coins}

/-- A unit that is over secures what holds of its result. -/
theorem secures_pure {post : α → Store → Prop} {a : α} (h : post a s) :
    (pure a : Work ε α).Secures post s := by
  intro b given
  cases given
  exact h

theorem secures_fail {post : α → Store → Prop} {err : ε} : (fail err : Work ε α).Secures post s :=
  fun _ failed => by cases failed

/-- Nothing is known after a lock. -/
theorem secures_run_of_locks {q : Statement} (locks : q.ReadsLocked)
    {post : q.Answer → Store → Prop} (h : ∀ a, post a s) : (run q).Secures post s := by
  unfold run
  exact ⟨fun f => secures_fail, fun _ a => secures_pure (h a), fun real => absurd locks real⟩

/-- Any other statement answers what it does. -/
theorem secures_run {q : Statement} (real : ¬q.ReadsLocked) {post : q.Answer → Store → Prop}
    (h : ∀ a s', Store.statement q s = (.ok a, s') → post a s') : (run q).Secures post s := by
  unfold run
  refine ⟨fun f => secures_fail, fun locks => absurd locks real, fun _ => ?_⟩
  rcases made : Store.statement q s with ⟨f | a, s'⟩
  · exact secures_fail
  · exact secures_pure (h a s' made)

theorem secures_lock {post : Coins → Store → Prop} (h : ∀ balance, post balance s) :
    (lock u).Secures post s := by
  refine Secures.bind (secures_run_of_locks (q := .lockBalance u) trivial fun told => ?_)
  cases told with
  | none => exact secures_fail
  | some balance => exact secures_pure (h balance)

theorem secures_findLocked {post : Coins → Store → Prop} (rows : List (UserId × Coins))
    (h : ∀ balance, post balance s) : (findLocked rows u).Secures post s := by
  unfold findLocked
  split
  · exact secures_pure (h _)
  · exact secures_fail

theorem secures_lockPair {post : Coins × Coins → Store → Prop} (h : ∀ told, post told s) :
    (lockPair u v).Secures post s := by
  refine Secures.bind (secures_run_of_locks (q := .lockBalances [u, v]) trivial fun rows => ?_)
  refine Secures.bind (secures_findLocked rows fun first => ?_)
  exact Secures.bind (secures_findLocked rows fun second => secures_pure (h _))

/-- A debit is made if the row covers it. -/
theorem secures_debit {post : Unit → Store → Prop}
    (h : ∀ balance rest, s.balance? u = some balance → balance.sub? amount = some rest →
      post () (s.setBalance u rest)) : (debit u amount).Secures post s := by
  refine Secures.bind (secures_run (q := .decrement u amount) id fun affected s' made => ?_)
  dsimp only [Store.statement, Store.decrement] at made
  cases row : s.balance? u with
  | none =>
    rw [row] at made
    cases made
    exact secures_fail
  | some balance =>
    cases taken : balance.sub? amount with
    | none =>
      simp only [row, Option.bind_some, taken] at made
      cases made
      exact secures_fail
    | some rest =>
      simp only [row, Option.bind_some, taken] at made
      cases made
      exact secures_pure (h balance rest row taken)

/-- A credit is made if the sum is in range. -/
theorem secures_credit {post : Unit → Store → Prop}
    (h : ∀ balance sum, s.balance? u = some balance → balance.add? amount = some sum →
      post () (s.setBalance u sum)) : (credit u amount).Secures post s := by
  refine Secures.bind (secures_run (q := .increment u amount) id fun affected s' made => ?_)
  dsimp only [Store.statement, Store.increment] at made
  cases row : s.balance? u with
  | none =>
    rw [row] at made
    cases made
    exact secures_fail
  | some balance =>
    cases added : balance.add? amount with
    | none =>
      simp only [row, added] at made
      cases made
    | some sum =>
      simp only [row, added] at made
      cases made
      exact secures_pure (h balance sum row added)

end

end Work

namespace UseCase

/-! ## The two units -/

/-- A movement that succeeds has moved the amount. -/
theorem secures_movement {u v : UserId} (huv : u ≠ v) (amount : Coins) (s : Store) :
    (movement u v amount).Secures (fun _ s' => s.Moved u v amount s') s := by
  refine Work.Secures.bind (Work.secures_lockPair fun told => ?_)
  dsimp only
  split
  · exact Work.secures_fail
  · split
    · exact Work.secures_fail
    · refine Work.Secures.bind (Work.secures_debit fun source rest hsource hrest => ?_)
      refine Work.Secures.bind (Work.secures_credit fun target sum htarget hsum => ?_)
      rw [Store.balance?_setBalance, if_neg huv] at htarget
      refine Work.secures_run (q := .insertTransfer ⟨u, v, amount⟩) id fun _ s' made => ?_
      cases made
      exact (Store.moved_iff huv).2 ⟨source, rest, target, sum, hsource, hrest, htarget, hsum, rfl⟩

/-- A purchase that succeeds has been paid. -/
theorem secures_purchase (u : UserId) (g : Good) (s : Store) :
    (purchase u g).Secures (fun _ s' => s.Paid u g s') s := by
  refine Work.Secures.bind (Work.secures_lock fun told => ?_)
  split
  · exact Work.secures_fail
  · refine Work.Secures.bind (Work.secures_debit fun balance rest hbalance hrest => ?_)
    refine Work.secures_run (q := .insertPurchase ⟨u, g.id⟩) id fun _ s' made => ?_
    cases made
    exact .of_rest hbalance hrest

/-! ## The use cases -/

section
variable {e : Stage} (unlimited : e.limit = none) (falseLocks : e.script.FalseLocks)
include unlimited falseLocks

/-- A single call is made as it is. -/
theorem play_ask_of_falseLocks {β : Type} {q : Call} {a : q.Answer} {f : q.Answer → UseCase β}
    {s s' : Store} (c : Clock) (answered : Store.call e.directory q s = (.ok a, s')) :
    ∃ c', (ask q >>= f).play e s c = (f a).play e s' c' := by
  have made : (e.script.call c.calls q).apply (Store.call e.directory q) s = (.ok a, s') := by
    rw [Treatment.apply_of_performed (falseLocks.call _ _), answered]
  refine ⟨c.after (e.script.call c.calls q).delay, ?_⟩
  rw [play_ask_bind unlimited, made]

/-- A use case that ends in a transaction leaves what its unit secures, or the store as it was. -/
theorem play_inTransaction_of_secures {w : Work LedgerError Unit} {effect : Store → Prop}
    {s : Store} (c : Clock) (h : w.Secures (fun _ s' => effect s') s) :
    ∃ r s' c', (inTransaction w).play e s c = .finished r s' c' ∧
      eitherWay effect (· = s) r s' := by
  obtain ⟨ending, s', c', concluded, -⟩ := w.conclude_unlimited unlimited s c
  refine ⟨ending.outcome, s', c', by rw [inTransaction_play, concluded], ?_⟩
  rcases h.conclude falseLocks concluded with ⟨a, came, effected⟩ | ⟨err, came, rfl⟩
  · rw [came]
    exact effected
  · rw [came]
    exact rfl

/-- An addressed transfer comes to the unit of a movement. -/
theorem play_sendCoins_of_addressed {seed amount : Coins} {u v : UserId} {name : Username}
    {s s₁ : Store} (c : Clock) (h : Addressed e.directory seed u name amount s v s₁) :
    ∃ c', (sendCoins seed u name amount).play e s c =
      (inTransaction (movement u v amount)).play e s₁ c' := by
  have positive : ¬amount.isZero = true := ne_true_of_eq_false (isZero_of_pos h.positive)
  have opened : s.insertIfAbsent v seed = s₁ := (Store.opened_iff.1 h.opened).symm
  unfold sendCoins
  rw [if_neg positive]
  obtain ⟨c₁, resolved⟩ := play_ask_of_falseLocks unlimited falseLocks (q := .resolveUser name)
    (a := some v) (s := s) c (congrArg (fun found => (Except.ok found, s)) h.resolved)
  rw [resolved]
  dsimp only
  rw [if_neg h.other]
  obtain ⟨c₂, provisioned⟩ := play_ask_of_falseLocks unlimited falseLocks
    (q := .insertIfAbsent v seed) (a := ()) (s := s) c₁ rfl
  exact ⟨c₂, by rw [ensureCreated, provisioned, opened]⟩

/-- A transfer that is not addressed is refused. -/
theorem play_sendCoins_of_unaddressed {seed amount : Coins} {u : UserId} {name : Username}
    {s : Store} (c : Clock)
    (h : ∀ v s₁, ¬Addressed e.directory seed u name amount s v s₁) :
    ∃ err c', (sendCoins seed u name amount).play e s c = .finished (.error err) s c' := by
  unfold sendCoins
  split
  · exact ⟨_, c, rfl⟩
  · next nonzero =>
    have positive : 0 < amount.toNat :=
      Nat.pos_of_ne_zero fun zero => nonzero (Coins.isZero_iff.2 zero)
    obtain ⟨c₁, resolved⟩ := play_ask_of_falseLocks unlimited falseLocks (q := .resolveUser name)
      (a := e.directory.idOf? name) (s := s) c rfl
    rw [resolved]
    cases found : e.directory.idOf? name with
    | none => exact ⟨_, c₁, rfl⟩
    | some v =>
      dsimp only
      split
      · exact ⟨_, c₁, rfl⟩
      · next other => exact absurd ⟨positive, found, other, Store.opened_iff.2 rfl⟩ (h v _)

end

/-- **Locks that answer anything cost nobody a coin.**  A transfer to somebody else moves the amount
or does nothing once the recipient has a row, and a purchase is paid or does nothing.  Either of
them succeeds only if the balances, as they are, allow it. -/
theorem sound_despite_locks (d : Directory) (k : Script) (falseLocks : k.FalseLocks) (seed : Coins)
    (s : Store) :
    let e : Stage := { directory := d, script := k }
    (∀ u name amount v s₁, Addressed d seed u name amount s v s₁ →
      ∃ r s', (sendCoins seed u name amount).answer e s = (r, s') ∧
        eitherWay (fun s' => s₁.Moved u v amount s' ∧ s₁.Affords u amount ∧ s₁.HasRoom v amount ∧
          s'.total = s₁.total) (· = s₁) r s') ∧
    (∀ u name amount, (∀ v s₁, ¬Addressed d seed u name amount s v s₁) →
      ∃ err, (sendCoins seed u name amount).answer e s = (.error err, s)) ∧
    (∀ u name g, s.findGood name = some g →
      ∃ r s', (buyItem u name).answer e s = (r, s') ∧
        eitherWay (fun s' => s.Paid u g s' ∧ s.Affords u g.price ∧
          s'.total + g.price.toNat = s.total) (· = s) r s') ∧
    (∀ u name, s.findGood name = none →
      (buyItem u name).answer e s = (.error (.goodNotFound name), s)) := by
  intro e
  have unlimited : e.limit = none := rfl
  refine ⟨?_, ?_, ?_, ?_⟩
  · intro u name amount v s₁ addressed
    have huv : u ≠ v := addressed.other.symm
    obtain ⟨c₁, sent⟩ := play_sendCoins_of_addressed unlimited falseLocks {} addressed
    obtain ⟨r, s', c', played, outcome⟩ := play_inTransaction_of_secures unlimited falseLocks c₁
      (secures_movement huv amount s₁)
    refine ⟨r, s', by rw [answer, sent, played], ?_⟩
    cases r with
    | error err => exact outcome
    | ok _ => exact ⟨outcome, outcome.affords, outcome.hasRoom, outcome.total huv⟩
  · intro u name amount unaddressed
    obtain ⟨err, c', refused⟩ :=
      play_sendCoins_of_unaddressed unlimited falseLocks {} unaddressed
    exact ⟨err, by rw [answer, refused]⟩
  · intro u name g listed
    obtain ⟨c₁, found⟩ := play_ask_of_falseLocks unlimited falseLocks (q := .findGood name)
      (a := some g) (s := s) {} (congrArg (fun found => (Except.ok found, s)) listed)
    obtain ⟨r, s', c', played, outcome⟩ := play_inTransaction_of_secures unlimited falseLocks c₁
      (secures_purchase u g s)
    refine ⟨r, s', by rw [answer, buyItem, found, played], ?_⟩
    cases r with
    | error err => exact outcome
    | ok _ => exact ⟨outcome, outcome.affords, outcome.total⟩
  · intro u name unlisted
    obtain ⟨c₁, found⟩ := play_ask_of_falseLocks unlimited falseLocks (q := .findGood name)
      (a := none) (s := s) {} (congrArg (fun found => (Except.ok found, s)) unlisted)
    rw [answer, buyItem, found]
    rfl

/-- Locks find a thousand coins in every row, whether it is there or not. -/
def thousands : Script :=
  { Script.quiet with
    statement := fun _ q => match q with
      | .lockBalance _ => { reply := .performed fun _ => some ⟨1000⟩ }
      | .lockBalances users => { reply := .performed fun _ => users.map fun u => (u, ⟨1000⟩) }
      | _ => {} }

theorem falseLocks_thousands : thousands.FalseLocks where
  call _ _ := rfl
  statement _ q real := by cases q <;> first | exact .inl rfl | exact absurd trivial real
  begin _ := .inl rfl
  commit _ := .inl rfl

/-- Where locks find a thousand coins there are ten, and room for five more.  Five coins are sent.
Six are debited, and then there is no room for them, so the debit is taken back.  Twenty are not
covered, and a hoody of three hundred is not either. -/
theorem sound_despite_locks_thousands :
    let e : Stage := { directory := Directory.ofList [(⟨2⟩, "bob")], script := thousands }
    let send amount := (sendCoins ⟨1000⟩ ⟨1⟩ ⟨"bob", by decide⟩ amount).answer e
    let s : Store :=
      { balances := SortedMap.ofList [(⟨1⟩, ⟨10⟩), (⟨2⟩, ⟨18446744073709551610⟩)]
        goods := Store.standardCatalog }
    thousands.FalseLocks ∧
    (∃ s', send ⟨5⟩ s = (.ok (), s') ∧ s.Moved ⟨1⟩ ⟨2⟩ ⟨5⟩ s' ∧ s'.total = s.total) ∧
    send ⟨6⟩ s = (.error (.internal (.statement (.query "balance overflow"))), s) ∧
    send ⟨20⟩ s = (.error (.insufficientBalance ⟨1⟩), s) ∧
    (buyItem ⟨1⟩ "hoody").answer e s = (.error (.insufficientBalance ⟨1⟩), s) := by
  intro e send s
  obtain ⟨sends, -, buys, -⟩ := sound_despite_locks e.directory thousands falseLocks_thousands
    ⟨1000⟩ s
  have addressed : ∀ amount : Coins, 0 < amount.toNat →
      Addressed e.directory ⟨1000⟩ ⟨1⟩ ⟨"bob", by decide⟩ amount s ⟨2⟩ s := fun amount positive =>
    ⟨positive, by decide, by decide, Store.opened_iff.2 (by decide)⟩
  have refused : ∀ amount : Coins, 0 < amount.toNat → ∀ err, (send amount s).1 = .error err →
      send amount s = (.error err, s) := by
    intro amount positive err failed
    obtain ⟨r, s', answered, outcome⟩ := sends _ _ _ _ _ (addressed amount positive)
    rw [show send amount s = (r, s') from answered] at failed ⊢
    obtain rfl : r = .error err := failed
    exact congrArg (Prod.mk _) outcome
  refine ⟨falseLocks_thousands, ?_, ?_, ?_, ?_⟩
  · obtain ⟨r, s', answered, outcome⟩ := sends _ _ _ _ _ (addressed ⟨5⟩ (by decide))
    obtain rfl : r = .ok () := (congrArg Prod.fst answered).symm.trans rfl
    exact ⟨s', answered, outcome.1, outcome.2.2.2⟩
  · exact refused ⟨6⟩ (by decide) _ rfl
  · exact refused ⟨20⟩ (by decide) _ rfl
  · obtain ⟨r, s', answered, outcome⟩ := buys ⟨1⟩ "hoody" ⟨⟨6⟩, "hoody", ⟨300⟩⟩ (by decide)
    obtain rfl : r = .error (.insufficientBalance ⟨1⟩) :=
      (congrArg Prod.fst answered).symm.trans rfl
    exact answered.trans (congrArg (Prod.mk _) outcome)

end UseCase

end CoinLedger
