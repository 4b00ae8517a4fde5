import CoinLedger.Proofs.Ledger.Accounts
import CoinLedger.Proofs.Ledger.Views
import Mathlib.Data.List.Induction

/-!
# An account view under concurrency

The three reads of an account view are issued together and made one by one, in any order, and other
callers go on between them.  There is no transaction around them.  So each part of the view is true
of the store at the moment of its read, and the view as a whole need not be true of the store at
any moment: a transfer that is committed after the balance has been read, and before the transfers
are, is listed and not counted (`tornView`).

What can be said is how far a view may be off.  At every moment the balance reconciles with the logs
of this moment.  The view therefore is off by what the records of the user say that were written
between the reads, and it reconciles if and only if these cancel out (`view_of_moments`).

The proof follows one caller along a schedule.  From the issue of the reads on, it knows of each
part that has arrived that it was read in some store of the run; in the end it is left with the
view of these parts, under the names of the directory.

## Main definitions

* `System.ReadsIn` — a caller makes a read in a store, in the course of a schedule.
* `Observed` — the view of three stores.

## Main results

* `System.observed_of_result` — every view that is returned is the view of the moments of its reads.
* `view_of_moments` — when a view reconciles.
-/

namespace CoinLedger

namespace UseCase

/-- Whether a call may come to a result where nothing is invented: a failure, or what some store
answers. -/
def Genuine (d : Directory) (c : Call) (r : Except c.Failure c.Answer) : Prop :=
  ∀ a, r = .ok a → ∃ s, (Store.call d c s).1 = .ok a

/-- Whether a program reads no account any more, and every success of it is as described, as long as
its calls come to genuine results. -/
def Yields {α : Type} (d : Directory) (P : α → Prop) : UseCase α → Prop
  | done (.ok a) => P a
  | done (.error _) => True
  | call c next => ∀ r, Genuine d c r → (next r).Yields d P
  | transact _ next => ∀ r, (next r).Yields d P
  | gather _ _ => False

theorem Yields.mono {α : Type} {d : Directory} {P Q : α → Prop} (h : ∀ a, P a → Q a)
    {p : UseCase α} (hp : p.Yields d P) : p.Yields d Q := by
  induction p with
  | done r =>
    cases r with
    | ok a => exact h a hp
    | error e => trivial
  | call c next ih => exact fun r genuine => ih r (hp r genuine)
  | transact w next ih => exact fun r => ih r (hp r)
  | gather u next => exact hp

/-- Whether what follows the reads of an account shows what was read, and nothing after a
failure. -/
structure Shows (d : Directory)
    (next : Except LedgerError Holdings → UseCase (Option AccountInfo)) : Prop where
  failed : ∀ e, (next (.error e)).Yields d fun _ => False
  read : ∀ h, (next (.ok h)).Yields d fun a => a = some (assemble h d)

theorem shows_accountInfo (d : Directory) (seed : Coins) (u : UserId) :
    ∃ next, (Command.accountInfo u).program seed = gather u next ∧ Shows d next := by
  refine ⟨_, rfl, fun e => trivial, fun h => ?_⟩
  dsimp only
  split
  · next alone => exact congrArg some (assemble_alone alone d)
  · intro r genuine
    cases r with
    | ok names =>
      obtain ⟨s, answered⟩ := genuine names rfl
      obtain rfl : d.namesOf h.history.counterparts = names := Except.ok.inj answered
      exact congrArg some (assemble_namesOf d h)
    | error f => trivial

end UseCase

namespace Interleaving

open UseCase

/-- A view whose parts are those of three stores, each of which qualifies for its part, with the
names of a directory. -/
def Observed (d : Directory) (seen : Reading → Store → Prop) (u : UserId) (view : AccountInfo) :
    Prop :=
  ∃ b i t balance, seen .balance b ∧ seen .inventory i ∧ seen .transfers t ∧
    b.balance? u = some balance ∧ view = assemble ⟨balance, i.inventory u, t.history u⟩ d

/-- Whether the parts that have arrived are those of stores that qualify. -/
structure Gathered.From (seen : Reading → Store → Prop) (u : UserId) (got : Gathered) : Prop where
  balance : ∀ balance, got.balance = some balance →
    ∃ s, seen .balance s ∧ s.balance? u = some balance
  inventory : ∀ i, got.inventory = some i → ∃ s, seen .inventory s ∧ s.inventory u = i
  history : ∀ h, got.history = some h → ∃ s, seen .transfers s ∧ s.history u = h

/-- What is known of a caller who wants to see an account. -/
def Task.Follows (d : Directory) (seen : Reading → Store → Prop) (u : UserId) :
    Task (Option AccountInfo) → Prop
  | .active rest => (∃ next, rest = .gather u next ∧ Shows d next) ∨
      rest.Yields d fun a => ∃ view, a = some view ∧ Observed d seen u view
  | .reading v got next => v = u ∧ Shows d next ∧ got.From seen u
  | .abandoned => True

section
variable {seen more : Reading → Store → Prop} {u : UserId} {d : Directory}

theorem Observed.mono (h : ∀ which s, seen which s → more which s) {view : AccountInfo}
    (hv : Observed d seen u view) : Observed d more u view := by
  obtain ⟨b, i, t, balance, hb, hi, ht, rest⟩ := hv
  exact ⟨b, i, t, balance, h _ _ hb, h _ _ hi, h _ _ ht, rest⟩

theorem Task.Follows.mono (h : ∀ which s, seen which s → more which s)
    {t : Task (Option AccountInfo)} (ht : t.Follows d seen u) : t.Follows d more u := by
  cases t with
  | active rest =>
    refine ht.imp_right fun yields => yields.mono ?_
    rintro a ⟨view, rfl, observed⟩
    exact ⟨view, rfl, observed.mono h⟩
  | reading v got next =>
    obtain ⟨hv, shows_read, from_seen⟩ := ht
    refine ⟨hv, shows_read, fun x hx => ?_, fun x hx => ?_, fun x hx => ?_⟩
    · exact (from_seen.balance x hx).imp fun s hs => ⟨h _ _ hs.1, hs.2⟩
    · exact (from_seen.inventory x hx).imp fun s hs => ⟨h _ _ hs.1, hs.2⟩
    · exact (from_seen.history x hx).imp fun s hs => ⟨h _ _ hs.1, hs.2⟩
  | abandoned => trivial

/-! ## One turn -/

/-- Where nothing is invented, what is answered is the genuine answer. -/
theorem genuine_of_apply {ε α : Type} {t : Treatment ε α} (honest : t.Honest)
    {genuine : Store → Except ε α × Store} {s : Store} {a : α}
    (answered : (t.apply genuine s).1 = .ok a) : (genuine s).1 = .ok a := by
  rcases honest.apply_cases genuine s with same | ⟨f, failed⟩
  · rw [same] at answered
    exact answered
  · rw [failed] at answered
    cases answered

theorem requireBalance_map_eq_ok {α : Type} {r : Except StorageFailure (Option Coins)}
    {f : Coins → α} {a : α} (h : (requireBalance u r).map f = .ok a) :
    ∃ balance, r = .ok (some balance) ∧ f balance = a := by
  rcases r with e | _ | balance
  · cases h
  · cases h
  · exact ⟨balance, rfl, Except.ok.inj h⟩

theorem requireHistory_map_eq_ok {α β : Type} {r : Except StorageFailure β} {f : β → α} {a : α}
    (h : (requireHistory r).map f = .ok a) : ∃ b, r = .ok b ∧ f b = a := by
  cases r with
  | error e => cases h
  | ok b => exact ⟨b, rfl, Except.ok.inj h⟩

/-- A read that arrives is that of the store in which it was made. -/
theorem Task.gather_from {script : Script} (honest : script.Honest) {got got' : Gathered}
    {s : Store} {which : Reading} (before : got.From seen u) (now : seen which s)
    (h : Task.gather d script u got s which = .ok got') : got'.From seen u := by
  cases which with
  | balance =>
    obtain ⟨balance, answered, rfl⟩ := requireBalance_map_eq_ok h
    have row : s.balance? u = some balance :=
      Except.ok.inj (genuine_of_apply (honest.call 0 _) answered)
    exact { before with balance := by rintro x ⟨⟩; exact ⟨s, now, row⟩ }
  | inventory =>
    obtain ⟨i, answered, rfl⟩ := requireHistory_map_eq_ok h
    have counted : s.inventory u = i :=
      Except.ok.inj (genuine_of_apply (honest.call 0 _) answered)
    exact { before with inventory := by rintro x ⟨⟩; exact ⟨s, now, counted⟩ }
  | transfers =>
    obtain ⟨history, answered, rfl⟩ := requireHistory_map_eq_ok h
    have listed : s.history u = history :=
      Except.ok.inj (genuine_of_apply (honest.call 0 _) answered)
    exact { before with history := by rintro x ⟨⟩; exact ⟨s, now, listed⟩ }

/-- Once nothing is missing, the caller is left with the view of what has arrived. -/
theorem Task.collect_follows {next : Except LedgerError Holdings → UseCase (Option AccountInfo)}
    (shows_read : Shows d next) {got : Except LedgerError Gathered}
    (arrived : ∀ g, got = .ok g → g.From seen u) : (Task.collect u next got).Follows d seen u := by
  cases got with
  | error e => exact .inr ((shows_read.failed e).mono fun a ha => ha.elim)
  | ok g =>
    have from_seen := arrived g rfl
    simp only [Task.collect]
    split
    · next h complete =>
      refine .inr ((shows_read.read h).mono ?_)
      rintro a rfl
      obtain ⟨balance, inventory, history⟩ := h
      simp only [Gathered.holdings?, Option.bind_eq_bind, Option.bind_eq_some_iff,
        Option.some.injEq, Holdings.mk.injEq] at complete
      obtain ⟨_, hb, _, hi, _, hh, rfl, rfl, rfl⟩ := complete
      obtain ⟨sb, seen_b, hb⟩ := from_seen.balance _ hb
      obtain ⟨si, seen_i, rfl⟩ := from_seen.inventory _ hi
      obtain ⟨st, seen_t, rfl⟩ := from_seen.history _ hh
      exact ⟨_, rfl, sb, si, st, _, seen_b, seen_i, seen_t, hb, rfl⟩
    · exact ⟨rfl, shows_read, from_seen⟩

/-- A turn of a caller keeps what is known of it, as long as the store qualifies in which it makes a
read. -/
theorem Task.step_follows {m : Move} (honest : m.Honest) {t : Task (Option AccountInfo)} {s : Store}
    (ht : t.Follows d seen u)
    (now : ∀ which script v got next, m = .read which script → t = .reading v got next →
      seen which s) : (t.step d m s).1.Follows d seen u := by
  cases honest with
  | abandon => cases t <;> trivial
  | read which hscript =>
    cases t with
    | reading v got next =>
      obtain ⟨rfl, shows_read, from_seen⟩ := ht
      have qualifies := now which _ _ _ _ rfl rfl
      exact Task.collect_follows shows_read fun g hg =>
        Task.gather_from hscript from_seen qualifies hg
    | active rest => exact ht
    | abandoned => trivial
  | go hscript =>
    cases t with
    | reading v got next => exact ht
    | abandoned => trivial
    | active rest =>
      cases rest with
      | done r => exact ht
      | gather v next =>
        rcases ht with ⟨next', same, shows_read⟩ | yields
        · cases same
          exact ⟨rfl, shows_read, nofun, nofun, nofun⟩
        · exact yields.elim
      | call c next =>
        obtain ⟨_, same, _⟩ | yields := ht
        · cases same
        · exact .inr (yields _ fun a answered =>
            ⟨s, genuine_of_apply (hscript.call 0 c) answered⟩)
      | transact w next =>
        obtain ⟨_, same, _⟩ | yields := ht
        · cases same
        · simp only [Task.step]
          split
          · exact .inr (yields _)
          · exact .inr yields

end

/-! ## Schedules -/

namespace System

variable {d : Directory}

/-- Whether a caller that has issued its reads makes one of them in the course of a schedule, and in
which store. -/
def ReadsIn {α : Type} (d : Directory) (y : System α) (schedule : Schedule) (caller : Nat)
    (which : Reading) (s : Store) : Prop :=
  ∃ before script rest, schedule = before ++ ⟨caller, .read which script⟩ :: rest ∧
    (y.after d before).store = s ∧
    ∃ user got next, (y.after d before).tasks[caller]? = some (.reading user got next)

theorem ReadsIn.append {α : Type} {y : System α} {schedule : Schedule} {caller : Nat}
    {which : Reading} {s : Store} (h : ReadsIn d y schedule caller which s) (more : Schedule) :
    ReadsIn d y (schedule ++ more) caller which s := by
  obtain ⟨before, script, rest, rfl, made⟩ := h
  exact ⟨before, script, rest ++ more, by simp, made⟩

/-- A caller who wants to see an account is followed along every schedule. -/
theorem follows_after {y : System (Option AccountInfo)} {u : UserId} {caller : Nat}
    {schedule : Schedule} (honest : ∀ t ∈ schedule, t.move.Honest)
    (start : ∀ task ∈ y.tasks[caller]?, task.Follows d (fun _ _ => False) u) :
    ∀ task ∈ (y.after d schedule).tasks[caller]?,
      task.Follows d (ReadsIn d y schedule caller) u := by
  induction schedule using List.reverseRecOn with
  | nil => exact fun task htask => (start task htask).mono fun _ _ h => h.elim
  | append_singleton before t ih =>
    have kept : ∀ task ∈ (y.after d before).tasks[caller]?,
        task.Follows d (ReadsIn d y (before ++ [t]) caller) u := fun task htask =>
      (ih (fun t' ht' => honest t' (List.mem_append_left _ ht')) task htask).mono
        fun _ _ h => h.append [t]
    rw [after_append, after_cons, after_nil]
    intro task htask
    unfold System.step at htask
    split at htask
    · exact kept task htask
    · next turned hturned =>
      dsimp only at htask
      by_cases hcaller : t.caller = caller
      · -- It is the caller's own turn.
        subst hcaller
        have there : t.caller < (y.after d before).tasks.length :=
          (List.getElem?_eq_some_iff.1 hturned).1
        rw [List.getElem?_set_self there] at htask
        cases htask
        refine Task.step_follows (honest t (by simp)) (kept turned hturned) ?_
        intro which script v got next hmove hreading
        refine ⟨before, script, [], ?_, rfl, v, got, next, ?_⟩
        · rw [← hmove]
        · rw [hturned, hreading]
      · rw [List.getElem?_set_ne hcaller] at htask
        exact kept task htask

/-- **Every view is the view of the moments of its reads**: of three stores that the caller met
between issuing its reads and coming to its end. -/
theorem observed_of_result {seed : Coins} {commands : List Command} {s : Store}
    {schedule : Schedule} (honest : ∀ t ∈ schedule, t.move.Honest) {caller : Nat} {u : UserId}
    (asks : commands[caller]? = some (.accountInfo u)) {view : AccountInfo}
    (result : ((starting (commands.map (Command.program seed)) s).after d schedule).result? caller =
      some (.ok (some view))) :
    Observed d (ReadsIn d (starting (commands.map (Command.program seed)) s) schedule caller) u
      view := by
  have start : ∀ task ∈ (starting (commands.map (Command.program seed)) s).tasks[caller]?,
      task.Follows d (fun _ _ => False) u := by
    intro task htask
    obtain ⟨next, program, shows_read⟩ := shows_accountInfo d seed u
    simp only [starting, List.getElem?_map, asks, Option.map_some, program, Option.mem_def,
      Option.some.injEq] at htask
    subst htask
    exact .inl ⟨next, rfl, shows_read⟩
  unfold result? at result
  obtain ⟨task, htask, hresult⟩ := Option.bind_eq_some_iff.1 result
  have follows := follows_after honest start task htask
  -- The caller has a result, so it is at the end of its program.
  cases task with
  | reading v got next => cases hresult
  | abandoned => cases hresult
  | active rest =>
    cases rest with
    | call c next => cases hresult
    | transact w next => cases hresult
    | gather v next => cases hresult
    | done r =>
      cases hresult
      rcases follows with ⟨_, same, _⟩ | ⟨shown, same, observed⟩
      · cases same
      · cases same
        exact observed

end System

/-! ## When a view adds up -/

section
variable {b i t : Store} {u : UserId}

/-- At every moment of a run from an empty store, a balance reconciles with the logs. -/
theorem balance_of_changes {seed : Coins} {goods : List Good}
    (distinct : (goods.map Good.id).Nodup) (h : Store.Changes seed { goods } b)
    {balance : Coins} (hb : b.balance? u = some balance) :
    balance.toNat + sent u b.transfers + spent goods u b.purchases =
      seed.toNat + received u b.transfers := by
  obtain ⟨bought, moved, rec⟩ := h.reconciled distinct
  have balanced : (balance.toNat : Int) =
      seed.toNat + received u moved - sent u moved - spent goods u bought :=
    rec.balance u balance hb
  rw [rec.purchases, rec.transfers, List.nil_append, List.nil_append]
  omega

/-- Logs with the same records of a user say the same of that user. -/
theorem spent_congr (goods : List Good) (same : b.purchases.filter (fun p => p.buyer = u) =
    i.purchases.filter fun p => p.buyer = u) :
    spent goods u b.purchases = spent goods u i.purchases := by
  have own : ∀ ps : List Purchase, spent goods u ps =
      totalOf (fun p => priceOf goods p.good) (ps.filter fun p => p.buyer = u) := by
    intro ps
    simp only [spent, totalOf_filter, decide_eq_true_eq]
  rw [own, own, same]

theorem moved_congr (same : b.transfers.filter (fun e => e.sender = u ∨ e.recipient = u) =
    t.transfers.filter fun e => e.sender = u ∨ e.recipient = u) :
    sent u b.transfers = sent u t.transfers ∧ received u b.transfers = received u t.transfers := by
  have own : ∀ ts : List Transfer,
      sent u ts = sent u (ts.filter fun e => e.sender = u ∨ e.recipient = u) ∧
      received u ts = received u (ts.filter fun e => e.sender = u ∨ e.recipient = u) := by
    intro ts
    simp only [sent, received, totalOf_filter]
    constructor
    · congr 1
      funext e
      by_cases h : e.sender = u <;> simp [h]
    · congr 1
      funext e
      by_cases h : e.recipient = u <;> simp [h]
  rw [(own b.transfers).1, (own b.transfers).2, (own t.transfers).1, (own t.transfers).2, same]
  exact ⟨rfl, rfl⟩

end

/-- **When a view reconciles.**  Callers run commands over a store with nothing in it but goods, in
any order of their calls and units of work, with any of these failing and any caller dropped.  A
view that is returned shows the balance, the inventory and the transfers of three moments between
the issue of its reads and its return: each part as it is in the store of its moment, the transfers
one by one in the order in which they were recorded, under the names of the directory.

The balance reconciles with the logs of the first moment; the view reconciles exactly if what the
user paid and sent from then on, up to the moments of the other two reads, is what the user
received.  In particular it does if the user has the same records at all three moments. -/
theorem view_of_moments (d : Directory) (seed : Coins) (commands : List Command)
    (goods : List Good) (ids : (goods.map Good.id).Nodup) (names : (goods.map Good.name).Nodup)
    (schedule : Schedule) (honest : ∀ t ∈ schedule, t.move.Honest) (caller : Nat) (u : UserId)
    (asks : commands[caller]? = some (.accountInfo u)) (view : AccountInfo) :
    let start := System.starting (commands.map (Command.program seed)) { goods }
    (start.after d schedule).result? caller = some (.ok (some view)) →
    ∃ b i t, System.ReadsIn d start schedule caller .balance b ∧
      System.ReadsIn d start schedule caller .inventory i ∧
      System.ReadsIn d start schedule caller .transfers t ∧
      b.balance? u = some view.balance ∧ view.inventory = i.inventory u ∧
      view.incoming = UseCase.named d (t.history u).incoming ∧
      view.outgoing = UseCase.named d (t.history u).outgoing ∧
      view.spent goods = spent goods u i.purchases ∧
      view.sent = sent u t.transfers ∧ view.received = received u t.transfers ∧
      view.balance.toNat + sent u b.transfers + spent goods u b.purchases =
        seed.toNat + received u b.transfers ∧
      (view.Reconciles goods seed ↔
        ((spent goods u i.purchases : Int) - spent goods u b.purchases) +
            ((sent u t.transfers : Int) - sent u b.transfers) =
          (received u t.transfers : Int) - received u b.transfers) ∧
      (b.purchases.filter (fun p => p.buyer = u) = i.purchases.filter (fun p => p.buyer = u) →
        b.transfers.filter (fun e => e.sender = u ∨ e.recipient = u) =
          t.transfers.filter (fun e => e.sender = u ∨ e.recipient = u) →
        view.Reconciles goods seed) := by
  intro start result
  obtain ⟨b, i, t, balance, readB, readI, readT, hb, rfl⟩ :=
    System.observed_of_result honest asks result
  have reached : ∀ {which s}, System.ReadsIn d start schedule caller which s →
      Store.Changes seed { goods } s := by
    rintro which s ⟨before, script, rest, rfl, rfl, -⟩
    exact (System.after_changes (System.lawful_starting seed commands { goods })
      fun x hx => honest x (List.mem_append_left _ hx)).2
  have listed : i.goods = goods := (reached readI).goods_eq
  have balanced := balance_of_changes ids (reached readB) hb
  have adds_up := reconciles_assemble_iff (u := u) (t := t) d names listed balance seed
  refine ⟨b, i, t, readB, readI, readT, hb, rfl, rfl, rfl, spent_assemble d names listed rfl,
    sent_assemble d rfl, received_assemble d rfl, balanced, ?_, ?_⟩
  · rw [adds_up]
    omega
  · intro purchases transfers
    obtain ⟨sent_eq, received_eq⟩ := moved_congr transfers
    rw [adds_up, ← spent_congr goods purchases, ← sent_eq, ← received_eq]
    exact balanced

/-! ## A view that does not add up -/

def tornNames : Directory := Directory.ofList [(⟨1⟩, "alice"), (⟨2⟩, "bob")]

/-- Two users get their rows, one of them looks at the account, and the other one sends coins. -/
def tornCommands : List Command :=
  [.ensureCreated ⟨1⟩, .ensureCreated ⟨2⟩, .accountInfo ⟨1⟩,
    .sendCoins ⟨2⟩ ⟨"alice", by decide⟩ ⟨30⟩]

/-- The transfer is committed between the first read and the others. -/
def tornSchedule : Schedule :=
  [⟨0, .go .quiet⟩, ⟨1, .go .quiet⟩, ⟨2, .go .quiet⟩, ⟨2, .read .balance .quiet⟩, ⟨3, .go .quiet⟩,
    ⟨3, .go .quiet⟩, ⟨3, .go .quiet⟩, ⟨2, .read .inventory .quiet⟩, ⟨2, .read .transfers .quiet⟩,
    ⟨2, .go .quiet⟩]

theorem calm_tornSchedule : ∀ t ∈ tornSchedule, t.move.Calm := by
  simp only [tornSchedule, List.forall_mem_cons]
  exact ⟨.go, .go, .go, .read _, .go, .go, .go, .read _, .read _, .go, fun _ h => nomatch h⟩

theorem Move.Calm.honest {m : Move} (h : m.Calm) : m.Honest := by
  cases h with
  | go => exact .go Script.honest_quiet
  | read which => exact .read which Script.honest_quiet

theorem honest_tornSchedule : ∀ t ∈ tornSchedule, t.move.Honest :=
  fun t ht => (calm_tornSchedule t ht).honest

def tornStart : System (Option AccountInfo) :=
  System.starting (tornCommands.map (Command.program ⟨1000⟩)) { goods := Store.standardCatalog }

/-- The balance is the one before the transfer; the transfer is listed all the same. -/
def tornView : AccountInfo where
  balance := ⟨1000⟩
  incoming := [⟨"bob", ⟨30⟩⟩]

/-- Nothing fails, the view is returned, and it does not add up. -/
theorem tornView_not_reconciles :
    (∀ t ∈ tornSchedule, t.move.Calm) ∧
    (tornStart.after tornNames tornSchedule).result? 2 = some (.ok (some tornView)) ∧
    ¬ tornView.Reconciles Store.standardCatalog ⟨1000⟩ :=
  ⟨calm_tornSchedule, by decide +kernel, by decide⟩

/-- The two moments of that view: one with the balance, and one with the transfer. -/
theorem view_of_moments_torn :
    (Store.standardCatalog.map Good.id).Nodup ∧ (Store.standardCatalog.map Good.name).Nodup ∧
    (∀ t ∈ tornSchedule, t.move.Honest) ∧ tornCommands[2]? = some (.accountInfo ⟨1⟩) ∧
    (tornStart.after tornNames tornSchedule).result? 2 = some (.ok (some tornView)) ∧
    ∃ b t, System.ReadsIn tornNames tornStart tornSchedule 2 .balance b ∧
      System.ReadsIn tornNames tornStart tornSchedule 2 .transfers t ∧
      b.balance? ⟨1⟩ = some ⟨1000⟩ ∧
      [⟨"bob", ⟨30⟩⟩] = UseCase.named tornNames (t.history ⟨1⟩).incoming ∧
      [] = UseCase.named tornNames (t.history ⟨1⟩).outgoing ∧
      received ⟨1⟩ t.transfers = 30 := by
  have ids : (Store.standardCatalog.map Good.id).Nodup := by decide
  have names : (Store.standardCatalog.map Good.name).Nodup := by decide
  have result : (tornStart.after tornNames tornSchedule).result? 2 =
      some (.ok (some tornView)) := by
    decide +kernel
  obtain ⟨b, i, t, readB, -, readT, balance, -, incoming, outgoing, -, -, receives, -⟩ :=
    view_of_moments tornNames ⟨1000⟩ tornCommands Store.standardCatalog ids names tornSchedule
      honest_tornSchedule 2 ⟨1⟩ rfl tornView result
  exact ⟨ids, names, honest_tornSchedule, rfl, result, b, t, readB, readT, balance, incoming,
    outgoing, receives.symm⟩

end Interleaving

end CoinLedger
