import CoinLedger.Proofs.Ledger.Rules
import CoinLedger.RowLocks
import Mathlib.Logic.Relation

/-!
# Units of work never deadlock

A unit of the ledger takes all its locks with its first statement, in ascending order of the user
ids, and changes only rows that it has locked.  `Work.Disciplined` says this of a program, for
every answer it may get and every failure; purchases and movements are disciplined whatever users
they are about.

From that follows the invariant of a board.  A session that is about to lock a row either holds
this row already, or holds only rows below all those it still wants (`Session.Sound`), and no row
is held twice (`Board.Exclusive`).  So if one session waits for a second one, and the second for a
third, the second waits for a higher row than the first.  Rows cannot rise forever: there is no
circle, and at the end of each chain stands a session that gets on.

## Main results

* `Board.good_of_reaches` — the invariant holds on every board that can come about.
* `Board.Good.waits_lt` — waiting climbs.
* `rows_locked_in_order` — rows are changed only under their locks, no board is deadlocked, and
  while a unit is unfinished some unit gets on.
-/

namespace CoinLedger

open RowLocks

theorem UserId.toInt_lt (u : UserId) : u.toInt < bound := u.word.toInt_lt

/-! ## Disciplined programs -/

/-- What a statement may be issued on: rows are locked only by a unit that holds none, and changed
only by a unit that holds them. -/
def Statement.Admits (held : List UserId) : Statement → Prop
  | .lockBalance _ => held = []
  | .lockBalances _ => held = []
  | .decrement u _ => u ∈ held
  | .increment u _ => u ∈ held
  | .insertPurchase _ => True
  | .insertTransfer _ => True

namespace Work

variable {ε α β : Type}

/-- Whether a unit that holds some rows keeps to the discipline from here on, whatever rows its
statements add to them and however they are answered, and ends with `after` if it succeeds. -/
def Disciplined (after : α → List UserId → Prop) : Work ε α → List UserId → Prop
  | done (.ok a), held => after a held
  | done (.error _), _ => True
  | ask s next, held => s.Admits held ∧ ∀ held', held ⊆ held' →
      (∀ f, (next (.error f)).Disciplined after held') ∧
      ∀ a, s.Allows held' a → (next (.ok a)).Disciplined after held'

theorem Disciplined.bind {middle : α → List UserId → Prop} {after : β → List UserId → Prop}
    {w : Work ε α} {f : α → Work ε β} {held : List UserId} (hw : w.Disciplined middle held)
    (hf : ∀ a held', middle a held' → (f a).Disciplined after held') :
    (w >>= f).Disciplined after held := by
  induction w generalizing held with
  | done r =>
    cases r with
    | ok a => exact hf a held hw
    | error e => trivial
  | ask s next ih =>
    refine ⟨hw.1, fun held' sub => ?_⟩
    obtain ⟨failed, answered⟩ := hw.2 held' sub
    exact ⟨fun failure => ih _ (failed failure), fun a ha => ih _ (answered a ha)⟩

theorem disciplined_run {s : Statement} {held : List UserId} (hs : s.Admits held) :
    (run s).Disciplined (fun a held' => held ⊆ held' ∧ s.Allows held' a) held :=
  ⟨hs, fun _ sub => ⟨fun _ => trivial, fun _ ha => ⟨sub, ha⟩⟩⟩

/-- A balance is read from a row that is locked from then on. -/
theorem disciplined_lock (u : UserId) : (lock u).Disciplined (fun _ held => u ∈ held) [] := by
  refine (disciplined_run (s := .lockBalance u) rfl).bind fun found held hfound => ?_
  cases found with
  | none => trivial
  | some balance => exact hfound.2

/-- The balance of a user is found only among rows that are locked. -/
theorem disciplined_findLocked {rows : List (UserId × Coins)} {held : List UserId}
    (hrows : ∀ row ∈ rows, row.1 ∈ held) (u : UserId) :
    (findLocked rows u).Disciplined (fun _ held' => held' = held ∧ u ∈ held) held := by
  unfold findLocked
  split
  · next row hrow =>
    have hmem := List.mem_of_find?_eq_some hrow
    have heq : row.1 = u := by simpa using List.find?_some hrow
    exact ⟨rfl, heq ▸ hrows row hmem⟩
  · trivial

/-- Both rows of a pair are locked when their balances are known. -/
theorem disciplined_lockPair (u v : UserId) :
    (lockPair u v).Disciplined (fun _ held => u ∈ held ∧ v ∈ held) [] := by
  refine (disciplined_run (s := .lockBalances [u, v]) rfl).bind fun rows held hrows => ?_
  have locked : ∀ row ∈ rows, row.1 ∈ held := fun row hrow => (hrows.2 row hrow).2
  refine (disciplined_findLocked locked u).bind fun _ held' hu => ?_
  obtain ⟨rfl, hu⟩ := hu
  refine (disciplined_findLocked locked v).bind fun _ held' hv => ?_
  obtain ⟨rfl, hv⟩ := hv
  exact ⟨hu, hv⟩

theorem disciplined_debit {u : UserId} {held : List UserId} (hu : u ∈ held) (amount : Coins) :
    (debit u amount).Disciplined (fun _ held' => held ⊆ held') held := by
  refine (disciplined_run (s := .decrement u amount) hu).bind fun affected held' h => ?_
  split
  · trivial
  · exact h.1

theorem disciplined_credit {u : UserId} {held : List UserId} (hu : u ∈ held) (amount : Coins) :
    (credit u amount).Disciplined (fun _ held' => held ⊆ held') held := by
  refine (disciplined_run (s := .increment u amount) hu).bind fun affected held' h => ?_
  split
  · trivial
  · exact h.1

end Work

/-- A purchase locks the buyer's row before it changes it. -/
theorem UseCase.disciplined_purchase (u : UserId) (g : Good) :
    (purchase u g).Disciplined (fun _ _ => True) [] := by
  refine (Work.disciplined_lock u).bind fun balance held hu => ?_
  split
  · trivial
  · refine (Work.disciplined_debit hu _).bind fun _ held' _ => ?_
    exact ⟨trivial, fun _ _ => ⟨fun _ => trivial, fun _ _ => trivial⟩⟩

/-- A movement locks both rows, whichever is the lower one, before it changes either. -/
theorem UseCase.disciplined_movement (u v : UserId) (amount : Coins) :
    (movement u v amount).Disciplined (fun _ _ => True) [] := by
  refine (Work.disciplined_lockPair u v).bind fun balances held hheld => ?_
  obtain ⟨hu, hv⟩ := hheld
  dsimp only
  split
  · trivial
  · split
    · trivial
    · refine (Work.disciplined_debit hu _).bind fun _ held' sub => ?_
      refine (Work.disciplined_credit (sub hv) _).bind fun _ held'' _ => ?_
      exact ⟨trivial, fun _ _ => ⟨fun _ => trivial, fun _ _ => trivial⟩⟩

theorem LedgerUnit.disciplined {listed : Good → Prop} {w : Work LedgerError Unit}
    (h : LedgerUnit listed w) : w.Disciplined (fun _ _ => True) [] := by
  cases h with
  | purchase u _ => exact UseCase.disciplined_purchase u _
  | movement _ _ => exact UseCase.disciplined_movement _ _ _

/-! ## What a session holds and wants -/

namespace RowLocks

/-- Whether a session keeps to the discipline from where it stands.  While a statement is under
way, what it still wants is held already, or lies above all that is held, in ascending order. -/
def Session.Sound (x : Session) : Prop :=
  match x.rest, x.wants with
  | rest, none => rest.Disciplined (fun _ _ => True) x.holds
  | .done _, some _ => False
  | .ask s next, some wanted =>
    (∀ u, s.updates? = some u → u ∈ x.holds) ∧
    (∀ held', x.holds ⊆ held' →
      (∀ f, (next (.error f)).Disciplined (fun _ _ => True) held') ∧
      ∀ a, s.Allows held' a → (next (.ok a)).Disciplined (fun _ _ => True) held') ∧
    (wanted ⊆ x.holds ∨ wanted.Pairwise (· < ·) ∧ ∀ u ∈ x.holds, ∀ v ∈ wanted, u < v)

theorem Session.sound_closed (r : Except LedgerError Unit) : (Session.closed r).Sound := by
  cases r <;> trivial

end RowLocks

/-- An admitted statement changes only a row that is held. -/
theorem Statement.Admits.mem_of_updates {s : Statement} {held : List UserId} (h : s.Admits held)
    {u : UserId} (hu : s.updates? = some u) : u ∈ held := by
  cases s <;> cases hu <;> exact h

/-- An admitted statement wants what is held, or nothing is held and it wants its rows upwards. -/
theorem Statement.Admits.locks {s : Statement} {held : List UserId} (h : s.Admits held)
    (rows : List UserId) :
    s.locks rows ⊆ held ∨
      (s.locks rows).Pairwise (· < ·) ∧ ∀ u ∈ held, ∀ v ∈ s.locks rows, u < v := by
  cases s with
  | lockBalance u =>
    obtain rfl : held = [] := h
    have single : [u].Pairwise (· < ·) := List.pairwise_singleton _ u
    exact .inr ⟨single.sublist List.filter_sublist, fun _ hu => nomatch hu⟩
  | lockBalances users =>
    obtain rfl : held = [] := h
    exact .inr ⟨(pairwise_ascending users).sublist List.filter_sublist, fun _ hu => nomatch hu⟩
  | decrement u amount =>
    refine .inl fun v hv => ?_
    obtain rfl := List.mem_singleton.1 (List.mem_filter.1 hv).1
    exact h
  | increment u amount =>
    refine .inl fun v hv => ?_
    obtain rfl := List.mem_singleton.1 (List.mem_filter.1 hv).1
    exact h
  | insertPurchase p => exact .inl fun _ hv => nomatch hv
  | insertTransfer t => exact .inl fun _ hv => nomatch hv

namespace RowLocks.Board

/-! ## The invariant of a board -/

/-- Whether every session keeps to the discipline and no row is held twice. -/
structure Good (b : Board) : Prop where
  sound : ∀ (i : Nat) (x : Session), b.sessions[i]? = some x → x.Sound
  exclusive : ∀ (i : Nat) (x : Session), b.sessions[i]? = some x → ∀ u ∈ x.holds, b.FreeFor i u

theorem getElem?_put {b : Board} {i j : Nat} {x y : Session}
    (h : (b.put i x).sessions[j]? = some y) :
    (j = i ∧ y = x) ∨ (j ≠ i ∧ b.sessions[j]? = some y) := by
  simp only [put, List.getElem?_set] at h
  by_cases hij : i = j
  · rw [if_pos hij] at h
    split at h
    · cases h
      exact .inl ⟨hij.symm, rfl⟩
    · cases h
  · rw [if_neg hij] at h
    exact .inr ⟨fun hji => hij hji.symm, h⟩

/-- A session may go to any point that keeps to the discipline, with rows that are free for it. -/
theorem Good.put {b : Board} (hb : b.Good) {i : Nat} {x : Session} (sound : x.Sound)
    (free : ∀ u ∈ x.holds, b.FreeFor i u) : (b.put i x).Good where
  sound j y hy := by
    rcases getElem?_put hy with ⟨-, rfl⟩ | ⟨-, hy⟩
    · exact sound
    · exact hb.sound j y hy
  exclusive j y hy u hu k z hkj hz huz := by
    rcases getElem?_put hy with ⟨rfl, rfl⟩ | ⟨hji, hy'⟩
    · rcases getElem?_put hz with ⟨rfl, -⟩ | ⟨-, hz'⟩
      · exact hkj rfl
      · exact free u hu k z hkj hz' huz
    · rcases getElem?_put hz with ⟨rfl, rfl⟩ | ⟨-, hz'⟩
      · exact free u huz j y hji hy' hu
      · exact hb.exclusive j y hy' u hu k z hkj hz' huz

theorem Good.put_closed {b : Board} (hb : b.Good) (i : Nat) (r : Except LedgerError Unit) :
    (b.put i (.closed r)).Good :=
  hb.put (Session.sound_closed r) fun _ hu => nomatch hu

/-- What a session does by itself keeps the board good. -/
theorem Good.proceeds {b b' : Board} (hb : b.Good) {i : Nat} (h : Proceeds i b b') :
    b'.Good := by
  cases h with
  | @issue s next held hi =>
    have hx : (Work.ask s next).Disciplined (fun _ _ => True) held := hb.sound i _ hi
    have free := hb.exclusive i _ hi
    exact hb.put ⟨fun u hu => hx.1.mem_of_updates hu, hx.2, hx.1.locks b.rows⟩ free
  | @acquire w held wanted user hi free =>
    have hx := hb.sound i _ hi
    refine hb.put ?_ ?_
    · cases w with
      | done r => exact hx
      | ask s next =>
        obtain ⟨updates, rest, order⟩ := hx
        refine ⟨fun u hu => List.mem_cons_of_mem _ (updates u hu), fun held' sub => ?_, ?_⟩
        · exact rest held' fun u hu => sub (List.mem_cons_of_mem _ hu)
        · rcases order with owned | ⟨ascending, above⟩
          · refine .inl fun v hv => ?_
            exact List.mem_cons_of_mem _ (owned (List.mem_cons_of_mem _ hv))
          · rw [List.pairwise_cons] at ascending
            refine .inr ⟨ascending.2, fun u hu v hv => ?_⟩
            rcases List.mem_cons.1 hu with rfl | hu
            · exact ascending.1 v hv
            · exact above u hu v (List.mem_cons_of_mem _ hv)
    · intro u hu
      rcases List.mem_cons.1 hu with rfl | hu
      · exact free
      · exact hb.exclusive i _ hi u hu
  | @answer s next held a hi allowed =>
    obtain ⟨-, rest, -⟩ := hb.sound i _ hi
    have free := hb.exclusive i _ hi
    exact hb.put ((rest held fun _ hu => hu).2 a allowed) free
  | conclude hi _ => exact hb.put_closed i _

/-- Whatever happens keeps the board good. -/
theorem Good.step {b b' : Board} (hb : b.Good) (h : Step b b') : b'.Good := by
  cases h with
  | proceed i h => exact hb.proceeds h
  | @refuse i s next held wanted f hi =>
    obtain ⟨-, rest, -⟩ := hb.sound i _ hi
    have free := hb.exclusive i _ hi
    exact hb.put ((rest held fun _ hu => hu).1 f) free
  | abort hi => exact hb.put_closed _ _
  | provision user => exact ⟨hb.sound, hb.exclusive⟩

/-- A board on which nothing has begun is good. -/
theorem good_opening (rows : List UserId) {units : List (Work LedgerError Unit)}
    (disciplined : ∀ w ∈ units, w.Disciplined (fun _ _ => True) []) :
    (opening rows units).Good where
  sound i x hx := by
    simp only [opening, List.getElem?_map, Option.map_eq_some_iff] at hx
    obtain ⟨w, hw, rfl⟩ := hx
    exact disciplined w (List.mem_of_getElem? hw)
  exclusive i x hx u hu := by
    simp only [opening, List.getElem?_map, Option.map_eq_some_iff] at hx
    obtain ⟨w, -, rfl⟩ := hx
    cases hu

/-- The invariant holds on every board that can come about. -/
theorem good_of_reaches {rows : List UserId} {units : List (Work LedgerError Unit)}
    (disciplined : ∀ w ∈ units, w.Disciplined (fun _ _ => True) []) {b : Board}
    (h : Reaches (opening rows units) b) : b.Good :=
  h.induction (good_opening rows disciplined) fun _ _ hb hs => hb.step hs

/-! ## Waiting climbs -/

/-- **Who is waited for waits for a higher row**: if `i` waits for `j`, and `j` for somebody, then
`j` wants a row above the one that `i` wants. -/
theorem Good.waits_lt {b : Board} (hb : b.Good) {i j k : Nat} {x y : Session} {u v : UserId}
    (hx : b.sessions[i]? = some x) (hu : x.next? = some u) (hij : b.Waits i j)
    (hy : b.sessions[j]? = some y) (hv : y.next? = some v) (hjk : b.Waits j k) : u < v := by
  obtain ⟨-, x', y', u', hx', hy', hu', owned⟩ := hij
  cases hx.symm.trans hx'
  cases hy.symm.trans hy'
  cases hu.symm.trans hu'
  obtain ⟨hne, y'', z, v', hy'', hz, hv', taken⟩ := hjk
  cases hy.symm.trans hy''
  cases hv.symm.trans hv'
  have sound := hb.sound j y hy
  obtain ⟨rest, held, wants⟩ := y
  cases wants with
  | none => cases hv
  | some wanted =>
    cases wanted with
    | nil => cases hv
    | cons w more =>
      cases hv
      cases rest with
      | done r => exact sound.elim
      | ask s next =>
        obtain ⟨-, -, own | ⟨-, above⟩⟩ := sound
        · -- The row that `j` wants would be held by `j` itself, and by `k` as well.
          have free := hb.exclusive j _ hy v (own List.mem_cons_self)
          exact (free k z hne.symm hz taken).elim
        · exact above u owned v List.mem_cons_self

/-- Along a chain of waiting sessions the rows that are wanted rise. -/
theorem Good.chain_lt {b : Board} (hb : b.Good) {i j k : Nat} {x y : Session} {u v : UserId}
    (hx : b.sessions[i]? = some x) (hu : x.next? = some u) (hij : Relation.TransGen b.Waits i j)
    (hy : b.sessions[j]? = some y) (hv : y.next? = some v) (hjk : b.Waits j k) : u < v := by
  induction hij generalizing k y v with
  | single hij => exact hb.waits_lt hx hu hij hy hv hjk
  | tail _ hmj ih =>
    obtain ⟨-, z, -, w, hz, -, hw, -⟩ := id hmj
    have huw : u.toInt < w.toInt := ih hz hw hmj
    have hwv : w.toInt < v.toInt := hb.waits_lt hz hw hmj hy hv hjk
    exact Int.lt_trans huw hwv

/-- No sessions wait in a circle. -/
theorem Good.not_deadlocked {b : Board} (hb : b.Good) : ¬ b.Deadlocked := by
  rintro ⟨i, cycle⟩
  obtain ⟨j, first, -⟩ := Relation.TransGen.head'_iff.1 cycle
  obtain ⟨-, x, -, u, hx, -, hu, -⟩ := id first
  have h : u.toInt < u.toInt := hb.chain_lt hx hu cycle hx hu first
  omega

/-! ## Somebody gets on -/

end RowLocks.Board

/-- Every statement has an answer that fits any rows: none found, none affected. -/
theorem Statement.exists_allowed (held : List UserId) (s : Statement) :
    ∃ a : s.Answer, s.Allows held a := by
  cases s with
  | lockBalance u => exact ⟨none, trivial⟩
  | lockBalances users => exact ⟨[], fun _ h => nomatch h⟩
  | decrement u amount => exact ⟨(0 : Nat), trivial⟩
  | increment u amount => exact ⟨(0 : Nat), trivial⟩
  | insertPurchase p => exact ⟨(), trivial⟩
  | insertTransfer t => exact ⟨(), trivial⟩

namespace RowLocks.Board

/-- A session is over, gets on, or wants a row that another session holds. -/
theorem Good.proceeds_or_waits {b : Board} (hb : b.Good) {i : Nat} {x : Session}
    (hx : b.sessions[i]? = some x) :
    x.IsClosed ∨ (∃ b', Proceeds i b b') ∨
      ∃ j y u, b.sessions[j]? = some y ∧ x.next? = some u ∧ u ∈ y.holds ∧ b.Waits i j := by
  have sound := hb.sound i x hx
  obtain ⟨rest, held, wants⟩ := x
  cases wants with
  | none =>
    cases rest with
    | ask s next => exact .inr (.inl ⟨_, .issue hx⟩)
    | done r =>
      by_cases hheld : held = []
      · exact .inl ⟨r, by rw [hheld]; rfl⟩
      · exact .inr (.inl ⟨_, .conclude hx hheld⟩)
  | some wanted =>
    cases wanted with
    | nil =>
      cases rest with
      | done r => exact sound.elim
      | ask s next =>
        obtain ⟨a, allowed⟩ := s.exists_allowed held
        exact .inr (.inl ⟨_, .answer hx allowed⟩)
    | cons u more =>
      by_cases free : b.FreeFor i u
      · exact .inr (.inl ⟨_, .acquire hx free⟩)
      · obtain ⟨j, y, hji, hy, hu⟩ : ∃ j y, j ≠ i ∧ b.sessions[j]? = some y ∧ u ∈ y.holds := by
          simpa [FreeFor] using free
        exact .inr (.inr ⟨j, y, u, hy, rfl, hu, hji.symm, _, y, u, hx, hy, rfl, hu⟩)

/-- From a session that is not over, the chain of those waited for ends at one that gets on.  The
induction is on how far the wanted row is below the highest possible one. -/
theorem Good.exists_proceeds {b : Board} (hb : b.Good) {i : Nat} {x : Session}
    (hx : b.sessions[i]? = some x) (unfinished : ¬ x.IsClosed) : ∃ j b', Proceeds j b b' := by
  have climb : ∀ (room i j : Nat) (x y : Session) (u : UserId), b.sessions[i]? = some x →
      b.sessions[j]? = some y → x.next? = some u → u ∈ y.holds → b.Waits i j →
      (UserId.bound - u.toInt).toNat ≤ room → ∃ j b', Proceeds j b b' := by
    intro room
    induction room with
    | zero =>
      intro i j x y u hx hy hu owned hij hroom
      have := u.toInt_lt
      omega
    | succ room ih =>
      intro i j x y u hx hy hu owned hij hroom
      rcases hb.proceeds_or_waits hy with ⟨r, rfl⟩ | ⟨b', h⟩ | ⟨k, z, v, hz, hv, hvz, hjk⟩
      · cases owned
      · exact ⟨j, b', h⟩
      · have huv : u.toInt < v.toInt := hb.waits_lt hx hu hij hy hv hjk
        exact ih j k y z v hy hz hv hvz hjk (by omega)
  rcases hb.proceeds_or_waits hx with closed | ⟨b', h⟩ | ⟨j, y, u, hy, hu, owned, hij⟩
  · exact (unfinished closed).elim
  · exact ⟨i, b', h⟩
  · exact climb _ i j x y u hx hy hu owned hij (Nat.le_refl _)

end RowLocks.Board

/-! ## The units of the ledger -/

/-- **Units of work never deadlock**: start any units that commands may come to run, whatever they
were answered before, and let their sessions lock rows in any order, wait, fail and be given up.
On every board that comes about, a statement that changes a row finds it locked by its own unit, no
units wait in a circle, and some unfinished unit gets on if there is any. -/
theorem rows_locked_in_order (rows : List UserId) (units : List (Work LedgerError Unit))
    (ledger : ∀ w ∈ units, ∃ (seed : Coins) (c : Command), (c.program seed).MayRun w)
    {b : Board} (h : Board.Reaches (Board.opening rows units) b) :
    (∀ (i : Nat) (x : Session) (s : Statement)
        (next : Except StorageFailure s.Answer → Work LedgerError Unit) (u : UserId),
      b.sessions[i]? = some x → x.rest = .ask s next → s.updates? = some u → u ∈ x.holds) ∧
    ¬ b.Deadlocked ∧
    ((∃ x ∈ b.sessions, ¬ x.IsClosed) → ∃ i b', Board.Proceeds i b b') := by
  have disciplined : ∀ w ∈ units, w.Disciplined (fun _ _ => True) [] := by
    intro w hw
    obtain ⟨seed, c, run⟩ := ledger w hw
    have obeys := c.program_obeys seed fun _ => True
    have every : ∀ (c : Call) a, (ledgerRules seed fun _ => True).answer c a := by
      intro c a
      cases c <;> first | trivial | (cases a <;> trivial)
    have hunit : LedgerUnit (fun _ => True) w := obeys.unit_of_mayRun every run
    exact hunit.disciplined
  have good := Board.good_of_reaches disciplined h
  refine ⟨fun i x s next u hx hrest hu => ?_, good.not_deadlocked, ?_⟩
  · have sound := good.sound i x hx
    obtain ⟨rest, held, wants⟩ := x
    cases hrest
    cases wants with
    | none => exact sound.1.mem_of_updates hu
    | some wanted => exact sound.1 u hu
  · rintro ⟨x, hx, unfinished⟩
    obtain ⟨i, hi⟩ := List.getElem?_of_mem hx
    exact good.exists_proceeds hi unfinished

/-- Two transfers between the same two users, in opposite directions. -/
def oppositeUnits : List (Work LedgerError Unit) :=
  [UseCase.movement ⟨1⟩ ⟨2⟩ ⟨30⟩, UseCase.movement ⟨2⟩ ⟨1⟩ ⟨40⟩]

theorem mayRun_oppositeUnits : ∀ w ∈ oppositeUnits,
    ∃ (seed : Coins) (c : Command), (c.program seed).MayRun w := by
  simp only [oppositeUnits, List.forall_mem_cons]
  refine ⟨⟨⟨1000⟩, .sendCoins ⟨1⟩ ⟨"bob", by decide⟩ ⟨30⟩, ?_⟩,
    ⟨⟨1000⟩, .sendCoins ⟨2⟩ ⟨"alice", by decide⟩ ⟨40⟩, ?_⟩, fun _ h => nomatch h⟩
  · exact .afterCall (.ok (some ⟨2⟩)) (.afterCall (.ok ()) .now)
  · exact .afterCall (.ok (some ⟨1⟩)) (.afterCall (.ok ()) .now)

/-- The first of the two has locked the lower row, and the second asks for the same row first. -/
def oppositeBoard : Board where
  rows := [⟨1⟩, ⟨2⟩]
  sessions :=
    [⟨UseCase.movement ⟨1⟩ ⟨2⟩ ⟨30⟩, [⟨1⟩], some [⟨2⟩]⟩,
      ⟨UseCase.movement ⟨2⟩ ⟨1⟩ ⟨40⟩, [], some [⟨1⟩, ⟨2⟩]⟩]

theorem reaches_oppositeBoard :
    Board.Reaches (Board.opening [⟨1⟩, ⟨2⟩] oppositeUnits) oppositeBoard := by
  have start : Board.Reaches (Board.opening [⟨1⟩, ⟨2⟩] oppositeUnits) _ := .refl
  have issued := start.tail (.proceed 0 (.issue (i := 0) rfl))
  have locked := issued.tail (.proceed 0 (.acquire (i := 0) rfl ?_))
  · exact locked.tail (.proceed 1 (.issue rfl))
  · rintro (_ | _ | j) x hj hx hu
    · contradiction
    · cases hx
      cases hu
    · cases hx

/-- Of two opposite transfers one waits for the other, and that one gets on. -/
theorem rows_locked_in_order_opposite :
    (∀ w ∈ oppositeUnits, ∃ (seed : Coins) (c : Command), (c.program seed).MayRun w) ∧
    Board.Reaches (Board.opening [⟨1⟩, ⟨2⟩] oppositeUnits) oppositeBoard ∧
    oppositeBoard.Waits 1 0 ∧ ¬ oppositeBoard.Deadlocked ∧ 
    ∃ i b', Board.Proceeds i oppositeBoard b' := by
  have ⟨_, free, progress⟩ := rows_locked_in_order _ _ mayRun_oppositeUnits reaches_oppositeBoard
  have waits : oppositeBoard.Waits 1 0 :=
    ⟨by decide, _, _, ⟨1⟩, rfl, rfl, rfl, List.mem_singleton.2 rfl⟩
  refine ⟨mayRun_oppositeUnits, reaches_oppositeBoard, waits, free, progress ?_⟩
  refine ⟨_, List.mem_cons_self, ?_⟩
  rintro ⟨r, closed⟩
  cases closed
end CoinLedger
