import CoinLedger.Backing
import CoinLedger.Proofs.Ledger.Operations

/-!
# What an account shows

Over the store in memory the view of an account needs no use case to be described.  It is there
exactly if the user has a row, and it shows the balance, the inventory and the transfers of the
store, with the names of the whole directory (`Store.view?`).  That names are asked for in one
request, about the other parties only and not at all if there are none, makes no difference to it.

## Main results

* `UseCase.assemble_congr`, `UseCase.assemble_namesOf` — only the names of the other parties matter
  to a view.
* `UseCase.accountInfo_runOn` — the account view is `Store.view?`, or the row is missed.
-/

namespace CoinLedger

/-! ## Names -/

/-- The names of some users are those of the directory. -/
theorem Directory.get?_namesOf (d : Directory) (users : List UserId) (u : UserId) :
    (d.namesOf users).get? u = if u ∈ users then d.get? u else none := by
  have collected : ∀ m : Names,
      ((users.filterMap fun v => (d.get? v).map fun name => (v, name)).foldl
        (fun m e => m.insert e.1 e.2) m).get? u =
          if u ∈ users then (d.get? u).or (m.get? u) else m.get? u := by
    induction users with
    | nil => exact fun m => rfl
    | cons v rest ih =>
      intro m
      by_cases hv : v = u
      · subst hv
        cases hname : d.get? v with
        | none => simp [hname, ih]
        | some name => simp [hname, ih]
      · have hne : ¬u = v := fun h => hv h.symm
        cases hname : d.get? v with
        | none => simp [hname, ih, hne]
        | some name => simp [hname, ih, hv, hne]
  have answered := collected SortedMap.empty
  rw [SortedMap.get?_empty, Option.or_none] at answered
  exact answered

namespace UseCase

theorem named_congr {names names' : Names} {entries : List Entry}
    (same : ∀ e ∈ entries, names.get? e.counterpart = names'.get? e.counterpart) :
    named names entries = named names' entries := by
  refine List.map_congr_left fun e he => ?_
  rw [same e he]

/-- Only the names of the other parties matter to a view. -/
theorem assemble_congr {h : Holdings} {names names' : Names}
    (same : ∀ v ∈ h.history.counterparts, names.get? v = names'.get? v) :
    assemble h names = assemble h names' := by
  have incoming : named names h.history.incoming = named names' h.history.incoming :=
    named_congr fun e he =>
      same _ (History.mem_counterparts.2 ⟨e, List.mem_append_left _ he, rfl⟩)
  have outgoing : named names h.history.outgoing = named names' h.history.outgoing :=
    named_congr fun e he =>
      same _ (History.mem_counterparts.2 ⟨e, List.mem_append_right _ he, rfl⟩)
  unfold assemble
  rw [incoming, outgoing]

/-- Without other parties no names are needed. -/
theorem assemble_alone {h : Holdings} (alone : h.history.counterparts = []) (names : Names) :
    assemble h SortedMap.empty = assemble h names := by
  refine assemble_congr fun v hv => ?_
  rw [alone] at hv
  cases hv

/-- The names of the other parties are as good as the whole directory. -/
theorem assemble_namesOf (d : Directory) (h : Holdings) :
    assemble h (d.namesOf h.history.counterparts) = assemble h d := by
  refine assemble_congr fun v hv => ?_
  rw [Directory.get?_namesOf, if_pos hv]

end UseCase

/-! ## The view -/

/-- What an account shows in a store, with the names of a directory; nothing without a row. -/
def Store.view? (s : Store) (d : Directory) (u : UserId) : Option AccountInfo :=
  (s.balance? u).map fun balance => UseCase.assemble ⟨balance, s.inventory u, s.history u⟩ d

namespace UseCase

variable (d : Directory) (s : Store) (u : UserId)

theorem gather_memory :
    (Backing.memory d).gather u s =
      match s.balance? u with
      | some balance => (.ok ⟨balance, s.inventory u, s.history u⟩, s)
      | none => (.error (.balanceNotFound u), s) := by
  have read : (Backing.memory d).call (.findBalance u) s = (.ok (s.balance? u), s) := rfl
  simp only [Backing.gather, read]
  cases s.balance? u <;> rfl

/-- **The account view is what the store shows**, with an error for a missing row. -/
theorem accountInfo_runOn :
    (accountInfo u).runOn (.memory d) s =
      match s.view? d u with
      | some view => (.ok view, s)
      | none => (.error (.balanceNotFound u), s) := by
  have gathered := gather_memory d s u
  unfold accountInfo runOn Store.view?
  rw [gathered]
  cases s.balance? u with
  | none => rfl
  | some balance =>
    dsimp only [Option.map_some]
    split
    · next alone =>
      rw [assemble_alone alone d]
      rfl
    · rw [runOn_ask_bind (a := d.namesOf (s.history u).counterparts) (v := s) rfl]
      have named : assemble ⟨balance, s.inventory u, s.history u⟩
          (d.namesOf (s.history u).counterparts) =
          assemble ⟨balance, s.inventory u, s.history u⟩ d := assemble_namesOf d _
      rw [named]
      rfl

end UseCase

end CoinLedger
