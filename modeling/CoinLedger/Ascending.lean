/-!
# Ascending lists

A finite set of values of a linearly ordered type is kept as its members in strictly ascending
order. `ascending` turns any list into that form: it sorts and drops repetitions, so the result
depends only on which values occur, not on where or how often.

## Main results

* `mem_ascending` — nothing is lost and nothing is added.
* `pairwise_ascending` — the result is strictly ascending, hence free of repetitions.
-/

namespace CoinLedger

section
variable {α : Type} [LT α] [DecidableLT α]

/-- Puts `a` into its place in an ascending list; a value that is already there stays alone. -/
def insertAscending (a : α) : List α → List α
  | [] => [a]
  | b :: rest =>
    if a < b then a :: b :: rest
    else if b < a then b :: insertAscending a rest
    else b :: rest

/-- The distinct values of a list in strictly ascending order. -/
def ascending (xs : List α) : List α :=
  xs.foldr insertAscending []

@[simp] theorem ascending_nil : ascending ([] : List α) = [] := rfl

@[simp] theorem ascending_cons (a : α) (xs : List α) :
    ascending (a :: xs) = insertAscending a (ascending xs) := rfl

variable [LE α] [Std.IsLinearOrder α] [Std.LawfulOrderLT α]

theorem mem_insertAscending {a x : α} {xs : List α} :
    x ∈ insertAscending a xs ↔ x = a ∨ x ∈ xs := by
  induction xs with
  | nil => simp [insertAscending]
  | cons b rest ih =>
    simp only [insertAscending]
    split
    · simp
    · split
      · simp [ih]; grind
      · next hab hba =>
        have : a = b := by
          rcases Std.lt_trichotomy a b with h | h | h
          · exact absurd h hab
          · exact h
          · exact absurd h hba
        simp [this]

/-- Sorting without repetition keeps exactly the members. -/
theorem mem_ascending {x : α} {xs : List α} : x ∈ ascending xs ↔ x ∈ xs := by
  induction xs with
  | nil => simp
  | cons a rest ih => simp [mem_insertAscending, ih]

theorem pairwise_insertAscending {a : α} {xs : List α} (h : xs.Pairwise (· < ·)) :
    (insertAscending a xs).Pairwise (· < ·) := by
  induction xs with
  | nil => simp [insertAscending]
  | cons b rest ih =>
    rw [List.pairwise_cons] at h
    simp only [insertAscending]
    split
    · next hab =>
      refine List.pairwise_cons.2 ⟨?_, List.pairwise_cons.2 h⟩
      intro x hx
      rcases List.mem_cons.1 hx with rfl | hx
      · exact hab
      · exact Std.lt_trans hab (h.1 x hx)
    · split
      · next hba =>
        refine List.pairwise_cons.2 ⟨?_, ih h.2⟩
        intro x hx
        rcases mem_insertAscending.1 hx with rfl | hx
        · exact hba
        · exact h.1 x hx
      · exact List.pairwise_cons.2 h

/-- The result is strictly ascending. -/
theorem pairwise_ascending (xs : List α) : (ascending xs).Pairwise (· < ·) := by
  induction xs with
  | nil => simp
  | cons a rest ih => exact pairwise_insertAscending ih

end

end CoinLedger
