import CoinLedger.Text.Blank
/-!
# Usernames

A username is any text that is not empty and neither begins nor ends with a blank character. Names
are owned by the identity service; here they are only checked, compared and passed on.

## Main results

* `Username.ofString_eq_ok_iff` — a text is accepted, unchanged, exactly when it is not blank
  throughout and trimming leaves it alone.
* `Username.ofString_text` — reading a username back gives the same username.
-/

namespace CoinLedger

/-- Why a text is not a username. -/
inductive UsernameError where
  /-- Nothing is left after trimming. -/
  | empty
  /-- The text begins or ends with a blank. -/
  | padded
  deriving DecidableEq, Repr

/-- The wording of a rejected username. -/
def UsernameError.message : UsernameError → String
  | .empty => "username must not be empty"
  | .padded => "username must not contain surrounding whitespace"

/-- What is wrong with a text as a username; `none` when nothing is. Emptiness is named first. -/
def usernameDefect? (s : List Char) : Option UsernameError :=
  if Text.trim s = [] then some .empty
  else if Text.trim s ≠ s then some .padded
  else none

/-- A text that is not empty and is not surrounded by blanks. -/
structure Username where
  text : String
  valid : usernameDefect? text.toList = none
  deriving DecidableEq

namespace Username

@[ext] theorem ext {a b : Username} (h : a.text = b.text) : a = b := by
  cases a; cases b; simp_all

/-- Reads a username, which is kept as it is or rejected. -/
def ofString (s : String) : Except UsernameError Username :=
  match h : usernameDefect? s.toList with
  | none => .ok ⟨s, h⟩
  | some e => .error e

theorem ofString_text (u : Username) : ofString u.text = .ok u := by
  unfold ofString
  split
  · rfl
  · next e h => rw [u.valid] at h; cases h

theorem usernameDefect?_eq_none_iff {s : List Char} :
    usernameDefect? s = none ↔ Text.trim s = s ∧ s ≠ [] := by
  unfold usernameDefect?
  split
  · next h =>
    simp only [reduceCtorEq, false_iff]
    rintro ⟨h₁, h₂⟩
    exact h₂ (h₁ ▸ h)
  · next h =>
    split
    · next h' => simp [h']
    · next h' =>
      have h' : Text.trim s = s := Classical.not_not.1 h'
      simp only [true_iff]
      exact ⟨h', h' ▸ h⟩

/-- Accepted texts are those that trimming leaves alone and that are not empty. -/
theorem ofString_eq_ok_iff {s : String} {u : Username} :
    ofString s = .ok u ↔ u.text = s ∧ Text.trim s.toList = s.toList ∧ s.toList ≠ [] := by
  rw [← usernameDefect?_eq_none_iff]
  constructor
  · intro h
    unfold ofString at h
    split at h
    · next hs => cases h; exact ⟨rfl, hs⟩
    · cases h
  · rintro ⟨rfl, -⟩
    exact ofString_text u

end Username

end CoinLedger
