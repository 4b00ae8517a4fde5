/-!
# Blank characters

A character is blank when it has the Unicode property `White_Space`. Trimming removes blanks at
both ends of a text; splitting into words cuts at every run of blanks.

## Main results

* `trim_eq_self_iff` — trimming changes a text exactly when it begins or ends with a blank.
* `words_ne_nil`, `not_isBlank_of_mem_words` — words are not empty and hold no blank.
-/

namespace CoinLedger.Text

/-- The first and last code points of the ranges with the property `White_Space`. -/
def blankRanges : List (Nat × Nat) :=
  [(0x09, 0x0D), (0x20, 0x20), (0x85, 0x85), (0xA0, 0xA0), (0x1680, 0x1680), (0x2000, 0x200A),
    (0x2028, 0x2029), (0x202F, 0x202F), (0x205F, 0x205F), (0x3000, 0x3000)]

/-- Twenty-five characters are blank. -/
example : blankRanges.foldl (fun n r => n + (r.2 + 1 - r.1)) 0 = 25 := by decide

/-- Whether a character has the property `White_Space`. -/
def isBlank (c : Char) : Bool :=
  blankRanges.any fun r => r.1 ≤ c.toNat && c.toNat ≤ r.2

/-- A text without the blanks at its two ends. -/
def trim (s : List Char) : List Char :=
  ((s.dropWhile isBlank).reverse.dropWhile isBlank).reverse

/-- The words of a text whose first word has begun: `begun` holds the characters read of it, the
last one first. -/
def wordsFrom (begun : List Char) : List Char → List (List Char)
  | [] => if begun.isEmpty then [] else [begun.reverse]
  | c :: rest =>
    if isBlank c then
      if begun.isEmpty then wordsFrom [] rest else begun.reverse :: wordsFrom [] rest
    else wordsFrom (c :: begun) rest

/-- The maximal runs of characters that are not blank, in order. -/
def words (s : List Char) : List (List Char) := wordsFrom [] s

/-- The words of a text with one space between each two. -/
def compact (s : List Char) : List Char :=
  [' '].intercalate (words s)

/-! ## Trimming -/

private theorem dropWhile_eq_self_iff {p : Char → Bool} {s : List Char} :
    s.dropWhile p = s ↔ ∀ c, s.head? = some c → p c = false := by
  cases s with
  | nil => simp
  | cons c rest =>
    by_cases h : p c
    · have hne : rest.dropWhile p ≠ c :: rest := fun h' => by
        have hlen := (List.dropWhile_sublist p (l := rest)).length_le
        rw [h', List.length_cons] at hlen
        omega
      simp [h, hne]
    · simp [h]

/-- Trimming leaves a text alone exactly when neither its first nor its last character is blank. -/
theorem trim_eq_self_iff {s : List Char} :
    trim s = s ↔ (∀ c, s.head? = some c → isBlank c = false) ∧
      (∀ c, s.getLast? = some c → isBlank c = false) := by
  constructor
  · intro h
    have hlen₁ : (s.dropWhile isBlank).length ≤ s.length :=
      (List.dropWhile_sublist _).length_le
    have hlen₂ : ((s.dropWhile isBlank).reverse.dropWhile isBlank).length ≤
        (s.dropWhile isBlank).length := by
      have := (List.dropWhile_sublist isBlank (l := (s.dropWhile isBlank).reverse)).length_le
      simpa using this
    have hlen : ((s.dropWhile isBlank).reverse.dropWhile isBlank).length = s.length := by
      have := congrArg List.length h
      simpa [trim] using this
    have h₁ : s.dropWhile isBlank = s :=
      (List.dropWhile_sublist _).eq_of_length (by omega)
    have h₂ : s.reverse.dropWhile isBlank = s.reverse := by
      rw [h₁] at hlen
      exact (List.dropWhile_sublist _).eq_of_length (by simpa using hlen)
    refine ⟨dropWhile_eq_self_iff.1 h₁, fun c hc => dropWhile_eq_self_iff.1 h₂ c ?_⟩
    simpa using hc
  · rintro ⟨h₁, h₂⟩
    have h₁ := dropWhile_eq_self_iff.2 h₁
    have h₂ : s.reverse.dropWhile isBlank = s.reverse :=
      dropWhile_eq_self_iff.2 fun c hc => h₂ c (by simpa using hc)
    simp [trim, h₁, h₂]

/-! ## Words -/

private theorem mem_wordsFrom (begun s : List Char) (hc : ∀ c ∈ begun, isBlank c = false) :
    ∀ w ∈ wordsFrom begun s, w ≠ [] ∧ ∀ c ∈ w, isBlank c = false := by
  induction s generalizing begun with
  | nil =>
    intro w hw
    simp only [wordsFrom] at hw
    split at hw
    · cases hw
    · next h =>
      obtain rfl := List.mem_singleton.1 hw
      exact ⟨by simpa using h, by simpa using hc⟩
  | cons c rest ih =>
    intro w hw
    simp only [wordsFrom] at hw
    split at hw
    · split at hw
      · exact ih [] (by simp) w hw
      · next h =>
        rcases List.mem_cons.1 hw with rfl | hw
        · exact ⟨by simpa using h, by simpa using hc⟩
        · exact ih [] (by simp) w hw
    · next h =>
      exact ih (c :: begun) (by simpa [h] using hc) w hw

theorem words_ne_nil {s w : List Char} (h : w ∈ words s) : w ≠ [] :=
  (mem_wordsFrom [] s (by simp) w h).1

theorem not_isBlank_of_mem_words {s w : List Char} (h : w ∈ words s) {c : Char} (hc : c ∈ w) :
    isBlank c = false :=
  (mem_wordsFrom [] s (by simp) w h).2 c hc

end CoinLedger.Text
