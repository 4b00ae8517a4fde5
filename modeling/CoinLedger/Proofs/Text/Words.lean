import CoinLedger.Text.Blank
import Mathlib.Data.List.TakeWhile

/-!
# Words and the blanks between them

A text is its words with blanks around them: every word is as long as it can be, so what follows it
is blank or nothing.  There is one way to part a text like this (`parted_iff`), whatever its blanks
are.

A text is tidy if its only blanks are single spaces between other characters.  Words with one space
between each two are tidy, and a tidy text is what its own words come to, so there is nothing left
to do to it.

## Main definitions

* `Parted` — a text and its words.
* `Normalised` — a text with one space between each two words.
* `Tidy` — texts in which no blank is more than that.

## Main results

* `parted_iff`, `normalised_iff` — words are found, and put together, in one way.
* `tidy_compact`, `compact_eq_self` — putting words together makes a text tidy and leaves a tidy
  text alone.
* `Tidy.take_append` — a tidy text that is cut off anywhere, and goes on with dots, is tidy.
-/

namespace CoinLedger.Text

/-- A text and its words, in order. -/
inductive Parted : List (List Char) → List Char → Prop
  | none {gap : List Char} : (∀ c ∈ gap, isBlank c = true) → Parted [] gap
  | word {gap word rest : List Char} {others : List (List Char)} :
      (∀ c ∈ gap, isBlank c = true) → word ≠ [] → (∀ c ∈ word, isBlank c = false) →
      (∀ c ∈ rest.head?, isBlank c = true) → Parted others rest →
      Parted (word :: others) (gap ++ word ++ rest)

/-- A text, and its words with one space between each two. -/
def Normalised (s t : List Char) : Prop := ∃ ws, Parted ws s ∧ t = [' '].intercalate ws

/-- The only blanks of a text are single spaces between other characters. -/
def Tidy (t : List Char) : Prop :=
  ∀ before c after, t = before ++ c :: after → isBlank c = true →
    c = ' ' ∧ (∃ a ∈ before.getLast?, isBlank a = false) ∧ ∃ b ∈ after.head?, isBlank b = false

/-! ## Finding words -/

variable {begun gap word rest s t : List Char} {c : Char}

@[simp] theorem isBlank_space : isBlank ' ' = true := by decide

theorem wordsFrom_word (plain : ∀ c ∈ word, isBlank c = false) :
    wordsFrom begun (word ++ rest) = wordsFrom (word.reverse ++ begun) rest := by
  induction word generalizing begun with
  | nil => rfl
  | cons c word ih =>
    obtain ⟨own, others⟩ := List.forall_mem_cons.1 plain
    have step : wordsFrom begun (c :: (word ++ rest)) = wordsFrom (c :: begun) (word ++ rest) := by
      rw [wordsFrom, own, if_neg Bool.false_ne_true]
    rw [List.cons_append, step, ih others, List.reverse_cons, List.append_assoc]
    rfl

theorem words_gap (blank : ∀ c ∈ gap, isBlank c = true) : words (gap ++ s) = words s := by
  induction gap with
  | nil => rfl
  | cons c gap ih =>
    obtain ⟨own, others⟩ := List.forall_mem_cons.1 blank
    have step : words (c :: (gap ++ s)) = words (gap ++ s) := by
      rw [words, wordsFrom, own, if_pos rfl]
      rfl
    rw [List.cons_append, step, ih others]

/-- A word that has begun ends where a blank or nothing follows. -/
theorem wordsFrom_end (some : begun ≠ []) (stop : ∀ c ∈ rest.head?, isBlank c = true) :
    wordsFrom begun rest = begun.reverse :: words rest := by
  have begun' : begun.isEmpty = false := List.isEmpty_eq_false_iff.2 some
  cases rest with
  | nil =>
    rw [wordsFrom, begun', if_neg Bool.false_ne_true]
    rfl
  | cons c rest =>
    have own : isBlank c = true := stop c rfl
    have gap : ∀ d ∈ [c], isBlank d = true := by simpa using own
    have skipped : words (c :: rest) = words rest := words_gap gap
    rw [skipped, wordsFrom, own, if_pos rfl, begun', if_neg Bool.false_ne_true]
    rfl

theorem words_word (some : word ≠ []) (plain : ∀ c ∈ word, isBlank c = false)
    (stop : ∀ c ∈ rest.head?, isBlank c = true) : words (word ++ rest) = word :: words rest := by
  have some' : word.reverse ++ [] ≠ [] := by simpa using some
  rw [words, wordsFrom_word plain, wordsFrom_end some' stop, List.append_nil, List.reverse_reverse]

/-- A gap in front of a text does not change its words. -/
theorem Parted.after_gap {ws : List (List Char)} (parted : Parted ws s)
    (blank : ∀ c ∈ gap, isBlank c = true) : Parted ws (gap ++ s) := by
  cases parted with
  | none blank' => exact .none fun c hc => (List.mem_append.1 hc).elim (blank c) (blank' c)
  | word blank' some plain stop others =>
    rw [← List.append_assoc, ← List.append_assoc]
    have blanks : ∀ c ∈ gap ++ _, isBlank c = true := List.forall_mem_append.2 ⟨blank, blank'⟩
    exact .word blanks some plain stop others

theorem parted_wordsFrom (plain : ∀ c ∈ begun, isBlank c = false) :
    Parted (wordsFrom begun s) (begun.reverse ++ s) := by
  -- Induction on what is still to be read; it ends the word that has begun or makes it longer.
  induction s generalizing begun with
  | nil =>
    by_cases none : begun = []
    · subst none
      exact .none fun c hc => absurd hc List.not_mem_nil
    · rw [wordsFrom_end none fun c hc => absurd hc (by simp)]
      have noGap : ∀ c ∈ ([] : List Char), isBlank c = true := fun c hc =>
        absurd hc List.not_mem_nil
      exact .word noGap (by simpa using none) (fun c hc => plain c (List.mem_reverse.1 hc))
        (fun c hc => absurd hc (by simp)) (.none noGap)
  | cons c rest ih =>
    cases blank : isBlank c with
    | true =>
      have after : Parted (words (c :: rest)) (c :: rest) := by
        have gap : ∀ d ∈ [c], isBlank d = true := by simpa using blank
        have skipped : words (c :: rest) = words rest := words_gap gap
        rw [skipped]
        exact (ih fun d hd => absurd hd List.not_mem_nil).after_gap gap
      by_cases none : begun = []
      · subst none
        exact after
      · have stop : ∀ d ∈ (c :: rest).head?, isBlank d = true := by
          rintro d ⟨⟩
          exact blank
        rw [wordsFrom_end none stop]
        have noGap : ∀ d ∈ ([] : List Char), isBlank d = true := fun d hd =>
          absurd hd List.not_mem_nil
        exact .word noGap (by simpa using none) (fun d hd => plain d (List.mem_reverse.1 hd)) stop
          after
    | false =>
      have longer : Parted (wordsFrom (c :: begun) rest) ((c :: begun).reverse ++ rest) :=
        ih (List.forall_mem_cons.2 ⟨blank, plain⟩)
      rw [List.reverse_cons, List.append_assoc] at longer
      rw [wordsFrom, blank, if_neg Bool.false_ne_true]
      exact longer

/-- **A text has its words and no others.** -/
theorem parted_iff {ws : List (List Char)} : Parted ws s ↔ ws = words s := by
  constructor
  · intro parted
    induction parted with
    | none blank =>
      have skipped := words_gap (s := []) blank
      rw [List.append_nil] at skipped
      rw [skipped]
      rfl
    | word blank some plain stop _ ih =>
      rw [List.append_assoc, words_gap blank, words_word some plain stop, ← ih]
  · rintro rfl
    have parted : Parted (wordsFrom [] s) (([] : List Char).reverse ++ s) :=
      parted_wordsFrom fun c hc => absurd hc List.not_mem_nil
    exact parted

theorem normalised_iff : Normalised s t ↔ t = compact s := by
  simp [Normalised, parted_iff, compact]

/-! ## Tidy texts -/

theorem tidy_nil : Tidy [] := by
  intro before c after same
  simp at same

theorem tidy_word (plain : ∀ c ∈ word, isBlank c = false) : Tidy word := by
  rintro before c after rfl blank
  rw [plain c (by simp)] at blank
  cases blank

/-- A word in front of a tidy text that begins with another word. -/
theorem Tidy.word_append (tidy : Tidy t) (some : word ≠ [])
    (plain : ∀ c ∈ word, isBlank c = false) (begins : ∃ b ∈ t.head?, isBlank b = false) :
    Tidy (word ++ ' ' :: t) := by
  have last : ∃ a ∈ word.getLast?, isBlank a = false :=
    ⟨word.getLast some, List.getLast?_eq_some_getLast some, plain _ (List.getLast_mem some)⟩
  intro before c after same blank
  rcases List.append_eq_append_iff.1 same with ⟨more, rfl, tail⟩ | ⟨more, rfl, tail⟩
  · cases more with
    | nil =>
      obtain ⟨rfl, rfl⟩ := List.cons.inj tail
      exact ⟨rfl, by rwa [List.append_nil], begins⟩
    | cons d more =>
      obtain ⟨rfl, rfl⟩ := List.cons.inj tail
      obtain ⟨space, ⟨a, ha, plain'⟩, follows⟩ := tidy more c after rfl blank
      refine ⟨space, ⟨a, ?_, plain'⟩, follows⟩
      rw [List.getLast?_append, List.getLast?_cons, ha]
      rfl
  · cases more with
    | nil =>
      obtain ⟨rfl, rfl⟩ := List.cons.inj tail
      exact ⟨rfl, by rwa [List.append_nil] at last, begins⟩
    | cons d more =>
      obtain ⟨rfl, -⟩ := List.cons.inj tail
      rw [plain c (by simp)] at blank
      cases blank

theorem intercalate_cons_cons (w v : List Char) (ws : List (List Char)) :
    [' '].intercalate (w :: v :: ws) = w ++ ' ' :: [' '].intercalate (v :: ws) := by
  simp [List.intercalate]

theorem head?_intercalate {w : List Char} {ws : List (List Char)} (some : w ≠ []) :
    ([' '].intercalate (w :: ws)).head? = w.head? := by
  obtain ⟨c, w, rfl⟩ := List.exists_cons_of_ne_nil some
  cases ws with
  | nil => simp [List.intercalate]
  | cons v ws => rw [intercalate_cons_cons, List.cons_append, List.head?_cons, List.head?_cons]

/-- Words with one space between each two are tidy. -/
theorem tidy_intercalate {ws : List (List Char)}
    (each : ∀ w ∈ ws, w ≠ [] ∧ ∀ c ∈ w, isBlank c = false) : Tidy ([' '].intercalate ws) := by
  induction ws with
  | nil => exact tidy_nil
  | cons w ws ih =>
    obtain ⟨⟨some, plain⟩, others⟩ := List.forall_mem_cons.1 each
    cases ws with
    | nil =>
      have single : [' '].intercalate [w] = w := by simp [List.intercalate]
      rw [single]
      exact tidy_word plain
    | cons v ws =>
      obtain ⟨some', plain'⟩ := others v (.head _)
      obtain ⟨b, v, rfl⟩ := List.exists_cons_of_ne_nil some'
      have begins : b ∈ ([' '].intercalate ((b :: v) :: ws)).head? := by
        rw [head?_intercalate some']
        rfl
      rw [intercalate_cons_cons]
      exact (ih others).word_append some plain ⟨b, begins, plain' b (.head _)⟩

theorem tidy_compact (s : List Char) : Tidy (compact s) :=
  tidy_intercalate fun _ among =>
    ⟨words_ne_nil among, fun _ hc => not_isBlank_of_mem_words among hc⟩

/-- A tidy text begins with a word. -/
theorem Tidy.head (tidy : Tidy (c :: t)) : isBlank c = false := by
  cases blank : isBlank c with
  | false => rfl
  | true =>
    obtain ⟨-, ⟨a, none, -⟩, -⟩ := tidy [] c t rfl blank
    cases none

/-- What follows a space in a tidy text is tidy. -/
theorem Tidy.behind_space (tidy : Tidy (word ++ ' ' :: t)) :
    Tidy t ∧ ∃ b ∈ t.head?, isBlank b = false := by
  obtain ⟨-, -, begins⟩ := tidy word ' ' t rfl isBlank_space
  refine ⟨?_, begins⟩
  rintro before c after rfl blank
  obtain ⟨space, ⟨a, ha, plain⟩, follows⟩ := tidy (word ++ ' ' :: before) c after (by simp) blank
  refine ⟨space, ?_, follows⟩
  rw [List.getLast?_append, List.getLast?_cons] at ha
  cases last : before.getLast? with
  | none =>
    rw [last] at ha
    obtain rfl : ' ' = a := Option.some.inj ha
    rw [isBlank_space] at plain
    cases plain
  | some d =>
    rw [last] at ha
    obtain rfl : d = a := Option.some.inj ha
    exact ⟨d, rfl, plain⟩

/-- A tidy text is a word, or a word, a space and a tidy text. -/
theorem Tidy.cases_word (tidy : Tidy (c :: t)) :
    (∀ d ∈ c :: t, isBlank d = false) ∨ ∃ word rest, c :: t = word ++ ' ' :: rest ∧ word ≠ [] ∧
      (∀ d ∈ word, isBlank d = false) ∧ rest ≠ [] ∧ Tidy rest := by
  let plain (d : Char) : Bool := !isBlank d
  have parts : (c :: t).takeWhile plain ++ (c :: t).dropWhile plain = c :: t :=
    List.takeWhile_append_dropWhile
  have word : ∀ d ∈ (c :: t).takeWhile plain, isBlank d = false := by
    intro d hd
    have kept : plain d = true := List.mem_takeWhile_imp hd
    exact Bool.not_eq_true' _ ▸ kept
  have some : (c :: t).takeWhile plain ≠ [] := by
    have kept : plain c = true := by simp [plain, tidy.head]
    rw [List.takeWhile_cons_of_pos kept]
    exact List.cons_ne_nil _ _
  cases rest : (c :: t).dropWhile plain with
  | nil =>
    rw [rest, List.append_nil] at parts
    rw [parts] at word
    exact .inl word
  | cons d rest' =>
    have stopped : isBlank d = true := by
      have head := List.head?_dropWhile_not plain (c :: t)
      rw [rest] at head
      simpa [plain] using head
    rw [rest] at parts
    rw [← parts] at tidy
    obtain ⟨rfl, -, -⟩ := tidy _ d rest' rfl stopped
    obtain ⟨tidy', b, begins, -⟩ := tidy.behind_space
    refine .inr ⟨_, rest', parts.symm, some, word, ?_, tidy'⟩
    rintro rfl
    cases begins

/-- **A tidy text is left as it is.** -/
theorem compact_eq_self (tidy : Tidy t) : compact t = t := by
  -- Induction on the length: behind the first word and its space there is less.
  induction h : t.length using Nat.strongRecOn generalizing t with
  | ind n ih =>
    cases t with
    | nil => rfl
    | cons c t =>
      rcases tidy.cases_word with plain | ⟨word, rest, same, some, plain, others, tidy'⟩
      · have found : words (c :: t) = [c :: t] := by
          have parts : words ((c :: t) ++ []) = (c :: t) :: words [] :=
            words_word (List.cons_ne_nil c t) plain fun d hd => absurd hd (by simp)
          rwa [List.append_nil] at parts
        rw [compact, found]
        simp [List.intercalate]
      · have shorter : rest.length < n := by
          rw [← h, same, List.length_append, List.length_cons]
          omega
        have rest' : compact rest = rest := ih _ shorter tidy' rfl
        have found : words (word ++ ' ' :: rest) = word :: words rest := by
          have stop : ∀ d ∈ (' ' :: rest).head?, isBlank d = true := by
            rintro d ⟨⟩
            exact isBlank_space
          rw [words_word some plain stop]
          have gap : words ([' '] ++ rest) = words rest := words_gap (by simp)
          exact congrArg _ gap
        rw [same, compact, found]
        rw [compact] at rest'
        cases behind : words rest with
        | nil =>
          rw [behind] at rest'
          exact absurd rest'.symm others
        | cons v ws => rw [intercalate_cons_cons, ← behind, rest']

/-- A tidy text that is cut off, and goes on with a text without blanks, is tidy. -/
theorem Tidy.take_append {more : List Char} (tidy : Tidy t) (n : Nat) (some : more ≠ [])
    (plain : ∀ c ∈ more, isBlank c = false) : Tidy (t.take n ++ more) := by
  intro before c after same blank
  rcases List.append_eq_append_iff.1 same with ⟨front, rfl, tail⟩ | ⟨behind, front, tail⟩
  · rw [plain c (by rw [tail]; simp)] at blank
    cases blank
  · cases behind with
    | nil =>
      rw [plain c (by rw [← List.nil_append more, ← tail]; simp)] at blank
      cases blank
    | cons d behind =>
      obtain ⟨rfl, rfl⟩ := List.cons.inj tail
      have whole : t = before ++ c :: (behind ++ t.drop n) := by
        rw [← List.cons_append, ← List.append_assoc, ← front, List.take_append_drop]
      obtain ⟨space, begins, b, follows, plain'⟩ := tidy _ _ _ whole blank
      refine ⟨space, begins, ?_⟩
      cases behind with
      | nil =>
        exact ⟨more.head some, List.head?_eq_some_head some, plain _ (List.head_mem some)⟩
      | cons e behind => exact ⟨b, follows, plain'⟩

end CoinLedger.Text
