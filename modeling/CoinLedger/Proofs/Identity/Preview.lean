import CoinLedger.Identity.Client
import CoinLedger.Proofs.Text.Lossy
import CoinLedger.Proofs.Text.Words

/-!
# Bodies of failed calls

The body of an answer with an unexpected status may be anything, and what is shown of it goes into
messages.  It is read as text whatever its bytes are, its words are put together with one space
between each two, and what is longer than the limit is cut off and goes on with dots.

The text that is cut off is tidy.  A cut may leave a space at the end, but then the dots follow it,
so what is shown is tidy too; and it is its own short form, although it may be longer than the
limit, since all that is cut off of it are the dots.

## Main definitions

* `shortened` — a text of the limited length, or the beginning of a longer one.

## Main results

* `tidy_shortened`, `shortened_shortened` — shortening a tidy text.
* `bodies_previewed` — what is shown of a body.
-/

namespace CoinLedger.Identity

open Text

/-- What stands for the rest of a text. -/
def dots : List Char := ['.', '.', '.']

/-- A text, or its beginning and dots if it is too long. -/
def shortened (t : List Char) : List Char :=
  if previewLimit < t.length then t.take previewLimit ++ dots else t

variable {t : List Char}

theorem plain_dots : ∀ c ∈ dots, isBlank c = false := by
  have plain : isBlank '.' = false := by decide
  simp [dots, plain]

theorem preview_eq (body : List UInt8) :
    preview body = shortened (compact (Utf8.decodeLossy body)) := rfl

theorem shortened_of_le (short : t.length ≤ previewLimit) : shortened t = t :=
  if_neg (Nat.not_lt_of_le short)

theorem shortened_of_lt (long : previewLimit < t.length) :
    shortened t = t.take previewLimit ++ dots := if_pos long

theorem length_take_of_lt (long : previewLimit < t.length) :
    (t.take previewLimit).length = previewLimit := by
  rw [List.length_take, Nat.min_eq_left (Nat.le_of_lt long)]

theorem length_shortened_le (t : List Char) : (shortened t).length ≤ previewLimit + 3 := by
  rcases Nat.lt_or_ge previewLimit t.length with long | short
  · rw [shortened_of_lt long, List.length_append, length_take_of_lt long]
    exact Nat.le_refl _
  · rw [shortened_of_le short]
    exact Nat.le_add_right_of_le short

theorem tidy_shortened (tidy : Tidy t) : Tidy (shortened t) := by
  rcases Nat.lt_or_ge previewLimit t.length with long | short
  · rw [shortened_of_lt long]
    exact tidy.take_append _ (List.cons_ne_nil _ _) plain_dots
  · rw [shortened_of_le short]
    exact tidy

/-- Of a shortened text only the dots are cut off, if anything is. -/
theorem shortened_shortened (t : List Char) : shortened (shortened t) = shortened t := by
  rcases Nat.lt_or_ge previewLimit t.length with long | short
  · have front : (t.take previewLimit ++ dots).take previewLimit = t.take previewLimit := by
      rw [List.take_append_of_le_length (Nat.le_of_eq (length_take_of_lt long).symm),
        List.take_take, Nat.min_self]
    have long' : previewLimit < (t.take previewLimit ++ dots).length := by
      rw [List.length_append, length_take_of_lt long]
      exact Nat.lt_add_of_pos_right (by decide)
    rw [shortened_of_lt long, shortened_of_lt long', front]
  · rw [shortened_of_le short, shortened_of_le short]

theorem tidy_preview (body : List UInt8) : Tidy (preview body) :=
  tidy_shortened (tidy_compact _)

/-- What is shown of a body is shown as it is. -/
theorem preview_preview (body : List UInt8) :
    preview (Utf8.encode (preview body)) = preview body := by
  rw [preview_eq (Utf8.encode _), Utf8.decodeLossy_encode, compact_eq_self (tidy_preview body)]
  exact shortened_shortened _

/-! ## Failed calls -/

variable {status code : Nat} {body : List UInt8} {text : String}

theorem unexpectedStatus_eq_iff : unexpectedStatus status body = .status code text ↔
    code = status ∧ text = String.ofList (preview body) := by
  rw [unexpectedStatus, IdentityFailure.status.injEq, eq_comm, eq_comm (b := text)]

/-- When asking for a user fails because of the status of the answer, and with which text. -/
theorem foundUser_eq_status_iff :
    foundUser (.answered status body) = .error (.status code text) ↔
      (status ≠ 404 ∧ isSuccess status = false) ∧
        code = status ∧ text = String.ofList (preview (bodyOf status body)) := by
  rw [← unexpectedStatus_eq_iff, foundUser]
  by_cases unknown : status = 404
  · simp [unknown]
  · cases isSuccess status with
    | false => simp [unknown]
    | true => cases userId? (bodyOf status body) <;> simp [unknown]

/-- When asking for names fails because of the status of the answer, and with which text. -/
theorem foundNames_eq_status_iff :
    foundNames (.answered status body) = .error (.status code text) ↔
      isSuccess status = false ∧
        code = status ∧ text = String.ofList (preview (bodyOf status body)) := by
  rw [← unexpectedStatus_eq_iff, foundNames]
  cases isSuccess status with
  | false => simp
  | true =>
    cases entries? (bodyOf status body) with
    | none => simp
    | some entries => cases named : namesOf entries <;> simp [Except.mapError, named]

/-- **What is shown of the body of a failed call.**  Of any bytes at most 123 characters are shown,
and the only blanks among them are single spaces between other characters.  The bytes are read as
one text, and this text with one space between each two words is shown as it is if it has at most
120 characters, and otherwise its first 120 characters are, followed by dots.  What is shown is
shown as it is if it comes as a body.  A call fails because of the status of an answer exactly if
the status is unexpected, and this is what the failure then says of the body. -/
theorem bodies_previewed (body : List UInt8) :
    (preview body).length ≤ 123 ∧ Tidy (preview body) ∧
    (∃ decoded normal, (∀ t, Utf8.ReadsAs body t ↔ t = decoded) ∧
      (∀ t, Normalised decoded t ↔ t = normal) ∧
      preview body = if normal.length ≤ 120 then normal else normal.take 120 ++ "...".toList) ∧
    preview (Utf8.encode (preview body)) = preview body ∧
    ∀ status code text,
      (foundUser (.answered status body) = .error (.status code text) ↔
        (status ≠ 404 ∧ isSuccess status = false) ∧
          code = status ∧ text = String.ofList (preview (bodyOf status body))) ∧
      (foundNames (.answered status body) = .error (.status code text) ↔
        isSuccess status = false ∧
          code = status ∧ text = String.ofList (preview (bodyOf status body))) := by
  refine ⟨length_shortened_le _, tidy_preview body, ?_, preview_preview body,
    fun status code text => ⟨foundUser_eq_status_iff, foundNames_eq_status_iff⟩⟩
  refine ⟨_, _, fun _ => Utf8.readsAs_iff, fun _ => normalised_iff, ?_⟩
  rcases Nat.lt_or_ge 120 (compact (Utf8.decodeLossy body)).length with long | short
  · rw [if_neg (Nat.not_le_of_lt long)]
    exact shortened_of_lt long
  · rw [if_pos short]
    exact shortened_of_le short

/-- A cut right behind a space. -/
example : shortened (List.replicate 119 'x' ++ " yz".toList) =
    List.replicate 119 'x' ++ " ...".toList := by decide +kernel

/-- Bytes with a character that is not complete at their end. -/
example : preview [0x09, 0x75, 0x70, 0x0D, 0x0A, 0xE2, 0x82] = "up \uFFFD".toList := by
  decide +kernel

end CoinLedger.Identity
