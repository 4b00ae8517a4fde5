import CoinLedger.Text.Hex
/-!
# Trace ids

A trace id is a number of 128 bits that a request carries through the logs of several services. It
is written as thirty-two lower-case hex digits with hyphens after the eighth, twelfth, sixteenth
and twentieth. It is read in that form, without the hyphens, in braces, or behind `urn:uuid:`;
letters may have either case throughout.

## Main results

* `TraceId.ofChars?_chars` — the written form reads back as the same id.
-/

namespace CoinLedger

/-- Thirty-two hex digits. -/
structure TraceId where
  digits : List (Fin 16)
  length_digits : digits.length = 32
  deriving DecidableEq

namespace TraceId

open Text

/-- The id with the given digits, if there are thirty-two of them. -/
def ofDigits? (ds : List (Fin 16)) : Option TraceId :=
  if h : ds.length = 32 then some ⟨ds, h⟩ else none

/-- The id without any bit set. -/
def zero : TraceId := ⟨List.replicate 32 ⟨0, by decide⟩, rfl⟩

instance : Inhabited TraceId := ⟨zero⟩

/-- Digits with a hyphen before each of the positions 8, 12, 16 and 20. -/
def hyphenate (ds : List Char) : List Char :=
  ds.take 8 ++ '-' :: (ds.drop 8).take 4 ++ '-' :: (ds.drop 12).take 4 ++
    '-' :: (ds.drop 16).take 4 ++ '-' :: ds.drop 20

/-- The written form: lower-case digits with hyphens. -/
def chars (t : TraceId) : List Char := hyphenate (t.digits.map Hex.digit)

/-- The written form. -/
def text (t : TraceId) : String := String.ofList t.chars

/-- An id without hyphens. -/
def ofPlain? (s : List Char) : Option TraceId := (s.mapM Hex.valueOf?).bind ofDigits?

/-- An id with hyphens at their places. -/
def ofHyphenated? (s : List Char) : Option TraceId :=
  let plain := s.take 8 ++ (s.drop 9).take 4 ++ (s.drop 14).take 4 ++ (s.drop 19).take 4 ++
    s.drop 24
  if s = hyphenate plain then ofPlain? plain else none

/-- What a text in braces holds. -/
def inBraces? (s : List Char) : Option (List Char) :=
  match s with
  | '{' :: rest => if rest.getLast? = some '}' then some rest.dropLast else none
  | _ => none

/-- What stands behind the name of the number space. -/
def afterScheme? (s : List Char) : Option (List Char) :=
  let scheme := "urn:uuid:".toList
  if (s.take 9).map Char.toLower = scheme then some (s.drop 9) else none

/-- Reads an id in any of its spellings, which their lengths tell apart. -/
def ofChars? (s : List Char) : Option TraceId :=
  match s.length with
  | 32 => ofPlain? s
  | 36 => ofHyphenated? s
  | 38 => (inBraces? s).bind ofHyphenated?
  | 45 => (afterScheme? s).bind ofHyphenated?
  | _ => none

/-- Reads an id. -/
def ofString? (s : String) : Option TraceId := ofChars? s.toList

/-! ## Reading back -/

theorem mapM_digit (ds : List (Fin 16)) :
    (ds.map Hex.digit).mapM Hex.valueOf? = some ds := by
  induction ds with
  | nil => rfl
  | cons d ds ih => simp [List.mapM_cons, ih]

theorem ofPlain?_map_digit (t : TraceId) : ofPlain? (t.digits.map Hex.digit) = some t := by
  rw [ofPlain?, mapM_digit]
  simp [ofDigits?, t.length_digits]

theorem unhyphenate_hyphenate {ds : List Char} (h : ds.length = 32) :
    (hyphenate ds).take 8 ++ ((hyphenate ds).drop 9).take 4 ++ ((hyphenate ds).drop 14).take 4 ++
      ((hyphenate ds).drop 19).take 4 ++ (hyphenate ds).drop 24 = ds := by
  match ds, h with
  | [a₁, a₂, a₃, a₄, a₅, a₆, a₇, a₈, b₁, b₂, b₃, b₄, b₅, b₆, b₇, b₈, c₁, c₂, c₃, c₄, c₅, c₆, c₇,
      c₈, d₁, d₂, d₃, d₄, d₅, d₆, d₇, d₈], _ => rfl

theorem length_hyphenate {ds : List Char} (h : ds.length = 32) : (hyphenate ds).length = 36 := by
  simp only [hyphenate, List.length_append, List.length_cons, List.length_take, List.length_drop]
  omega

/-- The written form reads back. -/
@[simp] theorem ofChars?_chars (t : TraceId) : ofChars? t.chars = some t := by
  have hl : (t.digits.map Hex.digit).length = 32 := by simp [t.length_digits]
  have h36 : t.chars.length = 36 := length_hyphenate hl
  simp only [ofChars?, h36]
  unfold ofHyphenated? chars
  rw [unhyphenate_hyphenate hl]
  simp [ofPlain?_map_digit]

@[simp] theorem ofString?_text (t : TraceId) : ofString? t.text = some t := by
  simp [ofString?, text]

end TraceId

end CoinLedger
