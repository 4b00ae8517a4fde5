import CoinLedger.Identity.Url
import CoinLedger.Proofs.Http.TraceSpelling
import CoinLedger.Proofs.Text.Utf8

/-!
# The segments of a path

The path of a URL is a list of segments behind a slash each.  A segment stands for a text: its
escapes are replaced by their bytes, and the bytes are read as UTF-8.  A text that is escaped byte
by byte is one segment and stands for itself, whatever its characters are.  So the segments that
mean "one up" and "here" are told by the texts that they stand for, in all their spellings.

## Main definitions

* `Url.segments`, `Url.front` — the segments of a path, and those behind which more are added.
* `decoded?` — the text that a segment stands for.

## Main results

* `decoded?_escapeText` — an escaped text stands for itself.
* `isOneUp_escapeText`, `isHere_escapeText` — which texts mean "one up" and "here" once escaped.
* `Base.rooted_of_ofText?` — the path of a base URL begins with a slash.
-/

namespace CoinLedger.Identity

open Text

/-- The segments of a path: what stands between its slashes, and behind the last one. -/
def Url.segments (u : Url) : List (List Char) := (u.path.drop 1).splitOn '/'

/-- The segments behind which more are added: all but an empty one at the end.  A single empty
segment in front of that, as in the path `//`, is none. -/
def Url.front (u : Url) : List (List Char) :=
  let kept := if u.segments.getLast? = some [] then u.segments.dropLast else u.segments
  if kept = [[]] then [] else kept

/-- The text that a segment stands for. -/
def decoded? (segment : List Char) : Option (List Char) :=
  Utf8.decode? (Percent.decode (fun _ => false) (Utf8.encode segment))

/-! ## Escaped texts -/

theorem hexDigit_toNat {n : Nat} (h : n < 16) :
    0x30 ≤ (Percent.hexDigit n).toNat ∧ (Percent.hexDigit n).toNat < 0x80 := by
  have every : ∀ n < 16,
      0x30 ≤ (Percent.hexDigit n).toNat ∧ (Percent.hexDigit n).toNat < 0x80 := by
    decide
  exact every n h

/-- A byte of an encoded text is one that stands for itself, the mark of an escape, or one of its
digits. -/
theorem mem_encode {special : UInt8 → Bool} {s : List UInt8} {b : UInt8}
    (h : b ∈ Percent.encode special s) :
    special b = false ∨ b = Percent.mark ∨ 0x30 ≤ b.toNat ∧ b.toNat < 0x80 := by
  obtain ⟨c, -, hb⟩ := List.mem_flatMap.1 h
  split at hb
  · have high : c.toNat / 16 < 16 := by
      have := c.toNat_lt
      omega
    have low : c.toNat % 16 < 16 := by omega
    simp only [Percent.escape, List.mem_cons, List.not_mem_nil, or_false] at hb
    rcases hb with rfl | rfl | rfl
    · exact .inr (.inl rfl)
    · exact .inr (.inr (hexDigit_toNat high))
    · exact .inr (.inr (hexDigit_toNat low))
  · next unescaped =>
    obtain rfl := List.mem_singleton.1 hb
    exact .inl (by simpa using unescaped)

/-- The character with the code of a byte has that code. -/
theorem toNat_charOfByte (b : UInt8) : (Char.ofNat b.toNat).toNat = b.toNat := by
  have every : ∀ n < 256, (Char.ofNat n).toNat = n := by decide +kernel
  exact every b.toNat b.toNat_lt

/-- An escaped text is ASCII if all other bytes are escaped, so it is written in those bytes. -/
theorem encode_escapeText {special : UInt8 → Bool}
    (high : ∀ b : UInt8, 0x80 ≤ b.toNat → special b = true) (s : List Char) :
    Utf8.encode (escapeText special s) = Percent.encode special (Utf8.encode s) := by
  have ascii : ∀ b ∈ Percent.encode special (Utf8.encode s), b.toNat < 0x80 := by
    intro b hb
    rcases mem_encode hb with own | rfl | ⟨-, digit⟩
    · rcases Nat.lt_or_ge b.toNat 0x80 with low | above
      · exact low
      · rw [high b above] at own
        cases own
    · decide
    · exact digit
  unfold escapeText
  rw [Utf8.encode_ascii, List.map_map]
  · refine (List.map_congr_left fun b _ => ?_).trans (List.map_id _)
    show UInt8.ofNat (Char.ofNat b.toNat).toNat = b
    rw [toNat_charOfByte, UInt8.ofNat_toNat]
  · intro c hc
    obtain ⟨b, hb, rfl⟩ := List.mem_map.1 hc
    rw [toNat_charOfByte]
    exact ascii b hb

/-- **An escaped text stands for itself.** -/
theorem decoded?_escapeText {special : UInt8 → Bool}
    (high : ∀ b : UInt8, 0x80 ≤ b.toNat → special b = true)
    (mark : special Percent.mark = true) (s : List Char) :
    decoded? (escapeText special s) = some s := by
  rw [decoded?, encode_escapeText high, Percent.decode_encode mark, Utf8.decode?_encode]

theorem decoded?_segment (s : List Char) : decoded? (escapeText escapedInSegment s) = some s := by
  have high : ∀ b : UInt8, 0x80 ≤ b.toNat → escapedInSegment b = true := by
    intro b hb
    have control : isControl b = true := by
      simp only [isControl, Bool.or_eq_true, decide_eq_true_eq]
      omega
    simp [escapedInSegment, escapedInPath, control]
  exact decoded?_escapeText high (by decide) s

/-- An escaped text is one segment. -/
theorem slash_notMem_escapeText (s : List Char) : '/' ∉ escapeText escapedInSegment s := by
  intro mem
  obtain ⟨b, hb, slash⟩ := List.mem_map.1 mem
  have code : b.toNat = 0x2F := by
    rw [← toNat_charOfByte, slash]
    rfl
  obtain rfl : b = 0x2F := UInt8.toNat_inj.1 code
  rcases mem_encode hb with own | mark | ⟨low, -⟩
  · exact absurd own (by decide)
  · exact absurd mark (by decide)
  · exact absurd low (by decide)

/-! ## Segments that are none -/

theorem isHere_spellings {w : List Char} (h : isHere w = true) :
    w = ['.'] ∨ w = ['%', '2', 'e'] ∨ w = ['%', '2', 'E'] := by
  have same : ∀ {c d : Char}, ¬('a' ≤ d ∧ d ≤ 'z') → c.toLower = d → c = d :=
    TraceId.eq_of_toLower_eq
  have letter : ∀ {c : Char}, c.toLower = 'e' → c = 'e' ∨ c = 'E' := by
    intro c hc
    have every : ∀ n < 128, (Char.ofNat n).toLower = 'e' →
        Char.ofNat n = 'e' ∨ Char.ofNat n = 'E' := by
      decide +kernel
    by_cases ascii : c.toNat < 0x80
    · exact TraceId.ascii_cases (P := fun c => c.toLower = 'e' → c = 'e' ∨ c = 'E') every ascii hc
    · rw [TraceId.toLower_of_not_ascii (by omega)] at hc
      exact .inl hc
  simp only [isHere, Bool.or_eq_true, decide_eq_true_eq] at h
  rcases h with dot | escape
  · obtain ⟨c, rest, rfl, hc, hrest⟩ := List.map_eq_cons_iff.1 dot
    obtain rfl := List.map_eq_nil_iff.1 hrest
    rw [same (by decide) hc]
    exact .inl rfl
  · obtain ⟨c, _, rfl, hc, escape⟩ := List.map_eq_cons_iff.1 escape
    obtain ⟨d, _, rfl, hd, escape⟩ := List.map_eq_cons_iff.1 escape
    obtain ⟨e, _, rfl, he, escape⟩ := List.map_eq_cons_iff.1 escape
    obtain rfl := List.map_eq_nil_iff.1 escape
    rw [same (by decide) hc, same (by decide) hd]
    rcases letter he with rfl | rfl
    · exact .inr (.inl rfl)
    · exact .inr (.inr rfl)

/-- What means "one up" is spelled as "here" twice. -/
theorem isOneUp_spellings {w : List Char} (h : isOneUp w = true) :
    ∃ a b, w = a ++ b ∧ isHere a = true ∧ isHere b = true := by
  -- Each of the spellings is cut where its first half ends.
  have cut : ∀ s t : List Char, isHere s = true → isHere t = true → s.map Char.toLower = s →
      t.map Char.toLower = t → w.map Char.toLower = s ++ t →
      ∃ a b, w = a ++ b ∧ isHere a = true ∧ isHere b = true := by
    intro s t hs ht ls lt hw
    obtain ⟨a, b, rfl, ha, hb⟩ := List.map_eq_append_iff.1 hw
    refine ⟨a, b, rfl, ?_, ?_⟩
    · rw [isHere, ha, ← ls, ← isHere]
      exact hs
    · rw [isHere, hb, ← lt, ← isHere]
      exact ht
  simp only [isOneUp, List.any_cons, List.any_nil, Bool.or_false, Bool.or_eq_true,
    decide_eq_true_eq] at h
  rcases h with dots | escapes | first | second
  · exact cut ['.'] ['.'] rfl rfl rfl rfl dots
  · exact cut "%2e".toList "%2e".toList rfl rfl rfl rfl escapes
  · exact cut "%2e".toList ['.'] rfl rfl rfl rfl first
  · exact cut ['.'] "%2e".toList rfl rfl rfl rfl second

theorem decoded?_of_isHere {w : List Char} (h : isHere w = true) : decoded? w = some ['.'] := by
  have bytes : Percent.decode (fun _ => false) (Utf8.encode w) = Utf8.encode ['.'] := by
    rcases isHere_spellings h with rfl | rfl | rfl <;> rfl
  rw [decoded?, bytes, Utf8.decode?_encode]

theorem decoded?_of_isOneUp {w : List Char} (h : isOneUp w = true) :
    decoded? w = some ['.', '.'] := by
  obtain ⟨a, b, rfl, ha, hb⟩ := isOneUp_spellings h
  have bytes : Percent.decode (fun _ => false) (Utf8.encode (a ++ b)) =
      Utf8.encode ['.', '.'] := by
    rcases isHere_spellings ha with rfl | rfl | rfl <;>
      rcases isHere_spellings hb with rfl | rfl | rfl <;> rfl
  rw [decoded?, bytes, Utf8.decode?_encode]

/-- An escaped text means "here" only if it is the dot. -/
theorem isHere_escapeText {s : List Char} :
    isHere (escapeText escapedInSegment s) = true ↔ s = ['.'] := by
  constructor
  · intro h
    have dot := decoded?_of_isHere h
    rw [decoded?_segment] at dot
    exact Option.some.inj dot
  · rintro rfl
    rfl

/-- An escaped text means "one up" only if it is two dots. -/
theorem isOneUp_escapeText {s : List Char} :
    isOneUp (escapeText escapedInSegment s) = true ↔ s = ['.', '.'] := by
  constructor
  · intro h
    have dots := decoded?_of_isOneUp h
    rw [decoded?_segment] at dots
    exact Option.some.inj dots
  · rintro rfl
    rfl

/-! ## Paths -/

/-- Whether the path of a URL begins with a slash. -/
def Url.Rooted (u : Url) : Prop := ∃ rest, u.path = '/' :: rest

theorem exists_last_slash {s : List Char} (h : '/' ∈ s) :
    ∃ front last, s = front ++ '/' :: last ∧ '/' ∉ last := by
  obtain ⟨last, front, cut, none⟩ := List.eq_append_cons_of_mem (List.mem_reverse.2 h)
  refine ⟨front.reverse, last.reverse, ?_, ?_⟩
  · rw [← List.reverse_reverse s, cut]
    simp
  · rwa [List.mem_reverse]

theorem reverse_cut (front last : List Char) :
    (front ++ '/' :: last).reverse = last.reverse ++ '/' :: front.reverse := by simp

theorem ne_slash_of_mem_reverse {s : List Char} (h : '/' ∉ s) :
    ∀ c ∈ s.reverse, decide (c ≠ '/') = true := by
  intro c hc
  have ne : c ≠ '/' := by
    rintro rfl
    exact h (List.mem_reverse.1 hc)
  exact decide_eq_true ne

/-- A text up to its last slash. -/
theorem upToSlash_append {front last : List Char} (h : '/' ∉ last) :
    upToSlash (front ++ '/' :: last) = front ++ ['/'] := by
  rw [upToSlash, reverse_cut, List.dropWhile_append_of_pos (ne_slash_of_mem_reverse h)]
  simp

/-- One up from a segment that is no drive is what stands in front of it. -/
theorem oneUp_append {front segment : List Char} (h : '/' ∉ segment)
    (drive : beginsWithDrive (segment ++ ['/']) = false) :
    oneUp (front ++ '/' :: segment ++ ['/']) = front ++ ['/'] := by
  have last : ((front ++ '/' :: segment).reverse.takeWhile (· ≠ '/')).reverse = segment := by
    rw [reverse_cut, List.takeWhile_append_of_pos (ne_slash_of_mem_reverse h)]
    simp
  have inside : (front ++ '/' :: segment).contains '/' = true := by simp
  rw [oneUp, List.dropLast_concat]
  rw [last, inside, drive]
  exact upToSlash_append h

/-- One up keeps the slash at the beginning. -/
theorem oneUp_rooted (rest : List Char) : ∃ rest', oneUp ('/' :: rest) = '/' :: rest' := by
  unfold oneUp
  dsimp only
  split
  · next cond =>
    have slash : '/' ∈ ('/' :: rest).dropLast := by
      have inside := (Bool.and_eq_true_iff.1 cond).1
      simpa using inside
    obtain ⟨front, last, cut, none⟩ := exists_last_slash slash
    rw [cut, upToSlash_append none]
    cases front with
    | nil => exact ⟨[], rfl⟩
    | cons c front =>
      have start : ('/' :: rest).dropLast.head? = some c := by rw [cut]; rfl
      cases rest with
      | nil => cases start
      | cons d rest =>
        obtain rfl : '/' = c := Option.some.inj start
        exact ⟨front ++ ['/'], rfl⟩
  · exact ⟨rest, rfl⟩

theorem addSegment_rooted (rest : List Char) (closed : Bool) (segment : List Char) :
    ∃ rest', addSegment ('/' :: rest) closed segment = '/' :: rest' := by
  unfold addSegment
  split
  · exact oneUp_rooted rest
  · split
    · exact ⟨rest, rfl⟩
    · exact ⟨_, rfl⟩

theorem addSegments_rooted (segments : List (List Char)) (rest : List Char) :
    ∃ rest', addSegments ('/' :: rest) segments = '/' :: rest' := by
  induction segments generalizing rest with
  | nil => exact ⟨rest, rfl⟩
  | cons segment more ih =>
    cases more with
    | nil => exact addSegment_rooted rest false segment
    | cons next more =>
      obtain ⟨rest', added⟩ := addSegment_rooted rest true segment
      rw [addSegments, added]
      · exact ih rest'
      · exact fun h => by cases h

theorem Url.ofParts_rooted (origin rest : List Char) : (Url.ofParts origin rest).Rooted :=
  addSegments_rooted _ []

/-- The path of a base URL begins with a slash. -/
theorem Base.rooted_of_ofText? {text : List Char} {url : Url}
    (h : Base.ofText? text = some (.located url)) : url.Rooted := by
  unfold Base.ofText? at h
  dsimp only at h
  split at h
  · split at h
    · split at h
      · cases h
        exact Url.ofParts_rooted _ _
      · split at h
        · cases h
          exact Url.ofParts_rooted _ _
        · cases h
    · cases h
  · cases h

/-! ## The front of a path -/

theorem splitOn_eq_singleton_nil_iff {s : List Char} : s.splitOn '/' = [[]] ↔ s = [] := by
  constructor
  · intro h
    have joined : ['/'].intercalate (s.splitOn '/') = s := List.intercalate_splitOn '/'
    rw [← joined, h]
    rfl
  · rintro rfl
    rfl

/-- The last segment is empty only behind a slash, or if there is no other. -/
theorem getLast?_splitOn_of {s : List Char} (h : (s.splitOn '/').getLast? = some []) :
    s = [] ∨ ∃ front, s = front ++ ['/'] := by
  by_cases slash : '/' ∈ s
  · obtain ⟨front, last, rfl, none⟩ := exists_last_slash slash
    rw [List.splitOn_append_cons_self, List.splitOn_eq_singleton none,
      List.getLast?_concat] at h
    obtain rfl := Option.some.inj h
    exact .inr ⟨front, rfl⟩
  · rw [List.splitOn_eq_singleton slash] at h
    exact .inl (Option.some.inj h)

/-- The path that segments are added to, split into the front of the path. -/
theorem Url.front_eq {u : Url} {rest : List Char} (h : u.path = '/' :: rest) :
    ∃ kept, u.dropEmptyEnd.path = '/' :: kept ∧
      u.front = if kept = [] then [] else kept.splitOn '/' := by
  have own : u.segments = rest.splitOn '/' := by rw [segments, h]; rfl
  unfold Url.front
  rw [own]
  by_cases closed : rest.getLast? = some '/'
  · obtain ⟨kept, rfl⟩ := List.getLast?_eq_some_iff.1 closed
    have dropped : u.dropEmptyEnd.path = '/' :: kept := by
      have ends : (u.path.drop 1).getLast? = some '/' := by rw [h]; exact closed
      rw [dropEmptyEnd, if_pos ends, h]
      show (('/' :: kept) ++ ['/']).dropLast = '/' :: kept
      exact List.dropLast_concat
    refine ⟨kept, dropped, ?_⟩
    rw [List.splitOn_append_cons_self, List.splitOn_nil, List.getLast?_concat, if_pos rfl,
      List.dropLast_concat]
    simp only [splitOn_eq_singleton_nil_iff]
  · have same : u.dropEmptyEnd.path = '/' :: rest := by
      have ends : ¬(u.path.drop 1).getLast? = some '/' := by rw [h]; exact closed
      rw [dropEmptyEnd, if_neg ends, h]
    refine ⟨rest, same, ?_⟩
    by_cases none : rest = []
    · subst none
      rfl
    · have filled : ¬(rest.splitOn '/').getLast? = some [] := by
        intro last
        rcases getLast?_splitOn_of last with rfl | ⟨front, rfl⟩
        · exact none rfl
        · exact closed List.getLast?_concat
      rw [if_neg filled, if_neg none]
      simp only [splitOn_eq_singleton_nil_iff, if_neg none]

end CoinLedger.Identity
