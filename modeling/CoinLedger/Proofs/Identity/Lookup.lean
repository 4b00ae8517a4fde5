import CoinLedger.Identity.Client
import CoinLedger.Proofs.Identity.Segments

/-!
# What a lookup asks for

A username is looked up below the base URL, at `users`, `by-name`, and one segment for the name.
Most names are that segment's text.  The exceptions are those of the URL itself: tabs and line ends
vanish from a segment, a name that is one or two dots is no segment at all, and a name of which two
dots are left takes the place of the segment in front of it.

`Username.asked` says which of these it is, from the characters of the name alone, and
`Asked.Written` what the path is then.  So two names share a URL exactly if they are asked for
alike, and a URL names exactly the user that is looked up for names without tabs, line ends, and
the two names of dots.

## Main definitions

* `schemeOf` — the scheme of a base URL, in lower case.
* `Username.kept`, `Username.asked` — what is left of a name, and what its lookup asks for.
* `Asked.Written` — the paths that ask for it.

## Main results

* `lookupRequest_path` — the request of a lookup.
-/

namespace CoinLedger

open Text Identity

namespace Identity

/-- The scheme of a base URL, in lower case. -/
def schemeOf (text : List Char) : String :=
  String.ofList (((tidy text).takeWhile (· ≠ ':')).map Char.toLower)

/-- What the URL of a lookup asks for. -/
inductive Asked where
  /-- What is at `users/by-name`. -/
  | byName
  /-- What is at `users/`. -/
  | users
  /-- The user of a name. -/
  | account (name : List Char)
  deriving DecidableEq, Repr

/-- Whether a path, behind its front, asks for something. -/
def Asked.Written (front path : List (List Char)) : Asked → Prop
  | .byName => path = front ++ ["users".toList, "by-name".toList]
  | .users => path = front ++ ["users".toList, []]
  | .account name => ∃ segment, decoded? segment = some name ∧
      path = front ++ ["users".toList, "by-name".toList, segment]

/-- A path asks for one thing only. -/
theorem Asked.Written.unique {front path : List (List Char)} {a b : Asked}
    (ha : a.Written front path) (hb : b.Written front path) : a = b := by
  cases a <;> cases b
  all_goals simp only [Written] at ha hb
  case byName.byName | users.users => rfl
  case byName.users | users.byName =>
    rw [ha] at hb
    exact absurd (List.append_cancel_left hb) (by decide)
  case byName.account | users.account =>
    obtain ⟨segment, -, hb⟩ := hb
    rw [ha] at hb
    simp at hb
  case account.byName | account.users =>
    obtain ⟨segment, -, ha⟩ := ha
    rw [ha] at hb
    simp at hb
  case account.account =>
    obtain ⟨segment, own, hpath⟩ := ha
    obtain ⟨segment', own', hpath'⟩ := hb
    rw [hpath] at hpath'
    have same : segment = segment' := by simpa using hpath'
    rw [same, own'] at own
    rw [Option.some.inj own]

end Identity

/-! ## Names -/

namespace Username

/-- What is left of a name without what vanishes from a URL. -/
def kept (name : Username) : List Char := name.text.toList.filter fun c => !vanishes c

/-- What the lookup of a name asks for. -/
def asked (name : Username) : Asked :=
  if name.text = "." ∨ name.text = ".." then .byName
  else if name.kept = ['.', '.'] then .users
  else .account name.kept

/-- Whether a name is written as it is: it is neither one dot nor two, and nothing of it
vanishes. -/
def IsLiteral (name : Username) : Prop :=
  (∀ c ∈ name.text.toList, vanishes c = false) ∧ name.text ≠ "." ∧ name.text ≠ ".."

/-- What vanishes from a URL is blank, so a name neither begins nor ends with it. -/
theorem ends_stay (name : Username) :
    name.text.toList ≠ [] ∧ (∀ c, name.text.toList.head? = some c → vanishes c = false) ∧
      ∀ c, name.text.toList.getLast? = some c → vanishes c = false := by
  have stays : ∀ {c : Char}, isBlank c = false → vanishes c = false := by
    intro c visible
    cases vanished : vanishes c with
    | false => rfl
    | true =>
      simp only [vanishes, Bool.or_eq_true, decide_eq_true_eq] at vanished
      rcases vanished with (rfl | rfl) | rfl <;> exact absurd visible (by decide)
  obtain ⟨trimmed, filled⟩ := usernameDefect?_eq_none_iff.1 name.valid
  obtain ⟨first, last⟩ := trim_eq_self_iff.1 trimmed
  exact ⟨filled, fun c hc => stays (first c hc), fun c hc => stays (last c hc)⟩

/-- A name of which one dot is left is that dot: there is no room for more between its ends. -/
theorem eq_dot_of_kept {name : Username} (h : name.kept = ['.']) : name.text = "." := by
  obtain ⟨filled, first, last⟩ := name.ends_stay
  suffices own : name.text.toList = ['.'] from String.toList_inj.1 own
  unfold kept at h
  generalize name.text.toList = s at h filled first last
  cases s with
  | nil => exact absurd rfl filled
  | cons c rest =>
    have stays : (!vanishes c) = true := by rw [first c rfl]; rfl
    rw [List.filter_cons, if_pos stays] at h
    obtain ⟨rfl, gone⟩ := List.cons.inj h
    cases hlast : rest.getLast? with
    | none => rw [List.getLast?_eq_none_iff.1 hlast]
    | some d =>
      have inside : d ∈ rest := List.mem_of_getLast? hlast
      have vanished : vanishes d = true := by simpa using List.filter_eq_nil_iff.1 gone d inside
      have stays : vanishes d = false := by
        refine last d ?_
        rw [List.getLast?_cons, hlast]
        rfl
      rw [stays] at vanished
      cases vanished

/-- A lookup asks for the name itself exactly if the name is written as it is. -/
theorem asked_eq_own_iff {name : Username} :
    name.asked = .account name.text.toList ↔ name.IsLiteral := by
  have whole : name.kept = name.text.toList ↔ ∀ c ∈ name.text.toList, vanishes c = false := by
    unfold kept
    rw [List.filter_eq_self]
    simp only [Bool.not_eq_true']
  unfold asked IsLiteral
  split
  · next dots =>
    constructor
    · intro h
      cases h
    · rintro ⟨-, one, two⟩
      exact absurd dots (by simp [one, two])
  · next noDots =>
    obtain ⟨one, two⟩ := not_or.1 noDots
    split
    · next above =>
      constructor
      · intro h
        cases h
      · rintro ⟨stay, -, -⟩
        rw [whole.2 stay] at above
        exact absurd (String.toList_inj.1 above) two
    · rw [Asked.account.injEq, whole]
      exact ⟨fun stay => ⟨stay, one, two⟩, fun h => h.1⟩

end Username

/-! ## Paths -/

namespace Identity

/-- The path behind which the segments of an endpoint stand. -/
def Url.opened (u : Url) : List Char :=
  if u.dropEmptyEnd.path = ['/'] then u.dropEmptyEnd.path else u.dropEmptyEnd.path ++ ['/']

/-- What stands there when something is asked for. -/
def Asked.written : Asked → List Char
  | .byName => "users/by-name".toList
  | .users => "users/".toList
  | .account name => "users/by-name/".toList ++ escapeText escapedInSegment name

/-- What is added to the path of a base URL adds its own segments to the front. -/
theorem Url.segments_opened {u : Url} (h : u.Rooted) (added : List Char) :
    ({ u with path := u.opened ++ added } : Url).segments = u.front ++ added.splitOn '/' := by
  obtain ⟨rest, hpath⟩ := h
  obtain ⟨kept, dropped, hfront⟩ := Url.front_eq hpath
  rw [hfront, segments, opened, dropped]
  by_cases none : kept = []
  · subst none
    rfl
  · have more : '/' :: kept ≠ ['/'] := fun h => none (List.cons.inj h).2
    rw [if_neg none, if_neg more, ← List.splitOn_append_cons_self]
    simp

theorem Asked.written_path {u : Url} (h : u.Rooted) (a : Asked) :
    a.Written u.front ({ u with path := u.opened ++ a.written } : Url).segments := by
  rw [Url.segments_opened h]
  cases a with
  | byName => rfl
  | users => rfl
  | account name =>
    refine ⟨escapeText escapedInSegment name, decoded?_segment name, ?_⟩
    have cut : Asked.written (.account name) = "users".toList ++ '/' :: ("by-name".toList ++
        '/' :: escapeText escapedInSegment name) := rfl
    rw [cut, List.splitOn_append_cons_self, List.splitOn_append_cons_self,
      List.splitOn_eq_singleton (slash_notMem_escapeText name)]
    rfl

/-- A path with something behind it is not the root. -/
theorem append_ne_root (path : List Char) {added : List Char} (long : 1 < added.length) :
    path ++ added ≠ ['/'] := by
  intro root
  have length := congrArg List.length root
  simp only [List.length_append, List.length_cons, List.length_nil] at length
  omega

section Push

variable (u : Url) (path : List Char) {segment : List Char}

/-- A segment of which more is left than dots is added as it is escaped. -/
theorem Url.push_eq (dots : ¬(segment = ['.'] ∨ segment = ['.', '.']))
    (here : (segment.filter fun c => !vanishes c) ≠ ['.'])
    (up : (segment.filter fun c => !vanishes c) ≠ ['.', '.']) :
    ({ u with path } : Url).push segment = { u with
      path := (if path = ['/'] then path else path ++ ['/']) ++
        escapeText escapedInSegment (segment.filter fun c => !vanishes c) } := by
  rw [push, if_neg dots]
  dsimp only
  rw [addSegment, if_neg (mt isOneUp_escapeText.1 up), if_neg (mt isHere_escapeText.1 here)]
  simp

/-- A segment of which two dots are left takes the place of the one in front of it. -/
theorem Url.push_up {last : List Char} (dots : ¬(segment = ['.'] ∨ segment = ['.', '.']))
    (up : (segment.filter fun c => !vanishes c) = ['.', '.']) (slash : '/' ∉ last)
    (drive : beginsWithDrive (last ++ ['/']) = false) (filled : last ≠ []) :
    ({ u with path := path ++ '/' :: last } : Url).push segment =
      { u with path := path ++ ['/'] } := by
  have more : path ++ '/' :: last ≠ ['/'] :=
    append_ne_root path (Nat.succ_lt_succ (List.length_pos_iff.2 filled))
  rw [push, if_neg dots]
  dsimp only
  rw [addSegment, if_pos (isOneUp_escapeText.2 up), if_neg more, oneUp_append slash drive]

end Push

/-- The URL of a lookup. -/
theorem Url.extend_lookup (u : Url) (name : Username) :
    u.extend ["users".toList, "by-name".toList, name.text.toList] =
      { u with path := u.opened ++ name.asked.written } := by
  have same : u.dropEmptyEnd = { u with path := u.dropEmptyEnd.path } := by
    unfold dropEmptyEnd
    split <;> rfl
  have users : u.dropEmptyEnd.push "users".toList =
      { u with path := u.opened ++ "users".toList } := by
    rw [same]
    exact push_eq u _ (by decide) (by decide) (by decide)
  have byName : ({ u with path := u.opened ++ "users".toList } : Url).push "by-name".toList =
      { u with path := u.opened ++ "users/by-name".toList } := by
    have written : escapeText escapedInSegment ("by-name".toList.filter fun c => !vanishes c) =
        "by-name".toList := by decide
    rw [push_eq u _ (by decide) (by decide) (by decide),
      if_neg (append_ne_root u.opened (by decide)), written, List.append_assoc, List.append_assoc]
    rfl
  rw [extend, List.foldl_cons, List.foldl_cons, List.foldl_cons, List.foldl_nil, users, byName]
  unfold Username.asked
  split
  · next dots =>
    have own : name.text.toList = ['.'] ∨ name.text.toList = ['.', '.'] :=
      dots.imp (congrArg String.toList) (congrArg String.toList)
    rw [push, if_pos own]
    rfl
  · next noDots =>
    have own : ¬(name.text.toList = ['.'] ∨ name.text.toList = ['.', '.']) := fun dots =>
      noDots (dots.imp String.toList_inj.1 String.toList_inj.1)
    split
    · next up =>
      -- The two dots that are left take back the segment in front of them.
      have cut : u.opened ++ "users/by-name".toList =
          (u.opened ++ "users".toList) ++ '/' :: "by-name".toList := by
        rw [List.append_assoc]
        rfl
      rw [cut, push_up u _ own up (by decide) (by decide) (by decide), List.append_assoc]
      rfl
    · next filled =>
      -- One dot is never left of anything but a dot, which has been dealt with.
      have here : name.kept ≠ ['.'] := fun dot => own (.inl (congrArg String.toList
        (Username.eq_dot_of_kept dot)))
      rw [push_eq u _ own here filled, if_neg (append_ne_root u.opened (by decide)),
        List.append_assoc, List.append_assoc]
      rfl

/-- What is written for two requests is the same only if they ask for the same. -/
theorem Asked.written_inj {u : Url} (h : u.Rooted) {a b : Asked}
    (same : u.opened ++ a.written = u.opened ++ b.written) : a = b := by
  have own := a.written_path h
  rw [same] at own
  exact own.unique (b.written_path h)

/-- An http or https base URL has a path. -/
theorem Base.located_of_web {text : List Char} {base : Base}
    (read : Base.ofText? text = some base) (web : schemeOf text ∈ ["http", "https"]) :
    ∃ url, base = .located url := by
  have known : schemeOf text ∈ webSchemes := by
    rcases List.mem_cons.1 web with http | https
    · rw [http]
      decide
    · rw [List.mem_singleton.1 https]
      decide
  unfold schemeOf at known
  unfold Base.ofText? at read
  dsimp only at read
  split at read
  · split at read
    · cases read
      exact ⟨_, rfl⟩
    · cases read
  · cases read

/-- **The request of a lookup.** Behind the front of the base URL's path stands what the lookup
asks for.  Two names have one URL exactly if they ask for the same, and the URL names exactly the
user who is looked up, in one segment, if the name is written as it is, and only then. -/
theorem lookupRequest_path {text : List Char} {base : Base}
    (read : Base.ofText? text = some base) (web : schemeOf text ∈ ["http", "https"]) :
    ∃ (url : Url) (request : Username → Url), base = .located url ∧
      (∀ name, lookupRequest base name =
        .ok { method := "GET", url := request name, accept := "application/json" }) ∧
      (∀ name, (request name).origin = url.origin ∧ (request name).query = url.query ∧
        name.asked.Written url.front (request name).segments) ∧
      (∀ name other, request name = request other ↔ name.asked = other.asked) ∧
      ∀ name, (Asked.account name.text.toList).Written url.front (request name).segments ↔
        name.IsLiteral := by
  obtain ⟨url, rfl⟩ := Base.located_of_web read web
  have rooted : url.Rooted := Base.rooted_of_ofText? read
  refine ⟨url, fun name => { url with path := url.opened ++ name.asked.written }, rfl, ?_, ?_, ?_,
    ?_⟩
  · intro name
    show lookupRequest (.located url) name = .ok
      { method := "GET", url := { url with path := url.opened ++ name.asked.written },
        accept := "application/json" }
    rw [← Url.extend_lookup]
    rfl
  · exact fun name => ⟨rfl, rfl, name.asked.written_path rooted⟩
  · intro name other
    constructor
    · intro same
      exact Asked.written_inj rooted (congrArg Url.path same)
    · intro same
      dsimp only
      rw [same]
  · intro name
    rw [← Username.asked_eq_own_iff]
    constructor
    · exact fun own => (name.asked.written_path rooted).unique own
    · intro own
      rw [← own]
      exact name.asked.written_path rooted

/-- A base URL whose path ends in a slash. -/
def serviceText : List Char := "http://identity/api/".toList

def serviceUrl : Url := { origin := "http://identity".toList, path := "/api/".toList }

/-- Three names: one with a tab in it, what is left of that, and a dot. -/
def tabbed : Username := ⟨"a\tb", by decide⟩

def untabbed : Username := ⟨"ab", by decide⟩

def dot : Username := ⟨".", by decide⟩

theorem lookupRequest_path_tabbed :
    Base.ofText? serviceText = some (.located serviceUrl) ∧
      schemeOf serviceText ∈ ["http", "https"] ∧
      tabbed ≠ untabbed ∧
      lookupRequest (.located serviceUrl) tabbed = lookupRequest (.located serviceUrl) untabbed ∧
      ∃ asked, lookupRequest (.located serviceUrl) dot = .ok asked ∧
        asked.url.segments = ["api".toList, "users".toList, "by-name".toList] := by
  have read : Base.ofText? serviceText = some (.located serviceUrl) := by decide
  have web : schemeOf serviceText ∈ ["http", "https"] := by decide
  obtain ⟨url, request, hurl, requests, paths, same, -⟩ := lookupRequest_path read web
  obtain rfl : serviceUrl = url := Base.located.inj hurl
  refine ⟨read, web, by decide, ?_, _, requests dot, ?_⟩
  · have alike : tabbed.asked = untabbed.asked := by decide
    rw [requests, requests, (same tabbed untabbed).2 alike]
  · have path := (paths dot).2.2
    have byName : dot.asked = .byName := by decide
    rw [byName] at path
    exact path

end Identity

end CoinLedger
