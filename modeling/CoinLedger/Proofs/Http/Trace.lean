import CoinLedger.Http.Scope
import CoinLedger.Proofs.Http.Answer
import CoinLedger.Proofs.Http.TraceSpelling
import CoinLedger.Proofs.Text.Utf8

/-!
# One trace id for each response

Every response carries one trace id, whichever route it comes from and whether it tells of a success
or of a failure: the middleware sets the header in the end, in place of the one that a failure may
have set.  The id is the one that the request brings along in any spelling, or else the fresh one,
and a client that sends the value back gets the value again.

The same id is current in every poll of the work for the request, whatever other requests are
worked on in between (`Thread.run_serving`).  So a failure that looks the id up finds the one that
the middleware sets (`Session.task_handling`).  Outside these polls no id is current, since a scope
puts back what it found, whatever the work inside it does (`Thread.current_run_serving`).

## Main definitions

* `Request.Brings` — which ids a request brings along.
* `Future.Calm` — work that leaves the slot of the thread alone.
* `Session`, `Thread.serving` — requests that are worked on, and a thread that does it.

## Main results

* `Session.poll_task` — one poll: the work inside sees its own id, and the slot is left alone.
* `Thread.run_serving` — any number of polls of any number of requests.
* `Thread.current_run_serving` — outside the polls nothing is current.
* `one_trace_id` — the statement for the application.
-/

namespace CoinLedger.Http

open Text

/-! ## The id of a request -/

/-- Whether the first trace header of a request is readable and says an id. -/
def Request.Brings (r : Request) (id : TraceId) : Prop :=
  ∃ value text, r.header? traceHeader = some value ∧ readable? value = some text ∧ id.Spells text

theorem Request.trace?_eq_some_iff {r : Request} {id : TraceId} :
    r.trace? = some id ↔ r.Brings id := by
  unfold Request.trace? Request.headerText?
  rw [Option.bind_eq_some_iff]
  constructor
  · rintro ⟨text, read, spelled⟩
    obtain ⟨value, found, readable⟩ := Option.bind_eq_some_iff.1 read
    exact ⟨value, text, found, readable, TraceId.ofChars?_eq_some_iff.1 spelled⟩
  · rintro ⟨value, text, found, readable, spelled⟩
    exact ⟨text, Option.bind_eq_some_iff.2 ⟨value, found, readable⟩,
      TraceId.ofChars?_eq_some_iff.2 spelled⟩

/-- The id of a request is the one that it brings along, or else the fresh one. -/
theorem Request.trace_cases (r : Request) (fresh : TraceId) :
    r.Brings (r.trace?.getD fresh) ∨ (∀ id, ¬r.Brings id) ∧ r.trace?.getD fresh = fresh := by
  cases h : r.trace? with
  | some id => exact .inl (Request.trace?_eq_some_iff.1 h)
  | none =>
    refine .inr ⟨fun id brings => ?_, rfl⟩
    rw [Request.trace?_eq_some_iff.2 brings] at h
    cases h

/-- The bytes of a text in visible characters are a readable header value. -/
theorem readable?_encode {s : List Char} (h : ∀ c ∈ s, 0x20 ≤ c.toNat ∧ c.toNat < 0x7F) :
    readable? (Utf8.encode s) = some s := by
  have ascii : ∀ c ∈ s, c.toNat < 0x80 := by
    intro c hc
    have visible := h c hc
    omega
  have readable : (s.map fun c => UInt8.ofNat c.toNat).all isReadable = true := by
    rw [List.all_map, List.all_eq_true]
    intro c hc
    have visible := h c hc
    show isReadable (UInt8.ofNat c.toNat) = true
    unfold isReadable
    rw [Utf8.toNat_ofNat (by omega), decide_eq_true visible.1, decide_eq_true visible.2]
    exact Bool.or_true _
  unfold readable?
  rw [Utf8.encode_ascii ascii, if_pos readable, Utf8.map_char_map_byte ascii]

/-- A request with a written id in its first trace header brings that id along. -/
theorem Request.brings_of_text {r : Request} {id : TraceId}
    (h : r.header? traceHeader = some (Utf8.encode id.text.toList)) : r.Brings id := by
  have chars : id.text.toList = id.chars := String.toList_ofList
  rw [chars] at h
  exact ⟨_, id.chars, h, readable?_encode fun _ => TraceId.visible_of_mem_chars, id.spells_chars⟩

/-- The trace header of a response has one value. -/
theorem header_respond {ω : Type} (services : Services ω) (health : Health) (fresh : TraceId)
    (r : Request) (w : ω) :
    (respond services health fresh r w).1.header traceHeader = [(r.trace?.getD fresh).text] := by
  rw [respond_eq]
  show ((sealed _ _).header traceHeader) = _
  unfold sealed
  rw [Response.header_setHeader, if_pos rfl]

/-! ## Work in polls -/

namespace Future

variable {α β : Type}

/-- Whether work leaves in the slot what it finds there.  Nothing but a scope writes to the slot, so
this holds of all work outside of scopes. -/
def Calm : Future α → Prop
  | ready _ => True
  | pending next leaves => (∀ current, leaves current = current) ∧ ∀ current, (next current).Calm

/-- The work that is left after some polls, with the same id current in each of them. -/
def polled (current : Current) : Nat → Future α → Future α
  | 0, f => f
  | n + 1, f => polled current n (f.poll current).1

theorem polled_ready (current : Current) (n : Nat) (a : α) :
    polled current n (ready a) = ready a := by
  induction n with
  | zero => rfl
  | succ n ih => exact ih

theorem Calm.poll {f : Future α} (h : f.Calm) (current : Current) : (f.poll current).1.Calm := by
  cases f with
  | ready a => trivial
  | pending next leaves => exact h.2 current

theorem Calm.poll_current {f : Future α} (h : f.Calm) (current : Current) :
    (f.poll current).2 = current := by
  cases f with
  | ready a => rfl
  | pending next leaves => exact h.1 current

theorem Calm.map {f : Future α} (h : f.Calm) (g : α → β) : (f.map g).Calm := by
  induction f with
  | ready a => trivial
  | pending next leaves ih => exact ⟨h.1, fun current => ih current (h.2 current)⟩

/-- Work in a scope leaves the slot alone, whatever the work inside does. -/
theorem calm_scope (f : Future α) (kept : Current) : (f.scope kept).Calm := by
  induction f generalizing kept with
  | ready a => trivial
  | pending next leaves ih => exact ⟨fun _ => rfl, fun _ => ih kept (leaves kept)⟩

theorem map_poll (f : Future α) (g : α → β) (current : Current) :
    ((f.map g).poll current).1 = (f.poll current).1.map g := by
  cases f <;> rfl

/-- Calm work in a scope sees the kept id, whatever is current outside. -/
theorem poll_scope {f : Future α} (h : f.Calm) (kept current : Current) :
    (f.scope kept).poll current = ((f.poll kept).1.scope kept, current) := by
  cases f with
  | ready a => rfl
  | pending next leaves =>
    show ((next kept).scope (leaves kept), current) = _
    rw [h.1 kept]
    rfl

end Future

/-- The work of a handler is calm. -/
theorem calm_answering (answer : Except ApiError Response) (waits : Nat) :
    (answering answer waits).Calm := by
  induction waits with
  | zero => exact ⟨fun _ => rfl, fun _ => trivial⟩
  | succ waits ih => exact ⟨fun _ => rfl, fun _ => ih⟩

/-- The work of a handler ends in a response with the id that was current. -/
theorem polled_answering (answer : Except ApiError Response) (current : Current) {waits n : Nat}
    (h : waits < n) :
    (answering answer waits).polled current n =
      .ready (match answer with
        | .ok response => response
        | .error e => e.response current) := by
  induction waits generalizing n with
  | zero =>
    obtain ⟨m, rfl⟩ := Nat.exists_eq_add_one_of_ne_zero (Nat.ne_of_gt h)
    exact Future.polled_ready current m _
  | succ waits ih =>
    obtain ⟨m, rfl⟩ := Nat.exists_eq_add_one_of_ne_zero (Nat.ne_of_gt (Nat.zero_lt_of_lt h))
    exact ih (Nat.lt_of_succ_lt_succ h)

/-! ## One request -/

/-- A request that is worked on, with what is left to be done behind the middleware. -/
structure Session where
  fresh : TraceId
  request : Request
  rest : Future Response

namespace Session

/-- The trace id of the request. -/
def trace (s : Session) : TraceId := s.request.trace?.getD s.fresh

/-- The work in front of the middleware. -/
def task (s : Session) : Future Response := traced s.fresh s.request s.rest

/-- The session after some polls, with its own id current in each of them. -/
def polled (s : Session) (n : Nat) : Session :=
  { s with rest := s.rest.polled (some s.trace) n }

/-- **One poll.**  The work inside sees the session's own id, whatever is current outside, and what
is current outside stays so. -/
theorem poll_task {s : Session} (calm : s.rest.Calm) (current : Current) :
    s.task.poll current = ((s.polled 1).task, current) := by
  have inside := Future.poll_scope
    (calm.map fun response => response.setHeader traceHeader s.trace.text) (some s.trace) current
  rw [Future.map_poll] at inside
  exact inside

/-- A session that has finished has one trace id in its response. -/
theorem header_of_ready {s : Session} {response : Response} (h : s.task = .ready response) :
    response.header traceHeader = [s.trace.text] := by
  unfold task traced at h
  cases hrest : s.rest with
  | ready inner =>
    rw [hrest] at h
    obtain rfl := Future.ready.inj h
    rw [Response.header_setHeader, if_pos rfl]
    rfl
  | pending next leaves =>
    rw [hrest] at h
    cases h

/-- A request to the application, whose handler has its answer after some polls. -/
def handling {ω : Type} (services : Services ω) (health : Health) (fresh : TraceId) (r : Request)
    (w : ω) (waits : Nat) : Session where
  fresh := fresh
  request := r
  rest := answering (handle services health (Route.ofRequest? r) r w).1 waits

/-- The work for a request ends in the response of the application. -/
theorem task_handling {ω : Type} (services : Services ω) (health : Health) (fresh : TraceId)
    (r : Request) (w : ω) {waits n : Nat} (h : waits < n) :
    ((handling services health fresh r w waits).polled n).task =
      .ready (respond services health fresh r w).1 := by
  have inside := polled_answering (handle services health (Route.ofRequest? r) r w).1
    (some (r.trace?.getD fresh)) h
  unfold task polled
  show traced fresh r (Future.polled (some (r.trace?.getD fresh)) n (answering _ waits)) = _
  rw [inside, respond_eq]
  rfl

end Session

/-! ## Many requests -/

/-- A thread that has sessions to work on, and nothing current. -/
def Thread.serving (sessions : List Session) : Thread where
  tasks := sessions.map Session.task

/-- The sessions after a poll of one of them. -/
def polledAt (sessions : List Session) (i : Nat) : List Session :=
  sessions.modify i fun s => s.polled 1

theorem getElem?_polledAt (sessions : List Session) (i j : Nat) :
    (polledAt sessions i)[j]? = sessions[j]?.map fun s => if i = j then s.polled 1 else s := by
  unfold polledAt
  rw [List.getElem?_modify]
  rfl

theorem calm_polledAt {sessions : List Session} (calm : ∀ s ∈ sessions, s.rest.Calm) (i : Nat) :
    ∀ s ∈ polledAt sessions i, s.rest.Calm := by
  intro s hs
  obtain ⟨j, hj⟩ := List.getElem?_of_mem hs
  rw [getElem?_polledAt] at hj
  obtain ⟨before, hbefore, rfl⟩ := Option.map_eq_some_iff.1 hj
  have hcalm : before.rest.Calm := calm before (List.mem_of_getElem? hbefore)
  split
  · exact hcalm.poll _
  · exact hcalm

/-- A poll of the thread is a poll of one session. -/
theorem Thread.poll_serving {sessions : List Session} (calm : ∀ s ∈ sessions, s.rest.Calm)
    (i : Nat) :
    (serving sessions).poll i = serving (polledAt sessions i) := by
  cases hs : sessions[i]? with
  | none =>
    have short : sessions.length ≤ i := List.getElem?_eq_none_iff.1 hs
    have task : (serving sessions).tasks[i]? = none := by
      show (sessions.map Session.task)[i]? = none
      rw [List.getElem?_map, hs]
      rfl
    unfold Thread.poll polledAt
    rw [task, List.modify_eq_self short]
  | some s =>
    have task : (serving sessions).tasks[i]? = some s.task := by
      show (sessions.map Session.task)[i]? = some s.task
      rw [List.getElem?_map, hs]
      rfl
    have tasks : (sessions.map Session.task).set i (s.polled 1).task =
        (polledAt sessions i).map Session.task := by
      refine List.ext_getElem? fun j => ?_
      rw [List.getElem?_set, List.getElem?_map, List.getElem?_map, getElem?_polledAt,
        List.length_map]
      by_cases hij : i = j
      · subst hij
        have inside : i < sessions.length := (List.getElem?_eq_some_iff.1 hs).1
        rw [if_pos rfl, if_pos inside, hs]
        simp only [Option.map_some, if_pos]
      · simp only [if_neg hij, Option.map_id']
    unfold Thread.poll
    rw [task]
    show Thread.mk (s.task.poll none).2
      ((sessions.map Session.task).set i (s.task.poll none).1) = _
    rw [Session.poll_task (calm s (List.mem_of_getElem? hs)), tasks]
    rfl

/-- **Any number of polls of any number of requests**, in any order.  Each session is as if it had
been polled alone with its own id current. -/
theorem Thread.run_serving {sessions : List Session} (calm : ∀ s ∈ sessions, s.rest.Calm)
    (schedule : List Nat) (i : Nat) :
    ((serving sessions).run schedule).tasks[i]? =
      sessions[i]?.map fun s : Session => (s.polled (schedule.count i)).task := by
  induction schedule generalizing sessions with
  | nil => exact List.getElem?_map ..
  | cons first rest ih =>
    show (((serving sessions).poll first).run rest).tasks[i]? = _
    rw [Thread.poll_serving calm, ih (calm_polledAt calm first), getElem?_polledAt, Option.map_map]
    refine congrArg (fun polls => sessions[i]?.map polls) (funext fun s => ?_)
    show ((if first = i then s.polled 1 else s).polled (rest.count i)).task = _
    by_cases turn : first = i
    · subst turn
      rw [if_pos rfl, List.count_cons_self]
      rfl
    · rw [if_neg turn, List.count_cons_of_ne turn]

/-- One poll of calm work leaves the slot alone, and calm work. -/
theorem Thread.poll_calm {t : Thread} (calm : ∀ f ∈ t.tasks, f.Calm) (i : Nat) :
    (t.poll i).current = t.current ∧ ∀ f ∈ (t.poll i).tasks, f.Calm := by
  unfold Thread.poll
  cases hf : t.tasks[i]? with
  | none => exact ⟨rfl, calm⟩
  | some f =>
    have hcalm : f.Calm := calm f (List.mem_of_getElem? hf)
    refine ⟨hcalm.poll_current _, fun g hg => ?_⟩
    rcases List.mem_or_eq_of_mem_set hg with old | rfl
    · exact calm g old
    · exact hcalm.poll _

theorem Thread.run_calm {t : Thread} (calm : ∀ f ∈ t.tasks, f.Calm) (schedule : List Nat) :
    (t.run schedule).current = t.current := by
  induction schedule generalizing t with
  | nil => rfl
  | cons i rest ih =>
    obtain ⟨current, stillCalm⟩ := Thread.poll_calm calm i
    show ((t.poll i).run rest).current = t.current
    rw [ih stillCalm, current]

/-- **Outside the polls nothing is current**, whatever the work inside the scopes does. -/
theorem Thread.current_run_serving (sessions : List Session) (schedule : List Nat) :
    ((serving sessions).run schedule).current = none := by
  refine Thread.run_calm (t := serving sessions) (fun f hf => ?_) schedule
  obtain ⟨s, -, rfl⟩ := List.mem_map.1 hf
  exact Future.calm_scope _ _

/-! ## The application -/

/-- **Every response carries exactly one trace id.**  It is written in lower-case digits with
hyphens, and it is the id that the request's first trace header says in any spelling, or else the
fresh one.  On a thread that serves any requests in any order of polls, all work for the request
sees this id as current, and ends in a response with this id; the answers of the handlers, failures
included, so become the response of the application.  Outside the polls no id is current.  A request
with the value in its trace header gets the same value again. -/
theorem one_trace_id {ω : Type} (services : Services ω) (health : Health) (fresh : TraceId)
    (r : Request) (w : ω) :
    ∃ id : TraceId,
      (respond services health fresh r w).1.header traceHeader = [id.text] ∧
      id.text.toList = TraceId.hyphenate id.plainChars ∧
      id.text.toList.map Char.toLower = id.text.toList ∧
      (r.Brings id ∨ (∀ other, ¬r.Brings other) ∧ id = fresh) ∧
      (∀ (sessions : List Session) (schedule : List Nat) (i : Nat) (work : Future Response),
        (∀ s ∈ sessions, s.rest.Calm) → sessions[i]? = some ⟨fresh, r, work⟩ →
        ((Thread.serving sessions).run schedule).tasks[i]? =
          some (traced fresh r (work.polled (some id) (schedule.count i)))) ∧
      (∀ (work : Future Response) (response : Response), traced fresh r work = .ready response →
        response.header traceHeader = [id.text]) ∧
      (∀ waits polls : Nat, waits < polls →
        traced fresh r ((answering (handle services health (Route.ofRequest? r) r w).1 waits).polled
          (some id) polls) = .ready (respond services health fresh r w).1) ∧
      (∀ (sessions : List Session) (schedule : List Nat),
        ((Thread.serving sessions).run schedule).current = none) ∧
      (∀ (fresh' : TraceId) (r' : Request) (w' : ω),
        r'.header? traceHeader = some (Utf8.encode id.text.toList) →
        (respond services health fresh' r' w').1.header traceHeader = [id.text]) := by
  have chars : (r.trace?.getD fresh).text.toList = (r.trace?.getD fresh).chars :=
    String.toList_ofList
  refine ⟨r.trace?.getD fresh, header_respond services health fresh r w, chars, ?_,
    r.trace_cases fresh, ?_, ?_, ?_, Thread.current_run_serving, ?_⟩
  · rw [chars, TraceId.map_toLower_chars]
  · intro sessions schedule i work calm hi
    rw [Thread.run_serving calm, hi]
    rfl
  · intro work response finished
    exact Session.header_of_ready (s := ⟨fresh, r, work⟩) finished
  · intro waits polls enough
    exact Session.task_handling services health fresh r w enough
  · intro fresh' r' w' sent
    rw [header_respond, Request.trace?_eq_some_iff.2 (Request.brings_of_text sent)]
    rfl

/-- A request with some trace headers. -/
def tracedRequest (target : String) (traces : List String) : Request where
  method := "GET"
  target := target.toList
  headers := traces.map fun trace => ⟨"Trace-Id", Utf8.encode trace.toList⟩
  body := []

/-- A probe that brings two ids along, of which the first counts, and a request that brings none and
is refused, polled in turns.  Each gets its own id, and the first one gets it again when it sends it
back. -/
theorem one_trace_id_interleaved :
    let services := Services.fixed decodeStored Unit
    let probe := tracedRequest "/health/live"
      ["URN:UUID:6F1C2A4E-8D7B-4B4F-9A53-2F3D1F0C9E11", "00000000000000000000000000000001"]
    let refused := tracedRequest "/api/info" []
    let again := tracedRequest "/nowhere" ["6f1c2a4e-8d7b-4b4f-9a53-2f3d1f0c9e11"]
    let served := (Thread.serving [Session.handling services {} zeroTrace probe () 1,
      Session.handling services {} zeroTrace refused () 2]).run [1, 0, 1, 0, 1]
    served.tasks[0]? = some (.ready (respond services {} zeroTrace probe ()).1) ∧
    served.tasks[1]? = some (.ready (respond services {} zeroTrace refused ()).1) ∧
    served.current = none ∧
    (respond services {} zeroTrace probe ()).1.header traceHeader =
      ["6f1c2a4e-8d7b-4b4f-9a53-2f3d1f0c9e11"] ∧
    (respond services {} zeroTrace refused ()).1.header traceHeader =
      ["00000000-0000-0000-0000-000000000000"] ∧
    (respond services {} zeroTrace again ()).1.header traceHeader =
      ["6f1c2a4e-8d7b-4b4f-9a53-2f3d1f0c9e11"] := by
  intro services probe refused again served
  have calm : ∀ s ∈ [Session.handling services {} zeroTrace probe () 1,
      Session.handling services {} zeroTrace refused () 2], s.rest.Calm := by
    intro s hs
    simp only [List.mem_cons, List.not_mem_nil, or_false] at hs
    rcases hs with rfl | rfl
    · exact calm_answering _ _
    · exact calm_answering _ _
  have written : (respond services {} zeroTrace probe ()).1.header traceHeader =
      ["6f1c2a4e-8d7b-4b4f-9a53-2f3d1f0c9e11"] := by
    decide +kernel
  obtain ⟨id, header, -, -, -, sees, -, ends, outside, back⟩ :=
    one_trace_id services {} zeroTrace probe ()
  obtain ⟨id', -, -, -, -, sees', -, ends', -⟩ := one_trace_id services {} zeroTrace refused ()
  have text : id.text = "6f1c2a4e-8d7b-4b4f-9a53-2f3d1f0c9e11" := by
    rw [written] at header
    exact (List.cons.inj header).1.symm
  have first : served.tasks[0]? = some (.ready (respond services {} zeroTrace probe ()).1) := by
    rw [← ends 1 2 (by decide)]
    exact sees _ [1, 0, 1, 0, 1] 0 _ calm rfl
  have second : served.tasks[1]? = some (.ready (respond services {} zeroTrace refused ()).1) := by
    rw [← ends' 2 3 (by decide)]
    exact sees' _ [1, 0, 1, 0, 1] 1 _ calm rfl
  have resent : (respond services {} zeroTrace again ()).1.header traceHeader =
      ["6f1c2a4e-8d7b-4b4f-9a53-2f3d1f0c9e11"] := by
    rw [← text]
    refine back zeroTrace again () ?_
    rw [text]
    decide +kernel
  exact ⟨first, second, outside _ _, written, by decide +kernel, resent⟩

end CoinLedger.Http
