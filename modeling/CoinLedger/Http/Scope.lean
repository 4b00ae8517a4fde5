import CoinLedger.Http.App
/-!
# The current trace id

While a request is worked on, its trace id is *current*: whatever code is at work for it can look
the id up without having been handed it. Requests are worked on in polls, between which the thread
turns to other requests. The id stands in a slot of the thread; a scope keeps an id for the work
inside it, puts that id into the slot for the time of each poll, and puts back what stood there
before.

The middleware puts a scope around the work for a request, and the response that comes out of it
gets the id as a header. A failure is made a response within that work, in the poll in which it
comes up, and looks the id up.

## Main definitions

* `Future`, `Future.poll` — work that is done in polls.
* `Future.scope` — work with an id of its own.
* `traced` — the middleware.
* `answering` — the work of a handler.
* `Thread` — a slot, and the work that a thread has at hand.
-/

namespace CoinLedger.Http

/-- What the slot of a thread holds: the current id, if there is one. -/
abbrev Current := Option TraceId

/-- Work that is done in polls. A poll sees what is current; it finishes the work or leaves the
rest of it, and it leaves something in the slot. -/
inductive Future (α : Type) where
  | ready (a : α)
  | pending (next : Current → Future α) (leaves : Current → Current)

namespace Future

variable {α β : Type}

/-- The work after a poll, and what is current then. Finished work is not polled any more. -/
def poll (f : Future α) (current : Current) : Future α × Current :=
  match f with
  | ready a => (ready a, current)
  | pending next leaves => (next current, leaves current)

/-- Changes the result of the work. -/
def map (g : α → β) : Future α → Future β
  | ready a => ready (g a)
  | pending next leaves => pending (fun current => (next current).map g) leaves

/-- Work inside a scope: on each poll the kept id and the content of the slot change places, and
change back after it. -/
def scope : Future α → Current → Future α
  | ready a, _ => ready a
  | pending next leaves, kept => pending (fun _ => (next kept).scope (leaves kept)) id

end Future

/-- The work for a request behind the middleware. -/
def traced (fresh : TraceId) (r : Request) (inner : Future Response) : Future Response :=
  let trace := r.trace?.getD fresh
  (inner.map fun response => response.setHeader traceHeader trace.text).scope (some trace)

/-- The work of a handler whose answer is there after some polls. A failure becomes a response with
the id that is current then. -/
def answering (answer : Except ApiError Response) : Nat → Future Response
  | 0 => .pending (fun current =>
      .ready (match answer with
        | .ok response => response
        | .error e => e.response current)) id
  | waits + 1 => .pending (fun _ => answering answer waits) id

/-- A thread with the work at hand, which it polls piece by piece. -/
structure Thread where
  current : Current := none
  tasks : List (Future Response)

/-- Polls one piece of work. -/
def Thread.poll (t : Thread) (i : Nat) : Thread :=
  match t.tasks[i]? with
  | none => t
  | some f =>
    let (rest, left) := f.poll t.current
    { current := left, tasks := t.tasks.set i rest }

/-- Polls pieces of work in turn. -/
def Thread.run (t : Thread) (schedule : List Nat) : Thread := schedule.foldl poll t

end CoinLedger.Http
