import CoinLedger.Database.Adapter
/-!
# What the driver reports

The driver reports a failure by its kind, with a text of the database that names relations, rows
and constraints. The text goes to the log. For the use cases each kind has fixed words, and only a
connection that is closed in a way the driver recognises counts as lost.

The adapter reads a failure by its state code alone (`Failure.toStorage`). The driver's report of
it, with any text, is worded in the same way.

## Main results

* `toStorage_report` — both readings of a failure agree.
* `Report.toStorage_congr` — reports that differ in their texts only are worded alike.
-/

namespace CoinLedger.Database

/-- The kinds of database errors that are told apart. -/
inductive ErrorKind where
  | closedConnection
  | checkViolation
  | serializationFailure
  /-- Any other kind: other violations, a command that could not be sent, unknown state codes. -/
  | other
  deriving DecidableEq, Repr

/-- A failed statement as the driver reports it. -/
inductive Report where
  | notFound
  | queryBuilder (message : String)
  | database (kind : ErrorKind) (message : String)
  /-- The driver failed on its own side. -/
  | driver (message : String)
  deriving DecidableEq, Repr

/-- A report in fixed words. -/
def Report.toStorage : Report → StorageFailure
  | .notFound => .query "record not found"
  | .queryBuilder _ => .query "database query error"
  | .database .closedConnection _ => .connection "database connection error"
  | .database .checkViolation _ => .query "ledger constraint violated"
  | .database .serializationFailure _ => .query "transaction serialization failure"
  | .database .other _ => .query "database error"
  | .driver _ => .query "database error"

/-- The kind of a state code. -/
def ErrorKind.ofState (code : SqlState) : ErrorKind :=
  if code = Database.checkViolation then .checkViolation
  else if code = Database.serializationFailure then .serializationFailure
  else .other

/-- The report of a failure, with a text of the database. After a connection is gone, the driver
reports that it could not send the command. -/
def Failure.report (message : String) : Failure → Report
  | .state code => .database (.ofState code) message
  | .closed => .database .other message

/-- Whatever the database says, a failure is worded by its state code. -/
theorem toStorage_report (message : String) (f : Failure) :
    (f.report message).toStorage = f.toStorage := by
  cases f with
  | closed => rfl
  | state code =>
    unfold Failure.report Failure.toStorage ErrorKind.ofState
    by_cases hc : code = checkViolation
    · simp only [hc, if_true, Report.toStorage]
    · by_cases hs : code = serializationFailure
      · simp only [hs, if_true, if_neg (show serializationFailure ≠ checkViolation by decide),
          Report.toStorage]
      · simp only [hc, hs, if_false, Report.toStorage]

/-- A report without its text. -/
def Report.silent : Report → Report
  | .notFound => .notFound
  | .queryBuilder _ => .queryBuilder ""
  | .database kind _ => .database kind ""
  | .driver _ => .driver ""

/-- Two reports that differ in their texts only are worded alike. -/
theorem Report.toStorage_congr {x y : Report} (h : x.silent = y.silent) :
    x.toStorage = y.toStorage := by
  have worded : ∀ x : Report, x.silent.toStorage = x.toStorage := by
    rintro (_ | m | ⟨⟨⟩, m⟩ | m) <;> rfl
  rw [← worded x, h, worded y]

end CoinLedger.Database
