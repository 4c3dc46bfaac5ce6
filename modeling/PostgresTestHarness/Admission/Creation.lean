import PostgresTestHarness.Lease.System

/-! What a managed creation and a cleanup operation may leave behind.

`attempt_managed_database_creation` and the closure of `database_cleanup_operation`, each as
the places between two answers of the server, so that others can act in between. The first
classifies its failure; the second says what becomes of its session as well. -/
namespace PostgresTestHarness.Admission
open Cleanup (CleanupOutcome)
open Lease (ManagedDatabaseCreationFailure)

/-- `Result<(), ManagedDatabaseCreationFailure>`. -/
abbrev Attempted := Except ManagedDatabaseCreationFailure Unit

/-- Whether a creation may have left its database. -/
def mayLeaveResidual : Attempted → Bool
  | .error (.residualPossible _) => true
  | _ => false

/-- A database error of PostgreSQL is its own word that nothing was created. -/
def classifyDatabaseCreationFailure : Error → ManagedDatabaseCreationFailure
  | .postgres operation true => .noResidual (.postgres operation true)
  | error => .residualPossible error

def compensateFailedMetadataWrite (tagging : Error) : Except Error Unit → ManagedDatabaseCreationFailure
  | .ok () => .noResidual tagging
  | .error cleanup => .residualPossible (.managedDatabaseTagAndCleanup tagging cleanup)

/-- `attempt_managed_database_creation`, given what its statements answer. -/
def attemptManagedDatabaseCreation (createDatabase setDatabaseMetadata dropDatabase : Except Error Unit) :
    Attempted :=
  match createDatabase with
  | .error error => .error (classifyDatabaseCreationFailure error)
  | .ok () =>
    match setDatabaseMetadata with
    | .error tagging => .error (compensateFailedMetadataWrite tagging dropDatabase)
    | .ok () => .ok ()

/-- Where it is: the statement whose answer comes next. -/
inductive Attempt where
  /-- `CREATE DATABASE`. -/
  | creating
  /-- `COMMENT ON DATABASE`. -/
  | tagging
  /-- The `DROP` after a failed `COMMENT`. -/
  | compensating (cause : Error)
  | over (result : Attempted)
  deriving Repr

def Attempt.answer : Attempt → Except Error Unit → Attempt
  | .creating, .ok () => .tagging
  | .creating, .error error => .over (.error (classifyDatabaseCreationFailure error))
  | .tagging, .ok () => .over (.ok ())
  | .tagging, .error cause => .compensating cause
  | .compensating cause, cleanup => .over (.error (compensateFailedMetadataWrite cause cleanup))
  | .over result, _ => .over result

/-- The places lead to the function's result. -/
theorem attempt_answers (createDatabase setDatabaseMetadata dropDatabase : Except Error Unit) :
    ((Attempt.creating.answer createDatabase).answer setDatabaseMetadata).answer dropDatabase =
      .over (attemptManagedDatabaseCreation createDatabase setDatabaseMetadata dropDatabase) := by
  cases createDatabase with
  | error error => rfl
  | ok _ => cases setDatabaseMetadata <;> rfl

/-- `AdminSessionDisposition`. -/
inductive AdminSessionDisposition (α : Type) where
  | reuse (value : α)
  | evict (value : α)
  deriving Repr

def AdminSessionDisposition.value {α : Type} : AdminSessionDisposition α → α
  | .reuse value | .evict value => value

/-- What the cleanup operation makes of a refill that failed. -/
def refillFailed : ManagedDatabaseCreationFailure → AdminSessionDisposition CleanupOutcome
  | .noResidual error => .reuse (.noResidual error)
  | .residualPossible error => .evict (.residualPossible error)

/-- The job's classification of a refill is the creation's. -/
theorem refillFailed_residual (failure : ManagedDatabaseCreationFailure) :
    (refillFailed failure).value.mayLeaveResidual = mayLeaveResidual (.error failure) := by
  cases failure <;> rfl

/-- What the operation makes of its session: no session, no cleanup. -/
def disposed : Except Error (AdminSessionDisposition CleanupOutcome) → CleanupOutcome
  | .ok disposition => disposition.value
  | .error error => .residualPossible error

inductive JobKind where
  /-- `database_cleanup_operation`, with a `PrewarmReturn` or without. -/
  | databaseCleanup (prewarmReturn : Bool)
  /-- The closures of `submit_prewarmer`. -/
  | prewarmer
  deriving DecidableEq, Repr

/-- Where the operation of a job is. -/
inductive Operation where
  | idle
  /-- Before it has its session. -/
  | checkingOut (prewarmReturn : Bool)
  | dropping (prewarmReturn : Bool)
  /-- Before `after_drop`. -/
  | dropped
  /-- In the creation of the replacement. -/
  | refilling (creation : Nat)
  /-- Before `publish`. -/
  | created
  /-- The pool has closed: the replacement is dropped again. -/
  | unpublishing
  /-- A `submit_prewarmer` closure: its session and its `DROP`. -/
  | deleting
  | over (outcome : CleanupOutcome)
  deriving Repr

namespace Operation

def start : JobKind → Operation
  | .databaseCleanup prewarmReturn => .checkingOut prewarmReturn
  | .prewarmer => .deleting

/-- An answer of the session pool or of the server. -/
def answer : Operation → Except Error Unit → Option Operation
  | .checkingOut prewarmReturn, .ok () => some (.dropping prewarmReturn)
  | .checkingOut _, .error error => some (.over (disposed (.error error)))
  | .dropping true, .ok () => some .dropped
  | .dropping false, .ok () => some (.over (disposed (.ok (.reuse .succeeded))))
  | .dropping _, .error error => some (.over (disposed (.ok (.evict (.residualPossible error)))))
  | .unpublishing, .ok () => some (.over (disposed (.ok (.reuse .succeeded))))
  | .unpublishing, .error error => some (.over (disposed (.ok (.evict (.residualPossible error)))))
  | .deleting, result => some (.over (.fromCleanupResult result))
  | _, _ => none

/-- The replacement's creation has returned. -/
def refilled : Attempted → Operation
  | .ok () => .created
  | .error failure => .over (disposed (.ok (refillFailed failure)))

/-- `publish`: the pool takes the replacement, or gives it back. -/
def published (accepted : Bool) : Operation :=
  if accepted then .over (disposed (.ok (.reuse .succeeded))) else .unpublishing

end Operation

end PostgresTestHarness.Admission
