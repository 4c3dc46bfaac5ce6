import PostgresTestHarness.Text

/-! The errors that the modelled operations raise. -/
namespace PostgresTestHarness

/-- `Error`, the variants that are raised or matched on here. `postgres` keeps of its
source whether the server answered with a database error (`as_db_error().is_some()`),
which is all that is read of it. -/
inductive Error where
  | invalidConfiguration (reason : Text)
  | invalidImageReference (reason : Text)
  | invalidAdminDatabaseUrl (reason : Text)
  | invalidProjectName (name reason : Text)
  | invalidDatabaseName (name : Text)
  | postgres (operation : Text) (dbError : Bool)
  | postgresOperationTimeout (operation : Text)
  | connectionBudgetClosed
  | prewarmPoolClosed
  | cleanupQueueClosed
  | cleanupWorkerPanicked
  | inconsistentMetadata (databaseName : Text)
  | templateConnectionsRemain (databaseName : Text)
  | statePoisoned (operation : Text)
  | adminSessionPoolClosed
  /-- The timeout is in milliseconds. -/
  | adminSessionCheckoutTimeout (timeout : Nat)
  | managedDatabaseTagAndCleanup (tagging cleanup : Error)
  deriving DecidableEq, Repr

/-- `DeferredCleanupFailure`: the database whose cleanup failed, and why. -/
structure DeferredCleanupFailure where
  databaseName : Text
  source : Error
  deriving DecidableEq, Repr

end PostgresTestHarness
