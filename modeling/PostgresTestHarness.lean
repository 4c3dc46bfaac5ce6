import PostgresTestHarness.Library.Machine
import PostgresTestHarness.Library.Ledger
import PostgresTestHarness.Library.SequencePrefix
import PostgresTestHarness.Library.Turnstile
import PostgresTestHarness.Library.Condvar
import PostgresTestHarness.Library.Sql
import PostgresTestHarness.Library.SessionLock
import PostgresTestHarness.Text
import PostgresTestHarness.Error
import PostgresTestHarness.Cleanup.Queue
import PostgresTestHarness.Cleanup.System
import PostgresTestHarness.Cleanup.Execution
import PostgresTestHarness.Cleanup.Custody
import PostgresTestHarness.Cleanup.Barrier
import PostgresTestHarness.Cleanup.Destructor
import PostgresTestHarness.Cleanup.Wakeup
import PostgresTestHarness.Admission.Creation
import PostgresTestHarness.Admission.System
import PostgresTestHarness.Admission.Closure
import PostgresTestHarness.AdminPool.Slots
import PostgresTestHarness.AdminPool.System
import PostgresTestHarness.Lease.StorageBound
import PostgresTestHarness.Prewarm.Pool
import PostgresTestHarness.Prewarm.System
import PostgresTestHarness.Prewarm.Slots
import PostgresTestHarness.Prewarm.Capacity
import PostgresTestHarness.Prewarm.Tokens
import PostgresTestHarness.Shutdown.Overlap
import PostgresTestHarness.Shutdown.PoolBarrier
import PostgresTestHarness.Catalog.Fingerprint
import PostgresTestHarness.Catalog.Lineage
import PostgresTestHarness.Catalog.AdvisoryKey
import PostgresTestHarness.Catalog.Metadata
import PostgresTestHarness.Postgres.Client
import PostgresTestHarness.TemplateCache.System
import PostgresTestHarness.TemplateCache.Flights
import PostgresTestHarness.TemplateCache.SingleFlight
import PostgresTestHarness.Template.Attempt
import PostgresTestHarness.Template.LockBalance
import PostgresTestHarness.Template.Custody
import PostgresTestHarness.Template.Content
import PostgresTestHarness.Template.Retained
import PostgresTestHarness.Template.Bystander
import PostgresTestHarness.Template.Waiting
import PostgresTestHarness.Template.Recovery
import PostgresTestHarness.StaleCleanup.Program
import PostgresTestHarness.StaleCleanup.System
import PostgresTestHarness.StaleCleanup.Safety
import PostgresTestHarness.StaleCleanup.Report
import PostgresTestHarness.StaleCleanup.Threshold
import PostgresTestHarness.Postgres.AdminUrl
import PostgresTestHarness.Postgres.AdminSql
import PostgresTestHarness.Config.Limits
import PostgresTestHarness.Config.Image
import PostgresTestHarness.Container.System
import PostgresTestHarness.Container.Ownership
import PostgresTestHarness.Container.Start
import PostgresTestHarness.Container.Removal
import PostgresTestHarness.Container.Progress
import PostgresTestHarness.Disposable.System
import PostgresTestHarness.Disposable.Books
import PostgresTestHarness.Disposable.Steps
import PostgresTestHarness.Disposable.Catalog
import PostgresTestHarness.Disposable.Isolation
import PostgresTestHarness.Disposable.Accounts
import PostgresTestHarness.Library.SqlScript
import PostgresTestHarness.Config.Timeouts
import PostgresTestHarness.Postgres.Settings
import PostgresTestHarness.Postgres.AdminClient
import PostgresTestHarness.Template.Deadlines
import PostgresTestHarness.AdminPool.Sessions
import PostgresTestHarness.Shutdown.Terminal
import PostgresTestHarness.Container.ExitError
import PostgresTestHarness.Container.Readiness
import PostgresTestHarness.Template.Gate
import PostgresTestHarness.Template.Undisturbed
