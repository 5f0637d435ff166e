import LifeEngine.Auth.RateLimit
import LifeEngine.Backup.Retention
import LifeEngine.BlobFs.Confinement
import LifeEngine.BlobFs.Faults
import LifeEngine.BlobFs.Refinement
import LifeEngine.Dav.RoundTrip
import LifeEngine.Federation.Changes
import LifeEngine.Federation.Confinement
import LifeEngine.Federation.Delivery
import LifeEngine.Federation.Namespaces
import LifeEngine.Households.Membership
import LifeEngine.Households.Routes
import LifeEngine.Migration.Edits
import LifeEngine.Migration.Failures
import LifeEngine.Migration.Majors
import LifeEngine.Pipeline.Faults
import LifeEngine.Pipeline.Indices
import LifeEngine.Pipeline.Loader
import LifeEngine.Pipeline.Logs
import LifeEngine.Pipeline.Recovery
import LifeEngine.Pipeline.Validation
import LifeEngine.Plugins.EventsHost
import LifeEngine.Plugins.HttpOutbound
import LifeEngine.Plugins.StorageHost
import LifeEngine.Records.Interchange
import LifeEngine.Records.Narrowing
import LifeEngine.Records.Ownership
import LifeEngine.Records.Quarantine
import LifeEngine.Records.Subscriptions
import LifeEngine.Schema.Registrations
import LifeEngine.Schema.Soundness
import LifeEngine.Search.Processor
import LifeEngine.SharedTable.KeyChange
import LifeEngine.Signing.Revocation
import LifeEngine.SqliteDocument.Identifiers
import LifeEngine.SqliteDocument.Indexes
import LifeEngine.SqliteDocument.Injection
import LifeEngine.SqliteDocument.Matching
import LifeEngine.SqliteDocument.Pagination
import LifeEngine.Storage.Audit
import LifeEngine.Storage.Concurrent
import LifeEngine.StorageContext.AuditEvents
import LifeEngine.StorageContext.Extensions
import LifeEngine.StorageContext.Namespaces
import LifeEngine.StorageMigration.Preservation
import LifeEngine.Sync.Backoff
import LifeEngine.Sync.Conflict
import LifeEngine.Sync.Convergence
import LifeEngine.Transport.Routes
import LifeEngine.Workflow.Overlap
import LifeEngine.Workflow.Retention
