import ClusterState.Admission.Rules
import ClusterState.Admission.Workers
import ClusterState.Admission.Coordination
import ClusterState.Admission.Recovery
import ClusterState.Admission.Soundness
import ClusterState.Admission.Safety
import ClusterState.Admission.Execution
import ClusterState.Concurrency.Execution
import ClusterState.Concurrency.KeyedLock
import ClusterState.MountManager.State
import ClusterState.MountManager.Handlers
import ClusterState.MountManager.Inventory
import ClusterState.MountManager.Discipline
import ClusterState.MountManager.Rules
import ClusterState.MountManager.Conduct
import ClusterState.MountManager.Soundness
import ClusterState.NodeServer.Server
import ClusterState.NodeServer.Requests
import ClusterState.NodeServer.Exclusion
import ClusterState.MountManager.Execution
import ClusterState.MountManager.Safety
import ClusterState.Concurrency.Evaluation
import ClusterState.MountManager.Orphans
import ClusterState.MountManager.Handover
import ClusterState.Concurrency.Sessions
import ClusterState.NodeServer.Daemons
import ClusterState.MountManager.Vacating
import ClusterState.NodeServer.Unstaging
import ClusterState.NodeServer.Teardown
import ClusterState.MountManager.Reconcile
import ClusterState.MountManager.LegacyBridge
import ClusterState.Recycler.Cycler
import ClusterState.Recycler.Cycling
import ClusterState.Recycler.Selection
import ClusterState.Concurrency.Histories
import ClusterState.Recycler.Reconciler
import ClusterState.Recycler.Watches
import ClusterState.Recycler.Prober
import ClusterState.Cosi.Driver
import ClusterState.Cosi.Listener
import ClusterState.Cosi.Sidecar
import ClusterState.Cosi.Credentials
import ClusterState.Cosi.Revocation
import ClusterState.Cosi.Execution
import ClusterState.Backup.Recognition
import ClusterState.Concurrency.Alone
import ClusterState.Backup.Exporter
import ClusterState.Backup.Site
import ClusterState.Backup.Retention
import ClusterState.Backup.Publication
import ClusterState.Backup.Retrying
import ClusterState.Backup.LaterRun
import ClusterState.Backup.Execution
import ClusterState.Backup.Contract
import ClusterState.Backup.Archiving
import ClusterState.Backup.Accepted
import ClusterState.Data.Json
import ClusterState.Maintenance.Pods
import ClusterState.Maintenance.Agreement
import ClusterState.Maintenance.Drained
import ClusterState.Maintenance.Draining
import ClusterState.Export.Strip
import ClusterState.Export.Selection
import ClusterState.Export.Scrubbing
import ClusterState.Export.Preservation
import ClusterState.Export.Selecting
import ClusterState.MountManager.Exporting
import ClusterState.Data.SlashPath
import ClusterState.NodeServer.MountArgs
import ClusterState.NodeServer.MountOrder
import ClusterState.NodeServer.OwnedPath
import ClusterState.Data.Decimal
import ClusterState.NodeServer.Ownership
import ClusterState.NodeServer.Restaging
import ClusterState.Recycler.Mountinfo
import ClusterState.Recycler.Lookup
import ClusterState.Recycler.Batch
import ClusterState.Cosi.Granting
import ClusterState.Data.PythonText
import ClusterState.Data.EscapeCodes
import ClusterState.CacheRetention.MountIds
import ClusterState.CacheRetention.Unescaping
import ClusterState.CacheRetention.MountReading
import ClusterState.Cosi.Buckets
import ClusterState.Cosi.Deleting
import ClusterState.Cosi.Converging
import ClusterState.Feedback.Status
import ClusterState.Feedback.Listing
import ClusterState.Export.Completeness
import ClusterState.Export.Idempotence
import ClusterState.Backup.Inspection
import ClusterState.Backup.Recoverability
import ClusterState.Migrations.Legibility
import ClusterState.Factorio.Restarts
import ClusterState.Factorio.Losses
import ClusterState.Factorio.Copies
import ClusterState.CacheRetention.Restraint
import ClusterState.CacheRetention.Disturbing
import ClusterState.CacheRetention.Subtrees
import ClusterState.CacheRetention.Refusing
import ClusterState.CacheRetention.Sharing
import ClusterState.Concurrency.Versions
import ClusterState.Cosi.Binding
import ClusterState.Cosi.Lifetimes
