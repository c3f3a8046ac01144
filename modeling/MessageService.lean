import MessageService.Lib.TransitionSystem
import MessageService.Infrastructure.UnitOfWork
import MessageService.Infrastructure.LockDiscipline
import MessageService.Domain.Clock
import MessageService.Infrastructure.SessionRepository
import MessageService.Interfaces.SessionAuth
import MessageService.Lib.Tx
import MessageService.Domain.StateMachines
import MessageService.Lib.SortedSet
import MessageService.Infrastructure.Store
import MessageService.Application.BeginRun
import MessageService.Application.SubmitStageReport
import MessageService.Application.FinalizeRun
import MessageService.Application.Mail
import MessageService.Application.Assembly
import MessageService.Application.AssembleAndDeliver
import MessageService.Application.ResendRun
import MessageService.Application.Sweeper
import MessageService.Application.SweeperActionDispatcher
import MessageService.Lib.Journal
import MessageService.System.Lifecycle
import MessageService.System.World
import MessageService.System.Replay
import MessageService.Lib.Pool
import MessageService.System.FirstDelivery
import MessageService.System.Sweeping
import MessageService.System.Closing
import MessageService.System.Resending
import MessageService.Lib.WorkItem
import MessageService.System.Outbox
import MessageService.System.OutboxBounds
import MessageService.Lib.Precedes
import MessageService.System.ActionOrder
import MessageService.System.Rows
import MessageService.System.Readability
import MessageService.System.Freeze
import MessageService.System.Fidelity
import MessageService.Infrastructure.ManifestLoader
import MessageService.System.Pinning
import MessageService.System.Submissions
import MessageService.Infrastructure.AsyncioScheduler
import MessageService.System.Handoff
import MessageService.Infrastructure.UserRepository
import MessageService.Application.Login
import MessageService.Application.AdminUsers
import MessageService.System.Dashboard
import MessageService.System.Administrators
import MessageService.System.Credentials
import MessageService.Infrastructure.Renderer
import MessageService.Lib.FileTree
import MessageService.Application.ReportPruner
import MessageService.System.Draining
import MessageService.Infrastructure.ReportStore
import MessageService.System.ReportMap
import MessageService.Lib.JsonText
import MessageService.Lib.Lines
import MessageService.Infrastructure.AuditArchiveWriter
import MessageService.Application.AuditLogPruner
import MessageService.System.Archiving
import MessageService.Application.AttachmentNames
import MessageService.Application.Report
import MessageService.Infrastructure.AiosmtplibMailer
import MessageService.Lib.StrFormat
import MessageService.Application.SubjectTemplates
import MessageService.Application.SnapshotSaving
import MessageService.Infrastructure.Subscriptions
import MessageService.Application.Recipients
import MessageService.Lib.Protobuf
import MessageService.Interfaces.ErrorMapping
import MessageService.Infrastructure.MigrationFiles
import MessageService.Infrastructure.MigrationRunner
import MessageService.Domain.Calendar
import MessageService.Domain.Datetime
import MessageService.Domain.Isoformat
import MessageService.Infrastructure.TimeQueries
import MessageService.Lib.Upsert
import MessageService.Infrastructure.RowCodecs
import MessageService.Infrastructure.SavedRows
import MessageService.Interfaces.PrometheusParser
import MessageService.Interfaces.ExpositionLines
import MessageService.Interfaces.ExpositionRoundTrip
import MessageService.Infrastructure.MailerRetries
import MessageService.Interfaces.Redaction
import MessageService.Interfaces.ConcurrencyLimit
import MessageService.Interfaces.ContextNormalization
import MessageService.System.PrunerBooks
import MessageService.System.PrunerExact
import MessageService.Lib.Paging
import MessageService.Infrastructure.Listings
import MessageService.Interfaces.DashboardViews
import MessageService.System.Paging
import MessageService.System.RunDetails
import MessageService.Application.SubscriptionDesk
import MessageService.Interfaces.SubscriptionRoutes
import MessageService.Lib.TxMoves
import MessageService.System.Desk
import MessageService.Infrastructure.PeriodicLoops
import MessageService.System.Shutdown
import MessageService.System.LoopTicks
import MessageService.Lib.Faults
import MessageService.Lib.Placeholders
import MessageService.Lib.TreeSites
import MessageService.Lib.ParsedPath
import MessageService.Config.Schema
import MessageService.Config.Loader
import MessageService.Config.Substitution
import MessageService.Config.PathResolution
import MessageService.System.Metrics
import MessageService.Lib.TxRejection
import MessageService.Application.Acceptance
import MessageService.Interfaces.Servicer
import MessageService.System.Rpc
