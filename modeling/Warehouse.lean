import Warehouse.Interaction.Program
import Warehouse.Interaction.History
import Warehouse.Mysql.Executor
import Warehouse.Mysql.Transaction
import Warehouse.Mysql.Migration.Manifest
import Warehouse.Mysql.Migration.Runner
import Warehouse.Mysql.Migration.Gate
import Warehouse.Interaction.Exclusive
import Warehouse.Mysql.Migration.Database
import Warehouse.Mysql.Migration.Ledger
import Warehouse.Mysql.Migration.Cluster
import Warehouse.Mysql.Migration.Cooperative
import Warehouse.Mysql.Migration.LockDiscipline
import Warehouse.Mysql.Migration.Reconciliation
import Warehouse.Mysql.ConnectionPool
import Warehouse.Application.WarehouseService
import Warehouse.Application.UnitOutcome
import Warehouse.Interaction.Handler
import Warehouse.Bootstrap.LegacyStartup
import Warehouse.Bootstrap.UsersTable
import Warehouse.Bootstrap.StartupCheck
import Warehouse.Interaction.RowClients
import Warehouse.Mysql.SqlNotes
import Warehouse.Bootstrap.InitialAdministrator
import Warehouse.Mysql.ScriptedSession
import Warehouse.Backend.LegacyTables
import Warehouse.Backend.Service
import Warehouse.Interaction.Monitor
import Warehouse.Mysql.SessionDiscipline
import Warehouse.Mysql.Migration.Bracketing
import Warehouse.Mysql.Migration.Repetition
import Warehouse.Mysql.CleanPool
import Warehouse.Mysql.CommitReports
import Warehouse.Interaction.RowStore
import Warehouse.Mysql.LoneSession
import Warehouse.Api.GoodsNumber
import Warehouse.Bootstrap.Configuration
import Warehouse.Bootstrap.CompositionRoot
import Warehouse.Interaction.WaitSet
import Warehouse.Mysql.PoolSlots
import Warehouse.Mysql.PoolWakeUps
import Warehouse.Api.TaskQueue
import Warehouse.Mysql.Connection
import Warehouse.Backend.UnknownCommit
import Warehouse.Backend.Entitlement
import Warehouse.Backend.Authorization
import Warehouse.Backend.GoodsLedger
import Warehouse.Interaction.Snapshots
import Warehouse.Backend.RequestScript
import Warehouse.Mysql.Migration.ServerLexer
import Warehouse.Api.CrossOrigin
import Warehouse.Mysql.Migration.Course
import Warehouse.Mysql.Migration.Tampering
import Warehouse.Mysql.Migration.StepFailure
import Warehouse.Mysql.Migration.Recovery
import Warehouse.Mysql.Migration.Report
import Warehouse.Backend.PasswordHasher
import Warehouse.Backend.AcceptedPasswords
import Warehouse.Digest.Bits
import Warehouse.Digest.Fips180
import Warehouse.Mysql.Sha256
import Warehouse.Digest.Framing
import Warehouse.Mysql.Migration.Checksum
import Warehouse.Bootstrap.ConfigurationIssues
import Warehouse.Backend.MarkTaken
import Warehouse.Api.ReferenceServer
import Warehouse.Mysql.Migration.CollatedKeys
import Warehouse.Interaction.Enumeration
import Warehouse.Files.Path
import Warehouse.Mysql.Migration.Discovery
import Warehouse.Mysql.LikePattern
import Warehouse.Backend.GoodsSearch
import Warehouse.Files.Resolution
import Warehouse.Api.StaticFiles
import Warehouse.Backend.Linearization
import Warehouse.Backend.Refusals
import Warehouse.Backend.OverlappingLogins
import Warehouse.Api.HttpExchange
import Warehouse.Interaction.MappedClients
import Warehouse.Api.HttpRuns
import Warehouse.Bootstrap.ShutdownCoordinator
import Warehouse.Bootstrap.ServerProcess
import Warehouse.Bootstrap.OrderlyShutdown
import Warehouse.Bootstrap.ProductionPlatform
import Warehouse.Backend.UnfailingLogin
