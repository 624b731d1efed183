import Fenrir.Depot.RoundTrip
import Fenrir.Gateway.Route
import Fenrir.Migrations.Recreated
import Fenrir.Modules.Storage
import Fenrir.Depot.SameMigrations
import Fenrir.Runtime.Orphans
import Fenrir.Runtime.Starts
import Fenrir.Runtime.Capacity
import Fenrir.Runtime.FailedStart
import Fenrir.Gateway.Edge
import Fenrir.Gateway.Failover
import Fenrir.Postgres.Limits
import Fenrir.Postgres.Ownership
import Fenrir.Postgres.StatementCaches
import Fenrir.Postgres.Sessions
import Fenrir.Postgres.Retries
import Fenrir.Connector.Values
import Fenrir.Runtime.Autostart
import Fenrir.Overrides.Rollback
import Fenrir.Services.Registry
import Fenrir.DbShell.Shell
import Fenrir.Depot.StartOrder
import Fenrir.Runtime.Ports
import Fenrir.Gateway.Balance
import Fenrir.Gateway.RateLimit
import Fenrir.Security.TokenGrace
import Fenrir.Security.SessionStore
import Fenrir.Migrations.Planner
import Fenrir.Ssh.Packets
import Fenrir.Scheduler.Pauses
import Fenrir.Services.Backup
import Fenrir.Audit.Log
import Fenrir.Security.IdentityWrites
import Fenrir.Logging.ArchiveNames
import Fenrir.Runtime.VariantCache
import Fenrir.Postgres.Recency
