import Dbx.Web.Auth
import Dbx.Connection.Ownership
import Dbx.Query.Aliases
import Dbx.Query.Deploy
import Dbx.Grid.Faithful
import Dbx.Import.Agreement
import Dbx.Sql.Chunks
import Dbx.Safety.WriteUnlock
import Dbx.Secret.Provisioning
import Dbx.Risk.Classify
import Dbx.Compare.Plan
import Dbx.Restore.Selection
import Dbx.Csv.RoundTrip
import Dbx.Transfer.Order
import Dbx.Schema.DiffOrder
import Dbx.Mcp.Reports
import Dbx.Mongo.Delivery
import Dbx.JsonEditor.Saving
import Dbx.Agent.Runtime
import Dbx.SqlServer.Outcome
import Dbx.Export.ZipPackage
import Dbx.Schema.Calibrator
import Dbx.Ssh.Chain
import Dbx.Plugin.Survival
import Dbx.Compare.Sampling
import Dbx.Structure.Moves
import Dbx.Sql.Psql
import Dbx.Wkb.Geometry
import Dbx.Redis.KeyPattern
import Dbx.Backup.NextRun
import Dbx.Mcp.Dropped
import Dbx.Mcp.Sessions
import Dbx.Sqlite.Rebuild
import Dbx.Backup.Template
import Dbx.Cypher.Desktop
import Dbx.Query.Progress
import Dbx.Web.Lockout
import Dbx.Grid.Keyless
import Dbx.Redis.Safety
