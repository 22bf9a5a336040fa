import Timewheel.Lib.Run
import Timewheel.Wheel
import Timewheel.Operations
import Timewheel.Calls
import Timewheel.Exec
import Timewheel.Isolation
import Timewheel.Overlap
import Timewheel.Bound
import Timewheel.Registry
import Timewheel.Effects
import Timewheel.MultiLevel
import Timewheel.OneRegistration
import Timewheel.Service
import Timewheel.Held
import Timewheel.AllOrNothing
import Timewheel.Sync
import Timewheel.Mirror
import Timewheel.Restart
import Timewheel.Pools
import Timewheel.Rollback
import Timewheel.Lifecycle
import Timewheel.GracefulStop
import Timewheel.Created
import Timewheel.Steps
import Timewheel.Agreement
import Timewheel.Listing
import Timewheel.Repair
import Timewheel.Metering
import Timewheel.History
import Timewheel.Entry
import Timewheel.Interleaving
import Timewheel.Notifications
import Timewheel.FreshStart
import Timewheel.LevelUpdate
import Timewheel.Skipped
import Timewheel.Panics
import Timewheel.Snowflake
import Timewheel.RedisLock
import Timewheel.Webhook
import Timewheel.HistoryStore
import Timewheel.RuleStore
import Timewheel.Cache
import Timewheel.Lib.TokenBucket
import Timewheel.LocalLock
import Timewheel.RateLimit
import Timewheel.SnowflakeParse
import Timewheel.Deadline
import Timewheel.SlotArithmetic
import Timewheel.Resources
import Timewheel.Sinks
import Timewheel.FailedCall
import Timewheel.FreeIDs
import Timewheel.Counters
import Timewheel.SlotOrder
import Timewheel.Contexts
import Timewheel.Lib.Windows
import Timewheel.Paging
import Timewheel.HistoryFile
import Timewheel.Guarantees
import Timewheel.Locality
import Timewheel.Silence
import Timewheel.Reports
import Timewheel.Delivery
import Timewheel.Clients
import Timewheel.Lifetime
import Timewheel.Waiting
