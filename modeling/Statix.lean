import Statix.Wal.Crash
import Statix.Wal.Backlog
import Statix.Delivery.NoLoss
import Statix.Delivery.Restart
import Statix.Delivery.Stop
import Statix.Delivery.Trial
import Statix.Rollup.Storage
import Statix.Rollup.Conservation
import Statix.Rollup.MainLoop
import Statix.Attribution.Order
import Statix.Attribution.Watcher
import Statix.Gateway.Health
import Statix.Gateway.Shutdown
import Statix.Wal.Codec
import Statix.Wal.Failing
import Statix.Wal.Metering
import Statix.Wal.Repair
import Statix.Gateway.Handlers
import Statix.Gateway.Access
import Statix.Gateway.Acceptance
import Statix.Delivery.Upgrade
import Statix.Attribution.Supervision
import Statix.Attribution.Host
import Statix.Wal.Accepting
import Statix.Wal.Cap
import Statix.Gateway.CacheKey
import Statix.Gateway.Lookback
import Statix.Rollup.Tiling
import Statix.Gateway.ReadTier
import Statix.Attribution.Layouts
import Statix.Attribution.ProcCgroup
import Statix.Attribution.Quantity
import Statix.Rollup.Buffers
import Statix.Gateway.RateLimit
import Statix.Wal.Naming
import Statix.Wal.GroupCommit
import Statix.Delivery.Forwarding
import Statix.Gateway.Fleet
import Statix.Gateway.Arrival
import Statix.Capture.Execs
import Statix.Sampling.Once
import Statix.Gateway.Readiness
import Statix.Delivery.Outage
import Statix.Delivery.Token
import Statix.Infra.Configured
