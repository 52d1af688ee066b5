import Orch.Deploy.Wire
import Orch.Dns.Records
import Orch.Http.Endpoints
import Orch.Http.Forwarding
import Orch.Ingress.Ordering
import Orch.Ingress.Rewriting
import Orch.Raft.Bootstrap
import Orch.Raft.Removed
import Orch.Raft.Revisions
import Orch.Raft.Signals
import Orch.Runtime.Conversion
import Orch.Runtime.Isolation
import Orch.Runtime.Stops
import Orch.Runtime.Withdrawal
import Orch.Task.Apps
import Orch.Task.Dropped
import Orch.Task.FailoverTargets
import Orch.Task.Failures
import Orch.Task.Grants
import Orch.Task.HostAddresses
import Orch.Task.Leadership
import Orch.Task.Monitoring
import Orch.Task.Order
import Orch.Task.Overtaking
import Orch.Task.ProbeLoops
import Orch.Task.Providers
import Orch.Task.Registry
import Orch.Task.RestartCap
import Orch.Task.Staleness
import Orch.Vpn.Encap
