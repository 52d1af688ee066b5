import Orch.Deploy.Validate
import Orch.Effect.Program
import Orch.Raft.Fsm

namespace Orch

open Effect

/-- A context, with the instant it expires at. -/
structure Ctx where
  deadline : Option Nat := none

def Ctx.expired (ctx : Ctx) (now : Nat) : Bool :=
  match ctx.deadline with
  | none => false
  | some deadline => deadline ≤ now

/-- `context.WithTimeout`: the earlier of the two deadlines holds. -/
def Ctx.withTimeout (ctx : Ctx) (now timeout : Nat) : Ctx :=
  match ctx.deadline with
  | none => ⟨some (now + timeout)⟩
  | some deadline => ⟨some (min deadline (now + timeout))⟩

/-- What one node knows about itself and the cluster. -/
structure Service where
  localNode : String
  clusterNodes : Table String := ∅
  dispatcher : Bool := true
  sorter : GraphSorter
  trimmed : trimSpace localNode = localNode
  named : localNode ≠ ""

/-- The worker API of a node, if one is configured. -/
def Service.nodeURL (svc : Service) (nodeID : String) : Option String :=
  let id := trimSpace nodeID
  if id = "" then none
  else
    match svc.clusterNodes.entries.find? fun entry => trimSpace entry.1 == id with
    | none => none
    | some entry =>
      let url := (trimSpace entry.2).toList.rdropWhile (· == '/')
      if url = [] then none else some (String.ofList url)

/-- Node `a` of a cluster in which `b` and `c` take workloads too. -/
def sampleService : Service where
  localNode := "a"
  clusterNodes := (AList.singleton "b" "http://b").insert "c" "http://c"
  sorter := Topological.peeling String
  trimmed := by decide +kernel
  named := by decide

structure WorkloadRecord where
  name : String
  node : String
  runtime : RuntimeKind
  artifact : String
  status : AssignmentStatus

/-- What a health monitor watches. -/
structure HealthTarget where
  app : App
  workload : Workload
  nodeID : String
  generation : String
  address : String
  key : String

structure DispatchResult where
  address : String := ""
  status : Option AssignmentStatus := none

/-- A sample of this host's resources, with the time it was taken at. -/
structure HostReport where
  logicalCPUCores : Int := 1
  cpuUsagePercent : Rat := 0
  memoryAvailBytes : Nat := 0
  sampledAt : Nat := 0

/-- How one phase of a health monitor ends. -/
inductive HealthVerdict where
  | passed
  | failed (err : Failure)
  | cancelled

/-- What a non-blocking look at the reconcile signals finds. -/
inductive Poll where
  | done
  | signal
  | empty

/-- Everything the task service asks of Raft, the runtimes, the other nodes,
the host and its own locked tables. Each is one atomic action. -/
inductive TaskOp where
  | getDesiredDeployApp (metadata : Metadata)
  | listDesiredDeployApps
  | getPreviousDeployApp (metadata : Metadata)
  | getWorkloadAssignment (key : String)
  | choosePlacement (workload : Workload)
  | catalogNodeIDs
  | collectHostInfo
  | isLocalLeader
  | apply (ctx : Ctx) (command : Command)
  | now
  | sleep (ctx : Ctx) (duration : Nat)
  | runtimeDeploy (ctx : Ctx) (metadata : Metadata) (workload : Workload)
  | runtimeStop (ctx : Ctx) (kind : RuntimeKind) (metadata : Metadata) (name : String)
  | runtimeStatus (ctx : Ctx) (kind : RuntimeKind) (metadata : Metadata) (name : String)
  | dispatchWorkload (ctx : Ctx) (node : String) (metadata : Metadata) (workload : Workload)
  | dispatchStop (ctx : Ctx) (node : String) (metadata : Metadata) (workload : Workload)
  | lookupLocalWorkloadIPv4 (nspace name : String)
  | awaitReadiness (ctx : Ctx) (metadata : Metadata) (workload : Workload) (probe : Probe) (address : String)
  | probeHealth (phase : String) (target : HealthTarget)
  | bindHostPort (protocol host : String) (port : Int)
  | takeRestart (key : String) (maxRestarts : Int)
  | registerHealthMonitor (target : HealthTarget)
  | stopHealthMonitor (key : String)
  | finishHealthMonitor (key : String) (runID : Nat)
  | registryUpsert (record : WorkloadRecord)
  | registryDelete (name : String)
  | markAutoRollbackAttempt (key : String)
  | suppressAutoRollback (key : String)
  | autoRollbackIsSuppressed (key : String)
  | waitLocalLeader
  | waitReconcileTrigger
  | pollReconcileSignal

abbrev TaskOp.Answer : TaskOp → Type
  | .getDesiredDeployApp _ => Option App
  | .listDesiredDeployApps => List App
  | .getPreviousDeployApp _ => Option DeployAppRevision
  | .getWorkloadAssignment _ => Option Assignment
  | .choosePlacement _ => Except Failure String
  | .catalogNodeIDs => List String
  | .collectHostInfo => Except Failure HostReport
  | .isLocalLeader => Bool
  | .apply _ _ => Check
  | .now => Nat
  | .sleep _ _ => Check
  | .runtimeDeploy _ _ _ => Check
  | .runtimeStop _ _ _ _ => Check
  | .runtimeStatus _ _ _ _ => Except Failure String
  | .dispatchWorkload _ _ _ _ => Except Failure DispatchResult
  | .dispatchStop _ _ _ _ => Except Failure DispatchResult
  | .lookupLocalWorkloadIPv4 _ _ => Option String
  | .awaitReadiness _ _ _ _ _ => Check
  | .probeHealth _ _ => HealthVerdict
  | .bindHostPort _ _ _ => Check
  | .takeRestart _ _ => Bool
  | .registerHealthMonitor _ => Nat
  | .stopHealthMonitor _ => Unit
  | .finishHealthMonitor _ _ => Unit
  | .registryUpsert _ => Unit
  | .registryDelete _ => Unit
  | .markAutoRollbackAttempt _ => Bool
  | .suppressAutoRollback _ => Unit
  | .autoRollbackIsSuppressed _ => Bool
  | .waitLocalLeader => Check
  | .waitReconcileTrigger => Bool
  | .pollReconcileSignal => Poll

abbrev TaskSig : Signature := ⟨TaskOp, TaskOp.Answer⟩

abbrev Task := Program TaskSig

abbrev ask (op : TaskOp) : Task op.Answer := Program.perform (S := TaskSig) op

end Orch
