import Orch.Task.Signature

namespace Orch

def coalesce (texts : List String) : String :=
  (texts.find? (· ≠ "")).getD ""

def artifactSummary (run : RunSpec) : String :=
  let command := trimSpace ((run.exec.command.getD []).headD "")
  coalesce [trimSpace run.artifact.image, trimSpace run.artifact.path, trimSpace run.artifact.url, command]

/-- What running a workload on some node came to. -/
structure WorkloadRunResult where
  status : AssignmentStatus
  address : String

/-- Blank keys are nobody's. -/
def stopWorkloadHealthMonitor (metadata : Metadata) (workloadName : String) : Task Unit :=
  if assignmentKey metadata workloadName = "" then return ()
  else ask (.stopHealthMonitor (assignmentKey metadata workloadName))

def deleteRecord (workloadName : String) : Task Unit :=
  if trimSpace workloadName = "" then return ()
  else ask (.registryDelete (trimSpace workloadName))

def upsertRecord (workload : Workload) (nodeID : String) (status : AssignmentStatus) : Task Unit :=
  ask (.registryUpsert
    { name := workload.name, node := nodeID, runtime := workload.runtime
      artifact := artifactSummary workload.run, status })

def deployLocalWorkload (ctx : Ctx) (metadata : Metadata) (workload : Workload) (nodeID : String) : Task Check := do
  match ← ask (.runtimeDeploy ctx metadata workload) with
  | .error err => return .error (.wrapf err "deploy workload %s" [.text workload.name])
  | .ok _ =>
    upsertRecord workload nodeID .running
    return .ok ()

def localWorkloadAddress (metadata : Metadata) (workloadName : String) : Task String := do
  return (← ask (.lookupLocalWorkloadIPv4 metadata.nspace workloadName)).getD ""

def workloadReadinessProbe (workload : Workload) : Option Probe :=
  workload.health.bind Health.readiness

def waitWorkloadReadiness (ctx : Ctx) (metadata : Metadata) (workload : Workload) (address : String) : Task Check :=
  match workloadReadinessProbe workload with
  | none => return .ok ()
  | some probe => ask (.awaitReadiness ctx metadata workload probe address)

def stopLocalWorkload (ctx : Ctx) (metadata : Metadata) (workload : Workload) : Task Check := do
  stopWorkloadHealthMonitor metadata workload.name
  match ← ask (.runtimeStop ctx workload.runtime metadata workload.name) with
  | .error err => return .error (.wrapf err "stop workload %s" [.text workload.name])
  | .ok _ =>
    deleteRecord workload.name
    return .ok ()

/-- Start the workload here and wait until it is ready. One that does not
become ready is stopped again, as far as that works. -/
def runLocalWorkload (ctx : Ctx) (metadata : Metadata) (workload : Workload) (nodeID : String) :
    Task (Except Failure WorkloadRunResult) := do
  match ← deployLocalWorkload ctx metadata workload nodeID with
  | .error err => return .error err
  | .ok _ =>
    let address ← localWorkloadAddress metadata workload.name
    match ← waitWorkloadReadiness ctx metadata workload address with
    | .error err =>
      let _ ← stopLocalWorkload ctx metadata workload
      return .error err
    | .ok _ => return .ok ⟨.running, address⟩

def workloadStartupProbe (workload : Workload) : Option Probe :=
  workload.health.bind Health.startup

def workloadLivenessProbe (workload : Workload) : Option Probe :=
  workload.health.bind Health.liveness

def workloadHasBackgroundHealth (workload : Workload) : Bool :=
  (workloadStartupProbe workload).isSome || (workloadLivenessProbe workload).isSome

def newWorkloadHealthTarget (app : App) (workload : Workload) (nodeID generation address : String) : HealthTarget :=
  { app, workload, nodeID := trimSpace nodeID
    generation := if trimSpace generation = "" then trimSpace (appGeneration app) else trimSpace generation
    address := trimSpace address, key := assignmentKey app.metadata workload.name }

def startLocalWorkloadHealthMonitor (svc : Service) (app : App) (workload : Workload)
    (nodeID generation address : String) : Task Unit :=
  let target := newWorkloadHealthTarget app workload nodeID generation address
  if svc.localNode ≠ trimSpace nodeID ∨ !workloadHasBackgroundHealth workload ∨ target.key = "" then return ()
  else do let _ ← ask (.registerHealthMonitor target)

def desiredHealthMonitorApp (metadata : Metadata) (workload : Workload) : Task App := do
  return (← ask (.getDesiredDeployApp metadata)).getD { metadata, workloads := [workload] }

def validateWorkerWorkload (svc : Service) (metadata : Metadata) (workload : Workload) (assignedNode : String) : Check :=
  let nodeID := trimSpace assignedNode
  if trimSpace metadata.name = "" then .fail "metadata.name is required"
  else if trimSpace workload.name = "" then .fail "workload.name is required"
  else if nodeID ≠ "" ∧ nodeID ≠ svc.localNode then
    .fail "workload %q assigned to node %q, local node is %q"
      [.text workload.name, .text nodeID, .text svc.localNode]
  else .pass

/-- Execute a workload that another node placed here. The answer is the
address it can be reached at. -/
def deployWorkerWorkload (svc : Service) (ctx : Ctx) (metadata : Metadata) (workload : Workload)
    (assignedNode : String) : Task (Except Failure String) := do
  match validateWorkerWorkload svc metadata workload assignedNode with
  | .error err => return .error err
  | .ok _ =>
    match ← runLocalWorkload ctx metadata workload svc.localNode with
    | .error err => return .error err
    | .ok result =>
      let app ← desiredHealthMonitorApp metadata workload
      startLocalWorkloadHealthMonitor svc app workload svc.localNode (appGeneration app) result.address
      return .ok result.address

def stopWorkerWorkload (svc : Service) (ctx : Ctx) (metadata : Metadata) (workload : Workload)
    (assignedNode : String) : Task Check := do
  match validateWorkerWorkload svc metadata workload assignedNode with
  | .error err => return .error err
  | .ok _ =>
    stopWorkloadHealthMonitor metadata workload.name
    match ← ask (.runtimeStop ctx workload.runtime metadata workload.name) with
    | .error err => return .error (.wrapf err "stop worker workload")
    | .ok _ =>
      deleteRecord workload.name
      return .ok ()

end Orch
