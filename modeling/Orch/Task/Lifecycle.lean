import Orch.Task.Deploy

namespace Orch

open Effect

def normalizeOperationMetadata (metadata : Metadata) : Metadata :=
  { metadata with name := trimSpace metadata.name, nspace := trimSpace metadata.nspace }

theorem deployAppMapKey_normalizeOperationMetadata (metadata : Metadata) :
    deployAppMapKey (normalizeOperationMetadata metadata) = deployAppMapKey metadata := by
  simp [deployAppMapKey, normalizeOperationMetadata]

def stopTargetNode (svc : Service) (metadata : Metadata) (workloadName : String) : Task String := do
  match ← workloadAssignment metadata workloadName with
  | none => return svc.localNode
  | some assignment =>
    if trimSpace assignment.node ≠ "" then return trimSpace assignment.node else return svc.localNode

def stopWorkload (svc : Service) (ctx : Ctx) (metadata : Metadata) (workload : Workload) : Task Check := do
  stopWorkloadOnNode svc ctx metadata workload (← stopTargetNode svc metadata workload.name)

def stopAppWorkload (svc : Service) (ctx : Ctx) (app : App) (generation : String) (workload : Workload) :
    Task Check := do
  match ← stopWorkload svc ctx app.metadata workload with
  | .error err =>
    let nodeID ← assignmentNodeOrEmpty app.metadata workload.name
    recordWorkload ctx app workload nodeID .failed .failed generation (some err)
    return .error err
  | .ok _ =>
    let nodeID ← assignmentNodeOrEmpty app.metadata workload.name
    recordWorkload ctx app workload nodeID .stopped .released generation none
    return .ok ()

/-- Stop the workloads, dependents first, up to the first stop that fails. -/
def stopAppWorkloads (svc : Service) (ctx : Ctx) (app : App) : Task Check :=
  match app.workloadsInDependencyOrder svc.sorter with
  | .error err => return .error (.wrapf err "order workloads")
  | .ok workloads => Program.eachUntil (stopAppWorkload svc ctx app (appGeneration app)) workloads.reverse

def submitDelete (svc : Service) (ctx : Ctx) (metadata : Metadata) : Task Check :=
  let metadata := normalizeOperationMetadata metadata
  if metadata.name = "" then return .fail "metadata.name is required"
  else do
    let desired ← ask (.getDesiredDeployApp metadata)
    match ← raftApplyDeleteDeployApp ctx metadata with
    | .error err => return .error (.wrapf err "delete desired app")
    | .ok _ =>
      match desired with
      | none => return .ok ()
      | some app => stopAppWorkloads svc ctx app

def appNotFound (metadata : Metadata) : Failure :=
  .errorf "deploy app %s/%s not found" [.text (namespaceOrDefault metadata.nspace), .text metadata.name]

def operationApp (metadata : Metadata) : Task (Except Failure App) :=
  let metadata := normalizeOperationMetadata metadata
  if metadata.name = "" then return .error (.errorf "metadata.name is required")
  else do
    match ← ask (.getDesiredDeployApp metadata) with
    | none => return .error (appNotFound metadata)
    | some app => return .ok app

def submitExistingDeployApp (metadata : Metadata) (run : App → Task Check) : Task Check := do
  match ← operationApp metadata with
  | .error err => return .error err
  | .ok app => run app

def submitStop (svc : Service) (ctx : Ctx) (metadata : Metadata) : Task Check :=
  submitExistingDeployApp metadata (stopAppWorkloads svc ctx)

def submitRollback (svc : Service) (ctx : Ctx) (metadata : Metadata) : Task Check :=
  let metadata := normalizeOperationMetadata metadata
  if metadata.name = "" then return .fail "metadata.name is required"
  else do
    match ← ask (.getPreviousDeployApp metadata) with
    | none =>
      return .fail "deploy app %s/%s has no rollback revision"
        [.text (namespaceOrDefault metadata.nspace), .text metadata.name]
    | some revision =>
      suppressAutoRollback metadata revision.generation
      match ← submitDeploy svc ctx revision.app with
      | .error err => return .error (.wrapf err "rollback deploy app")
      | .ok _ => return .ok ()

end Orch
