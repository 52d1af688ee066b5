import Orch.Task.Lifecycle
import Orch.Placement

namespace Orch

open Effect

inductive Operation where
  | migrate
  | failover
  | rebalance
deriving DecidableEq

def Operation.text : Operation → String
  | .migrate => "migrate"
  | .failover => "failover"
  | .rebalance => "rebalance"

structure AppOperationOptions where
  targetNode : String := ""
  workloads : List String := []

inductive SummaryStatus where
  | running
  | failed
  | unchanged
deriving DecidableEq

structure AppOperationSummary where
  operation : Operation
  app : String
  nspace : String
  targetNode : String := ""
  workloads : Nat
  moved : Nat := 0
  status : SummaryStatus := .running

structure PlannedWorkloadMove where
  workload : Workload
  current : String
  target : String
  assigned : Bool

/-- An operation reports a summary even when it fails part of the way. -/
abbrev OperationResult := Option AppOperationSummary × Check

def requestedWorkloadNames (names : List String) : List String :=
  ((names.map trimSpace).filter (· ≠ "")).eraseDups

/-- The workloads asked for, and the names that were not found. -/
def selectedOperationWorkloads : List Workload → List String → List Workload × List String
  | [], wanted => ([], wanted)
  | workload :: rest, wanted =>
    if workload.key ∈ wanted then
      let (selected, missing) := selectedOperationWorkloads rest (wanted.erase workload.key)
      (workload :: selected, missing)
    else selectedOperationWorkloads rest wanted

def missingWorkloadError (missing : List String) : Failure :=
  .errorf "workload(s) not found: %s" [.text (String.intercalate ", " (missing.insertionSort (· ≤ ·)))]

def selectOperationWorkloads (svc : Service) (app : App) (names : List String) : Except Failure (List Workload) :=
  match app.workloadsInDependencyOrder svc.sorter with
  | .error err => .error (.wrapf err "order workloads")
  | .ok ordered =>
    let wanted := requestedWorkloadNames names
    if wanted.isEmpty then .ok ordered
    else
      let (selected, missing) := selectedOperationWorkloads ordered wanted
      if missing.isEmpty then .ok selected else .error (missingWorkloadError missing)

def failedWorkloads (metadata : Metadata) : List Workload → Task (List Workload)
  | [] => return []
  | workload :: rest => do
    let assignment ← workloadAssignment metadata workload.name
    let others ← failedWorkloads metadata rest
    if assignment.map Assignment.status = some .failed then return workload :: others else return others

def failoverWorkloads (svc : Service) (app : App) (names : List String) : Task (Except Failure (List Workload)) :=
  match selectOperationWorkloads svc app names with
  | .error err => return .error err
  | .ok workloads =>
    if !names.isEmpty then return .ok workloads
    else do
      let failed ← failedWorkloads app.metadata workloads
      if failed.isEmpty then
        return .error (.errorf "deploy app %s/%s has no failed workloads"
          [.text (namespaceOrDefault app.metadata.nspace), .text app.metadata.name])
      else return .ok failed

def addNodeCandidates (current : String) : List String → List String → List String
  | out, [] => out
  | out, raw :: rest =>
    let nodeID := trimSpace raw
    if nodeID = "" ∨ nodeID = current ∨ nodeID ∈ out then addNodeCandidates current out rest
    else addNodeCandidates current (out ++ [nodeID]) rest

/-- The nodes of the catalog, the configured ones and this one, without the
current node. -/
def alternativeNodeCandidates (svc : Service) (current : String) (catalogIDs : List String) : List String :=
  addNodeCandidates (trimSpace current) [] (catalogIDs ++ svc.clusterNodes.keys.insertionSort (· ≤ ·) ++ [svc.localNode])

def failoverCandidate (workload : Workload) (candidates : List String) : Workload :=
  { workload with scheduling := some { workload.scheduling.getD {} with preferredNodes := candidates } }

def chooseFailoverNode (svc : Service) (ctx : Ctx) (workload : Workload) (current : String) :
    Task (Except Failure String) := do
  let _ ← refreshLocal svc ctx
  let candidates := alternativeNodeCandidates svc current (← ask .catalogNodeIDs)
  if candidates.isEmpty then
    return .error (.errorf "no alternative node available for workload %q" [.text workload.name])
  else chooseWorkloadNode svc (failoverCandidate workload candidates)

def runWorkloadOnNode (svc : Service) (ctx : Ctx) (metadata : Metadata) (workload : Workload) (nodeID : String) :
    Task (Except Failure WorkloadRunResult) :=
  let nodeID := trimSpace nodeID
  if nodeID = "" then return .error (.errorf "empty target node for workload %q" [.text workload.name])
  else if nodeID = svc.localNode then runLocalWorkload ctx metadata workload nodeID
  else do
    match ← dispatchWorkload svc ctx metadata workload nodeID with
    | .error err => return .error err
    | .ok result =>
      upsertRecord workload nodeID result.status
      return .ok result

def normalizeMoveTarget (targetFor : Workload → Task (Except Failure String)) (workload : Workload) :
    Task (Except Failure String) := do
  match ← targetFor workload with
  | .error err => return .error err
  | .ok target =>
    if trimSpace target = "" then
      return .error (.errorf "empty target node for workload %q" [.text workload.name])
    else return .ok (trimSpace target)

/-- One plan for each workload that is not on its target yet. An error ends
the planning but keeps the plans made before it. -/
def planWorkloadMoves (svc : Service) (app : App) (targetFor : Workload → Task (Except Failure String)) :
    List Workload → Task (List PlannedWorkloadMove × Check)
  | [] => return ([], .ok ())
  | workload :: rest => do
    match ← normalizeMoveTarget targetFor workload with
    | .error err => return ([], .error err)
    | .ok target =>
      let assignment ← workloadAssignment app.metadata workload.name
      let recorded := trimSpace ((assignment.map Assignment.node).getD "")
      let current := if recorded = "" then svc.localNode else recorded
      let (plans, result) ← planWorkloadMoves svc app targetFor rest
      if assignment.isSome ∧ current = target then return (plans, result)
      else return (⟨workload, current, target, assignment.isSome⟩ :: plans, result)

def skipMoveStop (app : App) (operation : Operation) (plan : PlannedWorkloadMove) : Task Bool :=
  if !plan.assigned then return true
  else if operation ≠ .failover then return false
  else do
    return (← workloadAssignment app.metadata plan.workload.name).map Assignment.status = some .failed

def stopMovePlan (svc : Service) (ctx : Ctx) (app : App) (operation : Operation) (generation : String)
    (plan : PlannedWorkloadMove) : Task Check := do
  match ← skipMoveStop app operation plan with
  | true => return .ok ()
  | false =>
    match ← stopWorkload svc ctx app.metadata plan.workload with
    | .error err =>
      recordWorkload ctx app plan.workload plan.current .failed .failed generation (some err)
      if operation = .failover then return .ok () else return .error err
    | .ok _ =>
      recordWorkload ctx app plan.workload plan.current .stopped .released generation none
      return .ok ()

def stopMovePlans (svc : Service) (ctx : Ctx) (app : App) (operation : Operation) (generation : String)
    (plans : List PlannedWorkloadMove) : Task Check :=
  Program.eachUntil (stopMovePlan svc ctx app operation generation) plans.reverse

def startMovePlan (svc : Service) (ctx : Ctx) (app : App) (generation : String) (plan : PlannedWorkloadMove) :
    Task Check := do
  applyWorkloadAssignment ctx app.metadata plan.workload plan.target .assigned generation none
  match ← runWorkloadOnNode svc ctx app.metadata plan.workload plan.target with
  | .error err =>
    recordWorkload ctx app plan.workload plan.target .failed .failed generation (some err)
    return .error err
  | .ok result =>
    recordWorkload ctx app plan.workload plan.target result.status .bound generation none result.address
    return .ok ()

/-- How many workloads were started before the first error. -/
def startMovePlans (svc : Service) (ctx : Ctx) (app : App) (generation : String) :
    List PlannedWorkloadMove → Task (Nat × Check)
  | [] => return (0, .ok ())
  | plan :: rest => do
    match ← startMovePlan svc ctx app generation plan with
    | .error err => return (0, .error err)
    | .ok _ =>
      let (moved, result) ← startMovePlans svc ctx app generation rest
      return (moved + 1, result)

def moveAppWorkloads (svc : Service) (ctx : Ctx) (app : App) (operation : Operation) (workloads : List Workload)
    (targetFor : Workload → Task (Except Failure String)) : Task OperationResult := do
  let summary : AppOperationSummary :=
    { operation, app := app.metadata.name, nspace := namespaceOrDefault app.metadata.nspace
      workloads := workloads.length }
  let (plans, planned) ← planWorkloadMoves svc app targetFor workloads
  let summary := { summary with targetNode := (plans.head?.map PlannedWorkloadMove.target).getD "" }
  match planned with
  | .error err =>
    return (some { summary with status := .failed },
      .error (.wrapf err "%s target selection failed" [.text operation.text]))
  | .ok _ =>
    if plans.isEmpty then return (some { summary with status := .unchanged }, .ok ())
    else
      match ← stopMovePlans svc ctx app operation (appGeneration app) plans with
      | .error err => return (some { summary with status := .failed }, .error err)
      | .ok _ =>
        let (moved, started) ← startMovePlans svc ctx app (appGeneration app) plans
        match started with
        | .error err => return (some { summary with moved, status := .failed }, .error err)
        | .ok _ => return (some { summary with moved }, .ok ())

def submitMigrate (svc : Service) (ctx : Ctx) (metadata : Metadata) (opts : AppOperationOptions) :
    Task OperationResult :=
  let target := trimSpace opts.targetNode
  if target = "" then return (none, .fail "target node is required")
  else do
    match ← operationApp metadata with
    | .error err => return (none, .error err)
    | .ok app =>
      match selectOperationWorkloads svc app opts.workloads with
      | .error err => return (none, .error err)
      | .ok workloads => moveAppWorkloads svc ctx app .migrate workloads fun _ => return .ok target

def submitFailover (svc : Service) (ctx : Ctx) (metadata : Metadata) (opts : AppOperationOptions) :
    Task OperationResult := do
  match ← operationApp metadata with
  | .error err => return (none, .error err)
  | .ok app =>
    match ← failoverWorkloads svc app opts.workloads with
    | .error err => return (none, .error err)
    | .ok workloads =>
      let target := trimSpace opts.targetNode
      moveAppWorkloads svc ctx app .failover workloads fun w =>
        if target ≠ "" then return .ok target
        else do chooseFailoverNode svc ctx w (← assignmentNodeOrEmpty app.metadata w.name)

def submitRebalance (svc : Service) (ctx : Ctx) (metadata : Metadata) (opts : AppOperationOptions) :
    Task OperationResult := do
  match ← operationApp metadata with
  | .error err => return (none, .error err)
  | .ok app =>
    match selectOperationWorkloads svc app opts.workloads with
    | .error err => return (none, .error err)
    | .ok workloads =>
      let _ ← refreshLocal svc ctx
      moveAppWorkloads svc ctx app .rebalance workloads (chooseWorkloadNode svc)

end Orch
