import Orch.Task.Preflight

namespace Orch

open Effect

def autoRollbackGuardKey (metadata : Metadata) (generation : String) : String :=
  let name := trimSpace metadata.name
  let generation := trimSpace generation
  if name = "" ∨ generation = "" then ""
  else namespaceOrDefault metadata.nspace ++ "/" ++ name ++ "@" ++ generation

def suppressAutoRollback (metadata : Metadata) (generation : String) : Task Unit :=
  let key := autoRollbackGuardKey metadata generation
  if key = "" then return () else ask (.suppressAutoRollback key)

def autoRollbackIsSuppressed (metadata : Metadata) (generation : String) : Task Bool :=
  let key := autoRollbackGuardKey metadata generation
  if key = "" then return false else ask (.autoRollbackIsSuppressed key)

def markAutoRollbackAttempt (metadata : Metadata) (generation : String) : Task Bool :=
  let key := autoRollbackGuardKey metadata generation
  if key = "" then return false else ask (.markAutoRollbackAttempt key)

def rollbackOnFailureEnabled (workload : Workload) : Bool :=
  match workload.rollout with
  | none => false
  | some rollout => rollout.rollbackOnFailure

def autoRollbackConfigured (metadata : Metadata) (workload : Workload) (generation : String) : Task Bool :=
  if generation = "" ∨ !rollbackOnFailureEnabled workload then return false
  else do return !(← autoRollbackIsSuppressed metadata generation)

def autoRollbackDesiredGenerationCurrent (metadata : Metadata) (generation : String) : Task Bool := do
  match ← ask (.getDesiredDeployApp metadata) with
  | none => return false
  | some current => return trimSpace (appGeneration current) = generation

/-- The revision to go back to: only the failing generation itself may be
replaced, and only once. -/
def autoRollbackRevision (metadata : Metadata) (workload : Workload) (generation : String) :
    Task (Option DeployAppRevision) := do
  let generation := trimSpace generation
  match ← autoRollbackConfigured metadata workload generation with
  | false => return none
  | true =>
    match ← autoRollbackDesiredGenerationCurrent metadata generation with
    | false => return none
    | true =>
      match ← ask (.getPreviousDeployApp metadata) with
      | none => return none
      | some revision =>
        let target := trimSpace revision.generation
        if target = "" ∨ target = generation then return none
        else
          match ← markAutoRollbackAttempt metadata generation with
          | false => return none
          | true => return some revision

def autoRollbackApplyTimeout : Nat := 30 * 1000000000

def maybeAutoRollbackDeployFailure (metadata : Metadata) (workload : Workload) (generation : String) : Task Unit := do
  match ← autoRollbackRevision metadata workload generation with
  | none => return ()
  | some revision =>
    let rollbackCtx := Ctx.withTimeout {} (← ask .now) autoRollbackApplyTimeout
    match ← preflightDeploy revision.app with
    | .error _ => return ()
    | .ok _ =>
      suppressAutoRollback metadata revision.generation
      let _ ← raftApplyDeployApp rollbackCtx revision.app
      return ()

def sameGeneration (assignment : Assignment) (generation : String) : Bool :=
  trimSpace assignment.generation = trimSpace generation

def assignmentMayHaveRuntime (status : AssignmentStatus) : Bool :=
  status = .assigned ∨ status = .running

def assignmentConvergedStatus (status : AssignmentStatus) : Bool :=
  status = .assigned ∨ status = .running

def assignmentConvergedOnDifferentNode (assignment : Assignment) (failedNodeID generation : String) : Bool :=
  let currentNode := trimSpace assignment.node
  let failedNodeID := trimSpace failedNodeID
  sameGeneration assignment generation && assignmentConvergedStatus assignment.status &&
    (currentNode ≠ "" ∧ failedNodeID ≠ "" ∧ currentNode ≠ failedNodeID)

def skipStaleDeployFailure (metadata : Metadata) (workloadName failedNodeID generation : String) : Task Bool := do
  match ← workloadAssignment metadata workloadName with
  | none => return false
  | some assignment => return assignmentConvergedOnDifferentNode assignment failedNodeID generation

def recordDeployFailure (ctx : Ctx) (app : App) (workload : Workload) (nodeID generation : String) (err : Failure) :
    Task Unit := do
  stopWorkloadHealthMonitor app.metadata workload.name
  match ← skipStaleDeployFailure app.metadata workload.name nodeID generation with
  | true => return ()
  | false =>
    recordWorkload ctx app workload nodeID .failed .failed generation (some err)
    maybeAutoRollbackDeployFailure app.metadata workload generation

/-- The first preferred node that is not this one and has a worker URL. -/
def preferredConfiguredNode (svc : Service) (workload : Workload) : Option String :=
  match workload.scheduling with
  | none => none
  | some scheduling =>
    (scheduling.preferredNodes.map trimSpace).find? fun nodeID =>
      nodeID ≠ "" ∧ nodeID ≠ svc.localNode ∧ (svc.nodeURL nodeID).isSome

def chooseWorkloadNode (svc : Service) (workload : Workload) : Task (Except Failure String) := do
  match ← ask (.choosePlacement workload) with
  | .ok chosen => return .ok chosen
  | .error err =>
    match preferredConfiguredNode svc workload with
    | none => return .error (.wrapf err "choose workload node")
    | some fallback => return .ok fallback

def snapshotFromReport (nodeID : String) (rep : HostReport) : Snapshot where
  nodeID := nodeID
  updatedAt := rep.sampledAt
  logicalCPUCores := rep.logicalCPUCores
  cpuUsagePercent := rep.cpuUsagePercent
  memoryAvailBytes := rep.memoryAvailBytes

/-- Sample this host and replicate the result, which only a leader can. -/
def refreshLocal (svc : Service) (ctx : Ctx) : Task Check := do
  match ← ask .collectHostInfo with
  | .error err => return .error (.wrapf err "collect host capacity")
  | .ok report =>
    match ← ask .isLocalLeader with
    | false => return .ok ()
    | true =>
      match ← ask (.apply ctx (.upsertNodeCapacity
        (snapshotFromReport svc.localNode report))) with
      | .error err => return .error (.wrapf (.wrapf err "apply node capacity") "upsert local capacity")
      | .ok _ => return .ok ()

inductive RestartPolicy where
  | always
  | onFailure
  | never
deriving DecidableEq

def restartPolicyForKind : WorkloadKind → RestartPolicy
  | .job | .cron => .never
  | _ => .always

def restartPolicyForWorkload (workload : Workload) : RestartPolicy :=
  match workload.lifecycle.map fun lifecycle => trimSpace lifecycle.restartPolicy with
  | some "always" => .always
  | some "on-failure" => .onFailure
  | some "never" => .never
  | _ => restartPolicyForKind workload.kind

def workloadMaxRestarts (workload : Workload) : Int :=
  match workload.lifecycle with
  | none => 0
  | some lifecycle => if lifecycle.maxRestarts ≤ 0 then 0 else lifecycle.maxRestarts

def restartAttemptKey (key generation : String) : String :=
  trimSpace key ++ "@" ++ trimSpace generation

def allowWorkloadRestart (workload : Workload) (key generation : String) : Task Bool :=
  if restartPolicyForWorkload workload = .never then return false
  else ask (.takeRestart (restartAttemptKey key generation) (workloadMaxRestarts workload))

/-- Whether the delay passed before the context ended. -/
def waitWorkloadRestartDelay (ctx : Ctx) (workload : Workload) : Task Bool :=
  match workload.lifecycle with
  | none => return true
  | some lifecycle =>
    if trimSpace lifecycle.restartDelay = "" then return true
    else
      match Parse.duration lifecycle.restartDelay with
      | none => return true
      | some delay =>
        if delay ≤ 0 then return true
        else do
          match ← ask (.sleep ctx delay.toNat) with
          | .ok _ => return true
          | .error _ => return false

/-- The context a single workload is rolled out in. -/
def withRolloutProgressDeadline (ctx : Ctx) (workload : Workload) : Task Ctx :=
  match workload.rollout with
  | none => return ctx
  | some rollout =>
    match rollout.progressDeadlineDuration with
    | .error _ => return ctx
    | .ok deadline => if deadline ≤ 0 then return ctx else do return ctx.withTimeout (← ask .now) deadline.toNat

def dispatchWorkload (svc : Service) (ctx : Ctx) (metadata : Metadata) (workload : Workload) (nodeID : String) :
    Task (Except Failure WorkloadRunResult) :=
  if !svc.dispatcher then
    return .error (.errorf "placement selected node %q for workload %q but worker dispatcher is unavailable"
      [.text nodeID, .text workload.name])
  else do
    match ← ask (.dispatchWorkload ctx nodeID metadata workload) with
    | .error err => return .error (.wrapf err "dispatch workload %s to node %s" [.text workload.name, .text nodeID])
    | .ok result => return .ok ⟨result.status.getD (.other "dispatched"), result.address⟩

def stopRemoteWorkload (svc : Service) (ctx : Ctx) (metadata : Metadata) (workload : Workload) (nodeID : String) :
    Task Check :=
  if !svc.dispatcher then
    return .fail "workload %q assigned to remote node %q but worker dispatcher is unavailable"
      [.text workload.name, .text nodeID]
  else do
    match ← ask (.dispatchStop ctx nodeID metadata workload) with
    | .error err => return .error (.wrapf err "stop workload %s on node %s" [.text workload.name, .text nodeID])
    | .ok _ =>
      deleteRecord workload.name
      return .ok ()

def stopWorkloadOnNode (svc : Service) (ctx : Ctx) (metadata : Metadata) (workload : Workload) (nodeID : String) :
    Task Check :=
  if trimSpace nodeID ≠ "" ∧ trimSpace nodeID ≠ svc.localNode then
    stopRemoteWorkload svc ctx metadata workload (trimSpace nodeID)
  else stopLocalWorkload ctx metadata workload

structure DeployOptions where
  forceStopped : Bool := false

def workloadAssignmentConverged (assignment : Assignment) (generation : String) : Bool :=
  sameGeneration assignment generation && assignment.status = .running

def shouldSkipStoppedAssignment (assignment : Assignment) (generation : String) (opts : DeployOptions) : Bool :=
  !opts.forceStopped && sameGeneration assignment generation && assignment.status = .stopped

def failedAssignmentSameGeneration (assignment : Assignment) (generation : String) : Bool :=
  sameGeneration assignment generation && assignment.status = .failed

def canRetryFailedAssignment (workload : Workload) (assignment : Assignment) (generation : String) : Task Bool :=
  if !failedAssignmentSameGeneration assignment generation then return true
  else allowWorkloadRestart workload assignment.key generation

/-- A failed assignment waits for its restart delay, any other does not. -/
def waitRetryDelay (ctx : Ctx) (workload : Workload) (assignment : Assignment) (generation : String) : Task Bool :=
  if failedAssignmentSameGeneration assignment generation then waitWorkloadRestartDelay ctx workload
  else return true

/-- Another generation is stopped where it was assigned, if its status says
that it may run. -/
def stopPreviousGeneration (svc : Service) (ctx : Ctx) (metadata : Metadata) (workload : Workload)
    (assignment : Assignment) (generation : String) : Task Check :=
  let nodeID := trimSpace assignment.node
  if sameGeneration assignment generation then return .ok ()
  else if nodeID = "" ∨ !assignmentMayHaveRuntime assignment.status then return .ok ()
  else stopWorkloadOnNode svc ctx metadata workload nodeID

/-- What is left to do for a workload that has an assignment: nothing more,
with the error if there is one, or place it. -/
inductive Handled where
  | done (result : Check)
  | place

def handleExistingAssignment (svc : Service) (ctx : Ctx) (app : App) (workload : Workload) (assignment : Assignment)
    (generation : String) (opts : DeployOptions) : Task Handled :=
  if workloadAssignmentConverged assignment generation then return .done (.ok ())
  else if shouldSkipStoppedAssignment assignment generation opts then return .done (.ok ())
  else do
    match ← canRetryFailedAssignment workload assignment generation with
    | false => return .done (.ok ())
    | true =>
      match ← waitRetryDelay ctx workload assignment generation with
      | false =>
        return .done (.error (.wrapf .deadlineExceeded "wait restart delay for workload %s" [.text workload.name]))
      | true =>
        match ← stopPreviousGeneration svc ctx app.metadata workload assignment generation with
        | .error err =>
          recordDeployFailure ctx app workload (trimSpace assignment.node) generation err
          return .done (.error err)
        | .ok _ => return .place

def deployRemoteWorkload (svc : Service) (ctx : Ctx) (app : App) (workload : Workload) (nodeID generation : String) :
    Task Check := do
  match ← dispatchWorkload svc ctx app.metadata workload nodeID with
  | .error err =>
    recordDeployFailure ctx app workload nodeID generation err
    return .error err
  | .ok result =>
    upsertRecord workload nodeID result.status
    recordWorkload ctx app workload nodeID result.status .bound generation none result.address
    return .ok ()

def deployLocalAssignedWorkload (svc : Service) (ctx : Ctx) (app : App) (workload : Workload)
    (nodeID generation : String) : Task Check := do
  match ← runLocalWorkload ctx app.metadata workload nodeID with
  | .error err =>
    recordDeployFailure ctx app workload nodeID generation err
    return .error err
  | .ok result =>
    recordWorkload ctx app workload nodeID result.status .bound generation none result.address
    startLocalWorkloadHealthMonitor svc app workload nodeID generation result.address
    return .ok ()

/-- Choose a node, record the choice and start the workload there. -/
def placeWorkload (svc : Service) (ctx : Ctx) (app : App) (workload : Workload) (generation : String) : Task Check := do
  match ← chooseWorkloadNode svc workload with
  | .error err =>
    recordDeployFailure ctx app workload "" generation err
    return .error (.wrapf err "placement workload %s" [.text workload.name])
  | .ok chosen =>
    applyWorkloadAssignment ctx app.metadata workload chosen .assigned generation none
    if chosen ≠ svc.localNode then deployRemoteWorkload svc ctx app workload chosen generation
    else deployLocalAssignedWorkload svc ctx app workload chosen generation

def deployOneWorkload (svc : Service) (ctx : Ctx) (app : App) (generation : String) (opts : DeployOptions)
    (workload : Workload) : Task Check := do
  let ctx ← withRolloutProgressDeadline ctx workload
  match ← workloadAssignment app.metadata workload.name with
  | none => placeWorkload svc ctx app workload generation
  | some assignment =>
    match ← handleExistingAssignment svc ctx app workload assignment generation opts with
    | .done result => return result
    | .place => placeWorkload svc ctx app workload generation

def deployOrderedWorkloads (svc : Service) (ctx : Ctx) (app : App) (workloads : List Workload) (generation : String)
    (opts : DeployOptions) : Task Check :=
  Program.eachUntil (deployOneWorkload svc ctx app generation opts) workloads

def prepareDeploy (svc : Service) (ctx : Ctx) (app : App) : Task (Except Failure (List Workload)) :=
  match app.validate svc.sorter with
  | .error err => return .error (.wrapf err "validate app")
  | .ok _ => do
    let _ ← refreshLocal svc ctx
    match app.workloadsInDependencyOrder svc.sorter with
    | .error err => return .error (.wrapf err "order workloads")
    | .ok workloads => return .ok workloads

def deployAppWorkloadsWithOptions (svc : Service) (ctx : Ctx) (app : App) (opts : DeployOptions) : Task Check := do
  match ← prepareDeploy svc ctx app with
  | .error err => return .error err
  | .ok workloads => deployOrderedWorkloads svc ctx app workloads (appGeneration app) opts

def deployAppWorkloads (svc : Service) (ctx : Ctx) (app : App) : Task Check :=
  deployAppWorkloadsWithOptions svc ctx app {}

/-- Check a document and make it the desired one. -/
def submitDeploy (svc : Service) (ctx : Ctx) (app : App) : Task Check :=
  match app.validate svc.sorter with
  | .error err => return .error (.wrapf err "validate app")
  | .ok _ => do
    match ← preflightDeploy app with
    | .error err => return .error (.wrapf err "preflight deploy")
    | .ok _ =>
      match ← raftApplyDeployApp ctx app with
      | .error err => return .error (.wrapf err "replicate deploy")
      | .ok _ => return .ok ()

end Orch
