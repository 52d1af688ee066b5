import Orch.Task.Lifecycle

namespace Orch

open Effect

/-- One pass over the desired apps. The error of an app is only logged. -/
def reconcileAll (svc : Service) (ctx : Ctx) : Task Unit := do
  Program.each (fun app => do let _ ← deployAppWorkloads svc ctx app) (← ask .listDesiredDeployApps)

/-- A pass, and another for each signal that is already waiting. Whether the
loop goes on. The fuel bounds the passes. -/
def reconcilePendingDeploys (svc : Service) (ctx : Ctx) : Nat → Task Bool
  | 0 => return false
  | fuel + 1 => do
    reconcileAll svc ctx
    match ← ask .pollReconcileSignal with
    | .done => return false
    | .signal => reconcilePendingDeploys svc ctx fuel
    | .empty => return true

/-- Each signal or tick starts passes again. -/
def runDeployReconcileLoop (svc : Service) (ctx : Ctx) (pending : Nat) : Nat → Task Unit
  | 0 => return ()
  | fuel + 1 => do
    match ← reconcilePendingDeploys svc ctx pending with
    | false => return ()
    | true =>
      match ← ask .waitReconcileTrigger with
      | false => return ()
      | true => runDeployReconcileLoop svc ctx pending fuel

/-- The reconcile loop of a node: leadership is waited for once, before the
first pass. -/
def runDeployReconcile (svc : Service) (ctx : Ctx) (pending fuel : Nat) : Task Unit := do
  match ← ask .waitLocalLeader with
  | .error _ => return ()
  | .ok _ => runDeployReconcileLoop svc ctx pending fuel

def healthAssignmentStillCurrent (target : HealthTarget) : Task Bool := do
  match ← ask (.getWorkloadAssignment target.key) with
  | none => return true
  | some assignment =>
    return trimSpace assignment.node = target.nodeID ∧
      (target.generation = "" ∨ trimSpace assignment.generation = target.generation) ∧
      assignment.status = .running

/-- A workload whose probe failed is stopped, and its assignment is marked
failed if it is still the one that was watched. -/
def failLocalWorkloadHealth (ctx : Ctx) (target : HealthTarget) (phase : String) (err : Failure) : Task Unit := do
  let failed := Failure.wrapf err "%s health failed" [.text phase]
  let stopped ← ask (.runtimeStop ctx target.workload.runtime target.app.metadata target.workload.name)
  let message :=
    match stopped with
    | .ok _ => failed
    | .error stopErr => .appended failed "; stop failed: " stopErr
  deleteRecord target.workload.name
  match ← healthAssignmentStillCurrent target with
  | false => return ()
  | true =>
    recordWorkload ctx target.app target.workload target.nodeID .failed .failed target.generation (some message)

/-- A phase without a probe passes at once. -/
def runHealthPhase (phase : String) (probe : Option Probe) (target : HealthTarget) : Task HealthVerdict :=
  match probe with
  | none => return .passed
  | some _ => ask (.probeHealth phase target)

def watchWorkloadHealth (ctx : Ctx) (target : HealthTarget) : Task Unit := do
  match ← runHealthPhase "startup" (workloadStartupProbe target.workload) target with
  | .cancelled => return ()
  | .failed err => failLocalWorkloadHealth ctx target "startup" err
  | .passed =>
    match ← runHealthPhase "liveness" (workloadLivenessProbe target.workload) target with
    | .cancelled | .passed => return ()
    | .failed err => failLocalWorkloadHealth ctx target "liveness" err

def runWorkloadHealthMonitor (ctx : Ctx) (runID : Nat) (target : HealthTarget) : Task Unit := do
  watchWorkloadHealth ctx target
  ask (.finishHealthMonitor target.key runID)

structure RecoverySummary where
  checked : Nat := 0
  restarted : Nat := 0
  failed : Nat := 0

def RecoverySummary.add (a b : RecoverySummary) : RecoverySummary :=
  ⟨a.checked + b.checked, a.restarted + b.restarted, a.failed + b.failed⟩

def localRunningAssignment (metadata : Metadata) (workload : Workload) (self generation : String) :
    Task (Option Assignment) := do
  match ← workloadAssignment metadata workload.name with
  | none => return none
  | some assignment =>
    let recorded := trimSpace assignment.generation
    if trimSpace assignment.node ≠ self ∨ assignment.status ≠ .running then return none
    else if recorded ≠ "" ∧ recorded ≠ trimSpace generation then return none
    else return some assignment

def restartableRuntimeStatus (status : String) : Bool :=
  String.ofList ((trimSpace status).toList.map toLower) ∈ ["dead", "exited", "failed", "stopped"]

/-- Whether the workload was brought back. -/
def recoverLocalWorkload (ctx : Ctx) (app : App) (workload : Workload) (assignment : Assignment)
    (generation : String) : Task Bool := do
  let self := trimSpace assignment.node
  match ← runLocalWorkload ctx app.metadata workload self with
  | .error err =>
    applyWorkloadAssignment ctx app.metadata workload self .failed generation (some err) assignment.address
    return false
  | .ok result =>
    let address := coalesce [trimSpace result.address, trimSpace assignment.address]
    applyWorkloadAssignment ctx app.metadata workload self result.status generation none address
    return true

/-- What one workload adds to the scan, and whether the scan goes on. -/
def recoverWorkloadFailure (ctx : Ctx) (app : App) (workload : Workload) (self generation : String) :
    Task (RecoverySummary × Bool) := do
  match ← localRunningAssignment app.metadata workload self generation with
  | none => return ({}, true)
  | some assignment =>
    if restartPolicyForWorkload workload = .never then return ({}, true)
    else
      match ← ask (.runtimeStatus ctx workload.runtime app.metadata workload.name) with
      | .error _ => return ({ checked := 1 }, true)
      | .ok status =>
        if !restartableRuntimeStatus status then return ({ checked := 1 }, true)
        else
          match ← allowWorkloadRestart workload assignment.key generation with
          | false => return ({ checked := 1 }, true)
          | true =>
            match ← waitWorkloadRestartDelay ctx workload with
            | false => return ({ checked := 1 }, false)
            | true =>
              match ← recoverLocalWorkload ctx app workload assignment generation with
              | true => return ({ checked := 1, restarted := 1 }, true)
              | false => return ({ checked := 1, failed := 1 }, true)

def recoverAppLocalFailures (ctx : Ctx) (app : App) (self : String) : List Workload → Task (RecoverySummary × Bool)
  | [] => return ({}, true)
  | workload :: rest => do
    let (here, goOn) ← recoverWorkloadFailure ctx app workload self (appGeneration app)
    if !goOn then return (here, false)
    else
      let (later, goOn) ← recoverAppLocalFailures ctx app self rest
      return (here.add later, goOn)

def recoverApps (ctx : Ctx) (self : String) : List App → Task RecoverySummary
  | [] => return {}
  | app :: rest => do
    let (here, goOn) ← recoverAppLocalFailures ctx app self app.workloads
    if !goOn then return here else return here.add (← recoverApps ctx self rest)

/-- Restart the workloads of this node whose runtime says they have ended. -/
def recoverLocalFailures (svc : Service) (ctx : Ctx) : Task RecoverySummary := do
  recoverApps ctx svc.localNode (← ask .listDesiredDeployApps)

/-- The recovery loop of a node: a scan at once, and another for each tick. The
number bounds the scans. -/
def runFailureRecovery (svc : Service) (ctx : Ctx) : Nat → Task Unit
  | 0 => return ()
  | scans + 1 => do
    let _ ← recoverLocalFailures svc ctx
    runFailureRecovery svc ctx scans

end Orch
