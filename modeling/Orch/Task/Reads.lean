import Orch.Effect.Ensures
import Orch.Task.Background
import Orch.Task.Operations

namespace Orch

open Effect

/-- How long a restart waits for. -/
def Workload.restartPause (x : Workload) : Option Nat :=
  match x.lifecycle with
  | none => none
  | some lifecycle =>
    if trimSpace lifecycle.restartDelay = "" then none
    else
      match Parse.duration lifecycle.restartDelay with
      | none => none
      | some delay => if delay ≤ 0 then none else some delay.toNat

/-- How long a rollout may take. -/
def Workload.progressLimit (x : Workload) : Option Nat :=
  match x.rollout with
  | none => none
  | some rollout =>
    match rollout.progressDeadlineDuration with
    | .error _ => none
    | .ok deadline => if deadline ≤ 0 then none else some deadline.toNat

def TaskOp.reads : TaskOp → Bool
  | .getDesiredDeployApp _ | .listDesiredDeployApps | .getPreviousDeployApp _ | .getWorkloadAssignment _ => true
  | .choosePlacement _ | .catalogNodeIDs | .collectHostInfo | .isLocalLeader | .now => true
  | .runtimeStatus _ _ _ _ | .lookupLocalWorkloadIPv4 _ _ | .awaitReadiness _ _ _ _ _ | .probeHealth _ _ => true
  | .bindHostPort _ _ _ | .autoRollbackIsSuppressed _ => true
  | _ => false

abbrev Reads {α : Type} (p : Task α) : Prop := p.Asks fun op : TaskOp => op.reads = true

/-- The actions that start, stop or record no workload, and file no document. -/
def TaskOp.idle : TaskOp → Bool
  | .apply _ (.upsertNodeCapacity _) => true
  | .apply _ (.upsertVolumeBinding _) => true
  | .sleep _ _ | .registryUpsert _ | .registryDelete _ => true
  | .markAutoRollbackAttempt _ | .suppressAutoRollback _ => true
  | op => op.reads

abbrev Idle {α : Type} (p : Task α) : Prop := p.Asks fun op : TaskOp => op.idle = true

theorem TaskOp.idle_of_reads {op : TaskOp} (reads : op.reads = true) : op.idle = true := by
  cases op with
  | apply => cases reads
  | _ => first | exact reads | rfl

theorem Reads.idle {α : Type} {p : Task α} (reads : Reads p) : Idle p :=
  reads.mono fun _ => TaskOp.idle_of_reads

/-- The actions that record a workload, or where one of its volumes is. -/
def TaskOp.records : TaskOp → Bool
  | .apply _ (.upsertWorkloadAssignment _) | .apply _ (.upsertVolumeBinding _) => true
  | _ => false

/-- The actions that the start or the stop of one workload is made of. -/
def TaskOp.handles (id : WorkloadId) : TaskOp → Prop
  | .runtimeStop _ _ metadata name => workloadId metadata name = id
  | .runtimeDeploy _ metadata workload => workloadId metadata workload.name = id
  | .dispatchStop _ _ metadata workload => workloadId metadata workload.name = id
  | .dispatchWorkload _ _ metadata workload => workloadId metadata workload.name = id
  | .stopHealthMonitor _ | .registryUpsert _ | .registryDelete _ => True
  | .lookupLocalWorkloadIPv4 _ _ | .awaitReadiness _ _ _ _ _ => True
  | _ => False

abbrev Handles {α : Type} (id : WorkloadId) (p : Task α) : Prop := p.Asks fun op : TaskOp => op.handles id

section Asking

variable {kind : TaskOp → Prop} {ctx : Ctx} {metadata : Metadata} {app : App} {workload : Workload}
variable {name node generation address : String}

theorem stopWorkloadHealthMonitor_asks (stops : ∀ key, kind (.stopHealthMonitor key)) :
    (stopWorkloadHealthMonitor metadata name).Asks kind := by
  unfold stopWorkloadHealthMonitor
  split
  · trivial
  · exact asks_perform (stops _)

theorem deleteRecord_asks (deletes : ∀ name, kind (.registryDelete name)) : (deleteRecord name).Asks kind := by
  unfold deleteRecord
  split
  · trivial
  · exact asks_perform (deletes _)

theorem waitWorkloadReadiness_asks (awaits : ∀ ctx metadata workload probe address,
    kind (.awaitReadiness ctx metadata workload probe address)) :
    (waitWorkloadReadiness ctx metadata workload address).Asks kind := by
  unfold waitWorkloadReadiness
  split
  · trivial
  · exact asks_perform (awaits _ _ _ _ _)

/-- All that is proposed about the mounts of a workload is where they are. -/
theorem applyWorkloadVolumeBindings_asks {status : BindingStatus} {error : Option Failure}
    (binds : ∀ binding, kind (.apply ctx (.upsertVolumeBinding binding))) :
    (applyWorkloadVolumeBindings ctx app workload node status generation error).Asks kind := by
  refine asks_each (fun mount => ?_) _
  simp only [applyMountBinding]
  split
  · trivial
  refine asks_bind ?_ fun _ => trivial
  unfold raftApplyVolumeBinding
  split
  · trivial
  split
  · trivial
  split
  · trivial
  split
  · trivial
  exact asks_perform (binds _)

end Asking

section Handling

variable {svc : Service} {ctx : Ctx} {metadata : Metadata} {workload : Workload} {node : String}

theorem stopLocalWorkload_handles : Handles (workloadId metadata workload.name) (stopLocalWorkload ctx metadata workload) := by
  refine asks_bind (stopWorkloadHealthMonitor_asks fun _ => trivial) fun _ => asks_then rfl ?_
  rintro (err | _)
  · trivial
  · exact asks_bind (deleteRecord_asks fun _ => trivial) fun _ => trivial

theorem stopWorkloadOnNode_handles :
    Handles (workloadId metadata workload.name) (stopWorkloadOnNode svc ctx metadata workload node) := by
  unfold stopWorkloadOnNode
  split
  · unfold stopRemoteWorkload
    split
    · trivial
    refine asks_then rfl ?_
    rintro (err | _)
    · trivial
    · exact asks_bind (deleteRecord_asks fun _ => trivial) fun _ => trivial
  · exact stopLocalWorkload_handles

theorem runLocalWorkload_handles :
    Handles (workloadId metadata workload.name) (runLocalWorkload ctx metadata workload node) := by
  refine asks_bind (asks_then rfl ?_) ?_
  · rintro (err | _)
    · trivial
    · exact asks_then trivial fun _ => trivial
  rintro (err | _)
  · trivial
  refine asks_bind (asks_then trivial fun _ => trivial) fun address => ?_
  refine asks_bind (waitWorkloadReadiness_asks fun _ _ _ _ _ => trivial) ?_
  rintro (err | _)
  · exact asks_bind stopLocalWorkload_handles fun _ => trivial
  · trivial

theorem dispatchWorkload_handles :
    Handles (workloadId metadata workload.name) (dispatchWorkload svc ctx metadata workload node) := by
  unfold dispatchWorkload
  split
  · trivial
  refine asks_then rfl ?_
  rintro (err | result) <;> trivial

end Handling

section Reading

variable {metadata : Metadata} {app : App} {workload : Workload} {ctx : Ctx} {generation : String}

theorem preflightLocalHostPorts_reads {incoming : List HostPortClaim} : Reads (preflightLocalHostPorts metadata incoming) := by
  refine asks_then rfl fun _ => asks_eachUntil ?_ _
  intro claim
  split
  · trivial
  refine asks_then rfl ?_
  rintro (err | _) <;> trivial

theorem preflightDeploy_reads : Reads (preflightDeploy app) := by
  unfold preflightDeploy
  split
  · trivial
  dsimp only
  split
  · trivial
  refine asks_bind (asks_then rfl fun _ => trivial) ?_
  rintro (err | _)
  · trivial
  · exact preflightLocalHostPorts_reads

theorem autoRollbackConfigured_reads : Reads (autoRollbackConfigured metadata workload generation) := by
  unfold autoRollbackConfigured
  split
  · trivial
  refine asks_bind ?_ fun _ => trivial
  unfold autoRollbackIsSuppressed
  dsimp only
  split
  · trivial
  · exact asks_perform rfl

theorem autoRollbackDesiredGenerationCurrent_reads :
    Reads (autoRollbackDesiredGenerationCurrent metadata generation) := by
  refine asks_then rfl ?_
  rintro (_ | current) <;> trivial

theorem withRolloutProgressDeadline_eq : withRolloutProgressDeadline ctx workload =
    workload.progressLimit.elim (pure ctx) fun limit => do return ctx.withTimeout (← ask .now) limit := by
  simp only [withRolloutProgressDeadline, Workload.progressLimit]
  cases workload.rollout with
  | none => rfl
  | some rollout =>
    dsimp only
    cases rollout.progressDeadlineDuration with
    | error err => rfl
    | ok deadline =>
      dsimp only
      split_ifs <;> rfl

theorem withRolloutProgressDeadline_reads : Reads (withRolloutProgressDeadline ctx workload) := by
  rw [withRolloutProgressDeadline_eq]
  cases workload.progressLimit with
  | none => trivial
  | some limit => exact asks_then rfl fun _ => trivial

variable {svc : Service}

theorem chooseWorkloadNode_reads : Reads (chooseWorkloadNode svc workload) := by
  refine asks_then rfl ?_
  rintro (err | chosen)
  · dsimp only
    split <;> trivial
  · trivial

variable {name : String}

theorem stopTargetNode_reads : Reads (stopTargetNode svc metadata name) := by
  refine asks_then rfl ?_
  rintro (_ | assignment)
  · trivial
  · dsimp only
    split <;> trivial

theorem assignmentNodeOrEmpty_reads : Reads (assignmentNodeOrEmpty metadata name) := by
  refine asks_then rfl ?_
  rintro (_ | assignment) <;> trivial

theorem workloadAssignment_idle (metadata : Metadata) (name : String) : Idle (workloadAssignment metadata name) :=
  asks_perform rfl

theorem runtimeStatus_idle (ctx : Ctx) (kind : RuntimeKind) (metadata : Metadata) (name : String) :
    Idle (ask (.runtimeStatus ctx kind metadata name)) :=
  asks_perform rfl

variable {node : String}

theorem skipStaleDeployFailure_reads :
    Reads (skipStaleDeployFailure metadata name node generation) := by
  refine asks_then rfl ?_
  rintro (_ | assignment) <;> trivial

variable {address : String}

theorem waitWorkloadReadiness_reads : Reads (waitWorkloadReadiness ctx metadata workload address) :=
  waitWorkloadReadiness_asks fun _ _ _ _ _ => rfl

theorem markAutoRollbackAttempt_idle : Idle (markAutoRollbackAttempt metadata generation) := by
  unfold markAutoRollbackAttempt
  dsimp only
  split
  · trivial
  · exact asks_perform rfl

theorem suppressAutoRollback_idle : Idle (suppressAutoRollback metadata generation) := by
  unfold suppressAutoRollback
  dsimp only
  split
  · trivial
  · exact asks_perform rfl

theorem autoRollbackRevision_idle : Idle (autoRollbackRevision metadata workload generation) := by
  refine asks_bind autoRollbackConfigured_reads.idle ?_
  rintro (_ | _)
  · trivial
  refine asks_bind autoRollbackDesiredGenerationCurrent_reads.idle ?_
  rintro (_ | _)
  · trivial
  refine asks_then rfl ?_
  rintro (_ | revision)
  · trivial
  dsimp only
  split
  · trivial
  refine asks_bind markAutoRollbackAttempt_idle ?_
  rintro (_ | _) <;> trivial

theorem waitWorkloadRestartDelay_eq : waitWorkloadRestartDelay ctx workload =
    workload.restartPause.elim (pure true) fun pause => do return (← ask (.sleep ctx pause)).isOk := by
  simp only [waitWorkloadRestartDelay, Workload.restartPause]
  cases workload.lifecycle with
  | none => rfl
  | some lifecycle =>
    dsimp only
    split_ifs with blank
    · rfl
    cases Parse.duration lifecycle.restartDelay with
    | none => rfl
    | some delay =>
      dsimp only
      split_ifs with past
      · rfl
      refine congrArg (ask (.sleep ctx delay.toNat) >>= ·) (funext fun answer => ?_)
      cases answer <;> rfl

theorem waitWorkloadRestartDelay_idle : Idle (waitWorkloadRestartDelay ctx workload) := by
  rw [waitWorkloadRestartDelay_eq]
  cases workload.restartPause with
  | none => trivial
  | some pause => exact asks_then rfl fun _ => trivial

theorem waitRetryDelay_idle {assignment : Assignment} : Idle (waitRetryDelay ctx workload assignment generation) := by
  unfold waitRetryDelay
  split
  · exact waitWorkloadRestartDelay_idle
  · trivial

variable {error : Option Failure}

theorem applyWorkloadAssignment_records {status : AssignmentStatus} :
    (applyWorkloadAssignment ctx metadata workload node status generation error address).Asks
      fun op : TaskOp => op.records = true := by
  refine asks_bind ?_ fun _ => trivial
  unfold raftApplyWorkloadAssignment
  split
  · trivial
  split
  · trivial
  split
  · trivial
  exact asks_perform rfl

theorem recordWorkload_records {status : AssignmentStatus} {binding : BindingStatus} :
    (recordWorkload ctx app workload node status binding generation error address).Asks
      fun op : TaskOp => op.records = true :=
  asks_bind applyWorkloadAssignment_records fun _ => applyWorkloadVolumeBindings_asks fun _ => rfl

theorem deleteRecord_idle : Idle (deleteRecord name) := deleteRecord_asks fun _ => rfl

theorem refreshLocal_idle : Idle (refreshLocal svc ctx) := by
  refine asks_then rfl ?_
  rintro (err | report)
  · trivial
  refine asks_then rfl ?_
  rintro (_ | _)
  · trivial
  refine asks_then rfl ?_
  rintro (err | _) <;> trivial

theorem applyWorkloadVolumeBindings_idle {status : BindingStatus} :
    Idle (applyWorkloadVolumeBindings ctx app workload node status generation error) :=
  applyWorkloadVolumeBindings_asks fun _ => rfl

end Reading

theorem not_convergedOnDifferentNode {a : Assignment} {node generation : String}
    (same : trimSpace node = "" ∨ trimSpace a.node = trimSpace node) :
    assignmentConvergedOnDifferentNode a node generation = false := by
  rcases same with blank | same
  · simp [assignmentConvergedOnDifferentNode, blank]
  · simp [assignmentConvergedOnDifferentNode, same]

end Orch
