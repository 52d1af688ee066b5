import Orch.Task.Reads
import Orch.Task.Progress

open Effect

namespace Orch

/-- The actions that wait for no trigger and that stop and start no other
workload. -/
def TaskOp.minds (id : WorkloadId) : TaskOp → Prop
  | .waitLocalLeader | .pollReconcileSignal | .waitReconcileTrigger => False
  | .runtimeStop _ _ metadata name => workloadId metadata name = id
  | .runtimeDeploy _ metadata workload => workloadId metadata workload.name = id
  | .dispatchStop _ _ metadata workload => workloadId metadata workload.name = id
  | .dispatchWorkload _ _ metadata workload => workloadId metadata workload.name = id
  | _ => True

abbrev Minds {α : Type} (id : WorkloadId) (p : Task α) : Prop := p.Asks fun op : TaskOp => op.minds id

def TaskOp.tends (id : WorkloadId) : TaskOp → Prop
  | .takeRestart _ _ => False
  | op => op.minds id

abbrev Tends {α : Type} (id : WorkloadId) (p : Task α) : Prop := p.Asks fun op : TaskOp => op.tends id

def TaskOp.reports : TaskOp → Bool
  | .waitLocalLeader | .pollReconcileSignal | .waitReconcileTrigger => false
  | .takeRestart _ _ | .runtimeStop _ _ _ _ | .runtimeDeploy _ _ _ => false
  | .dispatchStop _ _ _ _ | .dispatchWorkload _ _ _ _ => false
  | _ => true

abbrev Reports {α : Type} (p : Task α) : Prop := p.Asks fun op : TaskOp => op.reports = true

variable {α : Type} {id : WorkloadId} {p : Task α}

theorem Tends.minds (tends : Tends id p) : Minds id p := by
  refine tends.mono ?_
  intro op kind
  cases op with
  | takeRestart => exact kind.elim
  | _ => exact kind

theorem Reports.tends (reports : Reports p) : Tends id p := by
  refine reports.mono ?_
  intro op kind
  cases op with
  | waitLocalLeader | pollReconcileSignal | waitReconcileTrigger | takeRestart => cases kind
  | runtimeStop | runtimeDeploy | dispatchStop | dispatchWorkload => cases kind
  | _ => trivial

theorem TaskOp.minds.awaits {op : TaskOp} (minds : op.minds id) : op.awaits = false := by
  cases op with
  | waitLocalLeader | pollReconcileSignal | waitReconcileTrigger => exact minds.elim
  | _ => rfl

variable {id : WorkloadId} {svc : Service} {ctx : Ctx} {metadata : Metadata} {app : App} {workload : Workload}
variable {name node generation address : String} {status : AssignmentStatus} {binding : BindingStatus}
variable {error : Option Failure} {err : Failure} {opts : DeployOptions} {assignment : Assignment}

theorem Idle.reports (idle : Idle p) : Reports p := by
  refine idle.mono ?_
  intro op plain
  cases op with
  | waitLocalLeader | pollReconcileSignal | waitReconcileTrigger | takeRestart => cases plain
  | runtimeStop | runtimeDeploy | dispatchStop | dispatchWorkload => cases plain
  | _ => rfl

theorem Idle.minds (idle : Idle p) : Minds id p := idle.reports.tends.minds

theorem reports_of_records (records : p.Asks fun op : TaskOp => op.records = true) : Reports p := by
  refine records.mono ?_
  intro op kept
  cases op with
  | apply => rfl
  | _ => cases kept

theorem recordWorkload_tends :
    Tends id (recordWorkload ctx app workload node status binding generation error address) :=
  (reports_of_records recordWorkload_records).tends

theorem Handles.tends (handles : Handles id p) : Tends id p := by
  refine handles.mono ?_
  intro op kind
  cases op with
  | runtimeStop | runtimeDeploy | dispatchStop | dispatchWorkload => exact kind
  | waitLocalLeader | pollReconcileSignal | waitReconcileTrigger | takeRestart => exact kind.elim
  | _ => trivial

theorem stopAppWorkload_minds :
    Minds (workloadId app.metadata workload.name) (stopAppWorkload svc ctx app generation workload) := by
  refine asks_bind (asks_bind stopTargetNode_reads.idle.minds fun _ => stopWorkloadOnNode_handles.tends.minds) ?_
  rintro (err | _) <;>
    exact asks_bind assignmentNodeOrEmpty_reads.idle.minds fun _ =>
      asks_bind recordWorkload_tends.minds fun _ => trivial

theorem maybeAutoRollbackDeployFailure_reports : Reports (maybeAutoRollbackDeployFailure metadata workload generation) := by
  refine asks_bind autoRollbackRevision_idle.reports ?_
  rintro (_ | revision)
  · trivial
  refine asks_then rfl fun _ => asks_bind preflightDeploy_reads.idle.reports ?_
  rintro (err | _)
  · trivial
  exact asks_bind suppressAutoRollback_idle.reports fun _ => asks_then rfl fun _ => trivial

theorem recordDeployFailure_reports : Reports (recordDeployFailure ctx app workload node generation err) := by
  refine asks_bind (stopWorkloadHealthMonitor_asks fun _ => rfl) fun _ => asks_bind skipStaleDeployFailure_reads.idle.reports ?_
  rintro (_ | _)
  · exact asks_bind (reports_of_records recordWorkload_records) fun _ => maybeAutoRollbackDeployFailure_reports
  · trivial

theorem stopPreviousGeneration_tends :
    Tends (workloadId metadata workload.name) (stopPreviousGeneration svc ctx metadata workload assignment generation) := by
  simp only [stopPreviousGeneration]
  split
  · trivial
  split
  · trivial
  · exact stopWorkloadOnNode_handles.tends

theorem handleExistingAssignment_minds :
    Minds (workloadId app.metadata workload.name) (handleExistingAssignment svc ctx app workload assignment generation opts) := by
  unfold handleExistingAssignment
  split
  · trivial
  split
  · trivial
  refine asks_bind ?_ ?_
  · unfold canRetryFailedAssignment
    split
    · trivial
    unfold allowWorkloadRestart
    split
    · trivial
    · exact asks_perform trivial
  rintro (_ | _)
  · trivial
  refine asks_bind waitRetryDelay_idle.minds ?_
  rintro (_ | _)
  · trivial
  refine asks_bind stopPreviousGeneration_tends.minds ?_
  rintro (err | _)
  · exact asks_bind recordDeployFailure_reports.tends.minds fun _ => trivial
  · trivial

theorem placeWorkload_tends : Tends (workloadId app.metadata workload.name) (placeWorkload svc ctx app workload generation) := by
  refine asks_bind chooseWorkloadNode_reads.idle.reports.tends ?_
  rintro (err | chosen)
  · exact asks_bind recordDeployFailure_reports.tends fun _ => trivial
  refine asks_bind (reports_of_records applyWorkloadAssignment_records).tends fun _ => ?_
  split
  · refine asks_bind dispatchWorkload_handles.tends ?_
    rintro (err | result)
    · exact asks_bind recordDeployFailure_reports.tends fun _ => trivial
    · exact asks_then trivial fun _ => asks_bind recordWorkload_tends fun _ => trivial
  · refine asks_bind runLocalWorkload_handles.tends ?_
    rintro (err | result)
    · exact asks_bind recordDeployFailure_reports.tends fun _ => trivial
    refine asks_bind recordWorkload_tends fun _ => asks_bind ?_ fun _ => trivial
    simp only [startLocalWorkloadHealthMonitor]
    split
    · trivial
    · exact asks_then trivial fun _ => trivial

theorem deployOneWorkload_minds : Minds (workloadId app.metadata workload.name)
    (deployOneWorkload svc ctx app generation opts workload) := by
  refine asks_bind withRolloutProgressDeadline_reads.idle.minds fun _ => asks_then trivial ?_
  rintro (_ | assignment)
  · exact placeWorkload_tends.minds
  refine asks_bind handleExistingAssignment_minds ?_
  rintro (result | _)
  · trivial
  · exact placeWorkload_tends.minds

end Orch
