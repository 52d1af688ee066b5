import Orch.Task.Local

namespace Orch

open Effect

def raftApplyDeployApp (ctx : Ctx) (app : App) : Task Check :=
  ask (.apply ctx (.upsertDeployApp app))

def raftApplyDeleteDeployApp (ctx : Ctx) (metadata : Metadata) : Task Check :=
  if metadata.name = "" then return .fail "metadata.name is required"
  else ask (.apply ctx (.deleteDeployApp metadata))

def raftApplyWorkloadAssignment (ctx : Ctx) (assignment : Assignment) : Task Check :=
  if assignment.trimmed.metadata.name = "" then return .fail "assignment metadata.name is required"
  else if assignment.trimmed.workload = "" then return .fail "assignment workload is required"
  else if assignment.trimmed.key = "" then return .fail "assignment key is required"
  else ask (.apply ctx (.upsertWorkloadAssignment assignment.trimmed))

def raftApplyVolumeBinding (ctx : Ctx) (binding : Binding) : Task Check :=
  if binding.trimmed.metadata.name = "" then return .fail "volume binding metadata.name is required"
  else if binding.trimmed.workload = "" then return .fail "volume binding workload is required"
  else if binding.trimmed.volume = "" then return .fail "volume binding volume is required"
  else if binding.trimmed.key = "" then return .fail "volume binding key is required"
  else ask (.apply ctx (.upsertVolumeBinding binding.trimmed))

/-- Replicate the assignment of a workload. A failure is only logged. -/
def applyWorkloadAssignment (ctx : Ctx) (metadata : Metadata) (workload : Workload) (nodeID : String)
    (status : AssignmentStatus) (generation : String) (error : Option Failure) (address : String := "") :
    Task Unit := do
  let _ ← raftApplyWorkloadAssignment ctx
    { key := assignmentKey metadata workload.name, metadata, workload := workload.name, node := trimSpace nodeID
      address := trimSpace address, runtime := workload.runtime, artifact := artifactSummary workload.run
      status, generation := trimSpace generation, error }
  return ()

theorem applyWorkloadAssignment_eq {ctx : Ctx} {metadata : Metadata} {workload : Workload} {node generation address : String}
    {status : AssignmentStatus} {error : Option Failure} (named : trimSpace metadata.name ≠ "")
    (present : trimSpace workload.name ≠ "") :
    applyWorkloadAssignment ctx metadata workload node status generation error address = (do
      let _ ← ask (.apply ctx (.upsertWorkloadAssignment
        (assignmentRecord metadata workload node status generation error address (artifactSummary workload.run))))
      return ()) := by
  have key : assignmentKey metadata workload.name ≠ "" := WorkloadId.key_ne_empty named present
  have sent : Assignment.trimmed
      { key := assignmentKey metadata workload.name, metadata, workload := workload.name, node := trimSpace node
        address := trimSpace address, runtime := workload.runtime, artifact := artifactSummary workload.run
        status, generation := trimSpace generation, error } =
      assignmentRecord metadata workload node status generation error address (artifactSummary workload.run) := by
    simp [Assignment.trimmed, assignmentRecord, filledKey, key]
  rw [applyWorkloadAssignment, raftApplyWorkloadAssignment, sent,
    if_neg (show (assignmentRecord ..).metadata.name ≠ "" from named),
    if_neg (show (assignmentRecord ..).workload ≠ "" from present), if_neg (show (assignmentRecord ..).key ≠ "" from key)]

/-- The declaration of a volume. Of several with one name the last counts. -/
def volumeSpec (app : App) (volumeName : String) : Option Volume :=
  app.volumes.reverse.find? fun volume => trimSpace volume.name == volumeName

def volumeName (metadata : Metadata) (volumeName : String) : String :=
  "orch-" ++ sanitizeName (namespaceOrDefault metadata.nspace) ++ "-" ++ sanitizeName metadata.name ++ "-" ++
    sanitizeName volumeName

def applyMountBinding (ctx : Ctx) (app : App) (workload : Workload) (nodeID : String) (status : BindingStatus)
    (generation : String) (error : Option Failure) (mount : Mount) : Task Unit :=
  let name := trimSpace mount.volume
  let volume := volumeSpec app name
  if name = "" then return ()
  else do
    let _ ← raftApplyVolumeBinding ctx
      { key := bindingKey app.metadata workload.name name, metadata := app.metadata, volume := name
        workload := workload.name, target := trimSpace mount.target, node := trimSpace nodeID
        runtime := workload.runtime, source := volumeName app.metadata name
        persistent := (volume.map Volume.persistent).getD false, sizeBytes := (volume.map Volume.sizeBytes).getD 0
        status, generation := trimSpace generation, error }
    return ()

def applyWorkloadVolumeBindings (ctx : Ctx) (app : App) (workload : Workload) (nodeID : String)
    (status : BindingStatus) (generation : String) (error : Option Failure) : Task Unit :=
  Program.each (applyMountBinding ctx app workload nodeID status generation error) workload.mounts

/-- The assignment and the bindings of a workload, after one and the same event. -/
def recordWorkload (ctx : Ctx) (app : App) (workload : Workload) (nodeID : String) (status : AssignmentStatus)
    (binding : BindingStatus) (generation : String) (error : Option Failure) (address : String := "") :
    Task Unit := do
  applyWorkloadAssignment ctx app.metadata workload nodeID status generation error address
  applyWorkloadVolumeBindings ctx app workload nodeID binding generation error

def workloadAssignment (metadata : Metadata) (workloadName : String) : Task (Option Assignment) :=
  ask (.getWorkloadAssignment (assignmentKey metadata workloadName))

def assignmentNodeOrEmpty (metadata : Metadata) (workloadName : String) : Task String := do
  match ← workloadAssignment metadata workloadName with
  | none => return ""
  | some assignment => return assignment.node

end Orch
