import Orch.Meta
import Mathlib.Data.List.AList

namespace Orch

/-- A resource view of one node, as far as placement reads it, and when it was
taken. -/
structure Snapshot where
  nodeID : String
  updatedAt : Nat
  logicalCPUCores : Int
  cpuUsagePercent : Rat
  memoryAvailBytes : Nat
deriving DecidableEq, Repr

/-- A Go map with string keys. -/
abbrev Table (β : Type) := AList fun _ : String => β

def Table.values {β : Type} (m : Table β) : List β :=
  m.entries.map Sigma.snd

structure DeployAppRevision where
  generation : String
  app : App

/-- The part of the replicated state that decisions are made from. -/
structure Ledger where
  nodeCapacity : Table Snapshot := ∅
  deployApps : Table App := ∅
  deployAppRevisions : Table (List DeployAppRevision) := ∅
  assignments : Table Assignment := ∅

/-- The replicated control-plane state, but for the times in its records. -/
structure FsmState extends Ledger where
  appliedCommands : Nat := 0
  volumeBindings : Table Binding := ∅

inductive Command where
  | upsertNodeCapacity (node : Snapshot)
  | upsertDeployApp (app : App)
  | deleteDeployApp (metadata : Metadata)
  | upsertWorkloadAssignment (assignment : Assignment)
  | upsertVolumeBinding (binding : Binding)

def maxDeployAppRevisions : Nat := 10

def deployAppMapKey (m : Metadata) : String :=
  namespaceOrDefault m.nspace ++ "/" ++ trimSpace m.name

/-- An argument list after a trip through JSON: `omitempty` drops an empty
one, which is read back as nil. -/
def decodedList (xs : Option (List String)) : Option (List String) :=
  xs.filter fun items => !items.isEmpty

def Workload.decoded (w : Workload) : Workload :=
  { w with run.exec := ⟨decodedList w.run.exec.command, decodedList w.run.exec.args⟩ }

/-- The document the state machine reads out of the command that carries it. -/
def App.decoded (a : App) : App :=
  { a with workloads := a.workloads.map Workload.decoded }

/-- A key, or the one to use when it is blank. -/
def filledKey (key fallback : String) : String :=
  if trimSpace key = "" then fallback else trimSpace key

/-- An assignment as it is stored: trimmed, with a key filled in. -/
def Assignment.trimmed (a : Assignment) : Assignment :=
  let metadata := { a.metadata with name := trimSpace a.metadata.name, nspace := trimSpace a.metadata.nspace }
  let workload := trimSpace a.workload
  { a with
    key := filledKey a.key (assignmentKey metadata workload), metadata, workload
    node := trimSpace a.node, address := trimSpace a.address }

/-- A record without the names is refused. -/
def normalizeAssignment (a : Assignment) : Option Assignment :=
  if a.trimmed.metadata.name = "" ∨ a.trimmed.workload = "" ∨ a.trimmed.key = "" then none else some a.trimmed

def Binding.trimmed (b : Binding) : Binding :=
  let metadata := { b.metadata with name := trimSpace b.metadata.name, nspace := trimSpace b.metadata.nspace }
  let workload := trimSpace b.workload
  let volume := trimSpace b.volume
  { b with
    key := filledKey b.key (bindingKey metadata workload volume), metadata, workload, volume
    target := trimSpace b.target, node := trimSpace b.node, source := trimSpace b.source }

def normalizeVolumeBinding (b : Binding) : Option Binding :=
  if b.trimmed.metadata.name = "" ∨ b.trimmed.workload = "" ∨ b.trimmed.volume = "" ∨ b.trimmed.key = "" then none
  else some b.trimmed

namespace Ledger

def appendDeployAppRevision (f : Ledger) (key : String) (app : App) : Ledger :=
  let generation := appGeneration app
  let revisions := (f.deployAppRevisions.lookup key).getD []
  if trimSpace generation = "" then f
  else if (revisions.getLast?.map DeployAppRevision.generation) = some generation then f
  else
    let revisions := revisions ++ [⟨generation, app⟩]
    { f with
      deployAppRevisions := f.deployAppRevisions.insert key (revisions.drop (revisions.length - maxDeployAppRevisions)) }

def applyNodeCapacity (f : Ledger) (node : Snapshot) : Ledger :=
  if trimSpace node.nodeID = "" then f
  else { f with nodeCapacity := f.nodeCapacity.insert (trimSpace node.nodeID) node }

def applyDeployApp (f : Ledger) (app : App) : Ledger :=
  let key := deployAppMapKey app.metadata
  if trimSpace app.metadata.name = "" then f
  else
    let kept :=
      match f.deployApps.lookup key with
      | some current => if appGeneration current ≠ appGeneration app then f.appendDeployAppRevision key current else f
      | none => f
    { kept with deployApps := kept.deployApps.insert key app }

def applyDeleteDeployApp (f : Ledger) (metadata : Metadata) : Ledger :=
  let key := deployAppMapKey metadata
  if trimSpace metadata.name = "" then f
  else { f with deployApps := f.deployApps.erase key, deployAppRevisions := f.deployAppRevisions.erase key }

def applyWorkloadAssignment (f : Ledger) (assignment : Assignment) : Ledger :=
  match normalizeAssignment assignment with
  | none => f
  | some a => { f with assignments := f.assignments.insert a.key a }

def update (f : Ledger) (command : Command) : Ledger :=
  match command with
  | .upsertNodeCapacity node => f.applyNodeCapacity node
  | .upsertDeployApp app => f.applyDeployApp app.decoded
  | .deleteDeployApp metadata => f.applyDeleteDeployApp metadata
  | .upsertWorkloadAssignment assignment => f.applyWorkloadAssignment assignment
  | .upsertVolumeBinding _ => f

def getDeployApp (f : Ledger) (metadata : Metadata) : Option App :=
  f.deployApps.lookup (deployAppMapKey metadata)

def listDeployApps (f : Ledger) : List App :=
  f.deployApps.values

def previousDeployApp (f : Ledger) (metadata : Metadata) : Option DeployAppRevision :=
  ((f.deployAppRevisions.lookup (deployAppMapKey metadata)).getD []).getLast?

def getAssignment (f : Ledger) (key : String) : Option Assignment :=
  f.assignments.lookup (trimSpace key)

end Ledger

namespace FsmState

def applyVolumeBinding (f : FsmState) (binding : Binding) : Table Binding :=
  match normalizeVolumeBinding binding with
  | none => f.volumeBindings
  | some b => f.volumeBindings.insert b.key b

def update (f : FsmState) (command : Command) : FsmState where
  toLedger := f.toLedger.update command
  appliedCommands := f.appliedCommands + 1
  volumeBindings :=
    match command with
    | .upsertVolumeBinding binding => f.applyVolumeBinding binding
    | _ => f.volumeBindings

end FsmState

def Command.desires : Command → Table App → Table App
  | .upsertDeployApp app, desired =>
    if trimSpace app.metadata.name = "" then desired else desired.insert (deployAppMapKey app.metadata) app.decoded
  | .deleteDeployApp metadata, desired =>
    if trimSpace metadata.name = "" then desired else desired.erase (deployAppMapKey metadata)
  | _, desired => desired

def Command.assigns : Command → Table Assignment → Table Assignment
  | .upsertWorkloadAssignment a, kept =>
    match normalizeAssignment a with
    | none => kept
    | some a => kept.insert a.key a
  | _, kept => kept

theorem Ledger.appendDeployAppRevision_eq (f : Ledger) (key : String) (app : App) :
    ∃ revisions, f.appendDeployAppRevision key app = { f with deployAppRevisions := revisions } := by
  simp only [appendDeployAppRevision]
  split
  · exact ⟨_, rfl⟩
  · split <;> exact ⟨_, rfl⟩

theorem Ledger.update_eq (f : Ledger) (command : Command) : ∃ revisions catalog, f.update command =
    { f with
      deployApps := command.desires f.deployApps, assignments := command.assigns f.assignments
      deployAppRevisions := revisions, nodeCapacity := catalog } := by
  cases command with
  | upsertNodeCapacity node =>
    simp only [update, applyNodeCapacity]
    split <;> exact ⟨_, _, rfl⟩
  | upsertVolumeBinding binding => exact ⟨_, _, rfl⟩
  | upsertWorkloadAssignment assignment =>
    simp only [update, applyWorkloadAssignment, Command.assigns]
    split <;> exact ⟨_, _, rfl⟩
  | deleteDeployApp metadata =>
    simp only [update, applyDeleteDeployApp, Command.desires]
    split <;> exact ⟨_, _, rfl⟩
  | upsertDeployApp app =>
    simp only [update, applyDeployApp, Command.desires]
    by_cases named : trimSpace app.metadata.name = ""
    · rw [if_pos (by exact named), if_pos named]
      exact ⟨_, _, rfl⟩
    rw [if_neg (by exact named), if_neg named]
    split
    · split
      · rename_i current _ _
        obtain ⟨revisions, joined⟩ := f.appendDeployAppRevision_eq (deployAppMapKey app.decoded.metadata) current
        rw [joined]
        exact ⟨_, _, rfl⟩
      · exact ⟨_, _, rfl⟩
    · exact ⟨_, _, rfl⟩

theorem Ledger.deployApps_update (f : Ledger) (command : Command) :
    (f.update command).deployApps = command.desires f.deployApps := by
  obtain ⟨_, _, updated⟩ := f.update_eq command
  rw [updated]

theorem Ledger.assignments_update (f : Ledger) (command : Command) :
    (f.update command).assignments = command.assigns f.assignments := by
  obtain ⟨_, _, updated⟩ := f.update_eq command
  rw [updated]

/-- A revision is an earlier one, or the document just replaced. -/
theorem Ledger.revision_of_update {f : Ledger} {command : Command} {key : String} {revisions : List DeployAppRevision}
    {r : DeployAppRevision} (found : (f.update command).deployAppRevisions.lookup key = some revisions)
    (member : r ∈ revisions) :
    (∃ earlier, f.deployAppRevisions.lookup key = some earlier ∧ r ∈ earlier) ∨
      ∃ app, f.deployApps.lookup key = some app ∧ r = ⟨appGeneration app, app⟩ := by
  cases command with
  | upsertNodeCapacity | upsertWorkloadAssignment =>
    simp only [update, applyNodeCapacity, applyWorkloadAssignment] at found
    split at found <;> exact .inl ⟨_, found, member⟩
  | upsertVolumeBinding => exact .inl ⟨_, found, member⟩
  | deleteDeployApp metadata =>
    simp only [update, applyDeleteDeployApp] at found
    split at found
    · exact .inl ⟨_, found, member⟩
    rcases eq_or_ne key (deployAppMapKey metadata) with rfl | other
    · simp at found
    · rw [AList.lookup_erase_ne other] at found
      exact .inl ⟨_, found, member⟩
  | upsertDeployApp app =>
    simp only [update, applyDeployApp, appendDeployAppRevision] at found
    repeat' split at found
    case h_1.isTrue.isFalse.isFalse current desired _ _ _ =>
      rcases eq_or_ne key (deployAppMapKey app.decoded.metadata) with rfl | other
      · rw [AList.lookup_insert] at found
        cases found
        rcases List.mem_append.mp (List.mem_of_mem_drop member) with old | new
        · cases earlier : f.deployAppRevisions.lookup (deployAppMapKey app.decoded.metadata) with
          | none => simp [earlier] at old
          | some revisions =>
            rw [earlier] at old
            exact .inl ⟨_, rfl, old⟩
        · exact .inr ⟨current, desired, List.mem_singleton.mp new⟩
      · rw [AList.lookup_insert_ne other] at found
        exact .inl ⟨_, found, member⟩
    all_goals exact .inl ⟨_, found, member⟩

variable {f : Ledger}

theorem Ledger.getDeployApp_congr {a b : Metadata} (same : deployAppMapKey a = deployAppMapKey b) :
    f.getDeployApp a = f.getDeployApp b := by
  rw [getDeployApp, same]
  rfl

variable {metadata : Metadata}

theorem Ledger.getDeployApp_delete (named : trimSpace metadata.name ≠ "") :
    (f.applyDeleteDeployApp metadata).getDeployApp metadata = none := by
  simp only [applyDeleteDeployApp, if_neg named, getDeployApp, AList.lookup_erase]

theorem Ledger.assignments_delete (f : Ledger) (metadata : Metadata) :
    (f.applyDeleteDeployApp metadata).assignments = f.assignments := by
  simp only [applyDeleteDeployApp]
  split <;> rfl

/-- The record of a workload as it stands in the replicated state. -/
def assignmentRecord (metadata : Metadata) (workload : Workload) (nodeID : String) (status : AssignmentStatus)
    (generation : String) (error : Option Failure) (address artifact : String) : Assignment :=
  { key := assignmentKey metadata workload.name
    metadata := { metadata with name := trimSpace metadata.name, nspace := trimSpace metadata.nspace }
    workload := trimSpace workload.name, node := trimSpace nodeID, address := trimSpace address
    runtime := workload.runtime, artifact, status, generation := trimSpace generation, error }

variable {workload : Workload} {nodeID generation address artifact : String} {status : AssignmentStatus}
  {error : Option Failure}

theorem Assignment.trimmed_record (named : trimSpace metadata.name ≠ "") (present : trimSpace workload.name ≠ "") :
    (assignmentRecord metadata workload nodeID status generation error address artifact).trimmed =
      assignmentRecord metadata workload nodeID status generation error address artifact := by
  have key : assignmentKey metadata workload.name ≠ "" := WorkloadId.key_ne_empty named present
  simp [Assignment.trimmed, assignmentRecord, filledKey, key]

theorem normalizeAssignment_record (named : trimSpace metadata.name ≠ "") (present : trimSpace workload.name ≠ "") :
    normalizeAssignment (assignmentRecord metadata workload nodeID status generation error address artifact) =
      some (assignmentRecord metadata workload nodeID status generation error address artifact) := by
  have key : assignmentKey metadata workload.name ≠ "" := WorkloadId.key_ne_empty named present
  rw [normalizeAssignment, Assignment.trimmed_record named present]
  simp [assignmentRecord, named, present, key]

theorem Ledger.update_assignmentRecord (named : trimSpace metadata.name ≠ "") (present : trimSpace workload.name ≠ "") :
    f.update (.upsertWorkloadAssignment
        (assignmentRecord metadata workload nodeID status generation error address artifact)) =
      { f with
        assignments := f.assignments.insert (assignmentKey metadata workload.name)
          (assignmentRecord metadata workload nodeID status generation error address artifact) } := by
  simp only [Ledger.update, Ledger.applyWorkloadAssignment, normalizeAssignment_record named present]
  rfl

end Orch
