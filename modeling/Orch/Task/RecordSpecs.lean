import Orch.Raft.Documents
import Orch.Task.Records
import Orch.Task.View
import Orch.Task.Reads

namespace Orch

open Effect

variable {R : Runtime}

def Ledger.recordedNode (f : Ledger) (metadata : Metadata) (workloadName : String) : String :=
  match f.getAssignment (assignmentKey metadata workloadName) with
  | none => ""
  | some assignment => assignment.node

theorem Ledger.recordedNode_congr {f g : Ledger} (same : f.assignments = g.assignments) (metadata : Metadata)
    (name : String) : f.recordedNode metadata name = g.recordedNode metadata name := by
  simp only [recordedNode, getAssignment, same]

namespace View

def record (v : View R) (a : Assignment) : View R :=
  { v with fsm := { v.fsm with assignments := v.fsm.assignments.insert a.key a } }

@[simp] theorem record_deployApps (v : View R) (a : Assignment) : (v.record a).fsm.deployApps = v.fsm.deployApps := rfl

@[simp] theorem record_getDeployApp (v : View R) (a : Assignment) (metadata : Metadata) :
    (v.record a).fsm.getDeployApp metadata = v.fsm.getDeployApp metadata := rfl

variable {a : Assignment}

theorem record_holds {good : String → App → Prop} {v : View R} (holds : v.fsm.Holds good) :
    (v.record a).fsm.Holds good :=
  ⟨holds.desired, holds.revised⟩

theorem record_getAssignment {v : View R} {key : String} (own : trimSpace key = a.key) :
    (v.record a).fsm.getAssignment key = some a := by
  revert own
  unfold Ledger.getAssignment
  generalize trimSpace key = k
  rintro rfl
  exact AList.lookup_insert _

theorem record_getAssignment_other {v : View R} {key : String} (other : trimSpace key ≠ a.key) :
    (v.record a).fsm.getAssignment key = v.fsm.getAssignment key := by
  simp only [Ledger.getAssignment, record, AList.lookup_insert_ne other]

end View

variable {metadata : Metadata} {name : String}

theorem recordedNode_record {R : Runtime} {v : View R} {a : Assignment}
    (apart : assignmentKey metadata name ≠ a.key) :
    (v.record a).fsm.recordedNode metadata name = v.fsm.recordedNode metadata name := by
  unfold Ledger.recordedNode
  rw [View.record_getAssignment_other (by rwa [trimSpace_assignmentKey])]

theorem assignmentKey_ne {v w : Workload} (named : trimSpace metadata.name ≠ "") (left : v.key ≠ "")
    (right : w.key ≠ "") (apart : v.key ≠ w.key) :
    assignmentKey metadata v.name ≠ assignmentKey metadata w.name := by
  intro same
  exact apart (WorkloadId.key_inj named left right same)

variable {workload : Workload} {node generation address : String} {status : AssignmentStatus} {error : Option Failure}

theorem recordsOf_record_other {v : View R} {m : Metadata} {app : App} {sorter : GraphSorter} {artifact : String}
    (clean : m.Clean) (named : trimSpace m.name ≠ "") (valid : app.validate sorter = .ok ())
    (present : workload.key ≠ "") (apart : deployAppMapKey app.metadata ≠ deployAppMapKey m) :
    (v.record (assignmentRecord app.metadata workload node status generation error address artifact)).fsm.recordsOf m =
      v.fsm.recordsOf m := by
  refine AppRecords.ext rfl rfl (funext fun name => View.record_getAssignment_other ?_)
  rw [trimSpace_assignmentKey]
  exact assignmentKey_ne_of_app clean (App.validate_clean valid) named (App.validate_name valid) present apart

theorem assigned_record {v : View R} {m : Metadata} {artifact : String} (named : trimSpace m.name ≠ "")
    (present : workload.key ≠ "") :
    ((v.record (assignmentRecord m workload node status generation error address artifact)).fsm.recordsOf m).assigned name =
      if trimSpace name = workload.key then some (assignmentRecord m workload node status generation error address artifact)
      else (v.fsm.recordsOf m).assigned name := by
  split
  · rename_i here
    refine View.record_getAssignment ?_
    rw [trimSpace_assignmentKey, assignmentKey, workloadId, here]
    rfl
  · rename_i elsewhere
    refine View.record_getAssignment_other ?_
    rw [trimSpace_assignmentKey]
    intro same
    by_cases blank : trimSpace name = ""
    · exact assignmentKey_ne_empty named present (same.symm.trans (assignmentKey_blank blank))
    · exact elsewhere (WorkloadId.key_inj named blank present same)

section Assignments

variable {self : String} {step : Steps TaskSig (View R)} {permit : View R → TaskOp → Prop}
variable (within : step.Within (View.LocalStep self))
variable (free : ∀ v op, op.quiet = true → permit v op)
include within free

theorem workloadAssignment_ensures {metadata : Metadata} {post : Option Assignment → View R → Prop}
    {v : View R} (after : post (v.fsm.getAssignment (assignmentKey metadata name)) v) :
    Ensures step permit post (workloadAssignment metadata name) v := by
  refine ensures_ask_quiet within free rfl ?_
  intro found taken
  obtain ⟨rfl, -⟩ := within taken
  exact after

theorem assignmentNodeOrEmpty_ensures {metadata : Metadata} {post : String → View R → Prop} {v : View R}
    (after : post (v.fsm.recordedNode metadata name) v) :
    Ensures step permit post (assignmentNodeOrEmpty metadata name) v := by
  rw [assignmentNodeOrEmpty, ensures_bind]
  refine workloadAssignment_ensures within free ?_
  unfold Ledger.recordedNode at after
  split <;> rename_i found <;> simp only [found] at after <;> exact after

end Assignments

section Proposals

variable {self : String} {step : Steps TaskSig (View R)} {permit : View R → TaskOp → Prop} {ctx : Ctx}
variable (within : step.Within (View.LocalStep self))
variable (proposable : ∀ v command, permit v (.apply ctx command))
include within proposable

variable {workload : Workload} {node generation : String} {error : Option Failure} {post : Unit → View R → Prop}

theorem applyWorkloadVolumeBindings_ensures {app : App} {status : BindingStatus} {v : View R} (after : post () v) :
    Ensures step permit post (applyWorkloadVolumeBindings ctx app workload node status generation error) v := by
  refine (applyWorkloadVolumeBindings_asks fun binding => ⟨binding, rfl⟩ :
    (applyWorkloadVolumeBindings ctx app workload node status generation error).Asks
      fun op : TaskOp => ∃ binding, op = .apply ctx (.upsertVolumeBinding binding)).stays ?_ ?_ fun _ => after
  · rintro _ ⟨binding, rfl⟩
    exact proposable v _
  · rintro _ answer u ⟨binding, rfl⟩ taken
    rcases within taken with ⟨-, rfl⟩ | ⟨-, rfl | rfl⟩ <;> rfl

variable (accepts : ∀ {v command result u}, step v (.apply ctx command) result u → result = .ok ())
include accepts

theorem applyWorkloadAssignment_ensures {metadata : Metadata} {status : AssignmentStatus} {address : String}
    {v : View R} (named : trimSpace metadata.name ≠ "") (present : trimSpace workload.name ≠ "")
    (after : post () (v.record (assignmentRecord metadata workload node status generation error address
      (artifactSummary workload.run)))) :
    Ensures step permit post (applyWorkloadAssignment ctx metadata workload node status generation error address) v := by
  rw [applyWorkloadAssignment_eq named present, ensures_bind]
  refine ensures_ask (proposable _ _) ?_
  intro result u taken
  obtain rfl := accepts taken
  rcases within taken with ⟨-, rfl⟩ | ⟨bad, -⟩
  · rw [ensures_pure, Ledger.update_assignmentRecord named present]
    exact after
  · exact absurd rfl bad

/-- An accepted record is stored under the workload's key. -/
theorem recordWorkload_ensures {app : App} {status : AssignmentStatus} {binding : BindingStatus} {address : String}
    {v : View R} (named : trimSpace app.metadata.name ≠ "") (present : trimSpace workload.name ≠ "")
    (after : post () (v.record (assignmentRecord app.metadata workload node status generation error address
      (artifactSummary workload.run)))) :
    Ensures step permit post (recordWorkload ctx app workload node status binding generation error address) v := by
  rw [recordWorkload, ensures_bind]
  refine applyWorkloadAssignment_ensures within proposable accepts named present ?_
  exact applyWorkloadVolumeBindings_ensures within proposable after

end Proposals

end Orch
