import Orch.Task.Delete
import Orch.Task.DeploySpecs
import Orch.Task.Walks

namespace Orch

open Effect

def Ledger.assignmentOf (f : Ledger) (id : WorkloadId) : Option Assignment := f.assignments.lookup id.key

theorem Ledger.getAssignment_key (f : Ledger) (m : Metadata) (name : String) :
    f.getAssignment (assignmentKey m name) = f.assignmentOf (workloadId m name) := by
  rw [getAssignment, trimSpace_assignmentKey]
  rfl

/-- The documents that may be submitted: they pass the checks, and every
workload keeps its runtime. -/
def Steady (svc : Service) (kindOf : WorkloadId → RuntimeKind) (doc : App) : Prop :=
  doc.validate svc.sorter = .ok () ∧ ∀ w ∈ doc.workloads, w.runtime = kindOf (workloadId doc.metadata w.name)

section Tracked

variable (svc : Service) (kindOf : WorkloadId → RuntimeKind)

/-- An instance that the replicated state knows of: it is recorded at the
node it runs on, as running or as failed. -/
structure Known (f : Ledger) (node : String) (kind : RuntimeKind) (id : WorkloadId) : Prop where
  proper : id.Proper
  runtime : kind = kindOf id
  placed : node ≠ ""
  recorded : ∃ a, f.assignmentOf id = some a ∧ trimSpace a.node = node ∧ (a.status = .running ∨ a.status = .failed)

/-- All instances are known, but perhaps those of one workload. -/
structure TrackedBut (but : WorkloadId → Prop) (v : Scene) : Prop where
  docs : v.fsm.Holds fun key doc => deployAppMapKey doc.metadata = key ∧ Steady svc kindOf doc
  known : ∀ node kind id, ¬ but id → v.running node kind id = true → Known kindOf v.fsm node kind id

abbrev Tracked (v : Scene) : Prop := TrackedBut svc kindOf (fun _ => False) v

end Tracked

variable {kindOf : WorkloadId → RuntimeKind} {f : Ledger} {node : String} {kind : RuntimeKind} {id : WorkloadId}

theorem Known.of_assignments {g : Ledger} (known : Known kindOf f node kind id)
    (same : g.assignmentOf id = f.assignmentOf id) :
    Known kindOf g node kind id :=
  ⟨known.proper, known.runtime, known.placed, by rw [same]; exact known.recorded⟩

variable {m : Metadata}

theorem assignmentOf_record {v : Scene} {w : Workload} {status : AssignmentStatus}
    {generation : String} {error : Option Failure} {address artifact : String} :
    (v.record (assignmentRecord m w node status generation error address artifact)).fsm.assignmentOf (workloadId m w.name) =
      some (assignmentRecord m w node status generation error address artifact) := by
  rw [← Ledger.getAssignment_key]
  exact View.record_getAssignment (trimSpace_assignmentKey ..)

theorem assignmentOf_record_other {v : Scene} {w : Workload} {status : AssignmentStatus}
    {generation : String} {error : Option Failure} {address artifact : String} (proper : id.Proper)
    (own : (workloadId m w.name).Proper) (other : id ≠ workloadId m w.name) :
    (v.record (assignmentRecord m w node status generation error address artifact)).fsm.assignmentOf id =
      v.fsm.assignmentOf id :=
  AList.lookup_insert_ne fun same => other (proper.key_inj own same)

section Steps

variable {svc : Service} {kindOf : WorkloadId → RuntimeKind} {but : WorkloadId → Prop} {v u : Scene}

theorem TrackedBut.mono {wider : WorkloadId → Prop} (tracked : TrackedBut svc kindOf but v)
    (weaker : ∀ id, but id → wider id) : TrackedBut svc kindOf wider v :=
  ⟨tracked.docs, fun node kind id spared => tracked.known node kind id fun exempt => spared (weaker id exempt)⟩

theorem TrackedBut.upsert {doc : App} (tracked : TrackedBut svc kindOf but v) (steady : Steady svc kindOf doc.decoded) :
    TrackedBut svc kindOf but { v with fsm := v.fsm.update (.upsertDeployApp doc) } := by
  have docs : (v.fsm.update (.upsertDeployApp doc)).Holds
      fun key doc => deployAppMapKey doc.metadata = key ∧ Steady svc kindOf doc := by
    refine tracked.docs.update fun app same _ => ?_
    cases same
    exact ⟨rfl, steady⟩
  refine ⟨docs, fun node kind id spared running => ?_⟩
  refine (tracked.known node kind id spared running).of_assignments ?_
  simp only [Ledger.assignmentOf, Ledger.assignments_upsert]

theorem TrackedBut.refresh {catalog : Table Snapshot} (tracked : TrackedBut svc kindOf but v) :
    TrackedBut svc kindOf but { v with fsm := { v.fsm with nodeCapacity := catalog } } :=
  ⟨⟨tracked.docs.desired, tracked.docs.revised⟩,
    fun node kind id spared running => (tracked.known node kind id spared running).of_assignments rfl⟩

theorem TrackedBut.setRunning {node : String} {value : Bool}
    (tracked : TrackedBut svc kindOf but v) (exempt : but id) : TrackedBut svc kindOf but (v.setRunning node kind id value) := by
  refine ⟨tracked.docs, fun n k i spared running => tracked.known n k i spared ?_⟩
  rwa [View.setRunning_other] at running
  rintro ⟨-, -, rfl⟩
  exact spared exempt

section Records

variable {m : Metadata} {w : Workload} {node : String} {status : AssignmentStatus} {generation : String}
variable {error : Option Failure} {address artifact : String} (own : (workloadId m w.name).Proper)
include own

theorem TrackedBut.record (tracked : TrackedBut svc kindOf but v) (exempt : but (workloadId m w.name)) :
    TrackedBut svc kindOf but (v.record (assignmentRecord m w node status generation error address artifact)) := by
  refine ⟨View.record_holds tracked.docs, fun n k i spared running => ?_⟩
  have known := tracked.known n k i spared running
  refine known.of_assignments (assignmentOf_record_other known.proper own ?_)
  rintro rfl
  exact spared exempt

theorem TrackedBut.settle (tracked : TrackedBut svc kindOf (· = workloadId m w.name) v)
    (here : ∀ n k, v.running n k (workloadId m w.name) = true →
      k = kindOf (workloadId m w.name) ∧ n ≠ "" ∧ n = trimSpace node ∧ (status = .running ∨ status = .failed)) :
    Tracked svc kindOf (v.record (assignmentRecord m w node status generation error address artifact)) := by
  refine ⟨View.record_holds tracked.docs, fun n k i _ running => ?_⟩
  by_cases this : i = workloadId m w.name
  · subst this
    obtain ⟨runtime, placed, rfl, alive⟩ := here n k running
    exact ⟨own, runtime, placed, _, assignmentOf_record, trimSpace_trimSpace node, alive⟩
  · have known := tracked.known n k i this running
    exact known.of_assignments (assignmentOf_record_other known.proper own this)

end Records

end Steps

/-- A workload of a desired app that is recorded as failed on a node would be
placed there again, and nowhere else. -/
def StaysPut (svc : Service) (f : Ledger) (workload : Workload) : Prop :=
  ∀ doc ∈ f.listDeployApps, workload ∈ doc.workloads → ∀ a ∈ f.getAssignment (assignmentKey doc.metadata workload.name),
    a.status = .failed → trimSpace a.node ≠ "" → (placedNode svc f workload).map trimSpace = some (trimSpace a.node)

instance (svc : Service) (f : Ledger) (workload : Workload) : Decidable (StaysPut svc f workload) :=
  inferInstanceAs (Decidable (∀ doc ∈ f.listDeployApps, workload ∈ doc.workloads →
    ∀ a ∈ f.getAssignment (assignmentKey doc.metadata workload.name), a.status = .failed → trimSpace a.node ≠ "" →
      (placedNode svc f workload).map trimSpace = some (trimSpace a.node)))

def TaskOp.placing : TaskOp → Option Workload
  | .choosePlacement workload => some workload
  | _ => none

def TaskOp.staysPut (svc : Service) (f : Ledger) (op : TaskOp) : Prop := ∀ workload ∈ op.placing, StaysPut svc f workload

instance (svc : Service) (f : Ledger) (op : TaskOp) : Decidable (op.staysPut svc f) :=
  inferInstanceAs (Decidable (∀ workload ∈ op.placing, StaysPut svc f workload))

def SoleCopy (svc : Service) (v : Scene) : TaskOp → Prop
  | .runtimeDeploy _ metadata workload => ∀ node kind, v.running node kind (workloadId metadata workload.name) = true →
      node = svc.localNode
  | .dispatchWorkload _ target metadata workload => ∀ node kind,
      v.running node kind (workloadId metadata workload.name) = true → node = trimSpace target
  | _ => True

variable {svc : Service}

theorem soleCopy_of_quiet (v : Scene) (op : TaskOp) (quiet : op.quiet = true) :
    SoleCopy svc v op := by
  cases op with
  | apply | sleep | runtimeDeploy | runtimeStop | dispatchWorkload | dispatchStop => cases quiet
  | _ => trivial

variable {ctx : Ctx}

section Deploys

variable {svc : Service} {kindOf : WorkloadId → RuntimeKind} {step : Steps TaskSig Scene}
variable (within : step.Within (View.Step svc))
variable (accepts : Accepting step)
variable (sticky : ∀ {v op answer u}, step v op answer u → op.staysPut svc v.fsm)

variable {w : Workload} {doc : App}

include within sticky in
theorem Chooses.staysPut {v : Scene} {choice : Option String} {a : Assignment}
    (chosen : Chooses step svc w v choice) (desired : v.fsm.getDeployApp doc.metadata = some doc)
    (member : w ∈ doc.workloads) (found : v.fsm.getAssignment (assignmentKey doc.metadata w.name) = some a)
    (failed : a.status = .failed) (placed : trimSpace a.node ≠ "") :
    choice.map trimSpace = some (trimSpace a.node) := by
  have listed := Ledger.getDeployApp_listed desired
  have put {answer : Except Failure String} (taken : step v (.choosePlacement w) answer v) :
      (placedNode svc v.fsm w).map trimSpace = some (trimSpace a.node) ∧
        answer = choosePlacement w v.fsm.nodeCapacity svc.localNode :=
    ⟨sticky taken w rfl doc listed member a found failed placed, (within taken).1⟩
  cases choice with
  | some node =>
    rcases chosen with taken | ⟨err, taken, preferred⟩
    · obtain ⟨stays, chosen⟩ := put taken
      rwa [placedNode, ← chosen] at stays
    · obtain ⟨stays, chosen⟩ := put taken
      simp only [placedNode, ← chosen, preferred] at stays
      exact stays
  | none =>
    obtain ⟨err, taken, unpreferred⟩ := chosen
    obtain ⟨stays, chosen⟩ := put taken
    simp [placedNode, ← chosen, unpreferred] at stays

theorem Readied.failed {doc : App} {w : Workload} {opts : DeployOptions} {v u : Scene}
    (readied : Readied (fun v node result u => v.StopAt node w.runtime (workloadId doc.metadata w.name) result u) doc w
      (appGeneration doc) opts v u)
    (steady : Steady svc kindOf doc) (member : w ∈ doc.workloads) (tracked : Tracked svc kindOf v) :
    u.fsm = v.fsm ∧ TrackedBut svc kindOf (· = workloadId doc.metadata w.name) u ∧
      ∀ node kind, u.running node kind (workloadId doc.metadata w.name) = true →
        kind = kindOf (workloadId doc.metadata w.name) ∧ node ≠ "" ∧
          ∃ a, v.fsm.getAssignment (assignmentKey doc.metadata w.name) = some a ∧ a.status = .failed ∧
            trimSpace a.node = node := by
  have known {node : String} {kind : RuntimeKind} (running : v.running node kind (workloadId doc.metadata w.name) = true) :=
    tracked.known node kind _ not_false running
  have loose : TrackedBut svc kindOf (· = workloadId doc.metadata w.name) v := tracked.mono fun _ never => never.elim
  cases readied with
  | fresh unassigned =>
    refine ⟨rfl, loose, fun node kind running => ?_⟩
    obtain ⟨a, recorded, -⟩ := (known running).recorded
    rw [Ledger.getAssignment_key, recorded] at unassigned
    cases unassigned
  | @again a found due wanted retried inert =>
    refine ⟨rfl, loose, fun node kind running => ?_⟩
    have here := known running
    obtain ⟨b, recorded, at_node, alive⟩ := here.recorded
    have same : b = a := by
      rw [Ledger.getAssignment_key, recorded] at found
      exact Option.some.inj found
    subst same
    refine ⟨here.runtime, here.placed, b, found, ?_, at_node⟩
    rcases alive with alive | failed
    · exfalso
      rcases inert with current | blank | dead
      · simp [workloadAssignmentConverged, current, alive] at due
      · exact here.placed (at_node.symm.trans blank)
      · simp [assignmentMayHaveRuntime, alive] at dead
    · exact failed
  | @stopped a u found older placed live ended =>
    obtain ⟨value, rfl, -, past⟩ := ended
    obtain rfl := past rfl
    refine ⟨rfl, loose.setRunning rfl, fun node kind running => ?_⟩
    rw [View.setRunning_false_iff] at running
    have here := known running.1
    obtain ⟨b, recorded, at_node, -⟩ := here.recorded
    rw [Ledger.getAssignment_key, recorded] at found
    cases found
    exact absurd ⟨at_node.symm, here.runtime.trans (steady.2 w member).symm, rfl⟩ running.2

theorem Steady.decoded (steady : Steady svc kindOf doc) : Steady svc kindOf doc.decoded := by
  refine ⟨(App.validate_decoded doc svc.sorter).trans steady.1, fun w member => ?_⟩
  obtain ⟨x, inside, rfl⟩ := List.mem_map.mp member
  exact steady.2 x inside

theorem Steady.present (steady : Steady svc kindOf doc) (member : w ∈ doc.workloads) :
    w.key ≠ "" := by
  obtain ⟨workloads, ordered⟩ := App.validate_ordered steady.1
  exact (App.workloadsInDependencyOrder_ok ordered).2.2 w member

theorem Steady.proper (steady : Steady svc kindOf doc) (member : w ∈ doc.workloads) :
    (workloadId doc.metadata w.name).Proper :=
  (App.validate_clean steady.1).proper (App.validate_name steady.1) (steady.present member)

def OthersKept (doc : App) (v u : Scene) : Prop :=
  ∀ m, deployAppMapKey m ≠ deployAppMapKey doc.metadata → u.fsm.getDeployApp m = v.fsm.getDeployApp m

theorem View.FailureAt.tracked {node : String} {v u : Scene}
    (failure : v.FailureAt doc w node (appGeneration doc) u) (own : (workloadId doc.metadata w.name).Proper)
    (tracked : TrackedBut svc kindOf (· = workloadId doc.metadata w.name) v)
    (current : ∀ a, v.fsm.getAssignment (assignmentKey doc.metadata w.name) = some a →
      assignmentConvergedOnDifferentNode a node (appGeneration doc) = false)
    (here : ∀ n k, v.running n k (workloadId doc.metadata w.name) = true →
      k = kindOf (workloadId doc.metadata w.name) ∧ n ≠ "" ∧ n = trimSpace node) :
    Tracked svc kindOf u ∧ OthersKept doc v u := by
  rcases failure with ⟨-, a, found, elsewhere⟩ | ⟨err, back⟩
  · rw [current a found] at elsewhere
    cases elsewhere
  have settled : Tracked svc kindOf (v.record (assignmentRecord doc.metadata w node .failed (appGeneration doc) (some err) ""
      (artifactSummary w.run))) := by
    refine tracked.settle own fun n k running => ?_
    obtain ⟨runtime, placed, at_node⟩ := here n k running
    exact ⟨runtime, placed, at_node, .inr rfl⟩
  rcases back with rfl | ⟨revision, previous, rfl⟩
  · exact ⟨settled, fun _ _ => rfl⟩
  · obtain ⟨key, steady⟩ := settled.docs.previous previous
    refine ⟨settled.upsert steady.decoded, fun m other => ?_⟩
    exact congrArg AppRecords.desired (Ledger.recordsOf_upsert_other (by rw [key]; exact other.symm))

theorem View.RunAt.tracked {node : String} {v u : Scene}
    {result : Except Failure WorkloadRunResult} (run : v.RunAt node kind id result u) (runtime : kind = kindOf id)
    (tracked : TrackedBut svc kindOf (· = id) v)
    (here : ∀ n k, v.running n k id = true → k = kindOf id ∧ n ≠ "" ∧ n = node) :
    TrackedBut svc kindOf (· = id) u ∧ ∀ n k, u.running n k id = true → k = kindOf id ∧ n ≠ "" ∧ n = node := by
  obtain ⟨value, rfl, unnamed, -⟩ := run
  refine ⟨tracked.setRunning rfl, fun n k running => ?_⟩
  by_cases this : n = node ∧ k = kind ∧ id = id
  · obtain ⟨rfl, rfl, -⟩ := this
    refine ⟨runtime, fun blank => ?_, rfl⟩
    rw [unnamed blank] at running
    exact (here n k running).2.1 blank
  · rw [View.setRunning_other this] at running
    exact here n k running

include within accepts sticky

theorem deployOneWorkload_tracked {opts : DeployOptions} {v : Scene}
    (steady : Steady svc kindOf doc) (member : w ∈ doc.workloads)
    (desired : v.fsm.getDeployApp doc.metadata = some doc) (tracked : Tracked svc kindOf v) :
    Ensures step (SoleCopy svc)
      (fun result u => Tracked svc kindOf u ∧ OthersKept doc v u ∧
        (result = .ok () → u.fsm.getDeployApp doc.metadata = some doc))
      (deployOneWorkload svc ctx doc (appGeneration doc) opts w) v := by
  have named := App.validate_name steady.1
  have present := steady.present member
  have own := steady.proper member
  have runtime := steady.2 w member
  -- A workload that may still run is placed where it runs.
  have placed_here {u : Scene} {choice : Option String}
      (readied : Readied (fun v node result u => v.StopAt node w.runtime (workloadId doc.metadata w.name) result u) doc w
        (appGeneration doc) opts v u) (chosen : Chooses step svc w u choice) (n : String) (k : RuntimeKind)
      (running : u.running n k (workloadId doc.metadata w.name) = true) :
      k = kindOf (workloadId doc.metadata w.name) ∧ n ≠ "" ∧ choice.map trimSpace = some n := by
    obtain ⟨same, -, alive⟩ := readied.failed steady member tracked
    obtain ⟨kind, placed, a, found, failed, at_node⟩ := alive n k running
    rw [← same] at found desired
    refine ⟨kind, placed, ?_⟩
    rw [chosen.staysPut within sticky desired member found failed (by rw [at_node]; exact placed), at_node]
  refine (deployOneWorkload_ensures (fun taken => (within taken).local) soleCopy_of_quiet (fun _ _ _ => trivial) accepts
    (fun v node result u => v.StopAt node w.runtime (workloadId doc.metadata w.name) result u)
    (fun v node result u => v.RunAt (trimSpace node) w.runtime (workloadId doc.metadata w.name) result u)
    named present (fun _ _ _ => trivial) ?stops ?runs).mono ?_
  case stops =>
    intro ctx a found older placed live
    refine (stopWorkloadOnNode_ensures within soleCopy_of_quiet (fun never : False => never.elim)
      (fun _ _ _ _ => trivial) (trimSpace_trimSpace _) placed (fun _ _ => trivial)).mono ?_
    rintro result u ⟨stop, -⟩
    exact stop
  case runs =>
    intro ctx u node readied chosen
    have sole (n : String) (k : RuntimeKind) (running : u.running n k (workloadId doc.metadata w.name) = true) :
        n = trimSpace node := (Option.some.inj (placed_here readied chosen n k running).2.2).symm
    refine (runChosen_ensures within soleCopy_of_quiet (fun never : False => never.elim) ?_ (fun _ => trivial) ?_).mono ?_
    · rintro rfl n k running
      exact (sole n k running).trans svc.trimmed
    · intro _ _ n k running
      exact sole n k running
    · rintro result t ⟨run, -⟩
      exact run
  intro result t outcome
  cases outcome with
  | kept | cancelled => exact ⟨tracked, fun _ _ => rfl, fun _ => desired⟩
  | @unstopped a cause u t found older placed live still recorded =>
    have loose : TrackedBut svc kindOf (· = workloadId doc.metadata w.name) u := by
      obtain ⟨value, rfl, -, -⟩ := still
      exact (tracked.mono fun _ never => never.elim).setRunning rfl
    obtain ⟨after, others⟩ := recorded.tracked own loose
      (fun b same => by
        rw [still.fsm, found] at same
        cases same
        exact not_convergedOnDifferentNode (.inr (trimSpace_trimSpace _).symm))
      (fun n k running => by
        have known := tracked.known n k _ not_false (still.running running)
        obtain ⟨b, recorded, at_node, -⟩ := known.recorded
        rw [Ledger.getAssignment_key, recorded] at found
        cases found
        exact ⟨known.runtime, known.placed, by rw [trimSpace_trimSpace, at_node]⟩)
    refine ⟨after, fun m other => ?_, by simp⟩
    rw [others m other, still.fsm]
  | @unplaced err u t readied nowhere recorded =>
    obtain ⟨same, loose, -⟩ := readied.failed steady member tracked
    obtain ⟨after, others⟩ := recorded.tracked own loose
      (fun b _ => not_convergedOnDifferentNode (.inl (by decide +kernel)))
      (fun n k running => by
        obtain ⟨-, -, put⟩ := placed_here readied nowhere n k running
        cases put)
    refine ⟨after, fun m other => ?_, by simp⟩
    rw [others m other, same]
  | @failed cause node u t last readied chosen ran recorded =>
    obtain ⟨same, loose, -⟩ := readied.failed steady member tracked
    obtain ⟨loose, here⟩ := ran.tracked runtime (loose.record own rfl) (fun n k running => by
      obtain ⟨kind, placed, put⟩ := placed_here readied chosen n k running
      exact ⟨kind, placed, (Option.some.inj put).symm⟩)
    obtain ⟨after, others⟩ := recorded.tracked own loose
      (fun b found => by
        rw [ran.fsm, assignedRecord, Ledger.getAssignment_key, assignmentOf_record] at found
        cases found
        exact not_convergedOnDifferentNode (.inr (trimSpace_trimSpace _)))
      here
    refine ⟨after, fun m other => ?_, by simp⟩
    rw [others m other, ran.fsm, View.record_getDeployApp, same]
  | @started ran node u t readied chosen run =>
    obtain ⟨same, loose, -⟩ := readied.failed steady member tracked
    obtain ⟨loose, here⟩ := run.tracked runtime (loose.record own rfl) (fun n k running => by
      obtain ⟨kind, placed, put⟩ := placed_here readied chosen n k running
      exact ⟨kind, placed, (Option.some.inj put).symm⟩)
    have status : ran.status = .running := by
      obtain ⟨value, -, -, started⟩ := run
      exact (started ran rfl).2
    have docs (m : Metadata) : t.fsm.getDeployApp m = v.fsm.getDeployApp m := by
      rw [run.fsm, View.record_getDeployApp, same]
    refine ⟨loose.settle own fun n k running => ?_, fun m _ => docs m, fun _ => (docs _).trans desired⟩
    obtain ⟨kind, placed, at_node⟩ := here n k running
    exact ⟨kind, placed, at_node, .inl status⟩

theorem deployAppWorkloads_tracked {v : Scene} (steady : Steady svc kindOf doc)
    (desired : v.fsm.getDeployApp doc.metadata = some doc) (tracked : Tracked svc kindOf v) :
    Ensures step (SoleCopy svc) (fun _ u => Tracked svc kindOf u ∧ OthersKept doc v u) (deployAppWorkloads svc ctx doc) v := by
  refine deployAppWorkloadsWithOptions_ensures (fun taken => (within taken).local) soleCopy_of_quiet
    (fun _ _ _ => trivial) accepts (fun _ _ => ⟨tracked, fun _ _ => rfl⟩) ?_
  rintro catalog workloads - ordered
  obtain ⟨permuted, -, -⟩ := App.workloadsInDependencyOrder_ok ordered
  refine ensures_eachUntil (fun rest u => (Tracked svc kindOf u ∧ OthersKept doc v u) ∧
    u.fsm.getDeployApp doc.metadata = some doc ∧ ∀ w ∈ rest, w ∈ doc.workloads) (fun u held => held.1) ?_
    ⟨⟨tracked.refresh, fun _ _ => rfl⟩, desired, fun w member => permuted.mem_iff.mp member⟩
  rintro w rest u ⟨⟨tracked, kept⟩, desired, members⟩
  refine (deployOneWorkload_tracked within accepts sticky steady (members w (by simp)) desired tracked).mono ?_
  rintro result t ⟨tracked, others, still⟩
  have kept : OthersKept doc v t := fun m other => (others m other).trans (kept m other)
  cases result with
  | error err => exact ⟨tracked, kept⟩
  | ok => exact ⟨⟨tracked, kept⟩, still rfl, fun x later => members x (List.mem_cons_of_mem _ later)⟩

theorem reconcileAll_tracked {v : Scene} (tracked : Tracked svc kindOf v) :
    Ensures step (SoleCopy svc) (fun _ u => Tracked svc kindOf u) (reconcileAll svc ctx) v := by
  have keyed : v.fsm.Keyed :=
    ⟨fun key doc found => (tracked.docs.desired key doc found).1, fun key rs found r member =>
      (tracked.docs.revised key rs found r member).1⟩
  refine reconcileAll_ensures (fun taken => (within taken).local) soleCopy_of_quiet (fun rest u => Tracked svc kindOf u ∧
    (rest.map fun doc => deployAppMapKey doc.metadata).Nodup ∧ ∀ doc ∈ rest, u.fsm.getDeployApp doc.metadata = some doc)
    ?_ (fun u held => held.1) ?_
  · intro apps permuted
    refine ⟨tracked, (permuted.map _).nodup_iff.mpr keyed.nodup, fun doc member => ?_⟩
    exact keyed.listed (permuted.mem_iff.mp member) rfl
  rintro doc rest u ⟨tracked, distinct, desired⟩
  rw [List.map_cons, List.nodup_cons] at distinct
  have steady := (tracked.docs.desired _ doc (desired doc (by simp))).2
  refine (deployAppWorkloads_tracked within accepts sticky steady (desired doc (by simp)) tracked).mono ?_
  rintro result t ⟨tracked, others⟩
  refine ⟨tracked, distinct.2, fun other later => ?_⟩
  rw [others other.metadata fun clash => distinct.1 (clash ▸ List.mem_map_of_mem later)]
  exact desired other (List.mem_cons_of_mem _ later)

end Deploys

theorem Known.target {name : String} (svc : Service) (known : Known kindOf f node kind (workloadId m name)) :
    stopTarget svc f m name = node ∧ trimSpace (f.recordedNode m name) = node := by
  obtain ⟨a, recorded, at_node, -⟩ := known.recorded
  rw [← Ledger.getAssignment_key] at recorded
  have there : trimSpace (f.recordedNode m name) = node := by simp only [Ledger.recordedNode, recorded, at_node]
  refine ⟨?_, there⟩
  simp only [stopTarget, there]
  rw [if_pos known.placed]

section Stops

variable {svc : Service} {kindOf : WorkloadId → RuntimeKind} {doc : App} {w : Workload} {v u : Scene}
variable (steady : Steady svc kindOf doc) (member : w ∈ doc.workloads) (tracked : Tracked svc kindOf v)
include steady member tracked

theorem View.StopAt.leaves {result : Check}
    (stop : v.StopAt (stopTarget svc v.fsm doc.metadata w.name) w.runtime (workloadId doc.metadata w.name) result u) :
    TrackedBut svc kindOf (· = workloadId doc.metadata w.name) u ∧
      ∀ n k, u.running n k (workloadId doc.metadata w.name) = true → result ≠ .ok () ∧
        k = kindOf (workloadId doc.metadata w.name) ∧ n ≠ "" ∧ stopTarget svc v.fsm doc.metadata w.name = n ∧
          trimSpace (v.fsm.recordedNode doc.metadata w.name) = n := by
  constructor
  · obtain ⟨value, rfl, -, -⟩ := stop
    exact (tracked.mono fun _ never => never.elim).setRunning rfl
  · intro n k running
    have known := tracked.known n k _ not_false (stop.running running)
    obtain ⟨target, recorded⟩ := known.target svc
    refine ⟨?_, known.runtime, known.placed, target, recorded⟩
    rintro rfl
    obtain ⟨value, rfl, -, past⟩ := stop
    obtain rfl := past rfl
    rw [View.setRunning_false_iff] at running
    exact running.2 ⟨target.symm, known.runtime.trans (steady.2 w member).symm, rfl⟩

variable {step : Steps TaskSig Scene}
variable (within : step.Within (View.Step svc))
variable (accepts : Accepting step)
include within accepts

theorem stopAppWorkload_tracked {generation : String} :
    Ensures step (SoleCopy svc) (fun _ u => Tracked svc kindOf u) (stopAppWorkload svc ctx doc generation w) v := by
  refine stopAppWorkload_ensures within soleCopy_of_quiet (fun never : False => never.elim) (fun _ _ _ _ => trivial)
    (fun _ _ => trivial) accepts (App.validate_name steady.1) (steady.present member) (fun _ _ => trivial) ?_
  intro result u status error stop _ _ _ failed
  obtain ⟨loose, here⟩ := stop.leaves steady member tracked
  refine loose.settle (steady.proper member) fun n k running => ?_
  obtain ⟨bad, runtime, placed, -, recorded⟩ := here n k running
  exact ⟨runtime, placed, recorded.symm, .inr (failed bad)⟩

omit member in
theorem stopAppWorkloads_tracked :
    Ensures step (SoleCopy svc) (fun _ u => Tracked svc kindOf u) (stopAppWorkloads svc ctx doc) v := by
  obtain ⟨workloads, ordered⟩ := App.validate_ordered steady.1
  obtain ⟨permuted, -, -⟩ := App.workloadsInDependencyOrder_ok ordered
  simp only [stopAppWorkloads, ordered]
  refine ensures_eachUntil (fun rest u => Tracked svc kindOf u ∧ ∀ x ∈ rest, x ∈ doc.workloads)
    (fun u held => held.1) ?_ ⟨tracked, fun x inside => permuted.mem_iff.mp (List.mem_reverse.mp inside)⟩
  rintro x rest u ⟨tracked, members⟩
  refine (stopAppWorkload_tracked steady (members x (by simp)) tracked within accepts).mono ?_
  rintro (err | _) t tracked
  · exact tracked
  · exact ⟨tracked, fun y later => members y (List.mem_cons_of_mem _ later)⟩

end Stops

/-- What a plan says about a workload: where it is to be stopped, if it has
been assigned, and where it goes. -/
structure Planned (svc : Service) (f : Ledger) (app : App) (plan : PlannedWorkloadMove) : Prop where
  current : plan.current = stopTarget svc f app.metadata plan.workload.name
  assigned : plan.assigned = (f.getAssignment (assignmentKey app.metadata plan.workload.name)).isSome
  clean : trimSpace plan.target = plan.target
  placed : plan.target ≠ ""

theorem Planned.congr {g : Ledger} {app : App} {plan : PlannedWorkloadMove} (planned : Planned svc f app plan)
    (same : g.getAssignment (assignmentKey app.metadata plan.workload.name) =
      f.getAssignment (assignmentKey app.metadata plan.workload.name)) :
    Planned svc g app plan := by
  refine ⟨?_, by rw [same, planned.assigned], planned.clean, planned.placed⟩
  have nodes : g.recordedNode app.metadata plan.workload.name = f.recordedNode app.metadata plan.workload.name := by
    simp only [Ledger.recordedNode, same]
  rw [planned.current]
  simp only [stopTarget, nodes]

variable {targetFor : Workload → Task (Except Failure String)}

section Plans

variable {svc : Service} {step : Steps TaskSig Scene} {permit : Scene → TaskOp → Prop}
variable (within : step.Within (View.Step svc))
variable (free : ∀ v op, op.quiet = true → permit v op)
include within free

theorem planWorkloadMoves_ensures {app : App} {f : Ledger}
    (inv : Scene → Prop) (same : ∀ u, inv u → u.fsm.assignments = f.assignments)
    (targets : ∀ w u, inv u → Ensures step permit (fun _ => inv) (targetFor w) u) :
    ∀ {workloads : List Workload} {u : Scene}, inv u → Ensures step permit
      (fun result t => inv t ∧ (result.1.map PlannedWorkloadMove.workload).Sublist workloads ∧
        ∀ plan ∈ result.1, Planned svc f app plan)
      (planWorkloadMoves svc app targetFor workloads) u
  | [], u, held => ⟨held, List.Sublist.refl _, by simp⟩
  | w :: rest, u, held => by
    rw [planWorkloadMoves, normalizeMoveTarget, ensures_bind, ensures_bind]
    refine (targets w u held).mono ?_
    rintro (err | target) t held
    · exact ⟨held, List.nil_sublist _, by simp⟩
    dsimp only
    split
    · exact ⟨held, List.nil_sublist _, by simp⟩
    rename_i placed
    rw [ensures_pure, ensures_bind]
    refine workloadAssignment_ensures (fun taken => (within taken).local) free ?_
    refine (planWorkloadMoves_ensures inv same targets held).bind ?_
    rintro ⟨plans, result⟩ last ⟨held', sublist, planned⟩
    have current : t.fsm.getAssignment (assignmentKey app.metadata w.name) =
        f.getAssignment (assignmentKey app.metadata w.name) := by simp only [Ledger.getAssignment, same t held]
    simp only [current, currentNode_eq]
    split
    · exact ⟨held', sublist.cons _, planned⟩
    · refine ⟨held', sublist.cons_cons _, ?_⟩
      intro plan member
      rcases List.mem_cons.mp member with rfl | later
      · exact ⟨rfl, rfl, trimSpace_trimSpace _, placed⟩
      · exact planned plan later

end Plans

section Moves

variable {svc : Service} {kindOf : WorkloadId → RuntimeKind} {doc : App} {step : Steps TaskSig Scene}
variable (steady : Steady svc kindOf doc)
variable (within : step.Within (View.Step svc))
variable (accepts : Accepting step)
include steady within accepts

variable {operation : Operation} {generation : String} {plan : PlannedWorkloadMove}

/-- The stop of a move that is no failover: the workload has ended, or the
move is given up with the workload recorded where it runs. -/
theorem stopMovePlan_tracked {v : Scene} (orderly : operation ≠ .failover)
    (member : plan.workload ∈ doc.workloads) (planned : Planned svc v.fsm doc plan) (tracked : Tracked svc kindOf v) :
    Ensures step (SoleCopy svc)
      (fun result u => Tracked svc kindOf u ∧ (result = .ok () →
        (∀ n k, u.running n k (workloadId doc.metadata plan.workload.name) = false) ∧
        (∀ n k id, u.running n k id = true → v.running n k id = true) ∧
        ∀ id : WorkloadId, id.Proper → id ≠ workloadId doc.metadata plan.workload.name →
          u.fsm.assignmentOf id = v.fsm.assignmentOf id))
      (stopMovePlan svc ctx doc operation generation plan) v := by
  have near {v op answer u} (taken : step v op answer u) := (within taken).local
  have named := App.validate_name steady.1
  have present := steady.present member
  have own := steady.proper member
  rw [stopMovePlan, ensures_bind, skipMoveStop]
  by_cases assigned : plan.assigned = true
  · rw [if_neg (by simp [assigned]), if_pos orderly, ensures_pure]
    refine (stopWorkload_ensures within soleCopy_of_quiet (fun never : False => never.elim) (fun _ _ _ _ => trivial)
      (fun _ _ => trivial)).bind ?_
    rintro result u ⟨stop, -⟩
    obtain ⟨loose, here⟩ := stop.leaves steady member tracked
    have current : trimSpace plan.current = stopTarget svc v.fsm doc.metadata plan.workload.name := by
      rw [planned.current, stopTarget_trimmed]
    cases result with
    | error err =>
      rw [ensures_bind]
      refine recordWorkload_ensures near (fun _ _ => trivial) accepts named present ?_
      have settled : Tracked svc kindOf (u.record (assignmentRecord doc.metadata plan.workload plan.current .failed generation
          (some err) "" (artifactSummary plan.workload.run))) := by
        refine loose.settle own fun n k running => ?_
        obtain ⟨-, runtime, placed, target, -⟩ := here n k running
        exact ⟨runtime, placed, by rw [current, target], .inr rfl⟩
      rw [if_neg orderly]
      exact ⟨settled, by simp⟩
    | ok =>
      rw [ensures_bind]
      refine recordWorkload_ensures near (fun _ _ => trivial) accepts named present ?_
      refine ⟨loose.settle own fun n k running => absurd rfl (here n k running).1, fun _ => ⟨?_, ?_, ?_⟩⟩
      · intro n k
        rw [← Bool.not_eq_true]
        exact fun running => (here n k running).1 rfl
      · intro n k id running
        exact stop.running running
      · intro id proper other
        rw [assignmentOf_record_other proper own other, stop.fsm]
  · rw [if_pos (by simpa using assigned)]
    refine ⟨tracked, fun _ => ⟨?_, fun _ _ _ running => running, fun _ _ _ => rfl⟩⟩
    intro n k
    rw [← Bool.not_eq_true]
    intro running
    obtain ⟨a, recorded, -⟩ := (tracked.known n k _ not_false running).recorded
    rw [planned.assigned, Ledger.getAssignment_key, recorded] at assigned
    exact assigned rfl

def Separate (doc : App) (plans : List PlannedWorkloadMove) : Prop :=
  (∀ plan ∈ plans, plan.workload ∈ doc.workloads) ∧ (plans.map fun plan => plan.workload.key).Nodup

variable {plans : List PlannedWorkloadMove}

omit within accepts steady in
theorem Separate.id_ne {other : PlannedWorkloadMove} (separate : Separate doc (plan :: plans)) (later : other ∈ plans) :
    workloadId doc.metadata other.workload.name ≠ workloadId doc.metadata plan.workload.name := by
  intro same
  have keys : other.workload.key = plan.workload.key := congrArg WorkloadId.workload same
  have distinct := separate.2
  rw [List.map_cons, List.nodup_cons] at distinct
  exact distinct.1 (keys ▸ List.mem_map_of_mem later)

omit within accepts steady in
theorem Separate.tail (separate : Separate doc (plan :: plans)) : Separate doc plans := by
  have distinct := separate.2
  rw [List.map_cons, List.nodup_cons] at distinct
  exact ⟨fun other later => separate.1 other (List.mem_cons_of_mem _ later), distinct.2⟩

theorem stopMovePlans_tracked {v : Scene} (orderly : operation ≠ .failover)
    (separate : Separate doc plans.reverse) (planned : ∀ plan ∈ plans, Planned svc v.fsm doc plan)
    (tracked : Tracked svc kindOf v) :
    Ensures step (SoleCopy svc)
      (fun result u => Tracked svc kindOf u ∧ (result = .ok () →
        ∀ plan ∈ plans, ∀ n k, u.running n k (workloadId doc.metadata plan.workload.name) = false))
      (stopMovePlans svc ctx doc operation generation plans) v := by
  rw [stopMovePlans]
  refine ensures_eachUntil (fun rest u => Tracked svc kindOf u ∧ Separate doc rest ∧
    (∀ plan ∈ rest, Planned svc u.fsm doc plan) ∧ ∀ plan ∈ plans, plan ∈ rest ∨
      ∀ n k, u.running n k (workloadId doc.metadata plan.workload.name) = false) ?_ ?_
    ⟨tracked, separate, fun plan member => planned plan (List.mem_reverse.mp member),
      fun plan member => .inl (List.mem_reverse.mpr member)⟩
  · rintro u ⟨tracked, -, -, ended⟩
    exact ⟨tracked, fun _ plan member => (ended plan member).resolve_left (by simp)⟩
  rintro plan rest u ⟨tracked, separate, planned, ended⟩
  refine (stopMovePlan_tracked steady within accepts orderly (separate.1 plan (by simp)) (planned plan (by simp))
    tracked).mono ?_
  rintro (err | _) t ⟨tracked, after⟩
  · exact ⟨tracked, by simp⟩
  obtain ⟨past, still, others⟩ := after rfl
  refine ⟨tracked, separate.tail, fun other later => ?_, fun other member => ?_⟩
  · refine (planned other (List.mem_cons_of_mem _ later)).congr ?_
    rw [Ledger.getAssignment_key, Ledger.getAssignment_key]
    exact others _ (steady.proper (separate.tail.1 other later)) (separate.id_ne later)
  · rcases ended other member with coming | done
    · rcases List.mem_cons.mp coming with rfl | later
      · exact .inr past
      · exact .inl later
    · refine .inr fun n k => ?_
      rw [← Bool.not_eq_true]
      intro running
      exact Bool.false_ne_true ((done n k).symm.trans (still n k _ running))

omit steady accepts in
theorem runWorkloadOnNode_ensures {metadata : Metadata} {w : Workload} {node : String} {v : Scene}
    (clean : trimSpace node = node) (named : node ≠ "")
    (sole : ∀ n k, v.running n k (workloadId metadata w.name) = true → n = node) :
    Ensures step (SoleCopy svc) (fun result u => v.RunAt node w.runtime (workloadId metadata w.name) result u)
      (runWorkloadOnNode svc ctx metadata w node) v := by
  have near {v op answer u} (taken : step v op answer u) := (within taken).local
  have ran : Ensures step (SoleCopy svc)
      (fun result u => v.RunAt node w.runtime (workloadId metadata w.name) result u)
      (runChosen svc ctx metadata w node) v := by
    refine (runChosen_ensures within soleCopy_of_quiet (fun never : False => never.elim) ?_ (fun _ => trivial) ?_).mono ?_
    · rintro rfl
      exact sole
    · intro _ _ n k running
      rw [clean]
      exact sole n k running
    · rintro result u ⟨run, -⟩
      rwa [clean] at run
  simp only [runWorkloadOnNode, clean]
  rw [if_neg named]
  by_cases here : node = svc.localNode
  · rw [runChosen, if_neg (not_not.mpr here)] at ran
    rwa [if_pos here]
  · rw [runChosen, if_pos here] at ran
    rw [if_neg here]
    refine ran.bind ?_
    rintro (err | result) u run
    · exact run
    · rw [ensures_bind]
      exact upsertRecord_ensures near soleCopy_of_quiet run

/-- A start touches no instance but those of its workload. -/
theorem startMovePlan_tracked {v : Scene} (member : plan.workload ∈ doc.workloads)
    (clean : trimSpace plan.target = plan.target) (placed : plan.target ≠ "")
    (ended : ∀ n k, v.running n k (workloadId doc.metadata plan.workload.name) = false)
    (tracked : Tracked svc kindOf v) :
    Ensures step (SoleCopy svc)
      (fun _ u => Tracked svc kindOf u ∧ ∀ n k id, id ≠ workloadId doc.metadata plan.workload.name →
        u.running n k id = v.running n k id)
      (startMovePlan svc ctx doc generation plan) v := by
  have near {v op answer u} (taken : step v op answer u) := (within taken).local
  have named := App.validate_name steady.1
  have present := steady.present member
  have own := steady.proper member
  rw [startMovePlan, ensures_bind]
  refine applyWorkloadAssignment_ensures near (fun _ _ => trivial) accepts named present ?_
  rw [ensures_bind]
  have idle (n : String) (k : RuntimeKind) : ¬ v.running n k (workloadId doc.metadata plan.workload.name) = true := by
    rw [ended n k]
    simp
  have loose : TrackedBut svc kindOf (· = workloadId doc.metadata plan.workload.name)
      (v.record (assignmentRecord doc.metadata plan.workload plan.target .assigned generation none ""
        (artifactSummary plan.workload.run))) :=
    (tracked.mono fun _ never => never.elim).record own rfl
  refine (runWorkloadOnNode_ensures within clean placed ?_).mono ?_
  · intro n k running
    exact absurd running (idle n k)
  intro result u run
  have still (n : String) (k : RuntimeKind) (id : WorkloadId) (other : id ≠ workloadId doc.metadata plan.workload.name) :
      u.running n k id = v.running n k id := by
    obtain ⟨value, rfl, -⟩ := run
    exact View.setRunning_other fun same => other same.2.2
  obtain ⟨loose, here⟩ := run.tracked (steady.2 plan.workload member) loose fun n k running => absurd running (idle n k)
  cases result with
  | error err =>
    rw [ensures_bind]
    refine recordWorkload_ensures near (fun _ _ => trivial) accepts named present ?_
    refine ⟨loose.settle own fun n k running => ?_, still⟩
    obtain ⟨runtime, nonblank, at_node⟩ := here n k running
    exact ⟨runtime, nonblank, at_node.trans clean.symm, .inr rfl⟩
  | ok ran =>
    have status : ran.status = .running := by
      obtain ⟨value, -, -, started⟩ := run
      exact (started ran rfl).2
    rw [ensures_bind]
    refine recordWorkload_ensures near (fun _ _ => trivial) accepts named present ?_
    refine ⟨loose.settle own fun n k running => ?_, still⟩
    obtain ⟨runtime, nonblank, at_node⟩ := here n k running
    exact ⟨runtime, nonblank, at_node.trans clean.symm, .inl status⟩

theorem startMovePlans_tracked : ∀ {plans : List PlannedWorkloadMove}
    {v : Scene}, Separate doc plans →
    (∀ plan ∈ plans, trimSpace plan.target = plan.target ∧ plan.target ≠ "") →
    (∀ plan ∈ plans, ∀ n k, v.running n k (workloadId doc.metadata plan.workload.name) = false) → Tracked svc kindOf v →
    Ensures step (SoleCopy svc) (fun _ u => Tracked svc kindOf u) (startMovePlans svc ctx doc generation plans) v
  | [], _, _, _, _, tracked => tracked
  | plan :: rest, v, separate, targets, ended, tracked => by
    refine (startMovePlan_tracked steady within accepts (separate.1 plan (by simp)) (targets plan (by simp)).1
      (targets plan (by simp)).2 (ended plan (by simp)) tracked).bind ?_
    rintro (err | _) u ⟨tracked, still⟩
    · exact tracked
    refine (startMovePlans_tracked separate.tail (fun other later => targets other (List.mem_cons_of_mem _ later))
      (fun other later n k => ?_) tracked).bind ?_
    · rw [still n k _ (separate.id_ne later)]
      exact ended other (List.mem_cons_of_mem _ later) n k
    · intro result t tracked
      exact tracked

theorem moveAppWorkloads_tracked {workloads : List Workload} {v : Scene} (orderly : operation ≠ .failover)
    (members : ∀ w ∈ workloads, w ∈ doc.workloads) (distinct : (workloads.map Workload.key).Nodup)
    (targets : ∀ w u, Tracked svc kindOf u → u.fsm.assignments = v.fsm.assignments →
      Ensures step (SoleCopy svc) (fun _ t => Tracked svc kindOf t ∧ t.fsm.assignments = v.fsm.assignments)
        (targetFor w) u)
    (tracked : Tracked svc kindOf v) :
    Ensures step (SoleCopy svc) (fun _ u => Tracked svc kindOf u)
      (moveAppWorkloads svc ctx doc operation workloads targetFor) v := by
  refine (planWorkloadMoves_ensures within soleCopy_of_quiet
    (fun u => Tracked svc kindOf u ∧ u.fsm.assignments = v.fsm.assignments) (fun u held => held.2)
    (fun w u held => targets w u held.1 held.2) ⟨tracked, rfl⟩).bind ?_
  rintro ⟨plans, result⟩ u ⟨⟨tracked, same⟩, sublist, planned⟩
  cases result with
  | error err => exact tracked
  | ok =>
    dsimp only at sublist planned ⊢
    split
    · exact tracked
    have separate : Separate doc plans := by
      refine ⟨fun plan member => members _ (sublist.subset (List.mem_map_of_mem member)), ?_⟩
      have keys := sublist.map Workload.key
      rw [List.map_map] at keys
      exact keys.nodup distinct
    have reversed : Separate doc plans.reverse := by
      refine ⟨fun plan member => separate.1 plan (List.mem_reverse.mp member), ?_⟩
      rw [List.map_reverse, List.nodup_reverse]
      exact separate.2
    have current (plan : PlannedWorkloadMove) (member : plan ∈ plans) : Planned svc u.fsm doc plan := by
      refine (planned plan member).congr ?_
      simp only [Ledger.getAssignment, same]
    refine (stopMovePlans_tracked steady within accepts orderly reversed current tracked).bind ?_
    rintro (err | _) t ⟨tracked, ended⟩
    · exact tracked
    refine (startMovePlans_tracked steady within accepts separate
      (fun plan member => ⟨(planned plan member).clean, (planned plan member).placed⟩) (ended rfl) tracked).bind ?_
    rintro ⟨moved, started⟩ last tracked
    cases started <;> exact tracked

end Moves

/-- What an operator or the reconcile loop does to the cluster, but for
failovers. -/
inductive ClusterOp where
  | deploy (ctx : Ctx) (doc : App)
  | stop (ctx : Ctx) (metadata : Metadata)
  | migrate (ctx : Ctx) (metadata : Metadata) (opts : AppOperationOptions)
  | pass (ctx : Ctx)

def ClusterOp.program (svc : Service) : ClusterOp → Task Unit
  | .deploy ctx doc => do let _ ← submitDeploy svc ctx doc
  | .stop ctx metadata => do let _ ← submitStop svc ctx metadata
  | .migrate ctx metadata opts => do let _ ← submitMigrate svc ctx metadata opts
  | .pass ctx => reconcileAll svc ctx

def sequentially (svc : Service) (ops : List ClusterOp) : Task Unit := Program.each (ClusterOp.program svc) ops

/-- The workloads of the submitted documents keep their runtimes. -/
def KeepRuntimes (kindOf : WorkloadId → RuntimeKind) (ops : List ClusterOp) : Prop :=
  ∀ ctx doc, .deploy ctx doc ∈ ops → ∀ w ∈ doc.workloads, w.runtime = kindOf (workloadId doc.metadata w.name)

section Sequences

variable {svc : Service} {kindOf : WorkloadId → RuntimeKind} {step : Steps TaskSig Scene}
variable (within : step.Within (View.Step svc))
variable (accepts : Accepting step)
variable (sticky : ∀ {v op answer u}, step v op answer u → op.staysPut svc v.fsm)
include within accepts

variable {metadata : Metadata}

omit accepts in
theorem operationApp_tracked {post : Except Failure App → Scene → Prop} {v : Scene}
    (tracked : Tracked svc kindOf v) (missing : ∀ err, post (.error err) v)
    (found : ∀ app, Steady svc kindOf app → post (.ok app) v) :
    Ensures step (SoleCopy svc) post (operationApp metadata) v :=
  operationApp_ensures within soleCopy_of_quiet missing fun app desired => found app (tracked.docs.desired _ app desired).2

theorem submitStop_tracked {v : Scene} (tracked : Tracked svc kindOf v) :
    Ensures step (SoleCopy svc) (fun _ u => Tracked svc kindOf u) (submitStop svc ctx metadata) v := by
  rw [submitStop, submitExistingDeployApp, ensures_bind]
  refine operationApp_tracked within tracked (fun _ => tracked) fun app steady => ?_
  exact stopAppWorkloads_tracked steady tracked within accepts

theorem submitMigrate_tracked {opts : AppOperationOptions} {v : Scene} (tracked : Tracked svc kindOf v) :
    Ensures step (SoleCopy svc) (fun _ u => Tracked svc kindOf u) (submitMigrate svc ctx metadata opts) v := by
  simp only [submitMigrate]
  split
  · exact tracked
  rw [ensures_bind]
  refine operationApp_tracked within tracked (fun _ => tracked) fun app steady => ?_
  dsimp only
  split
  · exact tracked
  rename_i selected picked
  obtain ⟨ordered, sorted, sublist⟩ := selectOperationWorkloads_sublist picked
  obtain ⟨permuted, distinct, -⟩ := App.workloadsInDependencyOrder_ok sorted
  refine moveAppWorkloads_tracked steady within accepts (by simp) (fun w member => permuted.mem_iff.mp (sublist.subset member))
    ((sublist.map _).nodup ((permuted.map _).nodup_iff.mpr distinct)) (fun w u tracked same => ⟨tracked, same⟩) tracked

theorem submitDeploy_tracked {doc : App} {v : Scene}
    (keeps : ∀ w ∈ doc.workloads, w.runtime = kindOf (workloadId doc.metadata w.name)) (tracked : Tracked svc kindOf v) :
    Ensures step (SoleCopy svc) (fun _ u => Tracked svc kindOf u) (submitDeploy svc ctx doc) v := by
  refine submitDeploy_ensures (fun taken => (within taken).local) soleCopy_of_quiet (fun _ _ _ => trivial) accepts
    (fun _ => tracked) fun valid => ?_
  have steady : Steady svc kindOf doc := ⟨valid, keeps⟩
  exact tracked.upsert steady.decoded

include sticky

/-- The run lemma: operations one after the other keep the records true. -/
theorem sequentially_tracked {ops : List ClusterOp} {v : Scene} (keeps : KeepRuntimes kindOf ops)
    (tracked : Tracked svc kindOf v) :
    Ensures step (SoleCopy svc) (fun _ u => Tracked svc kindOf u) (sequentially svc ops) v := by
  refine ensures_each (fun rest u => Tracked svc kindOf u ∧ ∀ op ∈ rest, op ∈ ops) (fun u held => held.1) ?_
    ⟨tracked, fun _ member => member⟩
  rintro op rest u ⟨tracked, members⟩
  have each {α : Type} {p : Task α} (kept : Ensures step (SoleCopy svc) (fun _ t => Tracked svc kindOf t) p u) :
      Ensures step (SoleCopy svc) (fun _ t => Tracked svc kindOf t ∧ ∀ op ∈ rest, op ∈ ops) p u :=
    kept.mono fun _ _ tracked => ⟨tracked, fun later member => members later (List.mem_cons_of_mem _ member)⟩
  cases op with
  | deploy ctx doc =>
    rw [ClusterOp.program, ensures_bind]
    exact each (submitDeploy_tracked within accepts (keeps ctx doc (members _ (by simp))) tracked)
  | stop ctx metadata =>
    rw [ClusterOp.program, ensures_bind]
    exact each (submitStop_tracked within accepts tracked)
  | migrate ctx metadata opts =>
    rw [ClusterOp.program, ensures_bind]
    exact each (submitMigrate_tracked within accepts tracked)
  | pass ctx => exact each (reconcileAll_tracked within accepts sticky tracked)

end Sequences

/-- The steps of a service whose proposals Raft accepts and whose placements
stay put. -/
def StayingPut (svc : Service) : Steps TaskSig (World instanceRuntime) := fun w op answer u =>
  Accepted svc w op answer u ∧ op.staysPut svc w.view.fsm

/-- No app has been submitted yet and nothing runs. -/
structure World.Fresh (w : World instanceRuntime) : Prop where
  undesired : w.fsm.deployApps = ∅
  unrevised : w.fsm.deployAppRevisions = ∅
  idle : ∀ node kind id, w.view.running node kind id = false

theorem World.Fresh.tracked {w : World instanceRuntime} (fresh : w.Fresh) : Tracked svc kindOf w.view := by
  refine ⟨⟨fun key doc found => ?_, fun key revisions found => ?_⟩, fun node kind id _ running => ?_⟩
  · rw [show w.view.fsm.deployApps = ∅ from fresh.undesired] at found
    cases found
  · rw [show w.view.fsm.deployAppRevisions = ∅ from fresh.unrevised] at found
    cases found
  · rw [fresh.idle] at running
    cases running

/-- While workloads keep their runtimes and failed ones stay put, no workload
is started on a node while it runs on another one. -/
theorem started_on_sole_node {svc : Service} {kindOf : WorkloadId → RuntimeKind} {ops : List ClusterOp}
    {w u : World instanceRuntime} {trace : List (Event TaskSig (World instanceRuntime))} {rest : Task Unit}
    (keeps : KeepRuntimes kindOf ops) (fresh : w.Fresh) (run : Run (StayingPut svc) (sequentially svc ops) w trace rest u) :
    ∀ event ∈ trace, SoleCopy svc event.before.view event.op := by
  have seen : Ensures (fun v op answer u => Assuming (View.Step svc) TaskOp.accepted v op answer u ∧ op.staysPut svc v.fsm)
      (SoleCopy svc) (fun _ u => Tracked svc kindOf u) (sequentially svc ops) w.view :=
    sequentially_tracked (fun taken => taken.1.1) (fun taken => Check.isOk_iff.mp taken.1.2) (fun taken => taken.2) keeps
      fresh.tracked
  have lifted : Ensures (StayingPut svc) (fun w op => SoleCopy svc w.view op) (fun _ u => Tracked svc kindOf u.view)
      (sequentially svc ops) w := seen.simulate fun taken => ⟨⟨World.view_step taken.1.1, taken.1.2⟩, taken.2⟩
  exact (lifted.run run).1

def World.halfBusy : World instanceRuntime :=
  { World.idle with fsm := { nodeCapacity := AList.singleton "b" ⟨"b", 0, 4, 50, 1000⟩ } }

theorem World.halfBusy_fresh : World.halfBusy.Fresh := ⟨rfl, rfl, fun _ _ _ => rfl⟩

def World.reporting (percent : Rat) : Choice instanceRuntime :=
  { World.smoothly "a" with report := ⟨4, percent, 1000, 0⟩, attempts := [List.replicate 8 (World.smooth "a")] }

def rollout : List ClusterOp :=
  [.deploy {} (imageApp "web" "api" "nginx"), .pass {}, .deploy {} (imageApp "web" "api" "caddy"), .pass {}, .pass {}]

def stopRefused (later : Choice instanceRuntime) : List (Choice instanceRuntime) :=
  List.replicate 19 (World.reporting 0) ++ World.refusing "a" :: List.replicate 12 later

/-- On an idle node the failed workload is placed where it still runs. -/
theorem started_on_sole_node_again :
    ∃ trace : List (Event TaskSig (World instanceRuntime)),
      (∃ event ∈ trace, event.op.stopped event.answer = false) ∧
        ∀ event ∈ trace, SoleCopy sampleService event.before.view event.op := by
  have traced : ((sequentially sampleService rollout).trace
      ((World.machine instanceRuntime sampleService).assuming TaskOp.accepted) (stopRefused (World.reporting 0))
      World.halfBusy).map (fun trace => (trace.any fun event => !event.op.stopped event.answer) &&
        trace.all fun event => event.op.staysPut sampleService event.before.view.fsm) = some true := by
    decide +kernel
  obtain ⟨trace, q, t, passed, run⟩ := exists_run_of_check traced
  simp only [Bool.and_eq_true, List.any_eq_true, List.all_eq_true, decide_eq_true_eq, Bool.not_eq_true'] at passed
  refine ⟨trace, passed.1, ?_⟩
  have keeps : KeepRuntimes (fun _ => .docker) rollout := by
    intro ctx doc member w inside
    simp only [rollout, List.mem_cons, ClusterOp.deploy.injEq, reduceCtorEq, List.not_mem_nil, or_false, false_or] at member
    rcases member with ⟨-, rfl⟩ | ⟨-, rfl⟩ <;> simp only [imageApp, List.mem_singleton] at inside <;> subst inside <;> rfl
  exact started_on_sole_node keeps World.halfBusy_fresh ((run.mono Machine.assuming_step).within passed.2)

def TaskOp.stopsAside : (op : TaskOp) → op.Answer → Bool
  | .runtimeStop _ _ _ _, _ => true
  | .dispatchStop _ _ _ _, _ => true
  | op, answer => op.succeeded answer

/-- The node on which the stop failed has become busy at the next pass, so
the workload is started on the other one. -/
theorem failed_stop_leaks_copy :
    ¬ ∀ (svc : Service) (ops : List ClusterOp) (w u : World instanceRuntime) (rest : Task Unit)
      (trace : List (Event TaskSig (World instanceRuntime))), w.Fresh →
      Run (Assuming (World.machine instanceRuntime svc).Step TaskOp.stopsAside) (sequentially svc ops) w trace rest u →
        ∀ event ∈ trace, SoleCopy svc event.before.view event.op := by
  intro sole
  have traced : ((sequentially sampleService rollout).trace
      ((World.machine instanceRuntime sampleService).assuming TaskOp.stopsAside) (stopRefused (World.reporting 90))
      World.halfBusy).map (fun trace => trace.any fun event =>
        match event.op with
        | .dispatchWorkload _ target metadata workload => trimSpace target = "b" ∧
            event.before.view.running "a" .docker (workloadId metadata workload.name) = true
        | _ => false) = some true := by
    decide +kernel
  obtain ⟨trace, q, t, passed, run⟩ := exists_run_of_check traced
  obtain ⟨event, member, started⟩ := List.any_eq_true.mp passed
  have only := sole _ _ _ _ _ _ World.halfBusy_fresh (run.mono Machine.assuming_step) event member
  split at started
  · rename_i ctx target metadata workload asked
    rw [asked] at only
    obtain ⟨there, running⟩ := of_decide_eq_true started
    have here : "a" = trimSpace target := only "a" .docker running
    rw [there] at here
    revert here
    decide
  · cases started

/-- Every instance is recorded at the node it runs on, and no workload has two. -/
def Accounted (w : World instanceRuntime) : Prop :=
  ∀ node kind id, w.view.running node kind id = true →
    (∃ a, w.fsm.assignments.lookup id.key = some a ∧ trimSpace a.node = node ∧ (a.status = .running ∨ a.status = .failed)) ∧
      ∀ other kind', w.view.running other kind' id = true → other = node ∧ kind' = kind

/-- Under the same conditions nothing runs unrecorded between operations, and
nothing runs twice. -/
theorem instances_accounted_for {svc : Service} {kindOf : WorkloadId → RuntimeKind} {ops : List ClusterOp}
    {w u : World instanceRuntime} (keeps : KeepRuntimes kindOf ops) (fresh : w.Fresh)
    (run : Finishes (StayingPut svc) (sequentially svc ops) w () u) : Accounted u := by
  have seen : Ensures (fun v op answer u => Assuming (View.Step svc) TaskOp.accepted v op answer u ∧ op.staysPut svc v.fsm)
      (SoleCopy svc) (fun _ u => Tracked svc kindOf u) (sequentially svc ops) w.view :=
    sequentially_tracked (fun taken => taken.1.1) (fun taken => Check.isOk_iff.mp taken.1.2) (fun taken => taken.2) keeps
      fresh.tracked
  have lifted : Ensures (StayingPut svc) (fun w op => SoleCopy svc w.view op) (fun _ u => Tracked svc kindOf u.view)
      (sequentially svc ops) w := seen.simulate fun taken => ⟨⟨World.view_step taken.1.1, taken.1.2⟩, taken.2⟩
  have tracked := lifted.finishes run
  intro node kind id running
  have known := tracked.known node kind id (by simp) running
  obtain ⟨a, found, placed, alive⟩ := known.recorded
  refine ⟨⟨a, found, placed, alive⟩, fun other kind' too => ?_⟩
  have twin := tracked.known other kind' id (by simp) too
  obtain ⟨b, again, there, -⟩ := twin.recorded
  obtain rfl := Option.some.inj (again.symm.trans found)
  exact ⟨there.symm.trans placed, twin.runtime.trans known.runtime.symm⟩

theorem instances_accounted_for_rollout :
    ∃ u : World instanceRuntime, u.view.running "a" .docker ⟨"default", "web", "api"⟩ = true ∧ Accounted u := by
  have played : ((sequentially sampleService rollout).play ((World.machine instanceRuntime sampleService).assuming TaskOp.accepted)
      (List.replicate 40 (World.reporting 0)) World.halfBusy).map (fun last =>
        last.1.view.running "a" .docker ⟨"default", "web", "api"⟩) = some true := by decide +kernel
  have traced : ((sequentially sampleService rollout).trace
      ((World.machine instanceRuntime sampleService).assuming TaskOp.accepted) (List.replicate 40 (World.reporting 0))
      World.halfBusy).map (fun trace => trace.all fun event => event.op.staysPut sampleService event.before.view.fsm) =
        some true := by decide +kernel
  obtain ⟨⟨u, _⟩, ended, passed⟩ := Option.map_eq_some_iff.mp played
  obtain ⟨trace, followed, stays⟩ := Option.map_eq_some_iff.mp traced
  simp only [List.all_eq_true, decide_eq_true_eq] at stays
  have keeps : KeepRuntimes (fun _ => .docker) rollout := by
    intro ctx doc member w inside
    simp only [rollout, List.mem_cons, ClusterOp.deploy.injEq, reduceCtorEq, List.not_mem_nil, or_false, false_or] at member
    rcases member with ⟨-, rfl⟩ | ⟨-, rfl⟩ <;> simp only [imageApp, List.mem_singleton] at inside <;> subst inside <;> rfl
  exact ⟨u, passed, instances_accounted_for keeps World.halfBusy_fresh
    ⟨trace, ((run_of_play ended followed).mono Machine.assuming_step).within stays⟩⟩

end Orch
