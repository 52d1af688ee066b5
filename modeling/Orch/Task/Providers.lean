import Orch.Raft.Payload
import Orch.Task.Copies

namespace Orch

open Effect

section Fitting

variable (svc : Service) (kindOf : WorkloadId → RuntimeKind)

/-- A workload that can be told from others and has the runtime it always
has. -/
def FitsAt (metadata : Metadata) (name : String) (kind : RuntimeKind) : Prop :=
  (workloadId metadata name).Proper ∧ kind = kindOf (workloadId metadata name)

/-- An action that concerns workloads of the right runtimes only. -/
def TaskOp.fits : TaskOp → Prop
  | .apply _ (.upsertDeployApp doc) => Steady svc kindOf doc
  | .apply _ (.upsertWorkloadAssignment a) =>
    ∃ metadata name, a.key = assignmentKey metadata name ∧ FitsAt kindOf metadata name a.runtime
  | .runtimeDeploy _ metadata workload => FitsAt kindOf metadata workload.name workload.runtime
  | .runtimeStop _ kind metadata name => FitsAt kindOf metadata name kind
  | .dispatchWorkload _ _ metadata workload => FitsAt kindOf metadata workload.name workload.runtime
  | .dispatchStop _ _ metadata workload => FitsAt kindOf metadata workload.name workload.runtime
  | _ => True

def TaskOp.told : (op : TaskOp) → op.Answer → Prop
  | .getDesiredDeployApp _, found => ∀ doc ∈ found, Steady svc kindOf doc
  | .listDesiredDeployApps, docs => ∀ doc ∈ docs, Steady svc kindOf doc
  | .getPreviousDeployApp _, found => ∀ revision ∈ found, Steady svc kindOf revision.app
  | _, _ => True

/-- A program that, told of the right documents, only does what fits. -/
abbrev Fitting {α : Type} (post : α → Prop) (p : Task α) : Prop :=
  Heeds (S := TaskSig) (TaskOp.told svc kindOf) (TaskOp.fits svc kindOf) post p

end Fitting

variable {op : TaskOp}

section Programs

variable {svc : Service} {kindOf : WorkloadId → RuntimeKind} {α β : Type}

theorem TaskOp.fits_of_idle (idle : op.idle = true) : op.fits svc kindOf := by
  cases op with
  | apply ctx command =>
    cases command with
    | upsertNodeCapacity | upsertVolumeBinding => trivial
    | _ => cases idle
  | runtimeDeploy | runtimeStop | dispatchWorkload | dispatchStop => cases idle
  | _ => trivial

abbrev Telling (svc : Service) (kindOf : WorkloadId → RuntimeKind) : Steps TaskSig Unit := fun _ op answer _ =>
    op.told svc kindOf answer

abbrev Fits (svc : Service) (kindOf : WorkloadId → RuntimeKind) (_ : Unit) (op : TaskOp) : Prop := op.fits svc kindOf

theorem fits_lasting : Lasting (Telling svc kindOf) (Fits svc kindOf) fun _ => True :=
  fun _ _ _ idle => ⟨TaskOp.fits_of_idle idle, fun _ _ _ => trivial⟩

theorem Idle.fitting {p : Task α} (idle : Idle p) : Fitting svc kindOf (fun _ => True) p :=
  fits_lasting.ensures idle trivial

variable {ctx : Ctx} {metadata : Metadata} {workload : Workload} {app doc : App} {generation : String}

theorem FitsAt.keeping (fits : FitsAt kindOf app.metadata workload.name workload.runtime) :
    Keeping (Telling svc kindOf) (Fits svc kindOf) svc app workload (Steady svc kindOf) fun _ => True := by
  refine ⟨⟨⟨fits.1.named, fits.1.present⟩, fits_lasting, ?_⟩, fun _ told => told _ rfl, fun _ steady => ⟨steady, fun _ _ _ => trivial⟩⟩
  intro op _ concerns _
  refine ⟨?_, fun _ _ _ => trivial⟩
  cases op with
  | apply ctx command =>
    cases command with
    | upsertWorkloadAssignment a =>
      obtain ⟨node, status, generation, error, address, rfl⟩ := concerns
      exact ⟨app.metadata, workload.name, rfl, fits⟩
    | _ => exact concerns.elim
  | runtimeDeploy | dispatchWorkload | dispatchStop =>
    obtain ⟨rfl, rfl, -⟩ := concerns
    exact fits
  | runtimeStop =>
    obtain ⟨rfl, rfl, rfl⟩ := concerns
    exact fits
  | _ => trivial

theorem Steady.fits (steady : Steady svc kindOf doc) (member : workload ∈ doc.workloads) :
    FitsAt kindOf doc.metadata workload.name workload.runtime :=
  ⟨steady.proper member, steady.2 workload member⟩

theorem reconcileAll_fitting : Fitting svc kindOf (fun _ => True) (reconcileAll svc ctx) :=
  reconcileAll_walk (Steady svc kindOf) fits_lasting (fun told => told)
    (fun steady _ member _ _ held => (steady.fits member).keeping.deploys held) trivial

theorem stopAppWorkload_fitting (fits : FitsAt kindOf app.metadata workload.name workload.runtime) :
    Fitting svc kindOf (fun _ => True) (stopAppWorkload svc ctx app generation workload) := by
  have recorded {node : String} {status : AssignmentStatus} {binding : BindingStatus} {error : Option Failure} :
      Fitting svc kindOf (fun _ => True) (recordWorkload ctx app workload node status binding generation error "") :=
    recordWorkload_walk ⟨fits.1.named, fits.1.present⟩ fits_lasting (fits.keeping.records trivial)
  refine heeds_then (heeds_then stopTargetNode_reads.idle.fitting fun node => fits.keeping.stops trivial) ?_
  rintro (err | _) <;>
    exact heeds_then assignmentNodeOrEmpty_reads.idle.fitting fun node => heeds_then recorded fun _ => trivial

theorem stopAppWorkloads_fitting (steady : Steady svc kindOf doc) :
    Fitting svc kindOf (fun _ => True) (stopAppWorkloads svc ctx doc) := by
  unfold stopAppWorkloads
  split
  · trivial
  rename_i workloads ordered
  refine ensures_eachUntil (fun rest _ => ∀ w ∈ rest, w ∈ doc.workloads) (fun _ _ => trivial) (fun w rest _ inside => ?_)
    (fun w member => (App.workloadsInDependencyOrder_ok ordered).1.mem_iff.mp (List.mem_reverse.mp member))
  refine (stopAppWorkload_fitting (steady.fits (inside w (by simp)))).mono ?_
  rintro (err | _) _ -
  · trivial
  · exact fun x later => inside x (List.mem_cons_of_mem _ later)

theorem submitDeploy_fitting (keeps : ∀ w ∈ doc.workloads, w.runtime = kindOf (workloadId doc.metadata w.name)) :
    Fitting svc kindOf (fun _ => True) (submitDeploy svc ctx doc) := by
  unfold submitDeploy
  split
  · trivial
  rename_i valid
  refine heeds_then preflightDeploy_reads.idle.fitting ?_
  rintro (err | _)
  · trivial
  refine heeds_then (heeds_asked ⟨valid, keeps⟩) ?_
  rintro (err | _) <;> trivial

theorem submitStop_fitting : Fitting svc kindOf (fun _ => True) (submitStop svc ctx metadata) := by
  have found : Fitting svc kindOf (fun result => ∀ doc, result = .ok doc → Steady svc kindOf doc) (operationApp metadata) := by
    simp only [operationApp]
    split
    · simp
    refine heeds_bind (heeds_ask trivial fun found told => told) ?_
    rintro (_ | doc) told
    · simp
    · refine ensures_pure.mpr ?_
      rintro _ ⟨⟩
      exact told doc rfl
  refine heeds_bind found ?_
  rintro (err | doc) steady
  · trivial
  · exact stopAppWorkloads_fitting (steady doc rfl)

theorem submitDelete_fitting : Fitting svc kindOf (fun _ => True) (submitDelete svc ctx metadata) := by
  simp only [submitDelete]
  split
  · trivial
  refine heeds_bind (heeds_ask trivial fun found told => told) fun desired told => ?_
  have deleted : Fitting svc kindOf (fun _ => True) (raftApplyDeleteDeployApp ctx (normalizeOperationMetadata metadata)) := by
    unfold raftApplyDeleteDeployApp
    split
    · trivial
    · exact heeds_asked trivial
  refine heeds_then deleted ?_
  rintro (err | _)
  · trivial
  cases desired with
  | none => trivial
  | some doc => exact stopAppWorkloads_fitting (told doc rfl)

end Programs

section Invariant

variable (svc : Service) (kindOf : WorkloadId → RuntimeKind)

/-- Everything recorded and everything running is of the right runtime. -/
structure Provided (v : Scene) : Prop where
  docs : v.fsm.Holds fun _ doc => Steady svc kindOf doc
  assigned : ∀ id : WorkloadId, id.Proper → ∀ a, v.fsm.assignmentOf id = some a → a.runtime = kindOf id
  running : ∀ node kind id, v.running node kind id = true → kind = kindOf id

variable {svc kindOf} {v u : Scene}

theorem Provided.tells (provided : Provided svc kindOf v) {answer : op.Answer}
    (taken : View.Step svc v op answer u) : op.told svc kindOf answer := by
  cases op with
  | getDesiredDeployApp metadata =>
    obtain ⟨rfl, -⟩ := taken
    exact fun doc found => provided.docs.desired _ doc found
  | listDesiredDeployApps =>
    intro doc member
    obtain ⟨⟨key, doc⟩, entry, rfl⟩ := List.mem_map.mp (taken.1.mem_iff.mp member)
    exact provided.docs.desired key doc (AList.mem_lookup_iff.mpr entry)
  | getPreviousDeployApp metadata =>
    obtain ⟨rfl, -⟩ := taken
    exact fun revision found => provided.docs.previous found
  | _ => trivial

theorem Provided.setRunning {node : String} {metadata : Metadata} {name : String} {kind : RuntimeKind} {value : Bool}
    (provided : Provided svc kindOf v) (fits : FitsAt kindOf metadata name kind) :
    Provided svc kindOf (v.setRunning node kind (workloadId metadata name) value) := by
  refine ⟨provided.docs, provided.assigned, fun n k id running => ?_⟩
  by_cases here : n = node ∧ k = kind ∧ id = workloadId metadata name
  · obtain ⟨-, rfl, rfl⟩ := here
    exact fits.2
  · rw [View.setRunning_other here] at running
    exact provided.running n k id running

theorem Provided.update {command : Command} {ctx : Ctx} (provided : Provided svc kindOf v)
    (fits : (TaskOp.apply ctx command).fits svc kindOf) : Provided svc kindOf { v with fsm := v.fsm.update command } := by
  have docs : (v.fsm.update command).Holds fun _ doc => Steady svc kindOf doc := by
    refine provided.docs.update fun app same _ => ?_
    subst same
    exact Steady.decoded fits
  refine ⟨docs, ?_, provided.running⟩
  intro id proper b found
  rw [Ledger.assignmentOf, Ledger.assignments_update] at found
  cases command with
  | upsertWorkloadAssignment a =>
    obtain ⟨metadata, name, key, own, runtime⟩ := fits
    simp only [Command.assigns] at found
    split at found
    · exact provided.assigned id proper b found
    rename_i stored kept
    obtain rfl := normalizeAssignment_some kept
    have filled : a.trimmed.key = assignmentKey metadata name := by
      have nonempty : assignmentKey metadata name ≠ "" := WorkloadId.key_ne_empty own.named own.present
      simp [Assignment.trimmed, filledKey, key, nonempty]
    simp only [filled, Table.lookup_insert] at found
    split at found
    · rename_i same
      cases found
      rw [← own.key_inj proper same]
      exact runtime
    · exact provided.assigned id proper b found
  | _ => exact provided.assigned id proper b found

/-- No action that fits brings in another runtime. -/
theorem Provided.step {answer : op.Answer} (provided : Provided svc kindOf v) (fits : op.fits svc kindOf)
    (taken : View.Step svc v op answer u) : Provided svc kindOf u := by
  cases op with
  | apply ctx command =>
    rcases taken with ⟨-, rfl⟩ | ⟨-, rfl | rfl⟩
    · exact provided.update fits
    · exact provided
    · exact provided.update fits
  | runtimeDeploy ctx metadata workload =>
    obtain ⟨value, rfl, -⟩ := (View.Step.local taken).deploy
    exact provided.setRunning fits
  | runtimeStop ctx kind metadata name =>
    obtain ⟨value, rfl, -⟩ := (View.Step.local taken).stop
    exact provided.setRunning fits
  | dispatchWorkload ctx node metadata workload =>
    obtain ⟨value, rfl, -⟩ := taken
    exact provided.setRunning fits
  | dispatchStop ctx node metadata workload =>
    obtain ⟨value, rfl, -⟩ := taken
    exact provided.setRunning fits
  | getDesiredDeployApp | listDesiredDeployApps | getPreviousDeployApp | getWorkloadAssignment | choosePlacement =>
    rw [taken.2]
    exact provided
  | _ =>
    obtain rfl : u = v := taken
    exact provided

end Invariant

/-- What is done to the documents of apps and their workloads. -/
inductive LifecycleOp where
  | deploy (ctx : Ctx) (doc : App)
  | pass (ctx : Ctx)
  | stop (ctx : Ctx) (metadata : Metadata)
  | delete (ctx : Ctx) (metadata : Metadata)

def LifecycleOp.program (svc : Service) : LifecycleOp → Task Unit
  | .deploy ctx doc => do let _ ← submitDeploy svc ctx doc
  | .pass ctx => reconcileAll svc ctx
  | .stop ctx metadata => do let _ ← submitStop svc ctx metadata
  | .delete ctx metadata => do let _ ← submitDelete svc ctx metadata

def lifecycle (svc : Service) (ops : List LifecycleOp) : Task Unit := Program.each (LifecycleOp.program svc) ops

/-- The workloads of the submitted documents keep their runtimes. -/
def RuntimesKept (kindOf : WorkloadId → RuntimeKind) (ops : List LifecycleOp) : Prop :=
  ∀ ctx doc, .deploy ctx doc ∈ ops → ∀ w ∈ doc.workloads, w.runtime = kindOf (workloadId doc.metadata w.name)

theorem lifecycle_fitting {svc : Service} {kindOf : WorkloadId → RuntimeKind} {ops : List LifecycleOp}
    (keeps : RuntimesKept kindOf ops) :
    Fitting svc kindOf (fun _ => True) (lifecycle svc ops) := by
  refine ensures_each (fun rest _ => ∀ op ∈ rest, op ∈ ops) (fun _ _ => trivial) (fun op rest _ inside => ?_)
    fun _ member => member
  have done {α : Type} {p : Task α} (fitting : Fitting svc kindOf (fun _ => True) p) :
      Fitting svc kindOf (fun _ => ∀ op ∈ rest, op ∈ ops) p :=
    fitting.mono fun _ _ _ later member => inside later (List.mem_cons_of_mem _ member)
  cases op with
  | deploy ctx doc => exact heeds_bind (done (submitDeploy_fitting (keeps ctx doc (inside _ (by simp))))) fun _ held => held
  | pass ctx => exact done reconcileAll_fitting
  | stop ctx metadata => exact heeds_bind (done submitStop_fitting) fun _ held => held
  | delete ctx metadata => exact heeds_bind (done submitDelete_fitting) fun _ held => held

/-- A stop goes to the runtime that the assignment of its workload names. -/
def OwnProvider (v : Scene) : TaskOp → Prop
  | .runtimeStop _ kind metadata name =>
    ∀ a, v.fsm.getAssignment (assignmentKey metadata name) = some a → kind = a.runtime
  | .dispatchStop _ _ metadata workload =>
    ∀ a, v.fsm.getAssignment (assignmentKey metadata workload.name) = some a → workload.runtime = a.runtime
  | _ => True

/-- No desired workload runs under another runtime than the document names. -/
def NoStrayInstance (v : Scene) : Prop :=
  ∀ metadata doc, v.fsm.getDeployApp metadata = some doc → ∀ w ∈ doc.workloads, ∀ node kind,
    v.running node kind (workloadId doc.metadata w.name) = true → kind = w.runtime

theorem Provided.ownProvider {svc : Service} {kindOf : WorkloadId → RuntimeKind} {v : Scene}
    (provided : Provided svc kindOf v) (fits : op.fits svc kindOf) : OwnProvider v op := by
  have right {metadata : Metadata} {name : String} {kind : RuntimeKind} (fits : FitsAt kindOf metadata name kind)
      (a : Assignment) (found : v.fsm.getAssignment (assignmentKey metadata name) = some a) : kind = a.runtime := by
    rw [Ledger.getAssignment_key] at found
    rw [fits.2, provided.assigned _ fits.1 a found]
  cases op with
  | runtimeStop ctx kind metadata name => exact right fits
  | dispatchStop ctx node metadata workload => exact right fits
  | _ => trivial

/-- While workloads keep their runtimes, each is stopped by the runtime that
started it, and none is left behind under another. -/
theorem stopped_by_own_provider {svc : Service} {kindOf : WorkloadId → RuntimeKind} {ops : List LifecycleOp}
    {w u : World instanceRuntime} {trace : List (Event TaskSig (World instanceRuntime))} {rest : Task Unit}
    (keeps : RuntimesKept kindOf ops) (fresh : w.Fresh) (unassigned : w.fsm.assignments = ∅)
    (run : Run (World.machine instanceRuntime svc).Step (lifecycle svc ops) w trace rest u) :
    (∀ event ∈ trace, OwnProvider event.before.view event.op) ∧ NoStrayInstance u.view := by
  have start : Provided svc kindOf w.view := by
    have tracked : Tracked svc kindOf w.view := fresh.tracked
    refine ⟨⟨fun key doc found => (tracked.docs.desired key doc found).2, fun key rs found r member =>
      (tracked.docs.revised key rs found r member).2⟩, fun id _ a found => ?_, fun node kind id running => ?_⟩
    · rw [Ledger.assignmentOf, show w.view.fsm.assignments = ∅ from unassigned] at found
      cases found
    · rw [fresh.idle] at running
      cases running
  have kept : Ensures (World.machine instanceRuntime svc).Step
      (fun w (op : TaskOp) => Provided svc kindOf w.view ∧ op.fits svc kindOf) (fun _ u => True ∧ Provided svc kindOf u.view)
      (lifecycle svc ops) w := by
    refine Ensures.of_heeds (fun w : World instanceRuntime => Provided svc kindOf w.view) ?_ ?_
      (lifecycle_fitting keeps) start
    · intro s op answer t provided taken
      exact provided.tells (World.view_step taken)
    · intro s op answer t provided fits taken
      exact provided.step fits (World.view_step taken)
  constructor
  · intro event member
    obtain ⟨provided, fits⟩ := (kept.run run).1 event member
    exact provided.ownProvider fits
  · have provided := kept.visits (fun w => Provided svc kindOf w.view) (fun provided fits taken =>
      provided.step fits.2 (World.view_step taken)) start ⟨trace, rest, run⟩
    intro metadata doc desired x member node kind running
    rw [provided.running node kind _ running, (provided.docs.desired _ doc desired).2 x member]

def changeover (kind : RuntimeKind) : List LifecycleOp :=
  [.deploy {} (imageApp "web" "api" "nginx"), .pass {},
    .deploy {} { imageApp "web" "api" "caddy" with workloads := [{ imageWorkload "api" "caddy" with runtime := kind }] }, .pass {}]

theorem World.idle_fresh : World.idle.Fresh := ⟨rfl, rfl, fun _ _ _ => rfl⟩

/-- With the same runtime the old instance is stopped where it was started. -/
theorem stopped_by_own_provider_again :
    ∃ trace : List (Event TaskSig (World instanceRuntime)),
      (∃ event ∈ trace, ∃ ctx, event.op = .runtimeStop ctx .docker { name := "web" } "api") ∧
        ∀ event ∈ trace, OwnProvider event.before.view event.op := by
  have traced : ((lifecycle sampleService (changeover .docker)).trace (World.machine instanceRuntime sampleService)
      (List.replicate 40 (World.smoothly "a")) World.idle).map (fun trace => trace.any fun event =>
        match event.op with
        | .runtimeStop _ kind metadata name => kind = .docker ∧ metadata = { name := "web" } ∧ name = "api"
        | _ => false) = some true := by
    decide +kernel
  obtain ⟨trace, q, t, passed, run⟩ := exists_run_of_check traced
  obtain ⟨event, member, stops⟩ := List.any_eq_true.mp passed
  have keeps : RuntimesKept (fun _ => .docker) (changeover .docker) := by
    intro ctx doc inside x held
    simp only [changeover, List.mem_cons, LifecycleOp.deploy.injEq, reduceCtorEq, List.not_mem_nil, or_false, false_or] at inside
    rcases inside with ⟨-, rfl⟩ | ⟨-, rfl⟩ <;> simp only [imageApp, List.mem_singleton] at held <;> subst held <;> rfl
  refine ⟨trace, ⟨event, member, ?_⟩, (stopped_by_own_provider keeps World.idle_fresh rfl run).1⟩
  split at stops
  · rename_i ctx kind metadata name asked
    obtain ⟨rfl, rfl, rfl⟩ := of_decide_eq_true stops
    exact ⟨ctx, asked⟩
  · cases stops

/-- With another runtime the stop goes to the new one, and the old instance
runs on under the old one. -/
theorem changed_runtime_leaves_instance :
    ¬ ∀ (svc : Service) (ops : List LifecycleOp) (w u : World instanceRuntime) (rest : Task Unit)
      (trace : List (Event TaskSig (World instanceRuntime))), w.Fresh → w.fsm.assignments = ∅ →
      Run (Assuming (World.machine instanceRuntime svc).Step TaskOp.succeeded) (lifecycle svc ops) w trace rest u →
        (∀ event ∈ trace, OwnProvider event.before.view event.op) ∧ NoStrayInstance u.view := by
  intro own
  have traced : ((lifecycle sampleService (changeover .containerd)).trace
      ((World.machine instanceRuntime sampleService).assuming TaskOp.succeeded) (List.replicate 40 (World.smoothly "a"))
      World.idle).map (fun trace => trace.any fun event =>
        match event.op with
        | .runtimeStop _ kind metadata name => kind = .containerd ∧
            (event.before.fsm.getAssignment (assignmentKey metadata name)).map Assignment.runtime = some .docker
        | _ => false) = some true := by
    decide +kernel
  obtain ⟨trace, q, t, passed, run⟩ := exists_run_of_check traced
  obtain ⟨event, member, stops⟩ := List.any_eq_true.mp passed
  have right := (own _ _ _ _ _ _ World.idle_fresh rfl (run.mono Machine.assuming_step)).1 event member
  split at stops
  · rename_i ctx kind metadata name asked
    rw [asked] at right
    obtain ⟨rfl, recorded⟩ := of_decide_eq_true stops
    obtain ⟨a, found, docker⟩ := Option.map_eq_some_iff.mp recorded
    have same : RuntimeKind.containerd = a.runtime := right a found
    rw [docker] at same
    cases same
  · cases stops

end Orch
