import Orch.Std.Index
import Orch.Task.Reads
import Orch.Task.View

namespace Orch

open Effect

/-- What the registry of a node says of a workload, its status apart. -/
structure RegistryEntry where
  node : String
  runtime : RuntimeKind
  artifact : String
deriving DecidableEq, Repr

def WorkloadRecord.entry (record : WorkloadRecord) : RegistryEntry :=
  ⟨record.node, record.runtime, record.artifact⟩

def World.registry {R : Runtime} (node : String) (w : World R) : Table WorkloadRecord :=
  (w.tables node).registry

def listed (registry : Table WorkloadRecord) (name : String) : Option RegistryEntry :=
  (registry.lookup name).map WorkloadRecord.entry

def TaskOp.registered : TaskOp → Table WorkloadRecord → Table WorkloadRecord
  | .registryUpsert record, registry => registry.insert record.name record
  | .registryDelete name, registry => registry.erase name
  | _, registry => registry

/-- The action involves no other node than those apart from this one. -/
def TaskOp.awayFrom (self : String) : TaskOp → Prop
  | .dispatchWorkload _ node _ _ => trimSpace node ≠ self
  | .dispatchStop _ node _ _ => trimSpace node ≠ self
  | _ => True

def RegistryStep (self : String) : Steps TaskSig (Table WorkloadRecord) := fun registry op _ after =>
  op.awayFrom self → after = op.registered registry

variable {op : TaskOp} {answer : op.Answer}

namespace World

variable {R : Runtime}

variable {w : World R}

theorem registry_updateTables {node : String} {change : NodeTables → NodeTables}
    (same : (change (w.tables node)).registry = (w.tables node).registry) (n : String) :
    (w.updateTables node change).registry n = w.registry n := by
  simp only [registry, updateTables]
  rcases eq_or_ne n node with rfl | apart
  · rw [Function.update_self, same]
  · rw [Function.update_of_ne apart]

variable {u : World R}

theorem registry_performLocal {self : String} {c : LocalChoice R}
    (taken : w.performLocal self op c = some (u, answer)) :
    u.registry self = op.registered (w.registry self) ∧ ∀ n, n ≠ self → u.registry n = w.registry n := by
  have still (same : ∀ n, u.registry n = w.registry n) (quiet : op.registered (w.registry self) = w.registry self) :
      u.registry self = op.registered (w.registry self) ∧ ∀ n, n ≠ self → u.registry n = w.registry n :=
    ⟨(same self).trans quiet.symm, fun n _ => same n⟩
  cases op with
  | registryUpsert | registryDelete =>
    cases taken
    refine ⟨?_, fun n apart => ?_⟩
    · simp only [registry, updateTables, Function.update_self, TaskOp.registered]
      rfl
    · simp only [registry, updateTables, Function.update_of_ne apart]
      rfl
  | takeRestart key maxRestarts =>
    simp only [performLocal, takeRestart, Option.some.injEq] at taken
    split at taken <;> cases taken
    · exact still (fun _ => rfl) rfl
    · exact still (registry_updateTables rfl) rfl
  | markAutoRollbackAttempt key =>
    simp only [performLocal, markAutoRollbackAttempt, Option.some.injEq] at taken
    split at taken <;> cases taken
    · exact still (fun _ => rfl) rfl
    · exact still (registry_updateTables rfl) rfl
  | registerHealthMonitor | stopHealthMonitor | suppressAutoRollback =>
    cases taken
    exact still (registry_updateTables rfl) rfl
  | finishHealthMonitor key runID =>
    cases taken
    refine still (registry_updateTables ?_) rfl
    split
    · split <;> rfl
    · rfl
  | _ => exact still (fun n => by rw [registry, registry, (performLocal_frame taken).tables rfl]) rfl

theorem registry_executeWorker {α : Type} {svc : Service} {action node name : String}
    {handler : Service → Task (Except Failure α)} {decode : α → DispatchResult} {c : Choice R}
    {result : Except Failure DispatchResult} {self : String} (away : trimSpace node ≠ self)
    (taken : w.executeWorker svc action node name handler decode c = some (u, result)) :
    u.registry self = w.registry self := by
  refine (executeWorker_keeps (fun _ u => u.registry self = w.registry self) ?_ rfl taken).2.elim fun _ kept => kept.1
  intro worker _ _ v same
  have kept : ∀ {s : World R} {op : TaskOp} {answer : op.Answer} {t : World R}, s.registry self = w.registry self →
      True → (localMachine R (trimSpace node)).Step s op answer t → t.registry self = w.registry self := by
    rintro s op answer t same - ⟨c, taken⟩
    exact ((registry_performLocal taken).2 self away.symm).trans same
  have ensured : Ensures (localMachine R (trimSpace node)).Step anything
      (fun _ t => True ∧ t.registry self = w.registry self) (handler worker) v :=
    Ensures.invariant kept same (Ensures.trivially _)
  exact ensured.mono fun _ _ kept => kept.2

theorem registry_step {svc : Service} (taken : (machine R svc).Step w op answer u) :
    RegistryStep svc.localNode (w.registry svc.localNode) op answer (u.registry svc.localNode) := by
  intro away
  obtain ⟨c, taken⟩ := step_iff.mp taken
  cases op with
  | dispatchWorkload => exact registry_executeWorker away taken
  | dispatchStop => exact registry_executeWorker away taken
  | _ =>
    rw [perform_eq_performLocal rfl] at taken
    exact (registry_performLocal taken).1

end World

def TaskOp.unregistered : TaskOp → Bool
  | .registryUpsert _ => false
  | .registryDelete _ => false
  | .dispatchWorkload _ _ _ _ => false
  | .dispatchStop _ _ _ _ => false
  | _ => true

section Programs

variable {self : String} {registry : Table WorkloadRecord} {permit : Table WorkloadRecord → TaskOp → Prop}

theorem RegistryStep.unregistered {registry after : Table WorkloadRecord}
    (taken : RegistryStep self registry op answer after) (plain : op.unregistered = true) : after = registry := by
  cases op with
  | registryUpsert | registryDelete | dispatchWorkload | dispatchStop => cases plain
  | _ => exact taken trivial

theorem ensures_ask_unregistered {post : op.Answer → Table WorkloadRecord → Prop}
    (plain : op.unregistered = true) (after : ∀ answer, post answer registry) :
    Ensures (RegistryStep self) anything post (ask op) registry := by
  refine ⟨trivial, fun answer t taken => ?_⟩
  cases RegistryStep.unregistered taken plain
  exact after answer

/-- The registry after the record of a workload has been dropped. -/
def dropped (registry : Table WorkloadRecord) (name : String) : Table WorkloadRecord :=
  if trimSpace name = "" then registry else registry.erase (trimSpace name)

def placedRecord (workload : Workload) (nodeID : String) (status : AssignmentStatus) : WorkloadRecord :=
  { name := workload.name, node := nodeID, runtime := workload.runtime, artifact := artifactSummary workload.run, status }

variable {post : Unit → Table WorkloadRecord → Prop}

theorem deleteRecord_registers {name : String} (after : post () (dropped registry name)) :
    Ensures (RegistryStep self) anything post (deleteRecord name) registry := by
  unfold deleteRecord
  unfold dropped at after
  split
  · next blank => rwa [if_pos blank] at after
  · next present =>
    rw [if_neg present] at after
    refine ⟨trivial, fun _ t taken => ?_⟩
    cases taken trivial
    exact after

theorem upsertRecord_registers {workload : Workload} {nodeID : String} {status : AssignmentStatus}
    (after : post () (registry.insert workload.name (placedRecord workload nodeID status))) :
    Ensures (RegistryStep self) anything post (upsertRecord workload nodeID status) registry := by
  refine ⟨trivial, fun _ t taken => ?_⟩
  cases taken trivial
  exact after

theorem stopWorkloadHealthMonitor_registers {metadata : Metadata} {name : String} (after : post () registry) :
    Ensures (RegistryStep self) anything post (stopWorkloadHealthMonitor metadata name) registry := by
  unfold stopWorkloadHealthMonitor
  split
  · exact after
  · exact ensures_ask_unregistered rfl fun _ => after

variable {ctx : Ctx} {metadata : Metadata} {workload : Workload} {nodeID : String}

theorem deployLocalWorkload_registers :
    Ensures (RegistryStep self) anything (fun result after => result = .ok () →
      after = registry.insert workload.name (placedRecord workload nodeID .running))
      (deployLocalWorkload ctx metadata workload nodeID) registry := by
  refine ensures_bind.mpr (ensures_ask_unregistered rfl ?_)
  rintro (err | _)
  · exact fun failed => nomatch failed
  · exact ensures_bind.mpr (upsertRecord_registers fun _ => rfl)

theorem stopLocalWorkload_registers :
    Ensures (RegistryStep self) anything
      (fun result after => result = .ok () → after = dropped registry workload.name)
      (stopLocalWorkload ctx metadata workload) registry := by
  refine ensures_bind.mpr (stopWorkloadHealthMonitor_registers ?_)
  refine ensures_bind.mpr (ensures_ask_unregistered rfl ?_)
  rintro (err | _)
  · exact fun failed => nomatch failed
  · exact ensures_bind.mpr (deleteRecord_registers fun _ => rfl)

variable {svc : Service}

theorem stopWorkerWorkload_registers :
    Ensures (RegistryStep self) anything
      (fun result after => result = .ok () → after = dropped registry workload.name)
      (stopWorkerWorkload svc ctx metadata workload nodeID) registry := by
  unfold stopWorkerWorkload
  split
  · exact fun failed => nomatch failed
  refine ensures_bind.mpr (stopWorkloadHealthMonitor_registers ?_)
  refine ensures_bind.mpr (ensures_ask_unregistered rfl ?_)
  rintro (err | _)
  · exact fun failed => nomatch failed
  · exact ensures_bind.mpr (deleteRecord_registers fun _ => rfl)

theorem stopRemoteWorkload_registers (away : trimSpace nodeID ≠ self) :
    Ensures (RegistryStep self) anything
      (fun result after => result = .ok () → after = dropped registry workload.name)
      (stopRemoteWorkload svc ctx metadata workload nodeID) registry := by
  unfold stopRemoteWorkload
  split
  · exact fun failed => nomatch failed
  refine ensures_bind.mpr ⟨trivial, ?_⟩
  rintro (err | _) t taken
  · exact fun failed => nomatch failed
  · cases taken away
    exact ensures_bind.mpr (deleteRecord_registers fun _ => rfl)

theorem recordWorkload_unregistered {app : App} {status : AssignmentStatus} {binding : BindingStatus}
    {generation address : String} {error : Option Failure} :
    (recordWorkload ctx app workload nodeID status binding generation error address).Asks
      fun op : TaskOp => op.unregistered = true := by
  refine recordWorkload_records.mono ?_
  intro op kept
  cases op with
  | apply => rfl
  | _ => cases kept

theorem deployRemoteWorkload_registers {app : App} {generation : String} (away : trimSpace nodeID ≠ self) :
    Ensures (RegistryStep self) anything (fun result after => result = .ok () →
      ∃ status, after = registry.insert workload.name (placedRecord workload nodeID status))
      (deployRemoteWorkload svc ctx app workload nodeID generation) registry := by
  have failed (err : Failure) (t : Table WorkloadRecord) :
      Ensures (RegistryStep self) anything (fun (result : Check) after => result = .ok () →
        ∃ status, after = registry.insert workload.name (placedRecord workload nodeID status))
        (do recordDeployFailure ctx app workload nodeID generation err; return .error err) t :=
    ensures_bind.mpr ((Ensures.trivially _).mono fun _ _ _ failed => nomatch failed)
  refine ensures_bind.mpr ?_
  unfold dispatchWorkload
  split
  · exact failed _ _
  refine ensures_bind.mpr ⟨trivial, ?_⟩
  rintro (err | result) t taken
  · exact failed _ _
  cases taken away
  refine ensures_bind.mpr (upsertRecord_registers ?_)
  have kept : Ensures (RegistryStep self) anything (fun _ after => after = registry.insert workload.name
      (placedRecord workload nodeID (result.status.getD (.other "dispatched"))))
      (recordWorkload ctx app workload nodeID (result.status.getD (.other "dispatched")) .bound generation none result.address)
      (registry.insert workload.name (placedRecord workload nodeID (result.status.getD (.other "dispatched")))) :=
    recordWorkload_unregistered.keeps
      (fun same plain taken => (RegistryStep.unregistered taken plain).trans same) rfl
  exact ensures_bind.mpr (kept.mono fun _ after same _ => ⟨_, same⟩)

end Programs

/-- A deploy or a stop of a workload, on this node or through it on another. -/
inductive RegistryDeed (self : String) where
  | deployLocal (ctx : Ctx) (metadata : Metadata) (workload : Workload) (nodeID : String)
  | deployRemote (ctx : Ctx) (app : App) (workload : Workload) (nodeID generation : String) (away : trimSpace nodeID ≠ self)
  | stopLocal (ctx : Ctx) (metadata : Metadata) (workload : Workload)
  | stopWorker (ctx : Ctx) (metadata : Metadata) (workload : Workload) (assignedNode : String)
  | stopRemote (ctx : Ctx) (metadata : Metadata) (workload : Workload) (nodeID : String) (away : trimSpace nodeID ≠ self)

namespace RegistryDeed

variable {self : String}

def program (svc : Service) : RegistryDeed svc.localNode → Task Check
  | .deployLocal ctx metadata workload nodeID => deployLocalWorkload ctx metadata workload nodeID
  | .deployRemote ctx app workload nodeID generation _ => deployRemoteWorkload svc ctx app workload nodeID generation
  | .stopLocal ctx metadata workload => stopLocalWorkload ctx metadata workload
  | .stopWorker ctx metadata workload assignedNode => stopWorkerWorkload svc ctx metadata workload assignedNode
  | .stopRemote ctx metadata workload nodeID _ => stopRemoteWorkload svc ctx metadata workload nodeID

def subject : RegistryDeed self → WorkloadId
  | .deployLocal _ metadata workload _ => workloadId metadata workload.name
  | .deployRemote _ app workload _ _ _ => workloadId app.metadata workload.name
  | .stopLocal _ metadata workload => workloadId metadata workload.name
  | .stopWorker _ metadata workload _ => workloadId metadata workload.name
  | .stopRemote _ metadata workload _ _ => workloadId metadata workload.name

def filedUnder : RegistryDeed self → Option String
  | .deployLocal _ _ workload _ => some workload.name
  | .deployRemote _ _ workload _ _ _ => some workload.name
  | .stopLocal _ _ workload => if trimSpace workload.name = "" then none else some (trimSpace workload.name)
  | .stopWorker _ _ workload _ => if trimSpace workload.name = "" then none else some (trimSpace workload.name)
  | .stopRemote _ _ workload _ _ => if trimSpace workload.name = "" then none else some (trimSpace workload.name)

def entry : RegistryDeed self → Option RegistryEntry
  | .deployLocal _ _ workload nodeID => some ⟨nodeID, workload.runtime, artifactSummary workload.run⟩
  | .deployRemote _ _ workload nodeID _ _ => some ⟨nodeID, workload.runtime, artifactSummary workload.run⟩
  | _ => none

/-- The workloads that are deployed and not stopped since, with the name and
the rest of what their last deploy said. -/
abbrev Live := WorkloadId → Option (String × RegistryEntry)

def update (deed : RegistryDeed self) (live : Live) : Live :=
  Index.own live deed.subject deed.filedUnder deed.entry

/-- No other live workload has the name under which this one is filed, and the
workload itself, if it is live, is filed under it. -/
def Unshared (deed : RegistryDeed self) (live : Live) : Prop :=
  Index.Unshared live deed.subject deed.filedUnder

end RegistryDeed

/-- The registry has an entry for exactly the live workloads, each with what its
own last deploy said. -/
def RegistryReflects (registry : Table WorkloadRecord) (live : RegistryDeed.Live) : Prop :=
  Index.Reflects (listed registry) live

theorem listed_insert (registry : Table WorkloadRecord) (name : String) (record : WorkloadRecord) :
    listed (registry.insert name record) = Index.write (listed registry) (some name) (some record.entry) := by
  funext key
  simp only [listed, Index.write]
  rcases eq_or_ne key name with rfl | apart
  · rw [AList.lookup_insert, Function.update_self]
    rfl
  · rw [AList.lookup_insert_ne apart, Function.update_of_ne apart]
    rfl

theorem listed_dropped (registry : Table WorkloadRecord) (name : String) :
    listed (dropped registry name) =
      Index.write (listed registry) (if trimSpace name = "" then none else some (trimSpace name)) none := by
  unfold dropped
  split
  · rfl
  · funext key
    simp only [listed, Index.write]
    rcases eq_or_ne key (trimSpace name) with rfl | apart
    · rw [AList.lookup_erase, Function.update_self]
      rfl
    · rw [AList.lookup_erase_ne apart, Function.update_of_ne apart]
      rfl

theorem RegistryDeed.listed_program {R : Runtime} {svc : Service} {deed : RegistryDeed svc.localNode} {w u : World R}
    (run : Finishes (World.machine R svc).Step (deed.program svc) w (.ok ()) u) :
    listed (u.registry svc.localNode) = Index.write (listed (w.registry svc.localNode)) deed.filedUnder deed.entry := by
  have ran {post : Check → Table WorkloadRecord → Prop}
      (ensured : Ensures (RegistryStep svc.localNode) anything post (deed.program svc) (w.registry svc.localNode)) :
      post (.ok ()) (u.registry svc.localNode) :=
    (ensured.simulate World.registry_step).finishes run
  cases deed with
  | deployLocal =>
    rw [ran deployLocalWorkload_registers rfl]
    exact listed_insert _ _ _
  | deployRemote _ _ _ _ _ away =>
    obtain ⟨status, after⟩ := ran (deployRemoteWorkload_registers away) rfl
    rw [after]
    exact listed_insert _ _ _
  | stopLocal =>
    rw [ran stopLocalWorkload_registers rfl]
    exact listed_dropped _ _
  | stopWorker =>
    rw [ran stopWorkerWorkload_registers rfl]
    exact listed_dropped _ _
  | stopRemote _ _ _ _ away =>
    rw [ran (stopRemoteWorkload_registers away) rfl]
    exact listed_dropped _ _

/-- Deploys and stops that succeed, one after the other, with the state after
each. -/
inductive Registers (R : Runtime) (svc : Service) : World R → List (RegistryDeed svc.localNode × World R) → Prop
  | done {w : World R} : Registers R svc w []
  | next {w u : World R} {deed : RegistryDeed svc.localNode} {later : List (RegistryDeed svc.localNode × World R)} :
      Finishes (World.machine R svc).Step (deed.program svc) w (.ok ()) u → Registers R svc u later →
      Registers R svc w ((deed, u) :: later)

section Histories

variable {R : Runtime} {svc : Service}

def ReflectsThroughout : RegistryDeed.Live → List (RegistryDeed svc.localNode × World R) → Prop
  | _, [] => True
  | live, (deed, u) :: later =>
    RegistryReflects (u.registry svc.localNode) (deed.update live) ∧ ReflectsThroughout (deed.update live) later

def UnsharedThroughout : RegistryDeed.Live → List (RegistryDeed svc.localNode × World R) → Prop
  | _, [] => True
  | live, (deed, _) :: later => deed.Unshared live ∧ UnsharedThroughout (deed.update live) later

/-- The induction over a history: a shared name is where the registry goes wrong. -/
theorem reflectsThroughout_iff {live : RegistryDeed.Live} {w : World R}
    {history : List (RegistryDeed svc.localNode × World R)} (registers : Registers R svc w history)
    (start : RegistryReflects (w.registry svc.localNode) live) :
    ReflectsThroughout live history ↔ UnsharedThroughout live history := by
  induction registers generalizing live with
  | done => exact Iff.rfl
  | @next w u deed later run _ ih =>
    have step : RegistryReflects (u.registry svc.localNode) (deed.update live) ↔ deed.Unshared live := by
      rw [RegistryReflects, RegistryDeed.listed_program run]
      exact start.write_iff _ _ _
    simp only [ReflectsThroughout, UnsharedThroughout, ← step]
    exact and_congr_right ih

end Histories

/-- From an empty registry on, deploys and stops keep it in step with what is
live exactly as long as no live workload of another app shares a name with the
one that is deployed or stopped. -/
theorem registry_reflects_iff {R : Runtime} {svc : Service} {w : World R}
    {history : List (RegistryDeed svc.localNode × World R)} (registers : Registers R svc w history)
    (empty : w.registry svc.localNode = ∅) :
    ReflectsThroughout (fun _ => none) history ↔ UnsharedThroughout (fun _ => none) history := by
  refine reflectsThroughout_iff registers ?_
  rw [empty]
  exact Index.reflects_empty

/-- A deploy of the one workload of an app to the node of a cluster. -/
def RegistryDeed.sample (app workload : String) : RegistryDeed sampleService.localNode :=
  .deployLocal {} { name := app } (imageWorkload workload app) "a"

theorem exists_deployed (w : World instanceRuntime) (app workload : String) :
    ∃ u, Finishes (World.machine instanceRuntime sampleService).Step
      ((RegistryDeed.sample app workload).program sampleService) w (.ok ()) u := by
  have played : ((RegistryDeed.sample app workload).program sampleService).play (World.machine instanceRuntime sampleService)
      [{ runtime := {} }, { runtime := {} }] w = some (_, .ok ()) := rfl
  exact ⟨_, finishes_of_play played⟩

/-- Two apps with workloads of different names. -/
theorem registry_reflects_shop : ∃ history : List (RegistryDeed sampleService.localNode × World instanceRuntime),
    Registers instanceRuntime sampleService World.idle history ∧ history.length = 2 ∧
      ReflectsThroughout (fun _ => none) history := by
  obtain ⟨u, first⟩ := exists_deployed World.idle "shop" "api"
  obtain ⟨t, second⟩ := exists_deployed u "blog" "web"
  have registers : Registers instanceRuntime sampleService World.idle
      [(RegistryDeed.sample "shop" "api", u), (RegistryDeed.sample "blog" "web", t)] := .next first (.next second .done)
  refine ⟨_, registers, rfl, (registry_reflects_iff registers rfl).mpr ⟨?_, ?_, trivial⟩⟩
  · rintro id name entry ⟨⟩
  · intro id name entry found
    rw [RegistryDeed.update, Index.own, Function.update_apply, Option.ite_none_right_eq_some] at found
    obtain ⟨rfl, filed⟩ := found
    cases filed
    decide +kernel

/-- Two apps with a workload of one name share one entry. -/
theorem registry_shares_entries :
    ¬ ∀ (R : Runtime) (svc : Service) (w : World R) (history : List (RegistryDeed svc.localNode × World R)),
      Registers R svc w history → w.registry svc.localNode = ∅ → ReflectsThroughout (fun _ => none) history := by
  intro reflects
  obtain ⟨u, first⟩ := exists_deployed World.idle "shop" "api"
  obtain ⟨t, second⟩ := exists_deployed u "blog" "api"
  have registers : Registers instanceRuntime sampleService World.idle
      [(RegistryDeed.sample "shop" "api", u), (RegistryDeed.sample "blog" "api", t)] := .next first (.next second .done)
  have throughout := reflects _ _ _ _ registers rfl
  rw [reflectsThroughout_iff registers Index.reflects_empty] at throughout
  obtain ⟨-, unshared, -⟩ := throughout
  have same := (unshared (workloadId { name := "shop" } "api") "api" ⟨"a", .docker, "shop"⟩ (by decide +kernel)).mpr rfl
  exact absurd same (by decide +kernel)

end Orch
