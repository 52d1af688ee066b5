import Orch.Task.View

namespace Orch

open Effect

theorem instanceRuntime_deploys {before after : Running} {metadata : Metadata} {workload : Workload} {result : Check}
    (deployed : instanceRuntime.Deploys before metadata workload result after) :
    ∃ value, after = before.set workload.runtime (workloadId metadata workload.name) value ∧
      (before workload.runtime (workloadId metadata workload.name) = true → value = true) ∧
        (result = .ok () → value = true) := by
  obtain ⟨outcome, deployed⟩ := deployed
  simp only [instanceRuntime] at deployed
  split at deployed
  · cases deployed
    exact ⟨true, rfl, fun _ => rfl, fun _ => rfl⟩
  · cases deployed
    split
    · exact ⟨true, rfl, fun _ => rfl, fun _ => rfl⟩
    · exact ⟨_, (Running.set_current ..).symm, id, by simp [Check.fail]⟩

theorem instanceRuntime_stops {before after : Running} {kind : RuntimeKind} {metadata : Metadata} {name : String}
    {result : Check} (stopped : instanceRuntime.Stops before kind metadata name result after) :
    ∃ value, after = before.set kind (workloadId metadata name) value ∧
      (value = true → before kind (workloadId metadata name) = true) ∧ (result = .ok () → value = false) := by
  obtain ⟨outcome, stopped⟩ := stopped
  simp only [instanceRuntime] at stopped
  split at stopped
  · cases stopped
    exact ⟨false, rfl, by simp, fun _ => rfl⟩
  · cases stopped
    split
    · exact ⟨false, rfl, by simp, fun _ => rfl⟩
    · exact ⟨_, (Running.set_current ..).symm, id, by simp [Check.fail]⟩

/-- A view of the nodes in which only the instances show. -/
abbrev Scene := View instanceRuntime

namespace View

def running (v : Scene) (node : String) : Running := v.runtimes node

def setRunning (v : Scene) (node : String) (kind : RuntimeKind) (id : WorkloadId) (value : Bool) :
    Scene :=
  v.setRuntime node ((v.running node).set kind id value)

@[simp] theorem setRunning_current (v : Scene) (node : String) (kind : RuntimeKind) (id : WorkloadId) :
    v.setRunning node kind id (v.running node kind id) = v := by
  rw [setRunning, Running.set_current]
  exact setRuntime_current v node

theorem setRunning_running (v : Scene) (node : String) (kind : RuntimeKind) (id : WorkloadId)
    (value : Bool) : (v.setRunning node kind id value).running node = (v.running node).set kind id value :=
  setRuntime_same ..

@[simp] theorem setRunning_setRunning (v : Scene) (node : String) (kind : RuntimeKind) (id : WorkloadId)
    (a b : Bool) : (v.setRunning node kind id a).setRunning node kind id b = v.setRunning node kind id b := by
  rw [setRunning, setRunning_running, Running.set_set]
  exact setRuntime_setRuntime ..

@[simp] theorem setRunning_same (v : Scene) (node : String) (kind : RuntimeKind) (id : WorkloadId)
    (value : Bool) : (v.setRunning node kind id value).running node kind id = value := by
  rw [setRunning_running, Running.set_same]

variable {v : Scene} {kind : RuntimeKind}

theorem setRunning_other {node n : String} {k : RuntimeKind} {id i : WorkloadId} {value : Bool}
    (other : ¬ (n = node ∧ k = kind ∧ i = id)) :
    (v.setRunning node kind id value).running n k i = v.running n k i := by
  rcases eq_or_ne n node with rfl | apart
  · rw [setRunning_running]
    exact Running.set_other fun same => other ⟨rfl, same⟩
  · have elsewhere : (v.setRunning node kind id value).running n = v.running n := Function.update_of_ne apart ..
    rw [elsewhere]

theorem setRunning_false_iff {node n : String} {k : RuntimeKind} {id i : WorkloadId} :
    (v.setRunning node kind id false).running n k i = true ↔
      v.running n k i = true ∧ ¬ (n = node ∧ k = kind ∧ i = id) := by
  by_cases here : n = node ∧ k = kind ∧ i = id
  · obtain ⟨rfl, rfl, rfl⟩ := here
    simp
  · rw [setRunning_other here]
    exact ⟨fun running => ⟨running, here⟩, fun both => both.1⟩

@[simp] theorem setRunning_fsm (v : Scene) (node : String) (kind : RuntimeKind) (id : WorkloadId)
    (value : Bool) : (v.setRunning node kind id value).fsm = v.fsm :=
  rfl

/-- What one action of a service can do, those on other nodes included. -/
def Step (svc : Service) : Steps TaskSig Scene := fun v op answer u =>
  match op, answer with
  | .dispatchWorkload _ node metadata workload, result =>
    ∃ value, u = v.setRunning (trimSpace node) workload.runtime (workloadId metadata workload.name) value ∧
      (svc.nodeURL node = none → u = v) ∧ ∀ reply, result = .ok reply → value = true ∧ reply.status = some .running
  | .dispatchStop _ node metadata workload, result =>
    ∃ value, u = v.setRunning (trimSpace node) workload.runtime (workloadId metadata workload.name) value ∧
      (value = true → v.running (trimSpace node) workload.runtime (workloadId metadata workload.name) = true) ∧
        ∀ reply, result = .ok reply → value = false ∧ (svc.nodeURL node).isSome
  | op, answer => LocalStep svc.localNode v op answer u

variable {u : Scene}

theorem Step.local {svc : Service} {op : TaskOp} {answer : op.Answer} (taken : Step svc v op answer u) :
    LocalStep svc.localNode v op answer u := by
  cases op with
  | dispatchWorkload | dispatchStop => trivial
  | _ => exact taken

theorem Step.fsm {svc : Service} {op : TaskOp} {answer : op.Answer} (taken : Step svc v op answer u) :
    u.fsm = v.fsm ∨ ∃ ctx command, op = .apply ctx command ∧ u.fsm = v.fsm.update command := by
  cases op with
  | apply ctx command =>
    rcases taken with ⟨-, rfl⟩ | ⟨-, rfl | rfl⟩
    · exact .inr ⟨ctx, command, rfl, rfl⟩
    · exact .inl rfl
    · exact .inr ⟨ctx, command, rfl, rfl⟩
  | runtimeDeploy | runtimeStop =>
    obtain ⟨state, -, rfl⟩ := taken
    exact .inl rfl
  | dispatchWorkload | dispatchStop =>
    obtain ⟨value, rfl, -⟩ := taken
    exact .inl rfl
  | getDesiredDeployApp | listDesiredDeployApps | getPreviousDeployApp | getWorkloadAssignment | choosePlacement =>
    exact .inl (congrArg View.fsm taken.2)
  | _ => exact .inl (congrArg View.fsm taken)

theorem LocalStep.deploy {self : String} {ctx : Ctx} {metadata : Metadata} {workload : Workload} {result : Check}
    (taken : LocalStep self v (.runtimeDeploy ctx metadata workload) result u) :
    ∃ value, u = v.setRunning self workload.runtime (workloadId metadata workload.name) value ∧
      (v.running self workload.runtime (workloadId metadata workload.name) = true → value = true) ∧
        (result = .ok () → value = true) := by
  obtain ⟨state, deployed, rfl⟩ := taken
  obtain ⟨value, rfl, kept, started⟩ := instanceRuntime_deploys deployed
  exact ⟨value, rfl, kept, started⟩

theorem LocalStep.stop {self : String} {ctx : Ctx} {metadata : Metadata} {name : String} {result : Check}
    (taken : LocalStep self v (.runtimeStop ctx kind metadata name) result u) :
    ∃ value, u = v.setRunning self kind (workloadId metadata name) value ∧
      (value = true → v.running self kind (workloadId metadata name) = true) ∧ (result = .ok () → value = false) := by
  obtain ⟨state, stopped, rfl⟩ := taken
  obtain ⟨value, rfl, still, ended⟩ := instanceRuntime_stops stopped
  exact ⟨value, rfl, still, ended⟩

end View

section Workers

variable {self : String}

theorem deployWorkerWorkload_ensures {worker : Service} {ctx : Ctx} {metadata : Metadata} {workload : Workload}
    {node : String} {v : Scene} :
    Ensures (View.LocalStep self) anything
      (fun result u => ∃ value, u = v.setRunning self workload.runtime (workloadId metadata workload.name) value ∧
        ∀ address, result = .ok address → value = true)
      (deployWorkerWorkload worker ctx metadata workload node) v := by
  unfold deployWorkerWorkload
  cases validateWorkerWorkload worker metadata workload node with
  | error err => exact ⟨_, (View.setRunning_current ..).symm, by simp⟩
  | ok =>
    rw [ensures_bind]
    refine runLocalWorkload_ensures id (fun _ _ _ => trivial) trivial (fun _ => trivial) ?failed ?ready ?unready
    case failed =>
      intro cause err u started
      obtain ⟨value, rfl, -, -⟩ := started.deploy
      exact ⟨value, rfl, by simp⟩
    case unready =>
      intro probe address err result u t started answered stopped
      obtain ⟨_, rfl, -, -⟩ := started.deploy
      obtain ⟨value, rfl, -, -⟩ := stopped.stop
      exact ⟨value, View.setRunning_setRunning .., by simp⟩
    case ready =>
      intro address u started
      obtain ⟨value, rfl, -, runs⟩ := started.deploy
      rw [desiredHealthMonitorApp, ensures_bind, ensures_bind]
      refine ensures_ask_quiet id (fun _ _ _ => trivial) rfl ?_
      intro found _
      rw [ensures_pure, ensures_bind]
      refine startLocalWorkloadHealthMonitor_ensures id (fun _ _ _ => trivial) ?_
      exact ⟨value, rfl, fun _ _ => runs rfl⟩

theorem stopWorkerWorkload_ensures {worker : Service} {ctx : Ctx} {metadata : Metadata} {workload : Workload}
    {node : String} {v : Scene} :
    Ensures (View.LocalStep self) anything
      (fun result u => ∃ value, u = v.setRunning self workload.runtime (workloadId metadata workload.name) value ∧
        (value = true → v.running self workload.runtime (workloadId metadata workload.name) = true) ∧
          (result = .ok () → value = false))
      (stopWorkerWorkload worker ctx metadata workload node) v := by
  unfold stopWorkerWorkload
  cases validateWorkerWorkload worker metadata workload node with
  | error err => exact ⟨_, (View.setRunning_current ..).symm, id, by simp⟩
  | ok =>
    rw [ensures_bind]
    refine stopWorkloadHealthMonitor_ensures id (fun _ _ _ => trivial) ?_
    rw [ensures_bind]
    refine ensures_ask trivial ?_
    rintro (err | _) u taken
    · obtain ⟨value, rfl, still, -⟩ := View.LocalStep.stop taken
      exact ⟨value, rfl, still, by simp⟩
    · obtain ⟨value, rfl, still, ended⟩ := View.LocalStep.stop taken
      rw [ensures_bind]
      refine deleteRecord_ensures id (fun _ _ _ => trivial) ?_
      exact ⟨value, rfl, still, fun _ => ended rfl⟩

end Workers

@[simp] theorem Workload.decoded_name (w : Workload) : w.decoded.name = w.name := rfl

@[simp] theorem Workload.decoded_runtime (w : Workload) : w.decoded.runtime = w.runtime := rfl

/-- Every action in the world is one that a view allows. -/
theorem World.view_step {svc : Service} {w u : World instanceRuntime} {op : TaskOp} {answer : op.Answer}
    (taken : (machine instanceRuntime svc).Step w op answer u) : View.Step svc w.view op answer u.view := by
  obtain ⟨c, taken⟩ := step_iff.mp taken
  cases op with
  | dispatchWorkload ctx node metadata workload =>
    have effect := view_executeWorker (fun reply v =>
      ∃ value, v = w.view.setRunning (trimSpace node) workload.runtime (workloadId metadata workload.name) value ∧
        ∀ address, reply = some (.ok address) → value = true) ?_ ?_ taken
    · obtain ⟨unreached, reply, ⟨value, seen, started⟩, decoded⟩ := effect
      refine ⟨value, seen, unreached, ?_⟩
      intro done ok
      obtain ⟨address, rfl, rfl, -⟩ := decoded done ok
      exact ⟨started address rfl, rfl⟩
    · rintro worker before v ⟨value, rfl, -⟩
      refine deployWorkerWorkload_ensures.mono ?_
      rintro reply u ⟨value, rfl, started⟩
      refine ⟨value, View.setRunning_setRunning .., ?_⟩
      intro address same
      exact started address (Option.some.inj same)
    · exact ⟨_, (View.setRunning_current ..).symm, by simp⟩
  | dispatchStop ctx node metadata workload =>
    have effect := view_executeWorker (fun reply v =>
      ∃ value, v = w.view.setRunning (trimSpace node) workload.runtime (workloadId metadata workload.name) value ∧
        (value = true → w.view.running (trimSpace node) workload.runtime (workloadId metadata workload.name) = true) ∧
          (reply = some (.ok ()) → value = false)) ?_ ?_ taken
    · obtain ⟨-, reply, ⟨value, seen, still, ended⟩, decoded⟩ := effect
      refine ⟨value, seen, still, ?_⟩
      intro done ok
      obtain ⟨_, rfl, -, reached⟩ := decoded done ok
      exact ⟨ended rfl, reached⟩
    · rintro worker before v ⟨value, rfl, still, -⟩
      refine stopWorkerWorkload_ensures.mono ?_
      rintro reply u ⟨after, rfl, stillAfter, ended⟩
      refine ⟨after, View.setRunning_setRunning .., ?_, ?_⟩
      · intro running
        have earlier := stillAfter running
        rw [Workload.decoded_runtime, Workload.decoded_name, View.setRunning_same] at earlier
        exact still earlier
      · intro same
        exact ended (Option.some.inj same)
    · exact ⟨_, (View.setRunning_current ..).symm, id, by simp⟩
  | _ =>
    rw [perform_eq_performLocal rfl] at taken
    exact view_performLocal taken

/-- What a view ensures holds of every run in the world. -/
theorem World.finishes_view {α : Type} {svc : Service} {good : (op : TaskOp) → op.Answer → Bool} {p : Task α}
    {post : α → Scene → Prop} {w u : World instanceRuntime} {a : α}
    (ensured : Ensures (Assuming (View.Step svc) good) anything post p w.view)
    (run : Finishes (Assuming (machine instanceRuntime svc).Step good) p w a u) : post a u.view := by
  have lifted : Ensures (Assuming (machine instanceRuntime svc).Step good) anything
      (fun a u => post a u.view) p w := ensured.simulate fun taken => ⟨view_step taken.1, taken.2⟩
  exact lifted.finishes run

end Orch
