import Orch.Task.Instances

namespace Orch

open Effect

def TaskOp.succeeded : (op : TaskOp) → op.Answer → Bool
  | .apply _ _, result => result.isOk
  | .runtimeDeploy _ _ _, result => result.isOk
  | .runtimeStop _ _ _ _, result => result.isOk
  | .runtimeStatus _ _ _ _, result => result.isOk
  | .dispatchWorkload _ _ _ _, result => result.isOk
  | .dispatchStop _ _ _ _, result => result.isOk
  | .awaitReadiness _ _ _ _ _, result => result.isOk
  | .bindHostPort _ _ _, result => result.isOk
  | _, _ => true

def TaskOp.accepted : (op : TaskOp) → op.Answer → Bool
  | .apply _ _, result => result.isOk
  | _, _ => true

def TaskOp.stopped : (op : TaskOp) → op.Answer → Bool
  | .runtimeStop _ _ _ _, result => result.isOk
  | .dispatchStop _ _ _ _, result => result.isOk
  | _, _ => true

/-- Nothing is started, and nothing is stopped. -/
def TaskOp.refused : (op : TaskOp) → op.Answer → Bool
  | .runtimeDeploy _ _ _, result => !result.isOk
  | .runtimeStop _ _ _ _, result => !result.isOk
  | .dispatchWorkload _ _ _ _, result => !result.isOk
  | .dispatchStop _ _ _ _, result => !result.isOk
  | _, _ => true

variable {op : TaskOp}

theorem TaskOp.accepted_of_succeeded {answer : op.Answer} (good : op.succeeded answer = true) :
    op.accepted answer = true := by
  cases op with
  | apply => exact good
  | _ => rfl

theorem TaskOp.stopped_of_succeeded {answer : op.Answer} (good : op.succeeded answer = true) :
    op.stopped answer = true := by
  cases op with
  | runtimeStop | dispatchStop => exact good
  | _ => rfl

/-- A call that fails where nothing is started or stopped. -/
abbrev Refused {α : Type} (p : Task (Except Failure α)) : Prop :=
  Heeds (fun (op : TaskOp) answer => op.refused answer = true) (fun _ => True) (fun result => ∃ err, result = .error err) p

/-- The actions that can succeed at once: proposals within the context, and
requests that a worker will take. -/
def TaskOp.doable (svc : Service) (ctx : Ctx) : TaskOp → Prop
  | .apply within _ => within = ctx
  | .sleep _ _ => False
  | .dispatchWorkload _ node metadata workload | .dispatchStop _ node metadata workload =>
    (svc.nodeURL node).isSome ∧ trimSpace metadata.name ≠ "" ∧ trimSpace workload.name ≠ ""
  | _ => True

namespace World

def smooth (self : String) : LocalChoice instanceRuntime where
  elect := some (some self)
  runtime := {}

/-- The same for a whole action, and one in which the runtime refuses. -/
def smoothly (self : String) : Choice instanceRuntime := { toLocalChoice := smooth self }

def refusing (self : String) : Choice instanceRuntime := { smoothly self with runtime := { ok := false } }

theorem performLocal_smooth (self : String) {svc : Service} {ctx : Ctx} {w : World instanceRuntime} {op : TaskOp}
    (live : ctx.expired w.now = false) (doable : op.doable svc ctx) (here : op.dispatches = false) :
    ∃ answer u, w.performLocal self op (smooth self) = some (u, answer) ∧ op.succeeded answer = true ∧ u.now = w.now := by
  cases op with
  | sleep => exact doable.elim
  | dispatchWorkload | dispatchStop => cases here
  | apply within command =>
    obtain rfl : within = ctx := doable
    refine ⟨.ok (), { w.drift (smooth self) with fsm := w.fsm.update command }, ?_, rfl, rfl⟩
    have unexpired : within.expired (w.drift (smooth self)).now = false := live
    have leads : (w.drift (smooth self)).leader = some self := rfl
    simp only [performLocal, applyCommand, unexpired, leads, ne_eq, not_true_eq_false, Bool.false_eq_true, if_false]
    rfl
  | waitLocalLeader =>
    refine ⟨.ok (), w.drift (smooth self), ?_, rfl, rfl⟩
    simp [performLocal, smooth, drift]
  | takeRestart key maxRestarts =>
    refine ⟨_, ((w.drift (smooth self)).takeRestart self key maxRestarts).1, rfl, rfl, ?_⟩
    simp only [takeRestart]
    split <;> rfl
  | markAutoRollbackAttempt key =>
    refine ⟨_, ((w.drift (smooth self)).markAutoRollbackAttempt self key).1, rfl, rfl, ?_⟩
    unfold markAutoRollbackAttempt
    split <;> rfl
  | _ => exact ⟨_, _, rfl, rfl, rfl⟩

end World

def TaskOp.doableHere (svc : Service) (ctx : Ctx) (op : TaskOp) : Prop := op.dispatches = false ∧ op.doable svc ctx

theorem TaskOp.doableHere_of_quiet {svc : Service} {ctx : Ctx} (quiet : op.quiet = true) :
    op.doableHere svc ctx := by
  cases op with
  | apply | sleep | runtimeDeploy | runtimeStop | dispatchWorkload | dispatchStop => cases quiet
  | _ => exact ⟨rfl, trivial⟩

section Handlers

variable {self : String} {svc worker : Service} {ctx within : Ctx} {metadata : Metadata} {workload : Workload}
variable {node : String} {v : Scene}

theorem validateWorkerWorkload_ok (named : trimSpace metadata.name ≠ "") (present : trimSpace workload.name ≠ "")
    (own : worker.localNode = trimSpace node) : validateWorkerWorkload worker metadata workload node = .ok () := by
  simp [validateWorkerWorkload, named, present, own, Check.pass]

theorem stopWorkerWorkload_succeeds (named : trimSpace metadata.name ≠ "") (present : trimSpace workload.name ≠ "")
    (own : worker.localNode = trimSpace node) :
    Ensures (Assuming (View.LocalStep self) TaskOp.succeeded) (fun _ op => op.doableHere svc within)
      (fun result _ => ∃ reply, result = .ok reply) (stopWorkerWorkload worker ctx metadata workload node) v := by
  rw [stopWorkerWorkload, validateWorkerWorkload_ok named present own, ensures_bind]
  refine stopWorkloadHealthMonitor_ensures (fun taken => taken.1) (fun _ _ => TaskOp.doableHere_of_quiet) ?_
  rw [ensures_bind]
  refine ensures_ask ⟨rfl, trivial⟩ ?_
  rintro (err | _) u ⟨-, good⟩
  · cases good
  rw [ensures_bind]
  refine deleteRecord_ensures (fun taken => taken.1) (fun _ _ => TaskOp.doableHere_of_quiet) ?_
  exact ⟨(), rfl⟩

theorem deployWorkerWorkload_succeeds (named : trimSpace metadata.name ≠ "") (present : trimSpace workload.name ≠ "")
    (own : worker.localNode = trimSpace node) :
    Ensures (Assuming (View.LocalStep self) TaskOp.succeeded) (fun _ op => op.doableHere svc within)
      (fun result _ => ∃ reply, result = .ok reply) (deployWorkerWorkload worker ctx metadata workload node) v := by
  have near {v u : Scene} {op : TaskOp} {answer : op.Answer}
      (taken : Assuming (View.LocalStep self) TaskOp.succeeded v op answer u) := taken.1
  have free (v : Scene) (op : TaskOp) (quiet : op.quiet = true) : op.doableHere svc within :=
    TaskOp.doableHere_of_quiet quiet
  rw [deployWorkerWorkload, validateWorkerWorkload_ok named present own, ensures_bind]
  refine runLocalWorkload_ensures near free ⟨rfl, trivial⟩ (fun _ => ⟨rfl, trivial⟩) ?failed ?ready ?unready
  case failed =>
    rintro cause err u ⟨-, bad⟩
    cases bad
  case unready =>
    rintro probe address err result u t - ⟨-, bad⟩ -
    cases bad
  case ready =>
    intro address u _
    rw [desiredHealthMonitorApp, ensures_bind, ensures_bind]
    refine ensures_ask_quiet near free rfl ?_
    intro found _
    rw [ensures_pure, ensures_bind]
    refine startLocalWorkloadHealthMonitor_ensures near free ?_
    exact ⟨_, rfl⟩

end Handlers

theorem Service.worker_of_nodeURL {svc : Service} {node : String} (reachable : (svc.nodeURL node).isSome) :
    ∃ worker, svc.worker node = some worker := by
  have named : trimSpace node ≠ "" := by
    intro blank
    simp [Service.nodeURL, blank] at reachable
  exact ⟨_, dif_neg named⟩

namespace World

variable {svc : Service} {w : World instanceRuntime}

theorem play_handler {α : Type} {self : String} {handler : Task (Except Failure α)}
    (succeeds : Ensures (Assuming (View.LocalStep self) TaskOp.succeeded) (fun _ op => op.doableHere svc {})
      (fun result _ => ∃ reply, result = .ok reply) handler w.view) :
    ∃ choices u reply, handler.play (localMachine instanceRuntime self) choices w = some (u, .ok reply) ∧
      u.now = w.now := by
  have lifted : Ensures (Assuming (localMachine instanceRuntime self).Step TaskOp.succeeded)
      (fun _ op => op.doableHere svc {}) (fun result _ => ∃ reply, result = .ok reply) handler w :=
    succeeds.simulate fun ⟨⟨_, taken⟩, good⟩ => ⟨view_performLocal taken, good⟩
  have enabled (u : World instanceRuntime) (op : TaskOp) (same : u.now = w.now) (doable : op.doableHere svc {}) :
      ∃ answer t, Assuming (localMachine instanceRuntime self).Step TaskOp.succeeded u op answer t ∧ t.now = w.now := by
    obtain ⟨answer, t, taken, good, still⟩ := performLocal_smooth self (w := u) rfl doable.2 doable.1
    exact ⟨answer, t, ⟨⟨_, taken⟩, good⟩, still.trans same⟩
  obtain ⟨result, u, run, ⟨reply, rfl⟩, same⟩ := lifted.exists_finishes (fun u => u.now = w.now) enabled rfl
  obtain ⟨choices, played⟩ := play_of_finishes (run.mono fun taken => taken.1)
  exact ⟨choices, u, reply, played, same⟩

theorem executeWorker_succeeds {α : Type} {node : String} (action name : String)
    (handler : Service → Task (Except Failure α)) (decode : α → DispatchResult)
    (reachable : (svc.nodeURL node).isSome)
    (succeeds : ∀ worker : Service, worker.localNode = trimSpace node → ∀ v : Scene,
      Ensures (Assuming (View.LocalStep worker.localNode) TaskOp.succeeded) (fun _ op => op.doableHere svc {})
        (fun result _ => ∃ reply, result = .ok reply) (handler worker) v) :
    ∃ c reply u, w.executeWorker svc action node name handler decode c = some (u, .ok reply) ∧ u.now = w.now := by
  obtain ⟨url, known⟩ := Option.isSome_iff_exists.mp reachable
  obtain ⟨worker, found⟩ := Service.worker_of_nodeURL reachable
  obtain ⟨choices, u, reply, played, same⟩ := play_handler (w := w.drift (smooth worker.localNode))
    (succeeds worker (Service.worker_localNode found) _)
  refine ⟨{ smooth worker.localNode with attempts := [choices] }, decode reply, u, ?_, same⟩
  simp only [executeWorker, known, found, serve]
  rw [played]

/-- Whatever is doable can be done with success. -/
theorem exists_step {ctx : Ctx} {op : TaskOp} (live : ctx.expired w.now = false) (doable : op.doable svc ctx) :
    ∃ answer u, (machine instanceRuntime svc).Step w op answer u ∧ op.succeeded answer = true ∧ u.now = w.now := by
  cases away : op.dispatches with
  | false =>
    obtain ⟨answer, u, taken, good, same⟩ := performLocal_smooth svc.localNode live doable away
    refine ⟨answer, u, step_iff.mpr ⟨smoothly svc.localNode, ?_⟩, good, same⟩
    rw [perform_eq_performLocal away]
    exact taken
  | true =>
    cases op with
    | dispatchWorkload within node metadata workload =>
      obtain ⟨reachable, named, present⟩ := doable
      obtain ⟨c, reply, u, taken, same⟩ := executeWorker_succeeds (w := w) "dispatch" workload.name
        (fun worker => deployWorkerWorkload worker {} metadata workload.decoded node)
        (fun address => ⟨trimSpace address, some .running⟩) reachable
        fun worker own v => deployWorkerWorkload_succeeds (v := v) named present own
      exact ⟨.ok reply, u, ⟨c, taken⟩, rfl, same⟩
    | dispatchStop within node metadata workload =>
      obtain ⟨reachable, named, present⟩ := doable
      obtain ⟨c, reply, u, taken, same⟩ := executeWorker_succeeds (w := w) "stop" workload.name
        (fun worker => stopWorkerWorkload worker {} metadata workload.decoded node)
        (fun _ => ⟨"", some .stopped⟩) reachable
        fun worker own v => stopWorkerWorkload_succeeds (v := v) named present own
      exact ⟨.ok reply, u, ⟨c, taken⟩, rfl, same⟩
    | _ => cases away

def failing : LocalChoice instanceRuntime where
  ok := false
  runtime := { ok := false }

theorem performLocal_failing (self : String) (w : World instanceRuntime) (here : op.dispatches = false) :
    ∃ answer u, w.performLocal self op failing = some (u, answer) ∧ op.refused answer = true ∧
      u.leader = w.leader := by
  cases op with
  | dispatchWorkload | dispatchStop => cases here
  | apply ctx command =>
    refine ⟨_, ((w.drift failing).applyCommand self ctx command failing).1, rfl, rfl, ?_⟩
    unfold applyCommand
    split
    · rfl
    split <;> rfl
  | sleep ctx duration =>
    simp only [performLocal]
    split
    · exact ⟨_, _, rfl, rfl, rfl⟩
    · exact ⟨_, _, rfl, rfl, rfl⟩
  | takeRestart key maxRestarts =>
    refine ⟨_, ((w.drift failing).takeRestart self key maxRestarts).1, rfl, rfl, ?_⟩
    simp only [takeRestart]
    split <;> rfl
  | markAutoRollbackAttempt key =>
    refine ⟨_, ((w.drift failing).markAutoRollbackAttempt self key).1, rfl, rfl, ?_⟩
    unfold markAutoRollbackAttempt
    split <;> rfl
  | _ => exact ⟨_, _, rfl, rfl, rfl⟩

/-- The request reaches no attempt of the worker. -/
def unreached : Choice instanceRuntime := { toLocalChoice := failing }

theorem executeWorker_unreached {α : Type} (action node name : String) (handler : Service → Task (Except Failure α))
    (decode : α → DispatchResult) :
    ∃ err u, w.executeWorker svc action node name handler decode unreached = some (u, .error err) := by
  unfold executeWorker
  split
  · exact ⟨_, _, rfl⟩
  · exact ⟨_, _, rfl⟩

theorem exists_refused (svc : Service) (w : World instanceRuntime) (op : TaskOp) :
    ∃ answer u, Assuming (machine instanceRuntime svc).Step TaskOp.refused w op answer u := by
  cases away : op.dispatches with
  | false =>
    obtain ⟨answer, u, taken, fails, -⟩ := performLocal_failing svc.localNode w away
    exact ⟨answer, u, step_iff.mpr ⟨unreached, by rw [perform_eq_performLocal away]; exact taken⟩, fails⟩
  | true =>
    cases op with
    | dispatchWorkload ctx node metadata workload =>
      obtain ⟨err, u, taken⟩ := executeWorker_unreached "dispatch" node workload.name
        (fun worker => deployWorkerWorkload worker {} metadata workload.decoded node)
        (fun address => ⟨trimSpace address, some .running⟩)
      exact ⟨.error err, u, step_iff.mpr ⟨unreached, taken⟩, rfl⟩
    | dispatchStop ctx node metadata workload =>
      obtain ⟨err, u, taken⟩ := executeWorker_unreached "stop" node workload.name
        (fun worker => stopWorkerWorkload worker {} metadata workload.decoded node) (fun _ => ⟨"", some .stopped⟩)
      exact ⟨.error err, u, step_iff.mpr ⟨unreached, taken⟩, rfl⟩
    | _ => cases away

end World

end Orch
