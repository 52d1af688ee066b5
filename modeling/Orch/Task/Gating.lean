import Orch.Task.Convergence

namespace Orch

open Effect

/-- One of the references of the first workload names the second. -/
def Workload.DependsOn (y x : Workload) : Prop :=
  ∃ ref ∈ y.dependsOn, trimSpace ref.name = x.key

def App.DependedOn (doc : App) (x : Workload) : Prop :=
  ∃ y ∈ doc.workloads, y.DependsOn x

/-- What a reference asks of the workload it names. That a job has completed is
recorded nowhere, so what it means is left open. -/
def DependencyMet (completed : Workload → Prop) (f : Ledger) (doc : App) (ref : WorkloadRef) (dep : Workload) : Prop :=
  if normalizeDependencyCondition ref.condition = "completed" then completed dep else RunningNow f doc dep

/-- A workload of the document is started only when everything it depends on
is as its reference asks. -/
def StartsWhenMet (met : WorkloadRef → Workload → Prop) (doc : App) (op : TaskOp) : Prop :=
  ∀ x ∈ doc.workloads, op.started = some (workloadId doc.metadata x.name) → ∀ ref ∈ x.dependsOn,
    ∃ dep ∈ doc.workloads, dep.key = trimSpace ref.name ∧ met ref dep

/-- The steps of a pass that nothing makes go past a dependency: proposals are
accepted, and a workload others depend on is found resumable, with a restart
left when it needs one. -/
def Unblocked (svc : Service) (doc : App) (opts : DeployOptions) (w : World instanceRuntime) (op : TaskOp)
    (answer : op.Answer) : Prop :=
  match op, answer with
  | .apply _ _, result => result = .ok ()
  | .getWorkloadAssignment key, _ => ∀ x ∈ doc.workloads, doc.DependedOn x →
      key = assignmentKey doc.metadata x.name → Resumable w.view.fsm doc opts x
  | .takeRestart key maxRestarts, _ => ∀ x ∈ doc.workloads, doc.DependedOn x →
      ∀ a, w.view.fsm.getAssignment (assignmentKey doc.metadata x.name) = some a →
        key = restartAttemptKey a.key (appGeneration doc) → 0 < maxRestarts →
          (w.marks svc.localNode).attempts key < maxRestarts
  | _, _ => True

/-- What such steps do to the replicated state: restarts of the workloads
others depend on are granted. -/
def View.Unblocked (svc : Service) (doc : App) (opts : DeployOptions) : Steps TaskSig Scene :=
  fun v op answer u => View.Step svc v op answer u ∧
    match op, answer with
    | .apply _ _, result => result = .ok ()
    | .getWorkloadAssignment key, _ => ∀ x ∈ doc.workloads, doc.DependedOn x →
        key = assignmentKey doc.metadata x.name → Resumable v.fsm doc opts x
    | .takeRestart key _, granted => ∀ x ∈ doc.workloads, doc.DependedOn x →
        ∀ a, v.fsm.getAssignment (assignmentKey doc.metadata x.name) = some a →
          key = restartAttemptKey a.key (appGeneration doc) → granted = true
    | _, _ => True

def World.UnblockedStep (svc : Service) (doc : App) (opts : DeployOptions) : Steps TaskSig (World instanceRuntime) :=
  fun w op answer u => (World.machine instanceRuntime svc).Step w op answer u ∧ Unblocked svc doc opts w op answer

theorem World.unblocked_step {svc : Service} {doc : App} {opts : DeployOptions} {w u : World instanceRuntime} {op : TaskOp}
    {answer : op.Answer} (taken : World.UnblockedStep svc doc opts w op answer u) :
    View.Unblocked svc doc opts w.view op answer u.view := by
  obtain ⟨taken, unblocked⟩ := taken
  refine ⟨view_step taken, ?_⟩
  cases op with
  | apply | getWorkloadAssignment => exact unblocked
  | takeRestart key maxRestarts =>
    intro x member depended a found own
    have left := unblocked x member depended a found own
    have marked : Marks.Step _ (.takeRestart key maxRestarts) answer _ := marks_step taken
    simp only [Marks.Step] at marked
    split at marked
    · rename_i exhausted
      have := left exhausted.1
      omega
    · exact marked.1
  | _ => trivial

section Pass

variable {svc : Service} {doc : App} {opts : DeployOptions} {ctx : Ctx}

/-- What is permitted in a pass: no workload is started before those it
depends on run. -/
abbrev View.Gates (doc : App) (v : Scene) (op : TaskOp) : Prop :=
  StartsWhenMet (fun _ dep => RunningNow v.fsm doc dep) doc op

variable {v : Scene}

theorem View.gates_of_idle {op : TaskOp} (idle : op.started = none) : v.Gates doc op := by
  intro x _ starts
  rw [idle] at starts
  cases starts

theorem RunningNow.record {x y : Workload} {node : String} {status : AssignmentStatus} {error : Option Failure}
    {address : String} (named : trimSpace doc.metadata.name ≠ "") (present : x.key ≠ "") (apart : y.key ≠ x.key)
    (running : RunningNow v.fsm doc y) :
    RunningNow (v.record (assignmentRecord doc.metadata x node status (appGeneration doc) error address
      (artifactSummary x.run))).fsm doc y := by
  obtain ⟨a, found, current⟩ := running
  refine ⟨a, ?_, current⟩
  exact ((assigned_record named present).trans (if_neg apart)).trans found

/-- Each workload is started when those before it that others need are running. -/
theorem deployOneWorkload_gated {before after : List Workload} {x : Workload}
    (valid : doc.validate svc.sorter = .ok ())
    (ordered : doc.workloadsInDependencyOrder svc.sorter = .ok (before ++ x :: after))
    (ready : ∀ y ∈ before, doc.DependedOn y → RunningNow v.fsm doc y) :
    Ensures (View.Unblocked svc doc opts) (View.Gates doc)
      (fun result u => result = .ok () → ∀ y ∈ before ++ [x], doc.DependedOn y → RunningNow u.fsm doc y)
      (deployOneWorkload svc ctx doc (appGeneration doc) opts x) v := by
  obtain ⟨permuted, distinct, nonblank⟩ := App.workloadsInDependencyOrder_ok ordered
  have member : x ∈ doc.workloads := permuted.mem_iff.mp (by simp)
  have named := App.validate_name valid
  have present : x.key ≠ "" := nonblank x member
  have inside {y : Workload} (earlier : y ∈ before) : y ∈ doc.workloads := permuted.mem_iff.mp (by simp [earlier])
  have apart {y : Workload} (earlier : y ∈ before) : y.key ≠ x.key := by
    have separate : ((before ++ x :: after).map Workload.key).Nodup := (permuted.map _).nodup_iff.mpr distinct
    rw [List.map_append, List.nodup_append] at separate
    exact separate.2.2 _ (List.mem_map_of_mem earlier) _ (by simp)
  -- What is started here is this workload, and what it depends on stands before it.
  have starts {u : Scene} (still : ∀ y ∈ before, doc.DependedOn y → RunningNow u.fsm doc y) {op : TaskOp}
      (own : op.started = some (workloadId doc.metadata x.name)) : u.Gates doc op := by
    intro z held started ref depends
    obtain rfl : z = x := by
      have same : workloadId doc.metadata x.name = workloadId doc.metadata z.name := Option.some.inj (own.symm.trans started)
      exact List.inj_on_of_nodup_map distinct held member (congrArg WorkloadId.workload same).symm
    obtain ⟨dep, earlier, called⟩ := App.dependency_before ordered depends
    exact ⟨dep, inside earlier, called, still dep earlier ⟨z, held, ref, depends, called.symm⟩⟩
  have near {v u : Scene} {op : TaskOp} {answer : op.Answer}
      (taken : View.Unblocked svc doc opts v op answer u) := taken.1.local
  have free (v : Scene) (op : TaskOp) (quiet : op.quiet = true) : v.Gates doc op := by
    refine View.gates_of_idle ?_
    cases op with
    | runtimeDeploy | dispatchWorkload => cases quiet
    | _ => rfl
  have unrun {v u : Scene}
      (readied : Readied (fun v _ _ u => u.fsm = v.fsm) doc x (appGeneration doc) opts v u) : u.fsm = v.fsm := by
    cases readied with
    | fresh | again => rfl
    | stopped _ _ _ _ ended => exact ended
  refine deployOneWorkload_spec near free (fun _ _ _ => View.gates_of_idle rfl) (fun taken => taken.2)
    (fun v _ _ u => u.fsm = v.fsm)
    (fun v _ result u => u.fsm = v.fsm ∧ ∀ ran, result = .ok ran → ran.status = .running)
    named present (fun _ _ _ => View.gates_of_idle rfl) ?stops ?runs ?kept ?cancelled ?unstopped ?unplaced ?failed ?started
  case stops =>
    intro ctx assignment found older placed live
    refine (stopWorkloadOnNode_ensures (fun taken => taken.1) free (fun never : False => never.elim)
      (fun _ _ _ _ => View.gates_of_idle rfl) (trimSpace_trimSpace _) placed (fun _ _ => View.gates_of_idle rfl)).mono ?_
    rintro result t ⟨⟨value, rfl, -⟩, -⟩
    rfl
  case runs =>
    intro ctx u node readied chosen
    have still (y : Workload) (earlier : y ∈ before) (depended : doc.DependedOn y) :
        RunningNow (u.record (assignedRecord doc x node (appGeneration doc))).fsm doc y := by
      refine RunningNow.record named present (apart earlier) ?_
      rw [unrun readied]
      exact ready y earlier depended
    refine (runChosen_ensures (fun taken => taken.1) free (fun never : False => never.elim)
      (fun _ => starts still rfl) (fun _ => View.gates_of_idle rfl) (fun _ _ => starts still rfl)).mono ?_
    rintro result t ⟨⟨value, rfl, -, started⟩, -⟩
    exact ⟨rfl, fun ran finished => (started ran finished).2⟩
  case kept =>
    intro a read idle _ y earlier depended
    rcases List.mem_append.mp earlier with earlier | this
    · exact ready y earlier depended
    obtain rfl := List.mem_singleton.mp this
    have found : v.fsm.getAssignment (assignmentKey doc.metadata y.name) = some a := (near read).1.symm
    have resumable : Resumable v.fsm doc opts y := read.2 y member depended rfl
    rcases idle with converged | skipped | ⟨failed, refused⟩
    · simp only [workloadAssignmentConverged, Bool.and_eq_true, decide_eq_true_eq] at converged
      exact ⟨a, found, converged.2, converged.1⟩
    · simp only [shouldSkipStoppedAssignment, Bool.and_eq_true, Bool.not_eq_true', decide_eq_true_eq] at skipped
      have forced := (resumable a found skipped.1.2).1 skipped.2
      rw [forced] at skipped
      cases skipped.1.1
    · simp only [failedAssignmentSameGeneration, Bool.and_eq_true, decide_eq_true_eq] at failed
      rcases refused with never | exhausted
      · exact absurd never ((resumable a found failed.1).2 failed.2)
      · cases exhausted.2 y member depended a found rfl
  case started =>
    rintro result node u t readied chosen ⟨same, running⟩ _ y earlier depended
    rcases List.mem_append.mp earlier with earlier | this
    · refine RunningNow.record named present (apart earlier) ?_
      rw [same]
      refine RunningNow.record named present (apart earlier) ?_
      rw [unrun readied]
      exact ready y earlier depended
    · obtain rfl := List.mem_singleton.mp this
      refine ⟨_, View.record_getAssignment (trimSpace_assignmentKey ..), running result rfl, ?_⟩
      simp [sameGeneration, assignmentRecord]
  all_goals
    intros
    contradiction

theorem deployAppWorkloads_gated (valid : doc.validate svc.sorter = .ok ()) :
    Ensures (View.Unblocked svc doc opts) (View.Gates doc) anything
      (deployAppWorkloadsWithOptions svc ctx doc opts) v := by
  have free (v : Scene) (op : TaskOp) (quiet : op.quiet = true) : v.Gates doc op := by
    refine View.gates_of_idle ?_
    cases op with
    | runtimeDeploy | dispatchWorkload => cases quiet
    | _ => rfl
  refine deployAppWorkloadsWithOptions_ensures (fun taken => taken.1.local) free (fun _ _ _ => View.gates_of_idle rfl)
    (fun taken => taken.2) (fun _ _ => trivial) ?_
  intro catalog order _ ordered
  refine ensures_eachUntil (fun rest u => ∃ before, order = before ++ rest ∧
    ∀ y ∈ before, doc.DependedOn y → RunningNow u.fsm doc y) (fun _ _ => trivial) ?_ ⟨[], rfl, by simp⟩
  rintro x after u ⟨before, rfl, ready⟩
  refine (deployOneWorkload_gated valid ordered ready).mono ?_
  rintro (err | _) t later
  · trivial
  · exact ⟨before ++ [x], by simp, later rfl⟩

end Pass

/-- A pass in which no dependency is passed by starts each workload only when
what it depends on is met, if no reference waits for a job to complete. -/
theorem dependencies_gate_starts (completed : World instanceRuntime → Workload → Prop) {svc : Service} {doc : App}
    (valid : doc.validate svc.sorter = .ok ())
    (unawaited : ∀ x ∈ doc.workloads, ∀ ref ∈ x.dependsOn, normalizeDependencyCondition ref.condition ≠ "completed")
    {ctx : Ctx} {opts : DeployOptions} {w last : World instanceRuntime} {rest : Task Check}
    {trace : List (Event TaskSig (World instanceRuntime))}
    (run : Run (World.UnblockedStep svc doc opts) (deployAppWorkloadsWithOptions svc ctx doc opts) w trace rest last) :
    ∀ event ∈ trace,
      StartsWhenMet (DependencyMet (completed event.before) event.before.view.fsm doc) doc event.op := by
  have pass : Ensures (View.Unblocked svc doc opts) (View.Gates doc) (fun _ _ => True)
    (deployAppWorkloadsWithOptions svc ctx doc opts) w.view := deployAppWorkloads_gated valid
  have gated := pass.simulate World.unblocked_step
  intro event member x held started ref depends
  obtain ⟨dep, inside, called, running⟩ := (gated.run run).1 event member x held started ref depends
  refine ⟨dep, inside, called, ?_⟩
  rw [DependencyMet, if_neg (unawaited x held ref depends)]
  exact running

def stackApp : App where
  metadata := { name := "web" }
  workloads := [{ imageWorkload "api" "nginx" with dependsOn := [{ name := "db" }] }, imageWorkload "db" "postgres"]

/-- The workload the other one depends on has been stopped by hand. -/
def World.paused : World instanceRuntime :=
  { World.idle with
    fsm := FsmState.update {} (.upsertWorkloadAssignment
      (assignmentRecord { name := "web" } (imageWorkload "db" "postgres") "a" .stopped (appGeneration stackApp) none "" "postgres")) }

theorem dependedOn_stackApp {x : Workload} (depended : stackApp.DependedOn x) (member : x ∈ stackApp.workloads) :
    x = imageWorkload "db" "postgres" := by
  obtain ⟨y, held, ref, depends, called⟩ := depended
  simp only [stackApp, List.mem_cons, List.not_mem_nil, or_false] at held member
  rcases held with rfl | rfl
  · obtain rfl := List.mem_singleton.mp depends
    rcases member with rfl | rfl
    · exact absurd called (by decide +kernel)
    · rfl
  · cases depends

/-- From scratch, the workload that depends on the other is started when that
one runs. -/
theorem dependencies_gate_stackApp :
    ∃ trace : List (Event TaskSig (World instanceRuntime)),
      (∃ event ∈ trace, TaskOp.started event.op = some (workloadId { name := "web" } "api")) ∧
      ∀ event ∈ trace, StartsWhenMet (DependencyMet (fun _ => False) event.before.view.fsm stackApp) stackApp event.op := by
  let clear (event : Event TaskSig (World instanceRuntime)) : Bool :=
    match event.op, event.answer with
    | .apply _ _, result => result.isOk
    | .getWorkloadAssignment key, _ => key ≠ assignmentKey { name := "web" } "db" ∨ event.before.fsm.getAssignment key = none
    | .takeRestart _ _, _ => false
    | _, _ => true
  have traced : ((deployAppWorkloadsWithOptions sampleService {} stackApp {}).trace
      (World.machine instanceRuntime sampleService) (List.replicate 30 (World.smoothly "a")) World.idle).map
        (fun trace => trace.all clear && trace.any fun event =>
          TaskOp.started event.op = some (workloadId { name := "web" } "api")) = some true := by
    decide +kernel
  obtain ⟨trace, q, t, passed, run⟩ := exists_run_of_check traced
  rw [Bool.and_eq_true, List.all_eq_true, List.any_eq_true] at passed
  obtain ⟨checked, event, member, starts⟩ := passed
  have unblocked : ∀ event ∈ trace, Unblocked sampleService stackApp {} event.before event.op event.answer := by
    rintro ⟨before, op, answer, after⟩ member
    have good := checked _ member
    cases op with
    | apply => exact Check.isOk_iff.mp good
    | getWorkloadAssignment key =>
      rintro x held depended rfl a found
      obtain rfl := dependedOn_stackApp depended held
      rcases of_decide_eq_true good with other | missing
      · exact absurd rfl other
      · rw [show before.view.fsm.getAssignment _ = none from missing] at found
        cases found
    | takeRestart => cases good
    | _ => trivial
  refine ⟨trace, ⟨event, member, of_decide_eq_true starts⟩, ?_⟩
  refine dependencies_gate_starts (fun _ _ => False) (by decide +kernel) ?_ (run.within unblocked)
  decide +kernel

/-- The pass goes past the stopped workload and starts the other one. -/
theorem stopped_dependency_passed :
    ¬ ∃ completed : World instanceRuntime → Workload → Prop, ∀ (svc : Service) (doc : App) (ctx : Ctx) (opts : DeployOptions)
      (w last : World instanceRuntime) (rest : Task Check) (trace : List (Event TaskSig (World instanceRuntime))),
      doc.validate svc.sorter = .ok () →
      Run (World.machine instanceRuntime svc).Step (deployAppWorkloadsWithOptions svc ctx doc opts) w trace rest last →
        ∀ event ∈ trace,
          StartsWhenMet (DependencyMet (completed event.before) event.before.view.fsm doc) doc event.op := by
  rintro ⟨completed, gated⟩
  have traced : ((deployAppWorkloadsWithOptions sampleService {} stackApp {}).trace
      (World.machine instanceRuntime sampleService) (List.replicate 30 (World.smoothly "a")) World.paused).map
        (fun trace => trace.any fun event => TaskOp.started event.op = some (workloadId { name := "web" } "api") ∧
          (event.before.fsm.getAssignment (assignmentKey { name := "web" } "db")).map Assignment.status = some .stopped) =
        some true := by
    decide +kernel
  obtain ⟨trace, q, t, passed, run⟩ := exists_run_of_check traced
  obtain ⟨event, member, found⟩ := List.any_eq_true.mp passed
  obtain ⟨starts, stopped⟩ := of_decide_eq_true found
  obtain ⟨dep, held, called, met⟩ := gated _ stackApp _ _ _ _ _ _ (by decide +kernel) run event member
    _ List.mem_cons_self starts _ List.mem_cons_self
  obtain ⟨b, recorded, status⟩ := Option.map_eq_some_iff.mp stopped
  have plain : normalizeDependencyCondition ({ name := "db" } : WorkloadRef).condition ≠ "completed" := by decide +kernel
  rw [DependencyMet, if_neg plain] at met
  obtain ⟨a, current, running, -⟩ := met
  obtain rfl : dep = imageWorkload "db" "postgres" :=
    dependedOn_stackApp ⟨_, List.mem_cons_self, _, List.mem_cons_self, called.symm⟩ held
  obtain rfl : a = b := Option.some.inj (current.symm.trans recorded)
  rw [status] at running
  cases running

end Orch
