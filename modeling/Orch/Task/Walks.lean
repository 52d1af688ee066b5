import Orch.Task.Reads

namespace Orch

open Effect

variable {status : AssignmentStatus} {error : Option Failure}

section Walks

variable {σ : Type} {step : Steps TaskSig σ} {permit : σ → TaskOp → Prop}

/-- What idle actions keep, on the part of the program and of everyone else who
may act in between. -/
def Lasting (step : Steps TaskSig σ) (permit : σ → TaskOp → Prop) (holds : σ → Prop) : Prop :=
  ∀ s (op : TaskOp), holds s → op.idle = true → Ensures step permit (fun _ => holds) (ask op) s

variable {before holds after : σ → Prop} {s : σ} {α β : Type}

theorem Lasting.ensures (lasting : Lasting step permit holds) {p : Task α} (idle : Idle p) (start : holds s) :
    Ensures step permit (fun _ => holds) p s := by
  induction p generalizing s with
  | pure value => exact start
  | call op next ih =>
    obtain ⟨permitted, kept⟩ := lasting s op start idle.1
    exact ⟨permitted, fun answer t taken => ih answer (idle.2 answer) (kept answer t taken)⟩

theorem Lasting.then (lasting : Lasting step permit holds) {p : Task α} {rest : α → Task β} {post : β → σ → Prop}
    (idle : Idle p) (start : holds s) (later : ∀ a t, holds t → Ensures step permit post (rest a) t) :
    Ensures step permit post (p >>= rest) s := by
  exact (lasting.ensures idle start).bind later

variable {metadata : Metadata} {app : App} {workload : Workload} {ctx : Ctx} {generation : String}

/-- A workload with a name in an app with a name. -/
structure Proper (metadata : Metadata) (workload : Workload) : Prop where
  named : trimSpace metadata.name ≠ ""
  present : workload.key ≠ ""

theorem Proper.key (proper : Proper metadata workload) : assignmentKey metadata workload.name ≠ "" :=
  assignmentKey_ne_empty proper.named proper.present

theorem proper_of_validate {sorter : GraphSorter} (valid : app.validate sorter = .ok ()) (member : workload ∈ app.workloads) :
    Proper app.metadata workload :=
  ⟨App.validate_name valid, App.validate_present valid member⟩

theorem workload_unique_of_validate {sorter : GraphSorter} {v : Workload} (valid : app.validate sorter = .ok ())
    (member : workload ∈ app.workloads) (inside : v ∈ app.workloads)
    (keys : assignmentKey app.metadata v.name = assignmentKey app.metadata workload.name) : v = workload := by
  obtain ⟨ordered, sorted⟩ := App.validate_ordered valid
  obtain ⟨-, distinct, -⟩ := App.workloadsInDependencyOrder_ok sorted
  have same : v.key = workload.key := WorkloadId.key_inj (App.validate_name valid) (App.validate_present valid inside)
    (App.validate_present valid member) keys
  exact List.inj_on_of_nodup_map distinct inside member same

abbrev recording (ctx : Ctx) (metadata : Metadata) (workload : Workload) (node : String) (status : AssignmentStatus)
    (generation : String) (error : Option Failure) (address : String) : TaskOp :=
  .apply ctx (.upsertWorkloadAssignment
    (assignmentRecord metadata workload node status generation error address (artifactSummary workload.run)))

theorem applyWorkloadAssignment_walk {node address : String} (proper : Proper metadata workload)
    (recorded : Ensures step permit (fun _ => after)
      (ask (recording ctx metadata workload node status generation error address)) s) :
    Ensures step permit (fun _ => after)
      (applyWorkloadAssignment ctx metadata workload node status generation error address) s := by
  rw [applyWorkloadAssignment_eq proper.named proper.present, ensures_bind]
  exact recorded

/-- Only the proposal of the record itself matters. -/
theorem recordWorkload_walk {node address : String} {binding : BindingStatus}
    (proper : Proper app.metadata workload) (lasting : Lasting step permit after)
    (recorded : Ensures step permit (fun _ => after)
      (ask (recording ctx app.metadata workload node status generation error address)) s) :
    Ensures step permit (fun _ => after)
      (recordWorkload ctx app workload node status binding generation error address) s := by
  refine (applyWorkloadAssignment_walk proper recorded).bind ?_
  intro _ t done
  exact lasting.ensures applyWorkloadVolumeBindings_idle done

theorem stopLocalWorkload_walk {done : Bool → σ → Prop} (proper : Proper metadata workload)
    (lasting : ∀ ok, Lasting step permit (done ok))
    (dropped : Ensures step permit (fun _ => before) (ask (.stopHealthMonitor (assignmentKey metadata workload.name))) s)
    (stopped : ∀ t, before t → Ensures step permit (fun result => done result.isOk)
      (ask (.runtimeStop ctx workload.runtime metadata workload.name)) t) :
    Ensures step permit (fun result => done result.isOk) (stopLocalWorkload ctx metadata workload) s := by
  rw [stopLocalWorkload, ensures_bind, stopWorkloadHealthMonitor, if_neg proper.key]
  refine dropped.mono ?_
  intro _ t holds
  refine (stopped t holds).bind ?_
  rintro (err | _) u holds
  · exact holds
  · exact (lasting true).then deleteRecord_idle holds fun _ _ done => done

/-- A stop is dispatched, or drops the monitor and calls the runtime. -/
theorem stopWorkloadOnNode_walk {done : Bool → σ → Prop} {svc : Service} {node : String} (proper : Proper metadata workload)
    (lasting : ∀ ok, Lasting step permit (done ok)) (refused : done false s)
    (remote : trimSpace node ≠ "" → trimSpace node ≠ svc.localNode → Ensures step permit (fun result => done result.isOk)
      (ask (.dispatchStop ctx (trimSpace node) metadata workload)) s)
    (dropped : trimSpace node = "" ∨ trimSpace node = svc.localNode → Ensures step permit (fun _ => before)
      (ask (.stopHealthMonitor (assignmentKey metadata workload.name))) s)
    (stopped : ∀ t, trimSpace node = "" ∨ trimSpace node = svc.localNode → before t →
      Ensures step permit (fun result => done result.isOk) (ask (.runtimeStop ctx workload.runtime metadata workload.name)) t) :
    Ensures step permit (fun result => done result.isOk) (stopWorkloadOnNode svc ctx metadata workload node) s := by
  unfold stopWorkloadOnNode
  by_cases away : trimSpace node ≠ "" ∧ trimSpace node ≠ svc.localNode
  · rw [if_pos away, stopRemoteWorkload]
    split
    · exact refused
    refine (remote away.1 away.2).bind ?_
    rintro (err | _) u holds
    · exact holds
    · exact (lasting true).then deleteRecord_idle holds fun _ _ done => done
  · rw [if_neg away]
    have here : trimSpace node = "" ∨ trimSpace node = svc.localNode := by
      by_cases blank : trimSpace node = ""
      · exact .inl blank
      · exact .inr (not_not.mp fun other => away ⟨blank, other⟩)
    exact stopLocalWorkload_walk proper lasting (dropped here) fun t => stopped t here

/-- A start calls the runtime, and stops again what does not become ready. -/
theorem runLocalWorkload_walk {started failed : σ → Prop} {node : String} (proper : Proper metadata workload)
    (lastingStarted : Lasting step permit started) (lastingFailed : Lasting step permit failed)
    (deployed : Ensures step permit (fun result t => if result.isOk then started t else failed t)
      (ask (.runtimeDeploy ctx metadata workload)) s)
    (dropped : ∀ t, started t → Ensures step permit (fun _ => before)
      (ask (.stopHealthMonitor (assignmentKey metadata workload.name))) t)
    (stopped : ∀ t, before t → Ensures step permit (fun _ => failed)
      (ask (.runtimeStop ctx workload.runtime metadata workload.name)) t) :
    Ensures step permit (fun result t => match result with
        | .ok ran => ran.status = .running ∧ started t
        | .error _ => failed t)
      (runLocalWorkload ctx metadata workload node) s := by
  rw [runLocalWorkload, deployLocalWorkload, ensures_bind, ensures_bind]
  refine deployed.mono ?_
  rintro (err | _) t holds
  · exact holds
  refine lastingStarted.then (asks_perform rfl) holds fun _ t holds => ?_
  refine lastingStarted.then (asks_then rfl fun _ => trivial) holds fun address t holds => ?_
  refine lastingStarted.then waitWorkloadReadiness_reads.idle holds ?_
  rintro (err | _) t holds
  · refine (stopLocalWorkload_walk proper (fun _ => lastingFailed) (dropped t holds) ?_).bind fun _ _ done => done
    exact stopped
  · exact ⟨rfl, holds⟩

theorem maybeAutoRollbackDeployFailure_walk (good : App → Prop) (lasting : Lasting step permit holds)
    (found : ∀ {t revision u}, holds t → step t (.getPreviousDeployApp metadata) (some revision) u → good revision.app)
    (filed : ∀ {t ctx doc}, holds t → good doc →
      Ensures step permit (fun _ => holds) (ask (.apply ctx (.upsertDeployApp doc))) t)
    (start : holds s) :
    Ensures step permit (fun _ => holds) (maybeAutoRollbackDeployFailure metadata workload generation) s := by
  have revised : Ensures step permit (fun found t => holds t ∧ ∀ revision, found = some revision → good revision.app)
      (autoRollbackRevision metadata workload generation) s := by
    simp only [autoRollbackRevision]
    refine lasting.then autoRollbackConfigured_reads.idle start ?_
    rintro (_ | _) t start
    · exact ⟨start, nofun⟩
    refine lasting.then autoRollbackDesiredGenerationCurrent_reads.idle start ?_
    rintro (_ | _) t start
    · exact ⟨start, nofun⟩
    rw [ensures_bind]
    obtain ⟨permitted, kept⟩ := lasting t (.getPreviousDeployApp metadata) start rfl
    refine ⟨permitted, ?_⟩
    rintro (_ | revision) u taken
    · exact ⟨kept none u taken, nofun⟩
    have right := found start taken
    have after := kept (some revision) u taken
    change Ensures _ _ _ (if trimSpace revision.generation = "" ∨ trimSpace revision.generation = trimSpace generation then _
      else _) _
    split
    · exact ⟨after, nofun⟩
    refine lasting.then markAutoRollbackAttempt_idle after ?_
    rintro (_ | _) v holds
    · exact ⟨holds, nofun⟩
    · exact ⟨holds, by rintro _ ⟨⟩; exact right⟩
  refine revised.bind ?_
  rintro (_ | revision) t ⟨start, right⟩
  · exact start
  refine lasting.then (asks_perform rfl) start fun now t start => ?_
  refine lasting.then preflightDeploy_reads.idle start ?_
  rintro (err | _) t start
  · exact start
  refine lasting.then suppressAutoRollback_idle start fun _ t start => ?_
  exact (filed start (right revision rfl)).bind fun _ _ kept => kept

theorem recordDeployFailure_walk (good : App → Prop) {node : String} {err : Failure} (proper : Proper app.metadata workload)
    (lastingBefore : Lasting step permit before) (lasting : Lasting step permit after)
    (dropped : Ensures step permit (fun _ => before) (ask (.stopHealthMonitor (assignmentKey app.metadata workload.name))) s)
    (stale : ∀ {t assignment u}, before t →
      step t (.getWorkloadAssignment (assignmentKey app.metadata workload.name)) (some assignment) u →
        assignmentConvergedOnDifferentNode assignment node generation = true → after u)
    (recorded : ∀ t, before t → Ensures step permit (fun _ => after)
      (ask (recording ctx app.metadata workload node .failed generation (some err) "")) t)
    (found : ∀ {t revision u}, after t → step t (.getPreviousDeployApp app.metadata) (some revision) u → good revision.app)
    (filed : ∀ {t ctx doc}, after t → good doc →
      Ensures step permit (fun _ => after) (ask (.apply ctx (.upsertDeployApp doc))) t) :
    Ensures step permit (fun _ => after) (recordDeployFailure ctx app workload node generation err) s := by
  have fails (t : σ) (start : before t) : Ensures step permit (fun _ => after) (do
      recordWorkload ctx app workload node .failed .failed generation (some err)
      maybeAutoRollbackDeployFailure app.metadata workload generation) t := by
    refine (recordWorkload_walk proper lasting (recorded t start)).bind ?_
    intro _ u done
    exact maybeAutoRollbackDeployFailure_walk good lasting found filed done
  rw [recordDeployFailure, ensures_bind, stopWorkloadHealthMonitor, if_neg proper.key]
  refine dropped.mono ?_
  intro _ t start
  rw [ensures_bind, skipStaleDeployFailure, ensures_bind]
  obtain ⟨permitted, kept⟩ := lastingBefore t (.getWorkloadAssignment (assignmentKey app.metadata workload.name)) start rfl
  refine ⟨permitted, ?_⟩
  rintro (_ | assignment) u taken
  · exact fails u (kept none u taken)
  · change Ensures _ _ _ (cond (assignmentConvergedOnDifferentNode assignment node generation) _ _) _
    cases elsewhere : assignmentConvergedOnDifferentNode assignment node generation with
    | true => exact stale start taken elsewhere
    | false => exact fails u (kept (some assignment) u taken)

section Placing

variable {svc : Service} {opts : DeployOptions} {ready final : σ → Prop} {assigned down : String → σ → Prop}
  {up : String → AssignmentStatus → σ → Prop} {recorded : String → σ → Prop}

/-- Placing a workload, step by step: a node is chosen and recorded, the
workload is run there, and what came of it is recorded. -/
structure Placing (step : Steps TaskSig σ) (permit : σ → TaskOp → Prop) (svc : Service) (app : App) (workload : Workload)
    (generation : String) (ready final : σ → Prop) (assigned down : String → σ → Prop)
    (up : String → AssignmentStatus → σ → Prop) (recorded : String → σ → Prop) : Prop where
  proper : Proper app.metadata workload
  waits : Lasting step permit ready
  ends : Lasting step permit final
  lives : ∀ node status, Lasting step permit (up node status)
  stays : ∀ node, Lasting step permit (recorded node)
  unplaced : ∀ {ctx err t}, ready t →
    Ensures step permit (fun _ => final) (recordDeployFailure ctx app workload "" generation err) t
  assigns : ∀ {ctx node t}, ready t →
    Ensures step permit (fun _ => assigned node) (ask (recording ctx app.metadata workload node .assigned generation none "")) t
  refused : ∀ {node t}, node ≠ svc.localNode → assigned node t → down node t
  sends : ∀ {ctx node t}, node ≠ svc.localNode → assigned node t →
    Ensures step permit (fun result t => match result with
      | .ok reply => up node (reply.status.getD (.other "dispatched")) t
      | .error _ => down node t) (ask (.dispatchWorkload ctx node app.metadata workload)) t
  runs : ∀ {ctx t}, assigned svc.localNode t →
    Ensures step permit (fun result t => match result with
      | .ok ran => up svc.localNode ran.status t
      | .error _ => down svc.localNode t) (runLocalWorkload ctx app.metadata workload svc.localNode) t
  fails : ∀ {ctx node err t}, down node t →
    Ensures step permit (fun _ => final) (recordDeployFailure ctx app workload node generation err) t
  records : ∀ {ctx node status address t}, up node status t →
    Ensures step permit (fun _ => recorded node)
      (ask (recording ctx app.metadata workload node status generation none address)) t
  away : ∀ {node t}, node ≠ svc.localNode → recorded node t → final t
  unwatched : ∀ {t}, workloadHasBackgroundHealth workload = false → recorded svc.localNode t → final t
  watches : ∀ {address t}, workloadHasBackgroundHealth workload = true → recorded svc.localNode t →
    Ensures step permit (fun _ => final)
      (ask (.registerHealthMonitor (newWorkloadHealthTarget app workload svc.localNode generation address))) t

theorem startLocalWorkloadHealthMonitor_walk {address : String} (proper : Proper app.metadata workload)
    (unwatched : workloadHasBackgroundHealth workload = false → after s)
    (watches : workloadHasBackgroundHealth workload = true → Ensures step permit (fun _ => after)
      (ask (.registerHealthMonitor (newWorkloadHealthTarget app workload svc.localNode generation address))) s) :
    Ensures step permit (fun _ => after)
      (startLocalWorkloadHealthMonitor svc app workload svc.localNode generation address) s := by
  have key : (newWorkloadHealthTarget app workload svc.localNode generation address).key ≠ "" := proper.key
  simp only [startLocalWorkloadHealthMonitor]
  cases background : workloadHasBackgroundHealth workload with
  | false =>
    rw [if_pos (by simp)]
    exact unwatched background
  | true =>
    rw [if_neg (by simp [svc.trimmed, key])]
    exact (watches background).bind fun _ _ done => done

theorem Placing.walk
    (placing : Placing step permit svc app workload generation ready final assigned down up recorded) (start : ready s) :
    Ensures step permit (fun _ => final) (placeWorkload svc ctx app workload generation) s := by
  rw [placeWorkload]
  refine placing.waits.then chooseWorkloadNode_reads.idle start ?_
  rintro (err | chosen) t start
  · exact (placing.unplaced start).bind fun _ _ done => done
  refine (applyWorkloadAssignment_walk placing.proper (placing.assigns start)).bind ?_
  intro _ t held
  by_cases remote : chosen ≠ svc.localNode
  · rw [if_pos remote, deployRemoteWorkload, ensures_bind]
    have failing {u : σ} {err : Failure} (failed : down chosen u) : Ensures step permit (fun _ => final) (do
        recordDeployFailure ctx app workload chosen generation err
        return (.error err : Check)) u := by
      exact (placing.fails failed).bind fun _ _ done => done
    unfold dispatchWorkload
    split
    · exact failing (placing.refused remote held)
    refine (placing.sends remote held).bind ?_
    rintro (err | reply) u ran
    · exact failing ran
    refine (placing.lives _ _).then (asks_perform rfl) ran fun _ u ran => ?_
    refine (recordWorkload_walk placing.proper (placing.stays chosen) (placing.records ran)).bind ?_
    exact fun _ _ done => placing.away remote done
  · rw [if_neg remote, deployLocalAssignedWorkload, ensures_bind]
    rw [ne_eq, not_not] at remote
    subst remote
    refine (placing.runs held).mono ?_
    rintro (err | ran) u after
    · exact (placing.fails after).bind fun _ _ done => done
    refine (recordWorkload_walk placing.proper (placing.stays _) (placing.records after)).bind ?_
    intro _ v noted
    refine (startLocalWorkloadHealthMonitor_walk placing.proper (placing.unwatched · noted) (placing.watches · noted)).bind ?_
    exact fun _ _ done => done

variable {begun : σ → Prop} {seen tries stuck : Assignment → σ → Prop}

/-- Deploying a workload: what its assignment allows, and the way to placing
it. -/
structure Deploying (step : Steps TaskSig σ) (permit : σ → TaskOp → Prop) (svc : Service) (app : App) (workload : Workload)
    (generation : String) (opts : DeployOptions) (begun ready final : σ → Prop) (seen tries stuck : Assignment → σ → Prop) :
    Prop where
  waits : Lasting step permit begun
  looks : ∀ a, Lasting step permit (seen a)
  holds : ∀ a, Lasting step permit (tries a)
  reads : ∀ {t}, begun t → Ensures step permit (fun found t => match found with
      | none => ready t
      | some a => seen a t) (ask (.getWorkloadAssignment (assignmentKey app.metadata workload.name))) t
  settled : ∀ {a t}, seen a t → final t
  fresh : ∀ {a t}, seen a t → workloadAssignmentConverged a generation = false →
    shouldSkipStoppedAssignment a generation opts = false → failedAssignmentSameGeneration a generation = false → tries a t
  retries : ∀ {a t}, seen a t → failedAssignmentSameGeneration a generation = true →
    restartPolicyForWorkload workload ≠ .never → Ensures step permit (fun allowed t => if allowed then tries a t else final t)
      (ask (.takeRestart (restartAttemptKey a.key generation) (workloadMaxRestarts workload))) t
  leaves : ∀ {a t}, tries a t → final t
  goes : ∀ {a t}, tries a t →
    sameGeneration a generation = true ∨ trimSpace a.node = "" ∨ assignmentMayHaveRuntime a.status = false → ready t
  stops : ∀ {ctx a t}, tries a t → sameGeneration a generation = false → trimSpace a.node ≠ "" →
    assignmentMayHaveRuntime a.status = true → Ensures step permit (fun result t => if result.isOk then ready t else stuck a t)
      (stopWorkloadOnNode svc ctx app.metadata workload (trimSpace a.node)) t
  fails : ∀ {ctx a err t}, stuck a t →
    Ensures step permit (fun _ => final) (recordDeployFailure ctx app workload (trimSpace a.node) generation err) t

theorem Deploying.handle (deploying : Deploying step permit svc app workload generation opts begun ready final seen tries stuck)
    {a : Assignment} (start : seen a s) :
    Ensures step permit (fun handled t => match handled with
        | .done _ => final t
        | .place => ready t) (handleExistingAssignment svc ctx app workload a generation opts) s := by
  unfold handleExistingAssignment
  split
  · exact deploying.settled start
  rename_i unconverged
  split
  · exact deploying.settled start
  rename_i unskipped
  rw [Bool.not_eq_true] at unconverged unskipped
  have retry : Ensures step permit (fun allowed t => if allowed then tries a t else final t)
      (canRetryFailedAssignment workload a generation) s := by
    unfold canRetryFailedAssignment
    cases failed : failedAssignmentSameGeneration a generation with
    | false => exact deploying.fresh start unconverged unskipped failed
    | true =>
      rw [if_neg (by simp), allowWorkloadRestart]
      split
      · exact deploying.settled start
      · rename_i policy
        exact deploying.retries start failed policy
  refine retry.bind ?_
  rintro (_ | _) t allowed
  · exact allowed
  refine (deploying.holds a).then waitRetryDelay_idle allowed ?_
  rintro (_ | _) t held
  · exact deploying.leaves held
  rw [ensures_bind]
  have stops : Ensures step permit (fun result t => if result.isOk then ready t else stuck a t)
      (stopPreviousGeneration svc ctx app.metadata workload a generation) t := by
    simp only [stopPreviousGeneration]
    split
    · rename_i same
      exact deploying.goes held (.inl same)
    rename_i other
    split
    · rename_i nothing
      exact deploying.goes held (.inr (nothing.imp_right (by simp)))
    · rename_i something
      rw [not_or] at something
      exact deploying.stops held (by simpa using other) something.1 (by simpa using something.2)
  refine stops.mono ?_
  rintro (err | _) u after
  · exact (deploying.fails after).bind fun _ _ done => done
  · exact after

theorem Deploying.walk (deploying : Deploying step permit svc app workload generation opts begun ready final seen tries stuck)
    (placing : Placing step permit svc app workload generation ready final assigned down up recorded) (start : begun s) :
    Ensures step permit (fun _ => final) (deployOneWorkload svc ctx app generation opts workload) s := by
  rw [deployOneWorkload]
  refine deploying.waits.then withRolloutProgressDeadline_reads.idle start fun ctx t start => ?_
  refine (deploying.reads start).bind ?_
  rintro (_ | a) t looked
  · exact placing.walk looked
  refine (deploying.handle looked).bind ?_
  rintro (result | _) t handled
  · exact handled
  · exact placing.walk handled

end Placing

section Moving

variable {svc : Service} {operation : Operation} {targetFor : Workload → Task (Except Failure String)}

theorem planWorkloadMoves_walk (lasting : Lasting step permit holds) (targets : ∀ w, Idle (targetFor w)) :
    ∀ {workloads : List Workload} {s : σ}, holds s → Ensures step permit
      (fun result t => holds t ∧ ∀ plan ∈ result.1, plan.workload ∈ workloads) (planWorkloadMoves svc app targetFor workloads) s
  | [], s, start => ⟨start, by simp⟩
  | w :: rest, s, start => by
    have normal : Idle (normalizeMoveTarget targetFor w) := by
      refine asks_bind (targets w) ?_
      rintro (err | target)
      · trivial
      · dsimp only
        split <;> trivial
    rw [planWorkloadMoves]
    refine lasting.then normal start ?_
    rintro (err | target) t start
    · exact ⟨start, by simp⟩
    refine lasting.then (workloadAssignment_idle app.metadata w.name) start fun assignment t start => ?_
    refine (planWorkloadMoves_walk lasting targets start).bind ?_
    rintro ⟨plans, result⟩ u ⟨held, members⟩
    dsimp only
    generalize (if trimSpace ((assignment.map Assignment.node).getD "") = "" then svc.localNode
      else trimSpace ((assignment.map Assignment.node).getD "")) = current
    split
    · exact ⟨held, fun plan member => List.mem_cons_of_mem _ (members plan member)⟩
    · refine ⟨held, fun plan member => ?_⟩
      rcases List.mem_cons.mp member with rfl | later
      · exact List.mem_cons_self
      · exact List.mem_cons_of_mem _ (members plan later)

theorem startMovePlans_walk : ∀ {plans : List PlannedWorkloadMove} {s : σ},
    (∀ plan ∈ plans, ∀ t, holds t → Ensures step permit (fun _ => holds) (startMovePlan svc ctx app generation plan) t) →
      holds s → Ensures step permit (fun _ => holds) (startMovePlans svc ctx app generation plans) s
  | [], _, _, start => start
  | plan :: rest, s, starts, start => by
    refine (starts plan List.mem_cons_self s start).bind ?_
    rintro (err | _) t held
    · exact held
    refine (startMovePlans_walk (fun plan member => starts plan (List.mem_cons_of_mem _ member)) held).bind ?_
    exact fun _ _ held => held

theorem moveAppWorkloads_walk {workloads : List Workload} (lasting : Lasting step permit holds)
    (targets : ∀ w, Idle (targetFor w))
    (stops : ∀ plan : PlannedWorkloadMove, plan.workload ∈ workloads → ∀ t, holds t →
      Ensures step permit (fun _ => holds) (stopMovePlan svc ctx app operation (appGeneration app) plan) t)
    (starts : ∀ plan : PlannedWorkloadMove, plan.workload ∈ workloads → ∀ t, holds t →
      Ensures step permit (fun _ => holds) (startMovePlan svc ctx app (appGeneration app) plan) t)
    (start : holds s) :
    Ensures step permit (fun _ => holds) (moveAppWorkloads svc ctx app operation workloads targetFor) s := by
  refine (planWorkloadMoves_walk lasting targets start).bind ?_
  rintro ⟨plans, planned⟩ t ⟨start, members⟩
  cases planned with
  | error err => exact start
  | ok =>
    dsimp only
    split
    · exact start
    rw [ensures_bind]
    have stopped : Ensures step permit (fun _ => holds) (stopMovePlans svc ctx app operation (appGeneration app) plans) t := by
      refine ensures_eachUntil (fun rest t => holds t ∧ ∀ plan ∈ rest, plan.workload ∈ workloads) (fun _ held => held.1) ?_
        ⟨start, fun plan member => members plan (List.mem_reverse.mp member)⟩
      rintro plan rest t ⟨held, members⟩
      refine (stops plan (members plan List.mem_cons_self) t held).mono ?_
      rintro (err | _) u held
      · exact held
      · exact ⟨held, fun plan member => members plan (List.mem_cons_of_mem _ member)⟩
    refine stopped.mono ?_
    rintro (err | _) u held
    · exact held
    refine (startMovePlans_walk (fun plan member => starts plan (members plan member)) held).bind ?_
    rintro ⟨moved, started⟩ v held
    cases started <;> exact held

theorem selectedOperationWorkloads_sublist : ∀ (workloads : List Workload) (wanted : List String),
    (selectedOperationWorkloads workloads wanted).1.Sublist workloads
  | [], _ => List.Sublist.refl _
  | w :: rest, wanted => by
    rw [selectedOperationWorkloads]
    split
    · exact (selectedOperationWorkloads_sublist rest _).cons_cons w
    · exact (selectedOperationWorkloads_sublist rest wanted).cons w

theorem selectOperationWorkloads_sublist {svc : Service} {app : App} {names : List String} {selected : List Workload}
    (picked : selectOperationWorkloads svc app names = .ok selected) :
    ∃ ordered, app.workloadsInDependencyOrder svc.sorter = .ok ordered ∧ selected.Sublist ordered := by
  unfold selectOperationWorkloads at picked
  split at picked
  · cases picked
  rename_i ordered found
  refine ⟨ordered, found, ?_⟩
  dsimp only at picked
  split at picked
  · cases picked
    exact List.Sublist.refl _
  split at picked
  · cases picked
    exact selectedOperationWorkloads_sublist _ _
  · cases picked

theorem failedWorkloads_walk (lasting : Lasting step permit holds) : ∀ {workloads : List Workload} {s : σ}, holds s →
    Ensures step permit (fun failed t => holds t ∧ ∀ w ∈ failed, w ∈ workloads) (failedWorkloads metadata workloads) s
  | [], s, start => ⟨start, by simp⟩
  | w :: rest, s, start => by
    rw [failedWorkloads]
    refine lasting.then (workloadAssignment_idle metadata w.name) start fun assignment t start => ?_
    refine (failedWorkloads_walk lasting start).bind ?_
    rintro failed u ⟨held, members⟩
    split
    · refine ⟨held, fun v member => ?_⟩
      rcases List.mem_cons.mp member with rfl | later
      · exact List.mem_cons_self
      · exact List.mem_cons_of_mem _ (members v later)
    · exact ⟨held, fun v member => List.mem_cons_of_mem _ (members v member)⟩

theorem selectOperationWorkloads_subset {names : List String} {selected : List Workload}
    (picked : selectOperationWorkloads svc app names = .ok selected) : ∀ w ∈ selected, w ∈ app.workloads := by
  obtain ⟨ordered, sorted, sublist⟩ := selectOperationWorkloads_sublist picked
  intro w member
  exact (App.workloadsInDependencyOrder_ok sorted).1.mem_iff.mp (sublist.subset member)

/-- The operations that move the workloads of an app. -/
inductive MoveOp where
  | migrate (metadata : Metadata) (opts : AppOperationOptions)
  | failover (metadata : Metadata) (opts : AppOperationOptions)
  | rebalance (metadata : Metadata) (opts : AppOperationOptions)

def MoveOp.program (svc : Service) (ctx : Ctx) : MoveOp → Task OperationResult
  | .migrate metadata opts => submitMigrate svc ctx metadata opts
  | .failover metadata opts => submitFailover svc ctx metadata opts
  | .rebalance metadata opts => submitRebalance svc ctx metadata opts

theorem MoveOp.walk {move : MoveOp} (good : App → Prop) (lasting : Lasting step permit holds)
    (found : ∀ {metadata app u}, step s (.getDesiredDeployApp metadata) (some app) u → good app)
    (moves : ∀ {operation app workloads} {targetFor : Workload → Task (Except Failure String)} {t}, good app →
      (∀ w ∈ workloads, w ∈ app.workloads) → (∀ w, Idle (targetFor w)) → holds t →
        Ensures step permit (fun _ => holds) (moveAppWorkloads svc ctx app operation workloads targetFor) t)
    (start : holds s) : Ensures step permit (fun _ => holds) (move.program svc ctx) s := by
  have app (metadata : Metadata) : Ensures step permit
      (fun found u => holds u ∧ ∀ app, found = .ok app → good app) (operationApp metadata) s := by
    simp only [operationApp]
    split
    · exact ⟨start, nofun⟩
    rw [ensures_bind]
    obtain ⟨permitted, kept⟩ := lasting s (.getDesiredDeployApp (normalizeOperationMetadata metadata)) start rfl
    refine ⟨permitted, ?_⟩
    rintro (_ | app) u taken
    · exact ⟨kept none u taken, nofun⟩
    · exact ⟨kept (some app) u taken, by rintro _ ⟨⟩; exact found taken⟩
  cases move with
  | migrate metadata opts =>
    simp only [program, submitMigrate]
    split
    · exact start
    refine (app metadata).bind ?_
    rintro (err | app) t ⟨start, right⟩
    · exact start
    dsimp only
    split
    · exact start
    rename_i picked
    exact moves (right app rfl) (selectOperationWorkloads_subset picked) (fun _ => trivial) start
  | failover metadata opts =>
    simp only [program, submitFailover]
    refine (app metadata).bind ?_
    rintro (err | app) t ⟨start, right⟩
    · exact start
    rw [ensures_bind]
    have chosen : Ensures step permit (fun found u => holds u ∧ ∀ workloads, found = .ok workloads →
        ∀ w ∈ workloads, w ∈ app.workloads) (failoverWorkloads svc app opts.workloads) t := by
      unfold failoverWorkloads
      split
      · exact ⟨start, nofun⟩
      rename_i picked
      split
      · exact ⟨start, by rintro _ ⟨⟩; exact selectOperationWorkloads_subset picked⟩
      refine (failedWorkloads_walk lasting start).bind ?_
      rintro failed u ⟨held, members⟩
      split
      · exact ⟨held, nofun⟩
      · refine ⟨held, ?_⟩
        rintro _ ⟨⟩ w member
        exact selectOperationWorkloads_subset picked w (members w member)
    refine chosen.mono ?_
    rintro (err | workloads) u ⟨held, members⟩
    · exact held
    refine moves (right app rfl) (members workloads rfl) (fun w => ?_) held
    split
    · trivial
    refine asks_bind assignmentNodeOrEmpty_reads.idle fun current => ?_
    refine asks_bind refreshLocal_idle fun _ => asks_then rfl fun nodes => ?_
    dsimp only
    split
    · trivial
    · exact chooseWorkloadNode_reads.idle
  | rebalance metadata opts =>
    simp only [program, submitRebalance]
    refine (app metadata).bind ?_
    rintro (err | app) t ⟨start, right⟩
    · exact start
    dsimp only
    split
    · exact start
    rename_i picked
    refine lasting.then refreshLocal_idle start fun _ u start => ?_
    exact moves (right app rfl) (selectOperationWorkloads_subset picked) (fun _ => chooseWorkloadNode_reads.idle) start

end Moving

section Passing

variable {svc : Service} {opts : DeployOptions}

theorem deployAppWorkloadsWithOptions_walk (lasting : Lasting step permit holds)
    (each : ∀ w ∈ app.workloads, app.validate svc.sorter = .ok () → ∀ t, holds t →
      Ensures step permit (fun _ => holds) (deployOneWorkload svc ctx app (appGeneration app) opts w) t)
    (start : holds s) : Ensures step permit (fun _ => holds) (deployAppWorkloadsWithOptions svc ctx app opts) s := by
  rw [deployAppWorkloadsWithOptions, ensures_bind]
  have prepared : Ensures step permit (fun found t => holds t ∧ ∀ workloads, found = .ok workloads →
      app.validate svc.sorter = .ok () ∧ ∀ w ∈ workloads, w ∈ app.workloads) (prepareDeploy svc ctx app) s := by
    unfold prepareDeploy
    split
    · exact ⟨start, nofun⟩
    rename_i valid
    refine lasting.then refreshLocal_idle start fun _ t start => ?_
    split
    · exact ⟨start, nofun⟩
    rename_i ordered
    refine ⟨start, ?_⟩
    rintro _ ⟨⟩
    exact ⟨valid, fun w member => (App.workloadsInDependencyOrder_ok ordered).1.mem_iff.mp member⟩
  refine prepared.mono ?_
  rintro (err | workloads) t ⟨start, known⟩
  · exact start
  obtain ⟨valid, members⟩ := known workloads rfl
  refine ensures_eachUntil (fun rest t => holds t ∧ ∀ w ∈ rest, w ∈ app.workloads) (fun _ held => held.1) ?_
    ⟨start, members⟩
  rintro w rest t ⟨held, members⟩
  refine (each w (members w List.mem_cons_self) valid t held).mono ?_
  rintro (err | _) u held
  · exact held
  · exact ⟨held, fun v member => members v (List.mem_cons_of_mem _ member)⟩

/-- A pass keeps what deploying any good workload keeps. -/
theorem reconcileAll_walk (good : App → Prop) (lasting : Lasting step permit holds)
    (found : ∀ {apps u}, step s .listDesiredDeployApps apps u → ∀ app ∈ apps, good app)
    (each : ∀ {app}, good app → ∀ w ∈ app.workloads, app.validate svc.sorter = .ok () → ∀ t, holds t →
      Ensures step permit (fun _ => holds) (deployOneWorkload svc ctx app (appGeneration app) {} w) t)
    (start : holds s) : Ensures step permit (fun _ => holds) (reconcileAll svc ctx) s := by
  rw [reconcileAll, ensures_bind]
  obtain ⟨permitted, kept⟩ := lasting s .listDesiredDeployApps start rfl
  refine ⟨permitted, ?_⟩
  intro apps t taken
  refine ensures_each (fun rest t => holds t ∧ ∀ app ∈ rest, good app) (fun _ held => held.1) ?_
    ⟨kept apps t taken, found taken⟩
  rintro app rest t ⟨held, known⟩
  refine (deployAppWorkloadsWithOptions_walk lasting (each (known app List.mem_cons_self)) held).bind ?_
  exact fun _ _ held => ⟨held, fun later member => known later (List.mem_cons_of_mem _ member)⟩

variable {begun final : σ → Prop} {seen granted started failed : Assignment → σ → Prop} {node : String}

/-- The assignment of a workload that runs on this node in this generation. -/
structure RunsHere (node generation : String) (a : Assignment) : Prop where
  here : trimSpace a.node = node
  running : a.status = .running
  current : trimSpace a.generation = "" ∨ trimSpace a.generation = trimSpace generation

/-- The scan of one workload: what runs here and has ended is brought back, if
another attempt is left. -/
structure Recovering (step : Steps TaskSig σ) (permit : σ → TaskOp → Prop) (app : App) (workload : Workload)
    (node generation : String) (begun final : σ → Prop) (seen granted started failed : Assignment → σ → Prop) : Prop where
  proper : Proper app.metadata workload
  looks : ∀ a, Lasting step permit (seen a)
  holds : ∀ a, Lasting step permit (granted a)
  reads : ∀ {t}, begun t → Ensures step permit (fun found t => final t ∧ ∀ a, found = some a → RunsHere node generation a →
      seen a t) (ask (.getWorkloadAssignment (assignmentKey app.metadata workload.name))) t
  settled : ∀ {a t}, seen a t → final t
  takes : ∀ {a t}, seen a t → restartPolicyForWorkload workload ≠ .never →
    Ensures step permit (fun allowed t => if allowed then granted a t else final t)
      (ask (.takeRestart (restartAttemptKey a.key generation) (workloadMaxRestarts workload))) t
  leaves : ∀ {a t}, granted a t → final t
  runs : ∀ {ctx a t}, granted a t → Ensures step permit (fun result t => match result with
      | .ok ran => ran.status = .running ∧ started a t
      | .error _ => failed a t) (runLocalWorkload ctx app.metadata workload (trimSpace a.node)) t
  records : ∀ {ctx a address t}, started a t → Ensures step permit (fun _ => final)
    (ask (recording ctx app.metadata workload (trimSpace a.node) .running generation none address)) t
  fails : ∀ {ctx a err t}, failed a t → Ensures step permit (fun _ => final)
    (ask (recording ctx app.metadata workload (trimSpace a.node) .failed generation (some err) a.address)) t

theorem Recovering.walk
    (recovering : Recovering step permit app workload node generation begun final seen granted started failed)
    (start : begun s) :
    Ensures step permit (fun _ => final) (recoverWorkloadFailure ctx app workload node generation) s := by
  have looked : Ensures step permit (fun found t => final t ∧ ∀ a, found = some a → seen a t)
      (localRunningAssignment app.metadata workload node generation) s := by
    refine (recovering.reads start).bind ?_
    rintro (_ | a) t ⟨held, known⟩
    · exact ⟨held, nofun⟩
    dsimp only
    split
    · exact ⟨held, nofun⟩
    rename_i here
    rw [not_or, not_not, not_not] at here
    split
    · exact ⟨held, nofun⟩
    rename_i current
    refine ⟨held, ?_⟩
    rintro _ ⟨⟩
    refine known a rfl ⟨here.1, here.2, ?_⟩
    by_cases blank : trimSpace a.generation = ""
    · exact .inl blank
    · exact .inr (not_not.mp fun other => current ⟨blank, other⟩)
  refine looked.bind ?_
  rintro (_ | a) t ⟨held, known⟩
  · exact held
  have seen := known a rfl
  dsimp only
  split
  · exact held
  rename_i policy
  refine (recovering.looks a).then (runtimeStatus_idle ctx workload.runtime app.metadata workload.name) seen ?_
  rintro (err | status) t seen
  · exact recovering.settled seen
  dsimp only
  split
  · exact recovering.settled seen
  rw [ensures_bind, allowWorkloadRestart, if_neg policy]
  refine (recovering.takes seen policy).mono ?_
  rintro (_ | _) t allowed
  · exact allowed
  refine (recovering.holds a).then waitWorkloadRestartDelay_idle allowed ?_
  rintro (_ | _) t allowed
  · exact recovering.leaves allowed
  rw [ensures_bind]
  have recovered : Ensures step permit (fun _ => final) (recoverLocalWorkload ctx app workload a generation) t := by
    refine (recovering.runs allowed).bind ?_
    rintro (err | ran) u after
    · exact (applyWorkloadAssignment_walk recovering.proper (recovering.fails after)).bind fun _ _ done => done
    · obtain ⟨status, after⟩ := after
      dsimp only
      rw [ensures_bind, status]
      exact (applyWorkloadAssignment_walk recovering.proper (recovering.records after)).mono fun _ _ done => done
  refine recovered.mono ?_
  rintro (_ | _) u done <;> exact done

/-- The recovery loop keeps what one recovery keeps. -/
theorem recoverLocalFailures_walk (good : App → Prop) (lasting : Lasting step permit holds)
    (found : ∀ {apps u}, step s .listDesiredDeployApps apps u → ∀ app ∈ apps, good app)
    (each : ∀ {app}, good app → ∀ w ∈ app.workloads, ∀ t, holds t →
      Ensures step permit (fun _ => holds) (recoverWorkloadFailure ctx app w svc.localNode (appGeneration app)) t)
    (start : holds s) : Ensures step permit (fun _ => holds) (recoverLocalFailures svc ctx) s := by
  have app {app : App} (known : good app) : ∀ {workloads : List Workload} {t : σ}, (∀ w ∈ workloads, w ∈ app.workloads) →
      holds t → Ensures step permit (fun _ => holds) (recoverAppLocalFailures ctx app svc.localNode workloads) t := by
    intro workloads
    induction workloads with
    | nil => exact fun _ held => held
    | cons w rest ih =>
      intro t members held
      refine (each known w (members w List.mem_cons_self) t held).bind ?_
      rintro ⟨here, goOn⟩ u held
      dsimp only
      split
      · exact held
      exact (ih (fun v member => members v (List.mem_cons_of_mem _ member)) held).bind fun _ _ held => held
  have apps : ∀ {apps : List App} {t : σ}, (∀ app ∈ apps, good app) → holds t →
      Ensures step permit (fun _ => holds) (recoverApps ctx svc.localNode apps) t := by
    intro apps
    induction apps with
    | nil => exact fun _ held => held
    | cons first rest ih =>
      intro t known held
      refine (app (known first List.mem_cons_self) (fun _ member => member) held).bind ?_
      rintro ⟨here, goOn⟩ u held
      dsimp only
      split
      · exact held
      exact (ih (fun later member => known later (List.mem_cons_of_mem _ member)) held).bind fun _ _ held => held
  rw [recoverLocalFailures, ensures_bind]
  obtain ⟨permitted, kept⟩ := lasting s .listDesiredDeployApps start rfl
  exact ⟨permitted, fun answer t taken => apps (found taken) (kept answer t taken)⟩

def TaskOp.concerns (svc : Service) (app : App) (workload : Workload) : TaskOp → Prop
  | .apply _ (.upsertWorkloadAssignment a) => ∃ node status generation error address,
      a = assignmentRecord app.metadata workload node status generation error address (artifactSummary workload.run)
  | .runtimeDeploy _ metadata w => metadata = app.metadata ∧ w = workload
  | .runtimeStop _ kind metadata name => kind = workload.runtime ∧ metadata = app.metadata ∧ name = workload.name
  | .dispatchWorkload _ node metadata w | .dispatchStop _ node metadata w =>
    metadata = app.metadata ∧ w = workload ∧ node ≠ svc.localNode
  | .registerHealthMonitor target => ∃ generation address,
      target = newWorkloadHealthTarget app workload svc.localNode generation address
  | .stopHealthMonitor _ | .takeRestart _ _ => True
  | _ => False

structure Acting (step : Steps TaskSig σ) (permit : σ → TaskOp → Prop) (svc : Service) (app : App) (workload : Workload)
    (holds : σ → Prop) : Prop where
  proper : Proper app.metadata workload
  lasts : Lasting step permit holds
  acts : ∀ (op : TaskOp) {t : σ}, op.concerns svc app workload → holds t → Ensures step permit (fun _ => holds) (ask op) t

namespace Acting

variable {holds : σ → Prop} (acting : Acting step permit svc app workload holds) (held : holds s)
include acting held

theorem records {node address : String} :
    Ensures step permit (fun _ => holds) (ask (recording ctx app.metadata workload node status generation error address)) s :=
  acting.acts _ ⟨_, _, _, _, _, rfl⟩ held

theorem stops {node : String} :
    Ensures step permit (fun _ => holds) (stopWorkloadOnNode svc ctx app.metadata workload node) s :=
  stopWorkloadOnNode_walk acting.proper (fun _ => acting.lasts) held (fun _ away =>
    acting.acts (.dispatchStop _ _ _ _) ⟨rfl, rfl, away⟩ held)
    (fun _ => acting.acts (.stopHealthMonitor _) trivial held) fun _ _ held => acting.acts (.runtimeStop _ _ _ _) ⟨rfl, rfl, rfl⟩ held

theorem runs {node : String} :
    Ensures step permit (fun result t => match result with
        | .ok ran => ran.status = .running ∧ holds t
        | .error _ => holds t) (runLocalWorkload ctx app.metadata workload node) s := by
  refine runLocalWorkload_walk acting.proper acting.lasts acting.lasts ?_
    (fun _ held => acting.acts (.stopHealthMonitor _) trivial held) fun _ held =>
      acting.acts (.runtimeStop _ _ _ _) ⟨rfl, rfl, rfl⟩ held
  refine (acting.acts (.runtimeDeploy _ _ _) ⟨rfl, rfl⟩ held).mono ?_
  intro result e held
  split <;> exact held

theorem recovers {node : String} :
    Ensures step permit (fun _ => holds) (recoverWorkloadFailure ctx app workload node generation) s := by
  have recovering : Recovering step permit app workload node generation holds holds (fun _ => holds) (fun _ => holds)
      (fun _ => holds) (fun _ => holds) :=
    { proper := acting.proper
      looks := fun _ => acting.lasts
      holds := fun _ => acting.lasts
      reads := fun held => (acting.lasts _ _ held rfl).mono fun _ _ held => ⟨held, fun _ _ _ => held⟩
      settled := fun held => held
      takes := fun held _ => (acting.acts (.takeRestart _ _) trivial held).mono fun allowed _ held => by
        cases allowed <;> exact held
      leaves := fun held => held
      runs := fun held => acting.runs held
      records := fun held => acting.records held
      fails := fun held => acting.records held }
  exact recovering.walk held

end Acting

/-- What is also kept when the revision before is filed again. -/
structure Keeping (step : Steps TaskSig σ) (permit : σ → TaskOp → Prop) (svc : Service) (app : App) (workload : Workload)
    (good : App → Prop) (holds : σ → Prop) : Prop extends Acting step permit svc app workload holds where
  found : ∀ {t revision u}, holds t → step t (.getPreviousDeployApp app.metadata) (some revision) u → good revision.app
  filed : ∀ {t ctx doc}, holds t → good doc → Ensures step permit (fun _ => holds) (ask (.apply ctx (.upsertDeployApp doc))) t

namespace Keeping

variable {good : App → Prop} {holds : σ → Prop} (keeping : Keeping step permit svc app workload good holds) (held : holds s)
include keeping held

theorem fails {node : String} {err : Failure} :
    Ensures step permit (fun _ => holds) (recordDeployFailure ctx app workload node generation err) s :=
  recordDeployFailure_walk good keeping.proper keeping.lasts keeping.lasts
    (keeping.acts (.stopHealthMonitor _) trivial held) (fun held taken _ => (keeping.lasts _ _ held rfl).2 _ _ taken)
    (fun _ held => keeping.records held) keeping.found keeping.filed

theorem deploys :
    Ensures step permit (fun _ => holds) (deployOneWorkload svc ctx app generation opts workload) s := by
  have deploying : Deploying step permit svc app workload generation opts holds holds holds
      (fun _ => holds) (fun _ => holds) (fun _ => holds) :=
    { waits := keeping.lasts
      looks := fun _ => keeping.lasts
      holds := fun _ => keeping.lasts
      reads := fun held => (keeping.lasts _ _ held rfl).mono fun found _ held => by cases found <;> exact held
      settled := fun held => held
      fresh := fun held _ _ _ => held
      retries := fun held _ _ => (keeping.acts (.takeRestart _ _) trivial held).mono fun allowed _ held => by
        cases allowed <;> exact held
      leaves := fun held => held
      goes := fun held _ => held
      stops := fun held _ _ _ => (keeping.stops held).mono fun result _ held => by split <;> exact held
      fails := fun held => keeping.fails held }
  have placing : Placing step permit svc app workload generation holds holds
      (fun _ => holds) (fun _ => holds) (fun _ _ => holds) (fun _ => holds) :=
    { proper := keeping.proper
      waits := keeping.lasts
      ends := keeping.lasts
      lives := fun _ _ => keeping.lasts
      stays := fun _ => keeping.lasts
      unplaced := fun held => keeping.fails held
      assigns := fun held => keeping.records held
      refused := fun _ held => held
      sends := fun away held => (keeping.acts (.dispatchWorkload _ _ _ _) ⟨rfl, rfl, away⟩ held).mono
        fun result _ held => by cases result <;> exact held
      runs := fun held => (keeping.runs held).mono fun result _ held => by
        cases result
        · exact held
        · exact held.2
      fails := fun held => keeping.fails held
      records := fun held => keeping.records held
      away := fun _ held => held
      unwatched := fun _ held => held
      watches := fun _ held => keeping.acts (.registerHealthMonitor _) ⟨_, _, rfl⟩ held }
  exact deploying.walk placing held

end Keeping

end Passing

end Walks

end Orch
