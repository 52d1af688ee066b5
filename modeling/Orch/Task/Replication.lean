import Orch.Task.Background
import Orch.Task.Progress
import Orch.Task.RecordSpecs

namespace Orch

open Effect

variable {generation : String} {target : HealthTarget}

section Outcomes

variable {R : Runtime} {self : String} {step : Steps TaskSig (View R)} {permit : View R → TaskOp → Prop} {ctx : Ctx}

section Refusals

variable (proposable : ∀ v command, permit v (.apply ctx command))
variable (refused : ∀ {v command result u}, step v (.apply ctx command) result u → u = v)
include proposable refused

theorem applyWorkloadAssignment_refused {metadata : Metadata} {workload : Workload} {node : String}
    {status : AssignmentStatus} {error : Option Failure} {address : String}
    {post : Unit → View R → Prop} {v : View R} (after : post () v) :
    Ensures step permit post (applyWorkloadAssignment ctx metadata workload node status generation error address) v := by
  rw [applyWorkloadAssignment, ensures_bind, raftApplyWorkloadAssignment]
  split
  · exact after
  split
  · exact after
  split
  · exact after
  refine ensures_ask (proposable _ _) ?_
  intro result u taken
  obtain rfl := refused taken
  exact after

theorem recordWorkload_refused
    (within : step.Within (View.LocalStep self)) {app : App} {workload : Workload} {node : String} {status : AssignmentStatus}
    {binding : BindingStatus} {error : Option Failure} {address : String}
    {post : Unit → View R → Prop} {v : View R} (after : post () v) :
    Ensures step permit post (recordWorkload ctx app workload node status binding generation error address) v := by
  rw [recordWorkload, ensures_bind]
  refine applyWorkloadAssignment_refused proposable refused ?_
  exact applyWorkloadVolumeBindings_ensures within proposable after

end Refusals

variable (within : step.Within (View.LocalStep self))
variable (free : ∀ v op, op.quiet = true → permit v op)
include within free

theorem failLocalWorkloadHealth_ensures {phase : String} {err : Failure}
    {post : Unit → View R → Prop} {v : View R} {assignment : Assignment}
    (stoppable : permit v (.runtimeStop ctx target.workload.runtime target.app.metadata target.workload.name))
    (found : v.fsm.getAssignment target.key = some assignment) (node : trimSpace assignment.node = target.nodeID)
    (generation : trimSpace assignment.generation = target.generation) (status : assignment.status = .running)
    (recorded : ∀ message u, u.fsm = v.fsm → Ensures step permit post
      (recordWorkload ctx target.app target.workload target.nodeID .failed .failed target.generation (some message)) u) :
    Ensures step permit post (failLocalWorkloadHealth ctx target phase err) v := by
  rw [failLocalWorkloadHealth, ensures_bind]
  refine ensures_ask stoppable ?_
  intro result u taken
  obtain ⟨state, -, rfl⟩ := within taken
  rw [ensures_bind]
  refine deleteRecord_ensures within free ?_
  rw [ensures_bind, healthAssignmentStillCurrent, ensures_bind]
  refine ensures_ask_quiet within free rfl ?_
  intro answer taken
  obtain ⟨rfl, -⟩ := within taken
  have current : (v.setRuntime self state).fsm.getAssignment target.key = some assignment := found
  simp only [current, node, generation, status, ensures_pure, or_true, and_self, decide_true]
  exact recorded _ _ rfl

theorem recoverLocalWorkload_ensures {app : App} {workload : Workload} {assignment : Assignment}
    {post : Bool → View R → Prop} {v : View R} (startable : permit v (.runtimeDeploy ctx app.metadata workload))
    (stoppable : ∀ u, permit u (.runtimeStop ctx workload.runtime app.metadata workload.name))
    (failed : ∀ err u, u.fsm = v.fsm → Ensures step permit (fun _ => post false)
      (applyWorkloadAssignment ctx app.metadata workload (trimSpace assignment.node) .failed generation (some err)
        assignment.address) u)
    (restarted : ∀ address u, step v (.runtimeDeploy ctx app.metadata workload) (.ok ()) u →
      Ensures step permit (fun _ => post true)
        (applyWorkloadAssignment ctx app.metadata workload (trimSpace assignment.node) .running generation none address)
        u) :
    Ensures step permit post (recoverLocalWorkload ctx app workload assignment generation) v := by
  simp only [recoverLocalWorkload]
  rw [ensures_bind]
  refine runLocalWorkload_ensures within free startable stoppable ?failed ?ready ?unready
  case failed =>
    intro cause err u taken
    obtain ⟨state, -, rfl⟩ := within taken
    rw [ensures_bind]
    exact failed err _ rfl
  case unready =>
    intro probe address err result u t started _ ended
    obtain ⟨state, -, rfl⟩ := within started
    obtain ⟨last, -, rfl⟩ := within ended
    rw [ensures_bind]
    exact failed err _ rfl
  case ready =>
    intro address u taken
    rw [ensures_bind]
    exact restarted _ u taken

end Outcomes

/-- The assignment under this key says that the workload runs on this node
at this generation. -/
def Ledger.RunsAt (f : Ledger) (key node generation : String) : Prop :=
  ∃ assignment, f.getAssignment key = some assignment ∧ trimSpace assignment.node = node ∧
    trimSpace assignment.generation = generation ∧ assignment.status = .running

instance (f : Ledger) (key node generation : String) : Decidable (f.RunsAt key node generation) :=
  inferInstanceAs (Decidable (∃ assignment ∈ f.getAssignment key, trimSpace assignment.node = node ∧
    trimSpace assignment.generation = generation ∧ assignment.status = .running))

theorem View.record_not_runsAt {R : Runtime} {v : View R} {a : Assignment} {key node generation : String}
    (own : trimSpace key = a.key) (ended : a.status ≠ .running) : ¬ (v.record a).fsm.RunsAt key node generation := by
  rintro ⟨found, there, -, -, running⟩
  rw [View.record_getAssignment own, Option.some.injEq] at there
  exact ended (there ▸ running)

variable {op : TaskOp}

namespace World

variable {R : Runtime}

/-- The cluster while this node or another one leads. What the leader
proposes is accepted. -/
def settled (R : Runtime) (svc : Service) (leader : Option String) : Machine TaskSig (World R) :=
  (machine R svc).limited fun op answer after =>
    after.leader = leader && (leader ≠ some svc.localNode || op.accepted answer)

theorem apply_refused {svc : Service} {w u : World R} {ctx : Ctx} {command : Command} {result : Check}
    (taken : (machine R svc).Step w (.apply ctx command) result u) (follows : u.leader ≠ some svc.localNode) :
    u.view = w.view := by
  obtain ⟨c, taken⟩ := step_iff.mp taken
  rw [perform_eq_performLocal rfl] at taken
  simp only [performLocal, applyCommand, Option.some.injEq] at taken
  by_cases leads : (w.drift c.toLocalChoice).leader = some svc.localNode
  · refine absurd ?_ follows
    rw [if_neg (not_not.mpr leads)] at taken
    split at taken
    · cases taken
      exact leads
    split at taken <;> cases taken
    · exact leads
    · split <;> exact leads
  · rw [if_pos leads] at taken
    cases taken
    rfl

theorem settled_leads {svc : Service} {w u : World R} {answer : op.Answer}
    (taken : (settled R svc (some svc.localNode)).Step w op answer u) :
    Assuming (View.LocalStep svc.localNode) TaskOp.accepted w.view op answer u.view := by
  obtain ⟨taken, allowed⟩ := Machine.limited_step.mp taken
  simp only [ne_eq, not_true_eq_false, decide_false, Bool.false_or, Bool.and_eq_true] at allowed
  exact ⟨view_localStep taken, allowed.2⟩

end World

def View.FollowerStep {R : Runtime} (self : String) : Steps TaskSig (View R) := fun v op answer u =>
  LocalStep self v op answer u ∧ ∀ ctx command, op = .apply ctx command → u = v

theorem TaskOp.dispatches_of_quiet (quiet : op.quiet = true) : op.dispatches = false := by
  cases op with
  | dispatchWorkload | dispatchStop => cases quiet
  | _ => rfl

namespace World

theorem settled_follows {R : Runtime} {svc : Service} {leader : Option String} (follows : leader ≠ some svc.localNode)
    {w u : World R} {answer : op.Answer} (taken : (settled R svc leader).Step w op answer u) :
    View.FollowerStep svc.localNode w.view op answer u.view := by
  obtain ⟨taken, allowed⟩ := Machine.limited_step.mp taken
  obtain ⟨same, -⟩ := Bool.and_eq_true_iff.mp allowed
  refine ⟨view_localStep taken, ?_⟩
  rintro ctx command rfl
  exact apply_refused taken (by rwa [of_decide_eq_true same])

theorem exists_failing {svc : Service} {leader : Option String} (follows : leader ≠ some svc.localNode)
    (w : World instanceRuntime) (op : TaskOp) (same : w.leader = leader) (here : op.dispatches = false) :
    ∃ answer u, Assuming (settled instanceRuntime svc leader).Step TaskOp.refused w op answer u ∧
      u.leader = leader := by
  obtain ⟨answer, u, taken, fails, kept⟩ := performLocal_failing svc.localNode w here
  have step : (machine instanceRuntime svc).Step w op answer u :=
    step_iff.mpr ⟨{ failing with }, by rw [perform_eq_performLocal here]; exact taken⟩
  refine ⟨answer, u, ⟨Machine.limited_step.mpr ⟨step, ?_⟩, fails⟩, kept.trans same⟩
  simp [kept.trans same, follows]

end World

section Replicated

variable {svc : Service} {ctx : Ctx} {app : App} {workload : Workload} {assignment : Assignment}
variable {w : World instanceRuntime}

/-- After a probe failed, the replicated assignment no longer says that the
workload runs. -/
def HealthFailureReplicated (svc : Service) (ctx : Ctx) (target : HealthTarget) (w : World instanceRuntime) : Prop :=
  ∀ phase err t,
    Finishes (World.settled instanceRuntime svc w.leader).Step (failLocalWorkloadHealth ctx target phase err) w () t →
      ¬ t.fsm.RunsAt target.key target.nodeID target.generation

/-- After a restart failed, the replicated assignment no longer says that the
workload runs. -/
def RecoveryFailureReplicated (svc : Service) (ctx : Ctx) (app : App) (workload : Workload) (assignment : Assignment)
    (generation : String) (w : World instanceRuntime) : Prop :=
  ∀ t,
    Finishes (World.settled instanceRuntime svc w.leader).Step
      (recoverLocalWorkload ctx app workload assignment generation) w false t →
      ¬ t.fsm.RunsAt (assignmentKey app.metadata workload.name) (trimSpace assignment.node)
        (trimSpace assignment.generation)

theorem healthFailure_replicated (named : trimSpace target.app.metadata.name ≠ "")
    (present : trimSpace target.workload.name ≠ "")
    (key : target.key = assignmentKey target.app.metadata target.workload.name)
    (runs : w.fsm.RunsAt target.key target.nodeID target.generation) (leads : w.leader = some svc.localNode) :
    HealthFailureReplicated svc ctx target w := by
  intro phase err t run
  rw [leads] at run
  obtain ⟨assignment, found, node, generation, status⟩ := runs
  have ensured : Ensures (Assuming (View.LocalStep svc.localNode) TaskOp.accepted) anything
      (fun _ u => ¬ u.fsm.RunsAt target.key target.nodeID target.generation)
      (failLocalWorkloadHealth ctx target phase err) w.view := by
    refine failLocalWorkloadHealth_ensures (fun taken => taken.1) (fun _ _ _ => trivial) trivial found node generation
      status ?_
    intro message u _
    refine recordWorkload_ensures (fun taken => taken.1) (fun _ _ => trivial)
      (fun taken => Check.isOk_iff.mp taken.2) named present ?_
    exact View.record_not_runsAt (by rw [key, trimSpace_assignmentKey]; rfl) (by simp [assignmentRecord])
  have lifted : Ensures (World.settled instanceRuntime svc (some svc.localNode)).Step anything
      (fun _ u => ¬ u.fsm.RunsAt target.key target.nodeID target.generation)
      (failLocalWorkloadHealth ctx target phase err) w := ensured.simulate World.settled_leads
  exact lifted.finishes run

theorem recoveryFailure_replicated (named : trimSpace app.metadata.name ≠ "")
    (present : trimSpace workload.name ≠ "") (leads : w.leader = some svc.localNode) :
    RecoveryFailureReplicated svc ctx app workload assignment generation w := by
  intro t run
  rw [leads] at run
  have ensured : Ensures (Assuming (View.LocalStep svc.localNode) TaskOp.accepted) anything
      (fun restarted u => restarted = false → ¬ u.fsm.RunsAt (assignmentKey app.metadata workload.name)
        (trimSpace assignment.node) (trimSpace assignment.generation))
      (recoverLocalWorkload ctx app workload assignment generation) w.view := by
    refine recoverLocalWorkload_ensures (fun taken => taken.1) (fun _ _ _ => trivial) trivial (fun _ => trivial) ?_ ?_
    · intro err u _
      refine applyWorkloadAssignment_ensures (fun taken => taken.1) (fun _ _ => trivial)
        (fun taken => Check.isOk_iff.mp taken.2) named present ?_
      intro _
      exact View.record_not_runsAt (by rw [trimSpace_assignmentKey]; rfl) (by simp [assignmentRecord])
    · intro address u _
      exact (Ensures.trivially _).mono (by simp)
  have lifted : Ensures (World.settled instanceRuntime svc (some svc.localNode)).Step anything
      (fun restarted u => restarted = false → ¬ u.fsm.RunsAt (assignmentKey app.metadata workload.name)
        (trimSpace assignment.node) (trimSpace assignment.generation))
      (recoverLocalWorkload ctx app workload assignment generation) w := ensured.simulate World.settled_leads
  exact lifted.finishes run rfl

/-- On a follower, what its refused proposals come to is what a run comes to. -/
theorem World.exists_unreplicated {α : Type} {p : Task α} {post : α → Scene → Prop} (follows : w.leader ≠ some svc.localNode)
    (ensured : Ensures (Assuming (View.FollowerStep svc.localNode) TaskOp.refused) (fun _ op => op.dispatches = false) post p
      w.view) :
    ∃ a t, Finishes (World.settled instanceRuntime svc w.leader).Step p w a t ∧ post a t.view := by
  have lifted : Ensures (Assuming (World.settled instanceRuntime svc w.leader).Step TaskOp.refused)
      (fun _ op => op.dispatches = false) (fun a u => post a u.view) p w :=
    ensured.simulate fun taken => ⟨World.settled_follows follows taken.1, taken.2⟩
  obtain ⟨a, t, run, ends, -⟩ := lifted.exists_finishes (fun u => u.leader = w.leader) (World.exists_failing follows) rfl
  exact ⟨a, t, run.mono fun taken => taken.1, ends⟩

theorem healthFailure_unreplicated
    (runs : w.fsm.RunsAt target.key target.nodeID target.generation) (follows : w.leader ≠ some svc.localNode) :
    ¬ HealthFailureReplicated svc ctx target w := by
  intro replicated
  obtain ⟨assignment, found, node, generation, status⟩ := runs
  have ensured : Ensures (Assuming (View.FollowerStep svc.localNode) TaskOp.refused) (fun _ op => op.dispatches = false)
      (fun _ u => u.fsm = w.view.fsm) (failLocalWorkloadHealth ctx target "liveness" (.errorf "probe failed"))
      w.view := by
    refine failLocalWorkloadHealth_ensures (fun taken => taken.1.1) (fun _ _ => TaskOp.dispatches_of_quiet) rfl found node
      generation status ?_
    intro message u same
    exact recordWorkload_refused (fun _ _ => rfl) (fun taken => taken.1.2 _ _ rfl) (fun taken => taken.1.1) same
  obtain ⟨_, t, run, same⟩ := World.exists_unreplicated follows ensured
  refine replicated _ _ t run ?_
  have kept : t.fsm.toLedger = w.fsm.toLedger := same
  rw [kept]
  exact ⟨assignment, found, node, generation, status⟩

theorem recoveryFailure_unreplicated
    (found : w.fsm.getAssignment (assignmentKey app.metadata workload.name) = some assignment)
    (status : assignment.status = .running) (follows : w.leader ≠ some svc.localNode) :
    ¬ RecoveryFailureReplicated svc ctx app workload assignment generation w := by
  intro replicated
  have ensured : Ensures (Assuming (View.FollowerStep svc.localNode) TaskOp.refused)
      (fun _ op => op.dispatches = false) (fun restarted u => restarted = false ∧ u.fsm = w.view.fsm)
      (recoverLocalWorkload ctx app workload assignment generation) w.view := by
    refine recoverLocalWorkload_ensures (fun taken => taken.1.1) (fun _ _ => TaskOp.dispatches_of_quiet) rfl
      (fun _ => rfl) ?_ ?_
    · intro err u same
      exact applyWorkloadAssignment_refused (fun _ _ => rfl) (fun taken => taken.1.2 _ _ rfl) ⟨rfl, same⟩
    · rintro address u ⟨-, fails⟩
      cases fails
  obtain ⟨_, t, run, rfl, same⟩ := World.exists_unreplicated follows ensured
  refine replicated t run ?_
  have kept : t.fsm.toLedger = w.fsm.toLedger := same
  rw [kept]
  exact ⟨assignment, found, rfl, rfl, status⟩

/-- Failures found on a node are replicated exactly when the node leads. -/
theorem failures_replicated_iff_leader {generation address restartGeneration : String}
    (named : trimSpace app.metadata.name ≠ "") (present : trimSpace workload.name ≠ "")
    (found : w.fsm.getAssignment (assignmentKey app.metadata workload.name) = some assignment)
    (own : trimSpace assignment.node = svc.localNode) (status : assignment.status = .running)
    (watched : trimSpace assignment.generation =
      (newWorkloadHealthTarget app workload svc.localNode generation address).generation) :
    (HealthFailureReplicated svc ctx (newWorkloadHealthTarget app workload svc.localNode generation address) w ↔
        w.leader = some svc.localNode) ∧
      (RecoveryFailureReplicated svc ctx app workload assignment restartGeneration w ↔
        w.leader = some svc.localNode) := by
  have runs : w.fsm.RunsAt (assignmentKey app.metadata workload.name) (trimSpace svc.localNode)
      (newWorkloadHealthTarget app workload svc.localNode generation address).generation :=
    ⟨assignment, found, by rw [own, svc.trimmed], watched, status⟩
  constructor
  · refine ⟨fun replicated => ?_, healthFailure_replicated named present rfl runs⟩
    by_contra follows
    exact healthFailure_unreplicated runs follows replicated
  · refine ⟨fun replicated => ?_, recoveryFailure_replicated named present⟩
    by_contra follows
    exact recoveryFailure_unreplicated found status follows replicated

end Replicated

def sampleAssignment : Assignment :=
  assignmentRecord { name := "web" } (imageWorkload "api" "nginx") "a" .running "1" none "" "nginx"

def sampleTarget : HealthTarget :=
  newWorkloadHealthTarget (imageApp "web" "api" "nginx") (imageWorkload "api" "nginx") "a" "1" ""

def World.runningOn (leader : String) : World instanceRuntime where
  fsm := FsmState.update {} (.upsertWorkloadAssignment sampleAssignment)
  leader := some leader
  runtimes node kind id := node = "a" ∧ kind = .docker ∧ id = workloadId { name := "web" } "api"

theorem failures_replicated_iff_leader_sample :
    (HealthFailureReplicated sampleService {} sampleTarget (.runningOn "a") ↔ some "a" = some "a") ∧
      (RecoveryFailureReplicated sampleService {} (imageApp "web" "api" "nginx") (imageWorkload "api" "nginx")
        sampleAssignment "1" (.runningOn "a") ↔ some "a" = some "a") := by
  have found : (World.runningOn "a").fsm.getAssignment
      (assignmentKey (imageApp "web" "api" "nginx").metadata (imageWorkload "api" "nginx").name) =
        some sampleAssignment := by decide +kernel
  have own : trimSpace sampleAssignment.node = sampleService.localNode := by decide +kernel
  have watched : trimSpace sampleAssignment.generation = sampleTarget.generation := by decide +kernel
  exact failures_replicated_iff_leader (by decide +kernel) (by decide +kernel) found own rfl watched

/-- Node a finds that its workload has failed while node b leads. -/
theorem follower_failure_unreplicated :
    ¬ ∀ (svc : Service) (target : HealthTarget) (w : World instanceRuntime), target.nodeID = svc.localNode →
      w.fsm.RunsAt target.key target.nodeID target.generation → HealthFailureReplicated svc {} target w := by
  intro replicated
  have played : (Program.play (World.settled instanceRuntime sampleService (some "b"))
      (List.replicate 4 { runtime := {} })
      (failLocalWorkloadHealth {} sampleTarget "liveness" (.errorf "connection refused")) (.runningOn "b")).map
      (fun last => decide (last.1.fsm.RunsAt sampleTarget.key sampleTarget.nodeID sampleTarget.generation)) =
        some true := by
    decide +kernel
  obtain ⟨result, t, run, passed⟩ := exists_finishes_of_play played
  exact replicated sampleService sampleTarget (.runningOn "b") (by decide +kernel) (by decide +kernel) _ _ t run
    (of_decide_eq_true passed)

end Orch
