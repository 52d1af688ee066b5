import Orch.Raft.Documents
import Orch.Task.Reads
import Orch.Task.StopSpecs

namespace Orch

open Effect

variable {R : Runtime}

section Tame

variable {metadata : Metadata} {app : App} {workload : Workload} {ctx : Ctx} {generation : String}

theorem Reads.tame {α : Type} {p : Task α} (reads : Reads p) : Tame p := by
  refine reads.mono ?_
  intro op looks
  cases op with
  | apply | sleep | runtimeDeploy | runtimeStop | dispatchWorkload | dispatchStop => cases looks
  | waitLocalLeader | pollReconcileSignal | waitReconcileTrigger => cases looks
  | _ => exact ⟨rfl, rfl⟩

theorem suppressAutoRollback_tame : Tame (suppressAutoRollback metadata generation) := by
  simp only [suppressAutoRollback]
  split
  · trivial
  · exact asks_perform ⟨rfl, rfl⟩

theorem markAutoRollbackAttempt_tame : Tame (markAutoRollbackAttempt metadata generation) := by
  simp only [markAutoRollbackAttempt]
  split
  · trivial
  · exact asks_perform ⟨rfl, rfl⟩

end Tame

/-- An automatic rollback makes the previous revision the desired document,
or leaves things as they are. -/
def View.RolledBack (v : View R) (metadata : Metadata) (u : View R) : Prop :=
  u = v ∨ ∃ revision, v.fsm.previousDeployApp metadata = some revision ∧
    u = { v with fsm := v.fsm.update (.upsertDeployApp revision.app) }

/-- What is left behind by a failure on a node. Nothing is recorded when the
workload has since been placed on another node. -/
def View.FailureAt (v : View R) (app : App) (workload : Workload) (node generation : String) (u : View R) : Prop :=
  (u = v ∧ ∃ assignment, v.fsm.getAssignment (assignmentKey app.metadata workload.name) = some assignment ∧
    assignmentConvergedOnDifferentNode assignment node generation = true) ∨
  ∃ err, (v.record (assignmentRecord app.metadata workload node .failed generation (some err) ""
    (artifactSummary workload.run))).RolledBack app.metadata u

def assignedRecord (app : App) (workload : Workload) (node generation : String) : Assignment :=
  assignmentRecord app.metadata workload node .assigned generation none "" (artifactSummary workload.run)

def Chooses (step : Steps TaskSig (View R)) (svc : Service) (workload : Workload) (v : View R) : Option String → Prop
  | some node => step v (.choosePlacement workload) (.ok node) v ∨
      ∃ err, step v (.choosePlacement workload) (.error err) v ∧ preferredConfiguredNode svc workload = some node
  | none => ∃ err, step v (.choosePlacement workload) (.error err) v ∧ preferredConfiguredNode svc workload = none

/-- The node that a workload would be placed on now, if there is one. -/
def placedNode (svc : Service) (f : Ledger) (workload : Workload) : Option String :=
  match choosePlacement workload f.nodeCapacity svc.localNode with
  | .ok node => some node
  | .error _ => preferredConfiguredNode svc workload

/-- Why a failed workload is not tried again: it must not be, or its restarts
are used up. -/
def RestartRefused (step : Steps TaskSig (View R)) (workload : Workload) (assignment : Assignment) (generation : String)
    (v : View R) : Prop :=
  restartPolicyForWorkload workload = .never ∨
    step v (.takeRestart (restartAttemptKey assignment.key generation) (workloadMaxRestarts workload)) false v

/-- A wait in this state has been cut short. -/
def WaitCut (step : Steps TaskSig (View R)) (v : View R) : Prop :=
  ∃ ctx duration cause, step v (.sleep ctx duration) (.error cause) v

def runChosen (svc : Service) (ctx : Ctx) (metadata : Metadata) (workload : Workload) (node : String) :
    Task (Except Failure WorkloadRunResult) :=
  if node ≠ svc.localNode then dispatchWorkload svc ctx metadata workload node
  else runLocalWorkload ctx metadata workload node

section Outcome

-- How stops and starts go is left open: what a stop of the workload on a node
-- may come to, and what running it on a node may come to.
variable (Stop : View R → String → Check → View R → Prop)
variable (Ran : View R → String → Except Failure WorkloadRunResult → View R → Prop)
variable (Choice : View R → Option String → Prop)
variable (app : App) (workload : Workload) (generation : String) (opts : DeployOptions)

/-- The states in which a workload gets placed: it was never assigned, or its
assignment needs no stop, or the stop has been made. -/
inductive Readied (v : View R) : View R → Prop
  | fresh (unassigned : v.fsm.getAssignment (assignmentKey app.metadata workload.name) = none) : Readied v v
  | again {assignment : Assignment} (found : v.fsm.getAssignment (assignmentKey app.metadata workload.name) = some assignment)
      (due : workloadAssignmentConverged assignment generation = false)
      (wanted : shouldSkipStoppedAssignment assignment generation opts = false)
      (retried : failedAssignmentSameGeneration assignment generation = true → restartPolicyForWorkload workload ≠ .never)
      (inert : sameGeneration assignment generation = true ∨ trimSpace assignment.node = "" ∨
        assignmentMayHaveRuntime assignment.status = false) : Readied v v
  | stopped {assignment : Assignment} {u : View R}
      (found : v.fsm.getAssignment (assignmentKey app.metadata workload.name) = some assignment)
      (older : sameGeneration assignment generation = false) (placed : trimSpace assignment.node ≠ "")
      (live : assignmentMayHaveRuntime assignment.status = true)
      (ended : Stop v (trimSpace assignment.node) (.ok ()) u) : Readied v u

inductive DeployOutcome (v : View R) : Check → View R → Prop
  | kept {assignment : Assignment} (found : v.fsm.getAssignment (assignmentKey app.metadata workload.name) = some assignment)
      (idle : workloadAssignmentConverged assignment generation = true ∨
        shouldSkipStoppedAssignment assignment generation opts = true ∨
          failedAssignmentSameGeneration assignment generation = true) : DeployOutcome v (.ok ()) v
  | cancelled {assignment : Assignment} {err : Failure}
      (found : v.fsm.getAssignment (assignmentKey app.metadata workload.name) = some assignment)
      (waits : failedAssignmentSameGeneration assignment generation = true) : DeployOutcome v (.error err) v
  | unstopped {assignment : Assignment} {cause : Failure} {u t : View R}
      (found : v.fsm.getAssignment (assignmentKey app.metadata workload.name) = some assignment)
      (older : sameGeneration assignment generation = false) (placed : trimSpace assignment.node ≠ "")
      (live : assignmentMayHaveRuntime assignment.status = true)
      (still : Stop v (trimSpace assignment.node) (.error cause) u)
      (recorded : u.FailureAt app workload (trimSpace assignment.node) generation t) : DeployOutcome v (.error cause) t
  | unplaced {err : Failure} {u t : View R} (readied : Readied Stop app workload generation opts v u)
      (nowhere : Choice u none) (recorded : u.FailureAt app workload "" generation t) : DeployOutcome v (.error err) t
  | failed {cause : Failure} {node : String} {u t last : View R}
      (readied : Readied Stop app workload generation opts v u) (chosen : Choice u (some node))
      (ran : Ran (u.record (assignedRecord app workload node generation)) node (.error cause) t)
      (recorded : t.FailureAt app workload node generation last) : DeployOutcome v (.error cause) last
  | started {result : WorkloadRunResult} {node : String} {u t : View R}
      (readied : Readied Stop app workload generation opts v u) (chosen : Choice u (some node))
      (ran : Ran (u.record (assignedRecord app workload node generation)) node (.ok result) t) :
      DeployOutcome v (.ok ()) (t.record (assignmentRecord app.metadata workload node result.status generation none
        result.address (artifactSummary workload.run)))

theorem DeployOutcome.keeps {Stop : View R → String → Check → View R → Prop}
    {Ran : View R → String → Except Failure WorkloadRunResult → View R → Prop} {Choice : View R → Option String → Prop}
    {app : App} {workload : Workload} {generation : String} {opts : DeployOptions} {v u : View R} {result : Check}
    (inv : View R → Prop) (outcome : DeployOutcome Stop Ran Choice app workload generation opts v result u)
    (stop : ∀ {v node result u}, Stop v node result u → inv v → inv u)
    (run : ∀ {v node result u}, Ran v node result u → inv v → inv u)
    (recorded : ∀ {v} node status error address, inv v → inv (v.record (assignmentRecord app.metadata workload node status
      generation error address (artifactSummary workload.run))))
    (rolled : ∀ {v revision}, v.fsm.previousDeployApp app.metadata = some revision → inv v →
      inv { v with fsm := v.fsm.update (.upsertDeployApp revision.app) })
    (start : inv v) : inv u := by
  have failure {v u : View R} {node : String} (failed : v.FailureAt app workload node generation u) (held : inv v) :
      inv u := by
    rcases failed with ⟨rfl, -⟩ | ⟨err, rfl | ⟨revision, previous, rfl⟩⟩
    · exact held
    · exact recorded node .failed (some err) "" held
    · exact rolled previous (recorded node .failed (some err) "" held)
  have ready {u : View R} (readied : Readied Stop app workload generation opts v u) : inv u := by
    cases readied with
    | fresh | again => exact start
    | stopped _ _ _ _ ended => exact stop ended start
  cases outcome with
  | kept | cancelled => exact start
  | unstopped _ _ _ _ still left => exact failure left (stop still start)
  | unplaced readied _ left => exact failure left (ready readied)
  | failed readied _ ran left => exact failure left (run ran (recorded _ .assigned none "" (ready readied)))
  | @started result node u t readied _ ran =>
    exact recorded node result.status none result.address (run ran (recorded node .assigned none "" (ready readied)))

end Outcome

variable {node : String}

section Deploys

variable {svc : Service} {step : Steps TaskSig (View R)} {permit : View R → TaskOp → Prop}
variable (within : ∀ {v op answer u}, step v op answer u → View.LocalStep svc.localNode v op answer u)
variable (free : ∀ v op, op.quiet = true → permit v op)
variable (proposable : ∀ v ctx command, permit v (.apply ctx command))
variable (accepts : Accepting step)
include within free

variable {workload : Workload} {generation : String}

theorem autoRollbackRevision_ensures {metadata : Metadata} {post : Option DeployAppRevision → View R → Prop}
    {v : View R} (none : post none v)
    (revised : ∀ revision, v.fsm.previousDeployApp metadata = some revision → post (some revision) v) :
    Ensures step permit post (autoRollbackRevision metadata workload generation) v := by
  simp only [autoRollbackRevision]
  rw [ensures_bind]
  refine Tame.ensures within free autoRollbackConfigured_reads.tame ?_
  rintro (_ | _)
  · exact none
  rw [ensures_bind]
  refine Tame.ensures within free autoRollbackDesiredGenerationCurrent_reads.tame ?_
  rintro (_ | _)
  · exact none
  rw [ensures_bind]
  refine ensures_ask_quiet within free rfl ?_
  intro found taken
  obtain ⟨found, -⟩ := within taken
  subst found
  cases previous : v.fsm.previousDeployApp metadata with
  | none => exact none
  | some revision =>
    dsimp only
    split
    · exact none
    rw [ensures_bind]
    refine Tame.ensures within free markAutoRollbackAttempt_tame ?_
    rintro (_ | _)
    · exact none
    · exact revised revision previous

include proposable accepts

variable {post : Unit → View R → Prop}

theorem maybeAutoRollbackDeployFailure_ensures {metadata : Metadata} {v : View R}
    (after : ∀ u, v.RolledBack metadata u → post () u) :
    Ensures step permit post (maybeAutoRollbackDeployFailure metadata workload generation) v := by
  rw [maybeAutoRollbackDeployFailure, ensures_bind]
  refine autoRollbackRevision_ensures within free ?_ ?_
  · exact after v (.inl rfl)
  intro revision previous
  rw [ensures_bind]
  refine ensures_ask_quiet within free rfl fun now _ => ?_
  rw [ensures_bind]
  refine Tame.ensures within free preflightDeploy_reads.tame ?_
  rintro (err | _)
  · exact after v (.inl rfl)
  rw [ensures_bind]
  refine Tame.ensures within free suppressAutoRollback_tame fun _ => ?_
  refine ⟨proposable _ _ _, ?_⟩
  intro result u taken
  have accepted := accepts taken
  rcases within taken with ⟨-, rfl⟩ | ⟨bad, -⟩
  · exact after _ (.inr ⟨revision, previous, rfl⟩)
  · exact absurd accepted bad

variable {app : App}

/-- A failure is recorded, but over no record that runs elsewhere. -/
theorem recordDeployFailure_ensures {ctx : Ctx} {err : Failure} {v : View R}
    (named : trimSpace app.metadata.name ≠ "") (present : trimSpace workload.name ≠ "")
    (after : ∀ u, v.FailureAt app workload node generation u → post () u) :
    Ensures step permit post (recordDeployFailure ctx app workload node generation err) v := by
  have recorded : Ensures step permit post (do
      recordWorkload ctx app workload node .failed .failed generation (some err)
      maybeAutoRollbackDeployFailure app.metadata workload generation) v := by
    rw [ensures_bind]
    refine recordWorkload_ensures within (proposable · ctx ·) accepts named present ?_
    refine maybeAutoRollbackDeployFailure_ensures within free proposable accepts ?_
    intro u back
    exact after u (.inr ⟨err, back⟩)
  rw [recordDeployFailure, ensures_bind]
  refine stopWorkloadHealthMonitor_ensures within free ?_
  rw [ensures_bind, skipStaleDeployFailure, ensures_bind]
  refine workloadAssignment_ensures within free ?_
  split
  · exact recorded
  · rename_i assignment found
    rw [ensures_pure]
    split
    · rename_i elsewhere
      exact after v (.inl ⟨rfl, assignment, found, elsewhere⟩)
    · exact recorded

omit proposable accepts in
theorem chooseWorkloadNode_ensures {post : Except Failure String → View R → Prop} {v : View R}
    (nowhere : ∀ err, Chooses step svc workload v none → post (.error err) v)
    (chosen : ∀ node, Chooses step svc workload v (some node) → post (.ok node) v) :
    Ensures step permit post (chooseWorkloadNode svc workload) v := by
  rw [chooseWorkloadNode, ensures_bind]
  refine ensures_ask_quiet within free rfl ?_
  rintro (err | node) taken
  · cases preferred : preferredConfiguredNode svc workload with
    | none => exact nowhere _ ⟨err, taken, preferred⟩
    | some fallback => exact chosen fallback (.inr ⟨err, taken, preferred⟩)
  · exact chosen node (.inl taken)

section Outcomes

variable {Stop : View R → String → Check → View R → Prop}
variable {Ran : View R → String → Except Failure WorkloadRunResult → View R → Prop}
variable {app : App} {workload : Workload} {generation : String} {opts : DeployOptions}
variable (named : trimSpace app.metadata.name ≠ "") (present : trimSpace workload.name ≠ "")
include named present

/-- No node is found, or the workload is assigned and the start on the node decides. -/
theorem placeWorkload_ensures {ctx : Ctx} {post : Check → View R → Prop} {v : View R}
    (runs : ∀ node, Chooses step svc workload v (some node) →
      Ensures step permit (Ran (v.record (assignedRecord app workload node generation)) node)
        (runChosen svc ctx app.metadata workload node) (v.record (assignedRecord app workload node generation)))
    (unplaced : ∀ err t, Chooses step svc workload v none → v.FailureAt app workload "" generation t → post (.error err) t)
    (failed : ∀ cause node t last, Chooses step svc workload v (some node) →
      Ran (v.record (assignedRecord app workload node generation)) node (.error cause) t →
        t.FailureAt app workload node generation last → post (.error cause) last)
    (started : ∀ result node t, Chooses step svc workload v (some node) →
      Ran (v.record (assignedRecord app workload node generation)) node (.ok result) t →
        post (.ok ()) (t.record (assignmentRecord app.metadata workload node result.status generation none
          result.address (artifactSummary workload.run)))) :
    Ensures step permit post (placeWorkload svc ctx app workload generation) v := by
  rw [placeWorkload, ensures_bind]
  refine chooseWorkloadNode_ensures within free ?_ ?_
  · intro err nowhere
    rw [ensures_bind]
    refine recordDeployFailure_ensures within free proposable accepts named present ?_
    intro t recorded
    exact unplaced _ t nowhere recorded
  intro node chosen
  have ran := runs node chosen
  rw [runChosen] at ran
  rw [ensures_bind]
  refine applyWorkloadAssignment_ensures within (proposable · ctx ·) accepts named present ?_
  split
  · rename_i remote
    rw [if_pos remote] at ran
    refine ran.bind ?_
    rintro (err | result) t ran
    · rw [ensures_bind]
      refine recordDeployFailure_ensures within free proposable accepts named present ?_
      intro last recorded
      exact failed err node t last chosen ran recorded
    · rw [ensures_bind]
      refine upsertRecord_ensures within free ?_
      rw [ensures_bind]
      refine recordWorkload_ensures within (proposable · ctx ·) accepts named present ?_
      exact started result node t chosen ran
  · rename_i here
    rw [if_neg here] at ran
    refine ran.bind ?_
    rintro (err | result) t ran
    · rw [ensures_bind]
      refine recordDeployFailure_ensures within free proposable accepts named present ?_
      intro last recorded
      exact failed err node t last chosen ran recorded
    · rw [ensures_bind]
      refine recordWorkload_ensures within (proposable · ctx ·) accepts named present ?_
      rw [ensures_bind]
      refine startLocalWorkloadHealthMonitor_ensures within free ?_
      exact started result node t chosen ran

variable (sleepable : ∀ v ctx duration, permit v (.sleep ctx duration))
include sleepable

variable {post : Bool → View R → Prop}

omit free proposable accepts named present in
theorem waitWorkloadRestartDelay_ensures {ctx : Ctx} {v : View R} (ready : post true v) (late : WaitCut step v → post false v) :
    Ensures step permit post (waitWorkloadRestartDelay ctx workload) v := by
  rw [waitWorkloadRestartDelay_eq]
  cases workload.restartPause with
  | none => exact ready
  | some pause =>
    refine ⟨sleepable _ _ _, ?_⟩
    rintro (err | _) u taken <;> obtain rfl := within taken
    · exact late ⟨_, _, err, taken⟩
    · exact ready

omit free proposable accepts named present in
theorem waitRetryDelay_ensures {ctx : Ctx} {assignment : Assignment} {v : View R} (ready : post true v)
    (late : failedAssignmentSameGeneration assignment generation = true → WaitCut step v → post false v) :
    Ensures step permit post (waitRetryDelay ctx workload assignment generation) v := by
  unfold waitRetryDelay
  split
  · rename_i failed
    exact waitWorkloadRestartDelay_ensures within sleepable ready (late failed)
  · exact ready

omit proposable accepts named present sleepable in
theorem canRetryFailedAssignment_ensures {assignment : Assignment} {v : View R}
    (granted : (failedAssignmentSameGeneration assignment generation = true → restartPolicyForWorkload workload ≠ .never) →
      post true v)
    (refused : failedAssignmentSameGeneration assignment generation = true →
      RestartRefused step workload assignment generation v → post false v) :
    Ensures step permit post (canRetryFailedAssignment workload assignment generation) v := by
  unfold canRetryFailedAssignment
  split
  · rename_i other
    exact granted fun failed => by simp [failed] at other
  rename_i failed
  rw [Bool.not_eq_true', Bool.not_eq_false] at failed
  unfold allowWorkloadRestart
  split
  · rename_i never
    exact refused failed (.inl never)
  rename_i policy
  refine ensures_ask_quiet within free rfl ?_
  rintro (_ | _) taken
  · exact refused failed (.inr taken)
  · exact granted fun _ => policy

variable (Stop Ran) {v : View R}
variable (stops : ∀ ctx assignment, v.fsm.getAssignment (assignmentKey app.metadata workload.name) = some assignment →
  sameGeneration assignment generation = false → trimSpace assignment.node ≠ "" →
    assignmentMayHaveRuntime assignment.status = true → Ensures step permit (Stop v (trimSpace assignment.node))
      (stopWorkloadOnNode svc ctx app.metadata workload (trimSpace assignment.node)) v)
variable (runs : ∀ ctx u node, Readied Stop app workload generation opts v u → Chooses step svc workload u (some node) →
  Ensures step permit (Ran (u.record (assignedRecord app workload node generation)) node)
    (runChosen svc ctx app.metadata workload node) (u.record (assignedRecord app workload node generation)))
include stops runs

/-- Deploying one workload, given what its stop and its run come to: one
obligation for each way it can end. -/
theorem deployOneWorkload_spec {ctx : Ctx} {post : Check → View R → Prop}
    (kept : ∀ a, step v (.getWorkloadAssignment (assignmentKey app.metadata workload.name)) (some a) v →
      workloadAssignmentConverged a generation = true ∨ shouldSkipStoppedAssignment a generation opts = true ∨
        failedAssignmentSameGeneration a generation = true ∧ RestartRefused step workload a generation v →
      post (.ok ()) v)
    (cancelled : ∀ a err, v.fsm.getAssignment (assignmentKey app.metadata workload.name) = some a →
      failedAssignmentSameGeneration a generation = true → WaitCut step v → post (.error err) v)
    (unstopped : ∀ a cause u t, v.fsm.getAssignment (assignmentKey app.metadata workload.name) = some a →
      sameGeneration a generation = false → trimSpace a.node ≠ "" → assignmentMayHaveRuntime a.status = true →
      Stop v (trimSpace a.node) (.error cause) u → u.FailureAt app workload (trimSpace a.node) generation t →
      post (.error cause) t)
    (unplaced : ∀ err u t, Readied Stop app workload generation opts v u → Chooses step svc workload u none →
      u.FailureAt app workload "" generation t → post (.error err) t)
    (failed : ∀ cause node u t last, Readied Stop app workload generation opts v u →
      Chooses step svc workload u (some node) →
      Ran (u.record (assignedRecord app workload node generation)) node (.error cause) t →
      t.FailureAt app workload node generation last → post (.error cause) last)
    (started : ∀ result node u t, Readied Stop app workload generation opts v u →
      Chooses step svc workload u (some node) →
      Ran (u.record (assignedRecord app workload node generation)) node (.ok result) t →
      post (.ok ()) (t.record (assignmentRecord app.metadata workload node result.status generation none
        result.address (artifactSummary workload.run)))) :
    Ensures step permit post (deployOneWorkload svc ctx app generation opts workload) v := by
  have places (ctx : Ctx) (u : View R) (readied : Readied Stop app workload generation opts v u) :
      Ensures step permit post (placeWorkload svc ctx app workload generation) u := by
    refine placeWorkload_ensures within free proposable accepts named present (runs ctx u · readied) ?_ ?_ ?_
    · exact fun err t nowhere recorded => unplaced err u t readied nowhere recorded
    · exact fun cause node t last chosen ran recorded => failed cause node u t last readied chosen ran recorded
    · exact fun result node t chosen ran => started result node u t readied chosen ran
  rw [deployOneWorkload, ensures_bind]
  refine Tame.ensures within free withRolloutProgressDeadline_reads.tame fun ctx => ?_
  rw [ensures_bind]
  refine ensures_ask_quiet within free rfl ?_
  rintro (_ | assignment) read
  · exact places ctx v (.fresh (within read).1.symm)
  have found : v.fsm.getAssignment (assignmentKey app.metadata workload.name) = some assignment := (within read).1.symm
  rw [ensures_bind, handleExistingAssignment]
  split
  · rename_i converged
    exact kept assignment read (.inl converged)
  rename_i due
  split
  · rename_i skipped
    exact kept assignment read (.inr (.inl skipped))
  rename_i wanted
  rw [ensures_bind]
  refine canRetryFailedAssignment_ensures within free (fun retried => ?_)
    fun failed refused => kept assignment read (.inr (.inr ⟨failed, refused⟩))
  rw [ensures_bind]
  refine waitRetryDelay_ensures within sleepable ?_ (cancelled assignment _ found)
  rw [ensures_bind]
  have again (inert) : Readied Stop app workload generation opts v v :=
    .again found (by simpa using due) (by simpa using wanted) retried inert
  simp only [stopPreviousGeneration]
  split
  · rename_i same
    exact places ctx v (again (.inl same))
  rename_i older
  split
  · rename_i inert
    exact places ctx v (again (.inr (by simpa using inert)))
  rename_i live
  simp only [not_or, Bool.not_eq_true', Bool.not_eq_false] at live older
  refine (stops ctx assignment found (by simpa using older) live.1 live.2).mono ?_
  rintro (err | _) u ended
  · rw [ensures_bind]
    refine recordDeployFailure_ensures within free proposable accepts named present ?_
    intro t recorded
    exact unstopped assignment err u t found (by simpa using older) live.1 live.2 ended recorded
  · exact places ctx u (.stopped found (by simpa using older) live.1 live.2 ended)

/-- What deploying a workload comes to, given what its stop and its start may come to. -/
theorem deployOneWorkload_ensures {ctx : Ctx} :
    Ensures step permit (DeployOutcome Stop Ran (Chooses step svc workload) app workload generation opts v)
      (deployOneWorkload svc ctx app generation opts workload) v := by
  refine deployOneWorkload_spec within free proposable accepts Stop Ran named present sleepable stops runs ?_ ?_ ?_ ?_ ?_ ?_
  · exact fun a read idle => .kept (within read).1.symm (idle.imp_right (Or.imp_right And.left))
  · exact fun a err found waits _ => .cancelled found waits
  · exact fun a cause u t found older placed live still recorded => .unstopped found older placed live still recorded
  · exact fun err u t readied nowhere recorded => .unplaced readied nowhere recorded
  · exact fun cause node u t last readied chosen ran recorded => .failed readied chosen ran recorded
  · exact fun result node u t readied chosen ran => .started readied chosen ran

end Outcomes

theorem refreshLocal_ensures {ctx : Ctx} {post : Check → View R → Prop} {v : View R}
    (after : ∀ result catalog, post result { v with fsm := { v.fsm with nodeCapacity := catalog } }) :
    Ensures step permit post (refreshLocal svc ctx) v := by
  rw [refreshLocal, ensures_bind]
  refine ensures_ask_quiet within free rfl ?_
  rintro (err | report) -
  · exact after _ v.fsm.nodeCapacity
  rw [ensures_bind]
  refine ensures_ask_quiet within free rfl ?_
  rintro (_ | _) -
  · exact after _ v.fsm.nodeCapacity
  refine ⟨proposable _ _ _, ?_⟩
  intro result u taken
  obtain rfl := accepts taken
  rcases within taken with ⟨-, rfl⟩ | ⟨bad, -⟩
  · simp only [Ledger.update, Ledger.applyNodeCapacity]
    split
    · exact after _ v.fsm.nodeCapacity
    · exact after _ _
  · exact absurd rfl bad

theorem deployAppWorkloadsWithOptions_ensures {ctx : Ctx} {opts : DeployOptions} {post : Check → View R → Prop}
    {v : View R} (refused : ∀ err, app.validate svc.sorter ≠ .ok () → post (.error err) v)
    (walks : ∀ catalog workloads, app.validate svc.sorter = .ok () →
      app.workloadsInDependencyOrder svc.sorter = .ok workloads →
      Ensures step permit post (deployOrderedWorkloads svc ctx app workloads (appGeneration app) opts)
        { v with fsm := { v.fsm with nodeCapacity := catalog } }) :
    Ensures step permit post (deployAppWorkloadsWithOptions svc ctx app opts) v := by
  rw [deployAppWorkloadsWithOptions, ensures_bind, prepareDeploy]
  cases valid : app.validate svc.sorter with
  | error err => exact refused _ (by simp [valid])
  | ok =>
    obtain ⟨workloads, ordered⟩ := App.validate_ordered valid
    rw [ensures_bind]
    refine refreshLocal_ensures within free proposable accepts ?_
    intro result catalog
    rw [ordered]
    exact walks catalog workloads valid ordered

/-- A submit is refused, or stores a document that is valid. -/
theorem submitDeploy_ensures {ctx : Ctx} {post : Check → View R → Prop} {v : View R}
    (refused : ∀ err, post (.error err) v)
    (stored : app.validate svc.sorter = .ok () → post (.ok ()) { v with fsm := v.fsm.update (.upsertDeployApp app) }) :
    Ensures step permit post (submitDeploy svc ctx app) v := by
  rw [submitDeploy]
  cases valid : app.validate svc.sorter with
  | error err => exact refused _
  | ok =>
    rw [ensures_bind]
    refine Tame.ensures within free preflightDeploy_reads.tame ?_
    rintro (err | _)
    · exact refused _
    refine ⟨proposable _ _ _, ?_⟩
    intro result u taken
    obtain rfl := accepts taken
    rcases within taken with ⟨-, rfl⟩ | ⟨bad, -⟩
    · exact stored valid
    · exact absurd rfl bad

omit proposable accepts in
/-- A pass keeps what deploying each of the documents keeps. -/
theorem reconcileAll_ensures {ctx : Ctx} {v : View R} (inv : List App → View R → Prop)
    (start : ∀ apps, apps.Perm v.fsm.listDeployApps → inv apps v) (done : ∀ u, inv [] u → post () u)
    (round : ∀ app rest u, inv (app :: rest) u → Ensures step permit (fun _ => inv rest) (deployAppWorkloads svc ctx app) u) :
    Ensures step permit post (reconcileAll svc ctx) v := by
  rw [reconcileAll, ensures_bind]
  refine ensures_ask_quiet within free rfl ?_
  intro apps taken
  obtain ⟨permuted, -⟩ := within taken
  refine ensures_each inv done ?_ (start apps permuted)
  intro app rest u before
  rw [ensures_bind]
  exact round app rest u before

end Deploys

/-- What running a workload on a node may come to there. There is no node
without a name. -/
def View.RunAt (v : Scene) (node : String) (kind : RuntimeKind) (id : WorkloadId)
    (result : Except Failure WorkloadRunResult) (u : Scene) : Prop :=
  ∃ value, u = v.setRunning node kind id value ∧ (node = "" → u = v) ∧
    ∀ ran, result = .ok ran → value = true ∧ ran.status = .running

theorem View.RunAt.fsm {v u : Scene} {kind : RuntimeKind} {id : WorkloadId}
    {result : Except Failure WorkloadRunResult} (run : v.RunAt node kind id result u) : u.fsm = v.fsm := by
  obtain ⟨value, rfl, -⟩ := run
  rfl

theorem Service.nodeURL_blank {svc : Service} (blank : trimSpace node = "") : svc.nodeURL node = none := by
  simp [Service.nodeURL, blank]

section Starts

variable {svc : Service} {step : Steps TaskSig Scene} {permit : Scene → TaskOp → Prop}
variable {ctx : Ctx} {eager : Prop}
variable (within : step.Within (View.Step svc))
variable (free : ∀ v op, op.quiet = true → permit v op)
variable (obeys : eager → ∀ {v op answer u}, step v op answer u → op.succeeded answer = true)
include within free obeys

/-- Running a workload on a node touches nothing but it there. Success means
that it runs, and success is certain when the calls succeed and the node is
this one or there is a dispatcher. -/
theorem runChosen_ensures {metadata : Metadata} {workload : Workload} {v : Scene}
    (deployable : node = svc.localNode → permit v (.runtimeDeploy ctx metadata workload))
    (stoppable : ∀ u, permit u (.runtimeStop ctx workload.runtime metadata workload.name))
    (dispatchable : node ≠ svc.localNode → svc.dispatcher = true → permit v (.dispatchWorkload ctx node metadata workload)) :
    Ensures step permit
      (fun result u => v.RunAt (trimSpace node) workload.runtime (workloadId metadata workload.name) result u ∧
        (eager → svc.dispatcher = true → ∃ ran, result = .ok ran))
      (runChosen svc ctx metadata workload node) v := by
  have near {v op answer u} (taken : step v op answer u) := (within taken).local
  unfold runChosen
  split
  · rename_i remote
    rw [dispatchWorkload]
    by_cases available : svc.dispatcher = true
    · rw [if_neg (by simp [available]), ensures_bind]
      refine ensures_ask (dispatchable remote available) ?_
      rintro (err | reply) u taken
      · obtain ⟨value, rfl, unreached, -⟩ := within taken
        exact ⟨⟨value, rfl, fun blank => unreached (Service.nodeURL_blank blank), by simp⟩,
          fun always _ => by cases obeys always taken⟩
      · obtain ⟨value, rfl, unreached, started⟩ := within taken
        obtain ⟨rfl, running⟩ := started reply rfl
        refine ⟨⟨true, rfl, fun blank => unreached (Service.nodeURL_blank blank), ?_⟩, fun _ _ => ⟨_, rfl⟩⟩
        rintro ran ⟨⟩
        simp [running]
    · rw [if_pos (by simpa using available)]
      exact ⟨⟨_, (View.setRunning_current ..).symm, fun _ => rfl, by simp⟩, fun _ there => absurd there available⟩
  · rename_i here
    rw [ne_eq, not_not] at here
    subst here
    rw [svc.trimmed]
    refine runLocalWorkload_ensures near free (deployable rfl) stoppable ?_ ?_ ?_
    · intro cause err u started
      obtain ⟨value, rfl, -, -⟩ := (near started).deploy
      exact ⟨⟨value, rfl, fun blank => absurd blank svc.named, by simp⟩, fun always _ => by cases obeys always started⟩
    · intro address u started
      obtain ⟨value, rfl, -, runs⟩ := (near started).deploy
      refine ⟨⟨value, rfl, fun blank => absurd blank svc.named, ?_⟩, fun _ _ => ⟨_, rfl⟩⟩
      rintro ran ⟨⟩
      exact ⟨runs rfl, rfl⟩
    · intro probe address err result u t started answered ended
      obtain ⟨_, rfl, -, -⟩ := (near started).deploy
      obtain ⟨value, rfl, -, -⟩ := (near ended).stop
      exact ⟨⟨value, View.setRunning_setRunning .., fun blank => absurd blank svc.named, by simp⟩,
        fun always _ => by cases obeys always answered⟩

end Starts

end Orch
