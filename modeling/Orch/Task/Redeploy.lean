import Orch.Task.Delete
import Orch.Task.DeploySpecs

namespace Orch

open Effect

variable {R : Runtime}

variable {ctx : Ctx} {v : Scene}

section Keeps

variable {svc : Service} {step : Steps TaskSig Scene}
variable (within : step.Within (View.Step svc))
variable (accepts : Accepting step)
include within accepts

theorem deployAppWorkloadsWithOptions_keeps (inv : Scene → Prop) {app : App} {opts : DeployOptions}
    (recorded : app.validate svc.sorter = .ok () → ∀ w ∈ app.workloads, ∀ {v} node status error address, inv v →
      inv (v.record (assignmentRecord app.metadata w node status (appGeneration app) error address
        (artifactSummary w.run))))
    (ran : ∀ w ∈ app.workloads, ∀ {v} node value, inv v →
      inv (v.setRunning node w.runtime (workloadId app.metadata w.name) value))
    (rolled : ∀ {v revision}, v.fsm.previousDeployApp app.metadata = some revision → inv v →
      inv { v with fsm := v.fsm.update (.upsertDeployApp revision.app) })
    (refreshed : ∀ {v} catalog, inv v → inv { v with fsm := { v.fsm with nodeCapacity := catalog } })
    (start : inv v) :
    Ensures step anything (fun _ u => inv u) (deployAppWorkloadsWithOptions svc ctx app opts) v := by
  have near {v op answer u} (taken : step v op answer u) := (within taken).local
  refine deployAppWorkloadsWithOptions_ensures near (fun _ _ _ => trivial) (fun _ _ _ => trivial) accepts
    (fun _ _ => start) ?_
  intro catalog workloads valid ordered
  obtain ⟨permuted, -, nonblank⟩ := App.workloadsInDependencyOrder_ok ordered
  refine ensures_eachUntil (fun rest u => inv u ∧ ∀ w ∈ rest, w ∈ app.workloads) (fun u held => held.1) ?_
    ⟨refreshed catalog start, fun w member => permuted.mem_iff.mp member⟩
  rintro w rest u ⟨held, members⟩
  have own : w ∈ app.workloads := members w (by simp)
  refine (deployOneWorkload_ensures near (fun _ _ _ => trivial) (fun _ _ _ => trivial) accepts
    (fun v node _ u => ∃ value, u = v.setRunning node w.runtime (workloadId app.metadata w.name) value)
    (fun v node _ u => ∃ value, u = v.setRunning (trimSpace node) w.runtime (workloadId app.metadata w.name) value)
    (App.validate_name valid) (nonblank w own) (fun _ _ _ => trivial) ?_ ?_).mono ?_
  · intro ctx assignment found older placed live
    refine (stopWorkloadOnNode_ensures within (fun _ _ _ => trivial) (fun never : False => never.elim)
      (fun _ _ _ _ => trivial) (trimSpace_trimSpace _) placed (fun _ _ => trivial)).mono ?_
    rintro result t ⟨⟨value, stopped, -⟩, -⟩
    exact ⟨value, stopped⟩
  · intro ctx t node readied chosen
    refine (runChosen_ensures within (fun _ _ _ => trivial) (fun never : False => never.elim)
      (fun _ => trivial) (fun _ => trivial) (fun _ _ => trivial)).mono ?_
    rintro result last ⟨⟨value, started, -⟩, -⟩
    exact ⟨value, started⟩
  · intro result t outcome
    have after : inv t := by
      refine outcome.keeps inv ?_ ?_ (recorded valid w own) rolled held
      · rintro v node result u ⟨value, rfl⟩ held
        exact ran w own node value held
      · rintro v node result u ⟨value, rfl⟩ held
        exact ran w own (trimSpace node) value held
    cases result with
    | error err => exact after
    | ok => exact ⟨after, fun x later => members x (List.mem_cons_of_mem _ later)⟩

theorem deployAppWorkloads_other {m : Metadata} {app : App} (clean : m.Clean)
    (named : trimSpace m.name ≠ "") (apart : deployAppMapKey app.metadata ≠ deployAppMapKey m) (keyed : v.fsm.Keyed) :
    Ensures step anything
      (fun _ u => u.fsm.Keyed ∧ u.fsm.recordsOf m = v.fsm.recordsOf m ∧
        ∀ node kind name, u.running node kind (workloadId m name) = v.running node kind (workloadId m name))
      (deployAppWorkloads svc ctx app) v := by
  refine deployAppWorkloadsWithOptions_keeps within accepts (fun u => u.fsm.Keyed ∧ u.fsm.recordsOf m = v.fsm.recordsOf m ∧
    ∀ node kind name, u.running node kind (workloadId m name) = v.running node kind (workloadId m name))
    ?_ ?_ ?_ ?_ ⟨keyed, rfl, fun _ _ _ => rfl⟩
  · rintro passes w member u node status error address ⟨keyed, same, running⟩
    have present := App.validate_present passes member
    exact ⟨View.record_holds keyed, (recordsOf_record_other clean named passes present apart).trans same, running⟩
  · rintro w member u node value ⟨keyed, same, running⟩
    refine ⟨keyed, same, fun n kind name => (View.setRunning_other ?_).trans (running n kind name)⟩
    rintro ⟨-, -, clash⟩
    simp only [workloadId, WorkloadId.mk.injEq] at clash
    exact apart (by rw [deployAppMapKey, deployAppMapKey, clash.1, clash.2.1])
  · rintro u revision previous ⟨keyed, same, running⟩
    have stored : (u.fsm.update (.upsertDeployApp revision.app)).Keyed := keyed.update
    exact ⟨stored, (Ledger.recordsOf_upsert_other (by rwa [keyed.previous previous])).trans same, running⟩
  · rintro u catalog ⟨keyed, same, running⟩
    exact ⟨⟨keyed.desired, keyed.revised⟩, same, running⟩

/-- A pass deploys one app after the other. Until its turn comes, the others
leave one of them as it was, and after that as its turn has left it. -/
theorem reconcileAll_turn {doc : App} (clean : doc.metadata.Clean) (named : trimSpace doc.metadata.name ≠ "")
    (keyed : v.fsm.Keyed) (desired : v.fsm.getDeployApp doc.metadata = some doc) (before after : Scene → Prop)
    (others : ∀ {u t}, t.fsm.recordsOf doc.metadata = u.fsm.recordsOf doc.metadata →
      (∀ node kind name, t.running node kind (workloadId doc.metadata name) = u.running node kind (workloadId doc.metadata name)) →
        (before u → before t) ∧ (after u → after t))
    (turn : ∀ u, u.fsm.Keyed → before u →
      Ensures step anything (fun _ t => t.fsm.Keyed ∧ after t) (deployAppWorkloads svc ctx doc) u)
    (start : before v) :
    Ensures step anything (fun _ u => u.fsm.Keyed ∧ after u) (reconcileAll svc ctx) v := by
  refine reconcileAll_ensures (fun taken => (within taken).local) (fun _ _ _ => trivial)
    (fun rest u => u.fsm.Keyed ∧ (rest.map fun app => deployAppMapKey app.metadata).Nodup ∧
      (∀ app ∈ rest, deployAppMapKey app.metadata = deployAppMapKey doc.metadata → app = doc) ∧
      if doc ∈ rest then before u else after u) ?_ ?_ ?_
  · intro apps permuted
    refine ⟨keyed, (permuted.map _).nodup_iff.mpr keyed.nodup, fun app member same => ?_, ?_⟩
    · exact Option.some.inj ((keyed.listed (permuted.mem_iff.mp member) same).symm.trans desired)
    · rwa [if_pos (permuted.mem_iff.mpr (Ledger.getDeployApp_listed desired))]
  · rintro u ⟨keyed, -, -, progress⟩
    exact ⟨keyed, progress⟩
  rintro app rest u ⟨keyed, distinct, unique, progress⟩
  rw [List.map_cons, List.nodup_cons] at distinct
  have later_unique : ∀ other ∈ rest, deployAppMapKey other.metadata = deployAppMapKey doc.metadata → other = doc :=
    fun other later => unique other (List.mem_cons_of_mem _ later)
  by_cases mine : deployAppMapKey app.metadata = deployAppMapKey doc.metadata
  · obtain rfl := unique app (by simp) mine
    rw [if_pos (by simp)] at progress
    refine (turn u keyed progress).mono ?_
    rintro result t ⟨keyed, turned⟩
    refine ⟨keyed, distinct.2, later_unique, ?_⟩
    rwa [if_neg fun later => distinct.1 (List.mem_map_of_mem later)]
  · refine (deployAppWorkloads_other within accepts clean named mine keyed).mono ?_
    rintro result t ⟨keyed, same, running⟩
    have elsewhere : doc ∈ app :: rest ↔ doc ∈ rest := by
      rw [List.mem_cons, or_iff_right]
      rintro rfl
      exact mine rfl
    simp only [elsewhere] at progress
    refine ⟨keyed, distinct.2, later_unique, ?_⟩
    by_cases coming : doc ∈ rest
    · rw [if_pos coming] at progress ⊢
      exact (others same running).1 progress
    · rw [if_neg coming] at progress ⊢
      exact (others same running).2 progress

end Keeps

/-- Every call and every placement succeeds, no wait is cut short and no restart
is refused. -/
def TaskOp.flawless (op : TaskOp) (answer : op.Answer) : Bool :=
  op.succeeded answer &&
    match op, answer with
    | .choosePlacement _, chosen => chosen.isOk
    | .sleep _ _, result => result.isOk
    | .takeRestart _ _, granted => granted
    | _, _ => true

theorem TaskOp.succeeded_of_flawless {op : TaskOp} {answer : op.Answer} (good : op.flawless answer = true) :
    op.succeeded answer = true := by
  simp only [flawless, Bool.and_eq_true] at good
  exact good.1

theorem TaskOp.flawless_apply {ctx : Ctx} {command : Command} {result : Check}
    (good : TaskOp.flawless (.apply ctx command) result = true) : result = .ok () :=
  Check.isOk_iff.mp (TaskOp.succeeded_of_flawless good)

/-- The workload has a running assignment at the generation of its document. -/
def RunningNow (f : Ledger) (doc : App) (x : Workload) : Prop :=
  ∃ a, f.getAssignment (assignmentKey doc.metadata x.name) = some a ∧ a.status = .running ∧
    sameGeneration a (appGeneration doc) = true

/-- A pass would not leave the workload as it is if it does not run: nobody has
stopped it at this generation, and it may be restarted after a failure. -/
def Resumable (f : Ledger) (doc : App) (opts : DeployOptions) (x : Workload) : Prop :=
  ∀ a, f.getAssignment (assignmentKey doc.metadata x.name) = some a → sameGeneration a (appGeneration doc) = true →
    (a.status = .stopped → opts.forceStopped = true) ∧ (a.status = .failed → restartPolicyForWorkload x ≠ .never)

section Redeployed

variable {svc : Service} {step : Steps TaskSig Scene}
variable (within : step.Within (View.Step svc))
variable (obeys : ∀ {v op answer u}, step v op answer u → op.flawless answer = true)
variable {new : App} (valid : new.validate svc.sorter = .ok ()) (available : svc.dispatcher = true)
include within obeys valid available

/-- Nothing fails, so the workload is either left as it is or started. -/
theorem deployOneWorkload_resumes {x : Workload} (member : x ∈ new.workloads) (keyed : v.fsm.Keyed) :
    Ensures step anything
      (fun result u => result = .ok () ∧ u.fsm.Keyed ∧
        (∀ name, trimSpace name ≠ x.key →
          (u.fsm.recordsOf new.metadata).assigned name = (v.fsm.recordsOf new.metadata).assigned name) ∧
        (RunningNow u.fsm new x ↔ Resumable v.fsm new {} x))
      (deployOneWorkload svc ctx new (appGeneration new) {} x) v := by
  have named := App.validate_name valid
  have present := App.validate_present valid member
  have near {v op answer u} (taken : step v op answer u) := (within taken).local
  refine deployOneWorkload_spec near (fun _ _ _ => trivial) (fun _ _ _ => trivial)
    (fun taken => TaskOp.flawless_apply (obeys taken)) (fun v _ result u => u.fsm = v.fsm ∧ result = .ok ())
    (fun v _ result u => u.fsm = v.fsm ∧ ∃ ran, result = .ok ran ∧ ran.status = .running)
    named present (fun _ _ _ => trivial) ?stops ?runs ?kept ?cancelled ?unstopped ?unplaced ?failed ?started
  case stops =>
    intro ctx assignment found older placed live
    refine (stopWorkloadOnNode_ensures within (fun _ _ _ => trivial)
      (fun (_ : True) {_ _ _ _} taken => TaskOp.stopped_of_succeeded (TaskOp.succeeded_of_flawless (obeys taken)))
      (fun _ _ _ _ => trivial) (trimSpace_trimSpace _) placed (fun _ _ => trivial)).mono ?_
    rintro result t ⟨stop, -, prompt⟩
    exact ⟨stop.fsm, prompt trivial fun _ => available⟩
  case runs =>
    intro ctx t node readied chosen
    refine (runChosen_ensures within (fun _ _ _ => trivial)
      (fun (_ : True) {_ _ _ _} taken => TaskOp.succeeded_of_flawless (obeys taken)) (fun _ => trivial) (fun _ => trivial)
      (fun _ _ => trivial)).mono ?_
    rintro result last ⟨run, prompt⟩
    obtain ⟨ran, rfl⟩ := prompt trivial available
    obtain ⟨value, rfl, -, started⟩ := run
    exact ⟨rfl, ran, rfl, (started ran rfl).2⟩
  case kept =>
    intro a read idle
    have found : v.fsm.getAssignment (assignmentKey new.metadata x.name) = some a := (near read).1.symm
    have down (other : a.status ≠ .running) : ¬ RunningNow v.fsm new x := by
      rintro ⟨b, again, running, -⟩
      cases found.symm.trans again
      exact other running
    refine ⟨rfl, keyed, fun _ _ => rfl, ?_⟩
    rcases idle with converged | skipped | ⟨failed, refused⟩
    · simp only [workloadAssignmentConverged, Bool.and_eq_true, decide_eq_true_eq] at converged
      refine iff_of_true ⟨a, found, converged.2, converged.1⟩ fun b other _ => ?_
      cases found.symm.trans other
      simp [converged.2]
    · simp only [shouldSkipStoppedAssignment, Bool.not_false, Bool.true_and, Bool.and_eq_true, decide_eq_true_eq] at skipped
      exact iff_of_false (down (by simp [skipped.2])) fun resumable => by
        cases (resumable a found skipped.1).1 skipped.2
    · simp only [failedAssignmentSameGeneration, Bool.and_eq_true, decide_eq_true_eq] at failed
      rcases refused with never | taken
      · exact iff_of_false (down (by simp [failed.2])) fun resumable => (resumable a found failed.1).2 failed.2 never
      · exact absurd (obeys taken) (by simp [TaskOp.flawless])
  case cancelled =>
    rintro a err found waits ⟨ctx, duration, cause, taken⟩
    exact absurd (obeys taken) (by simp [TaskOp.flawless, Except.isOk, Except.toBool])
  case unstopped =>
    rintro a cause u t found older placed live ⟨-, ⟨⟩⟩
  case unplaced =>
    rintro err u t readied ⟨cause, taken, -⟩
    exact absurd (obeys taken) (by simp [TaskOp.flawless, Except.isOk, Except.toBool])
  case failed =>
    rintro cause node u t last readied chosen ⟨-, _, ⟨⟩, -⟩
  case started =>
    rintro ran node u t readied chosen ⟨same, _, ⟨⟩, running⟩
    have before : u.fsm = v.fsm ∧ Resumable v.fsm new {} x := by
      cases readied with
      | fresh unassigned => exact ⟨rfl, fun b other => by cases unassigned.symm.trans other⟩
      | @again a found due wanted retried inert =>
        refine ⟨rfl, fun b other here => ?_⟩
        cases found.symm.trans other
        refine ⟨fun stopped => ?_, fun failed => retried (by simp [failedAssignmentSameGeneration, here, failed])⟩
        simp [shouldSkipStoppedAssignment, here, stopped] at wanted
      | @stopped a t found older placed live ended =>
        refine ⟨ended.1, fun b other here => ?_⟩
        cases found.symm.trans other
        simp [here] at older
    obtain ⟨unchanged, resumable⟩ := before
    rw [← unchanged] at keyed ⊢
    refine ⟨rfl, ?_, ?_, ?_⟩
    · refine View.record_holds ?_
      rw [same]
      exact View.record_holds keyed
    · intro name other
      rw [assigned_record named present, if_neg other, same, assignedRecord, assigned_record named present, if_neg other]
    · refine iff_of_true ⟨_, (assigned_record named present).trans (if_pos rfl), running, ?_⟩ (unchanged ▸ resumable)
      simp [sameGeneration, assignmentRecord]

theorem deployAppWorkloads_resumes (keyed : v.fsm.Keyed) :
    Ensures step anything
      (fun _ u => u.fsm.Keyed ∧ ∀ x ∈ new.workloads, RunningNow u.fsm new x ↔ Resumable v.fsm new {} x)
      (deployAppWorkloads svc ctx new) v := by
  refine deployAppWorkloadsWithOptions_ensures (fun taken => (within taken).local) (fun _ _ _ => trivial)
    (fun _ _ _ => trivial) (fun taken => TaskOp.flawless_apply (obeys taken)) (fun _ invalid => absurd valid invalid) ?_
  rintro catalog workloads - ordered
  obtain ⟨permuted, separate, -⟩ := App.workloadsInDependencyOrder_ok ordered
  have members {x : Workload} : x ∈ workloads ↔ x ∈ new.workloads := permuted.mem_iff
  have distinct : (workloads.map Workload.key).Nodup := (permuted.map _).nodup_iff.mpr separate
  -- The workloads to come are as they were, all others have had their turn.
  refine ensures_eachUntil (fun rest u => u.fsm.Keyed ∧ (rest.map Workload.key).Nodup ∧
    (∀ x ∈ rest, x ∈ new.workloads ∧
      (u.fsm.recordsOf new.metadata).assigned x.name = (v.fsm.recordsOf new.metadata).assigned x.name) ∧
    ∀ x ∈ new.workloads, x ∈ rest ∨ (RunningNow u.fsm new x ↔ Resumable v.fsm new {} x)) ?_ ?_
    ⟨⟨keyed.desired, keyed.revised⟩, distinct, fun x member => ⟨members.mp member, rfl⟩,
      fun x member => .inl (members.mpr member)⟩
  · rintro u ⟨keyed, -, -, resumed⟩
    exact ⟨keyed, fun x member => (resumed x member).resolve_left (by simp)⟩
  rintro x rest u ⟨keyed, distinct, waiting, resumed⟩
  rw [List.map_cons, List.nodup_cons] at distinct
  obtain ⟨member, same⟩ := waiting x (by simp)
  refine (deployOneWorkload_resumes within obeys valid available member keyed).mono ?_
  rintro result t ⟨rfl, keyed, others, here⟩
  refine ⟨keyed, distinct.2, ?_, ?_⟩
  · intro y later
    obtain ⟨inside, unchanged⟩ := waiting y (List.mem_cons_of_mem _ later)
    refine ⟨inside, (others y.name fun clash => ?_).trans unchanged⟩
    exact distinct.1 (clash ▸ List.mem_map_of_mem later)
  · intro y inside
    by_cases this : y.key = x.key
    · rw [List.inj_on_of_nodup_map separate inside member this]
      refine .inr (here.trans ?_)
      simp only [Resumable]
      rw [show u.fsm.getAssignment _ = v.fsm.getAssignment _ from same]
    · refine (resumed y inside).imp (fun coming => ?_) (Iff.trans ?_)
      · exact (List.mem_cons.mp coming).resolve_left fun own => this (own ▸ rfl)
      · simp only [RunningNow]
        rw [show t.fsm.getAssignment _ = u.fsm.getAssignment _ from others y.name this]

/-- The others leave the app as it is before its turn, and after it. -/
theorem reconcileAll_resumes (keyed : v.fsm.Keyed) (desired : (v.fsm.recordsOf new.metadata).desired = some new) :
    Ensures step anything
      (fun _ u => u.fsm.Keyed ∧ ∀ x ∈ new.workloads, RunningNow u.fsm new x ↔ Resumable v.fsm new {} x)
      (reconcileAll svc ctx) v := by
  have assigned {u t : Scene} (same : t.fsm.recordsOf new.metadata = u.fsm.recordsOf new.metadata) (name : String) :
      t.fsm.getAssignment (assignmentKey new.metadata name) = u.fsm.getAssignment (assignmentKey new.metadata name) :=
    congrFun (congrArg AppRecords.assigned same) name
  refine reconcileAll_turn within (fun taken => TaskOp.flawless_apply (obeys taken)) (App.validate_clean valid)
    (App.validate_name valid) keyed desired (fun u => u.fsm.recordsOf new.metadata = v.fsm.recordsOf new.metadata) _
    (fun same _ => ⟨fun unchanged => same.trans unchanged, fun resumed x member => ?_⟩) ?_ rfl
  · rw [← resumed x member]
    simp only [RunningNow, assigned same]
  · intro u keyed same
    refine (deployAppWorkloads_resumes within obeys valid available keyed).mono ?_
    rintro result t ⟨keyed, resumed⟩
    refine ⟨keyed, fun x member => (resumed x member).trans ?_⟩
    simp only [Resumable, assigned same]

end Redeployed

abbrev Flawless (svc : Service) : Steps TaskSig (World instanceRuntime) :=
  Assuming (World.machine instanceRuntime svc).Step TaskOp.flawless

/-- One document is deployed, worked on in any number of passes and deleted.
Another is deployed then, and a pass in which nothing fails follows. -/
def Redeployed (svc : Service) (old new : App) (w deleted last : World instanceRuntime) : Prop :=
  ∃ deployed passed told,
    (∃ ctx, Finishes (Accepted svc) (submitDeploy svc ctx old) w (.ok ()) deployed) ∧
    Relation.ReflTransGen (fun a b => ∃ ctx, Finishes (Accepted svc) (reconcileAll svc ctx) a () b) deployed passed ∧
    (∃ ctx, Finishes (Accepted svc) (submitDelete svc ctx old.metadata) passed (.ok ()) deleted) ∧
    (∃ ctx, Finishes (Accepted svc) (submitDeploy svc ctx new) deleted (.ok ()) told) ∧
    ∃ ctx, Finishes (Flawless svc) (reconcileAll svc ctx) told () last

section Runs

variable {svc : Service} {old new : App} {w last : World instanceRuntime}

theorem submitDeploy_view {app : App} {u : World instanceRuntime}
    (run : Finishes (Accepted svc) (submitDeploy svc ctx app) w (.ok ()) u) :
    app.validate svc.sorter = .ok () ∧ u.view = { w.view with fsm := w.view.fsm.update (.upsertDeployApp app) } := by
  have ensured : Ensures (Assuming (View.Step svc) TaskOp.accepted) anything
      (fun result u => result = .ok () → app.validate svc.sorter = .ok () ∧
        u = { w.view with fsm := w.view.fsm.update (.upsertDeployApp app) }) (submitDeploy svc ctx app) w.view := by
    refine submitDeploy_ensures (fun taken => taken.1.local) (fun _ _ _ => trivial) (fun _ _ _ => trivial)
      View.accepted_ok ?_ ?_
    · intro err ok
      cases ok
    · intro valid _
      exact ⟨valid, rfl⟩
  exact World.finishes_view ensured run rfl

theorem keyed_of_finishes {α : Type} {p : Task α} {result : α} {u : World instanceRuntime} (keyed : w.view.fsm.Keyed)
    (run : Finishes (Accepted svc) p w result u) : u.view.fsm.Keyed := by
  have ensured : Ensures (Assuming (View.Step svc) TaskOp.accepted) anything (fun _ v => True ∧ v.fsm.Keyed) p w.view := by
    refine Ensures.invariant ?_ keyed (Ensures.trivially p)
    rintro v op answer t keyed - ⟨taken, -⟩
    rcases taken.fsm with same | ⟨ctx, command, -, same⟩ <;> rw [same]
    · exact keyed
    · exact keyed.update
  exact (World.finishes_view ensured run).2

end Runs

/-- The whole history as one piece of code, with a single pass each time. -/
def redeploy (svc : Service) (old new : App) : Task (Check × Check × Check) := do
  let deployed ← submitDeploy svc {} old
  reconcileAll svc {}
  let deleted ← submitDelete svc {} old.metadata
  let redeployed ← submitDeploy svc {} new
  reconcileAll svc {}
  return (deployed, deleted, redeployed)

theorem redeployed_of_finishes {svc : Service} {old new : App} {w last : World instanceRuntime}
    (run : Finishes (Flawless svc) (redeploy svc old new) w (.ok (), .ok (), .ok ()) last) :
    ∃ deleted, Redeployed svc old new w deleted last := by
  have accepted {s t : World instanceRuntime} {op : TaskOp} {answer : op.Answer} (taken : Flawless svc s op answer t) :
      Accepted svc s op answer t :=
    ⟨taken.1, TaskOp.accepted_of_succeeded (TaskOp.succeeded_of_flawless taken.2)⟩
  simp only [redeploy, finishes_bind] at run
  obtain ⟨_, deployed, deploy, _, passed, pass, _, deleted, delete, _, told, redeploy, _, reconciled, resume, ended⟩ := run
  obtain ⟨results, rfl⟩ := finishes_pure.mp ended
  cases results
  exact ⟨deleted, deployed, passed, told, ⟨{}, deploy.mono accepted⟩, .single ⟨{}, pass.mono accepted⟩,
    ⟨{}, delete.mono accepted⟩, ⟨{}, redeploy.mono accepted⟩, {}, resume⟩

theorem redeployed_of_play (svc : Service) (old new : App) (choices : List (Choice instanceRuntime))
    (check : World instanceRuntime → Bool)
    (played : ((redeploy svc old new).play ((World.machine instanceRuntime svc).assuming TaskOp.flawless) choices
      World.idle).map (fun last => last.2.1.isOk && last.2.2.1.isOk && last.2.2.2.isOk && check last.1) = some true) :
    ∃ deleted last, Redeployed svc old new World.idle deleted last ∧ check last = true := by
  obtain ⟨⟨deployed, deleted, redeployed⟩, last, run, passed⟩ := exists_finishes_of_play played
  simp only [Bool.and_eq_true, Check.isOk_iff] at passed
  obtain ⟨⟨⟨rfl, rfl⟩, rfl⟩, passed⟩ := passed
  obtain ⟨deleted, runs⟩ := redeployed_of_finishes (run.mono Machine.assuming_step)
  exact ⟨deleted, last, runs, passed⟩

theorem World.idle_keyed : World.idle.view.fsm.Keyed := by
  constructor
  · intro key app found
    cases found
  · intro key revisions found
    cases found

end Orch
