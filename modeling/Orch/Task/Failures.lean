import Orch.Task.DeploySpecs
import Orch.Task.Walks
import Orch.Task.Delete

namespace Orch

open Effect

/-- A proposal within its context is accepted, and one whose context has
expired is not. -/
def TaskOp.punctual (now : Nat) : (op : TaskOp) → op.Answer → Bool
  | .apply ctx _, result => result.isOk == !ctx.expired now
  | _, _ => true

/-- The steps of a service whose proposals fail for no other reason than an
expired context. -/
def Punctual (svc : Service) : Steps TaskSig (World instanceRuntime) := fun w op answer u =>
  (World.machine instanceRuntime svc).Step w op answer u ∧ op.punctual u.now answer = true

def TaskOp.timely (now : Nat) : TaskOp → Bool
  | .apply ctx _ => !ctx.expired now
  | _ => true

def FailedAt (f : Ledger) (metadata : Metadata) (name generation : String) : Prop :=
  ∃ a, f.getAssignment (assignmentKey metadata name) = some a ∧ a.status = .failed ∧ sameGeneration a generation = true

/-- The record of a workload that an action proposes. -/
def TaskOp.assigns : TaskOp → Option Assignment
  | .apply _ (.upsertWorkloadAssignment a) => some a
  | _ => none

abbrev Still {α : Type} (p : Task α) : Prop := p.Asks fun op : TaskOp => op.assigns = none

theorem Idle.still {α : Type} {p : Task α} (idle : Idle p) : Still p := by
  refine idle.mono ?_
  intro op idle
  cases op with
  | apply ctx command =>
    cases command with
    | upsertWorkloadAssignment => cases idle
    | _ => rfl
  | _ => rfl

theorem Handles.still {α : Type} {id : WorkloadId} {p : Task α} (handles : Handles id p) : Still p := by
  refine handles.mono ?_
  intro op handled
  cases op with
  | apply => cases handled
  | _ => rfl

namespace World

variable {R : Runtime} {svc : Service} {w u : World R} {op : TaskOp} {answer : op.Answer}

/-- No action takes time back. -/
theorem now_le_step (taken : (machine R svc).Step w op answer u) : w.now ≤ u.now := by
  obtain ⟨c, taken⟩ := step_iff.mp taken
  have served {α : Type} {node : String} {action name : String} {handler : Service → Task (Except Failure α)}
      {decode : α → DispatchResult} {result : Except Failure DispatchResult}
      (taken : w.executeWorker svc action node name handler decode c = some (u, result)) : w.now ≤ u.now := by
    obtain ⟨-, _, kept, -⟩ := executeWorker_keeps (fun _ u => w.now ≤ u.now)
      (fun worker _ _ v later => Ensures.keeping _ (fun _ _ => trivial)
        (fun later taken => later.trans (taken.elim fun _ taken => (performLocal_frame taken).now)) (handler worker) later)
      (Nat.le_add_right _ _) taken
    exact kept
  cases op with
  | dispatchWorkload | dispatchStop => exact served taken
  | _ =>
    rw [perform_eq_performLocal rfl] at taken
    exact (performLocal_frame taken).now

theorem apply_expired {ctx : Ctx} {command : Command} {result : Check}
    (taken : (machine R svc).Step w (.apply ctx command) result u) (expired : ctx.expired u.now = true) : u.fsm = w.fsm := by
  obtain ⟨c, performed⟩ := taken
  have same := Option.some.inj performed
  simp only [applyCommand] at same
  split at same
  · cases same
    rfl
  split at same
  · cases same
    rfl
  · rename_i live
    refine absurd ?_ live
    split at same
    · cases same
      exact expired
    · cases same
      split at expired <;> exact expired

end World

/-- Whether all the records proposed so far were in time, and whether none was. -/
structure Timing where
  timely : Bool := true
  late : Bool := true

def Timing.note (g : Timing) (op : TaskOp) (now : Nat) : Timing :=
  if op.assigns = none then g else ⟨g.timely && op.timely now, g.late && !op.timely now⟩

theorem Timing.foldl_note {trace : List (Event TaskSig (World instanceRuntime))} {g : Timing} :
    trace.foldl (fun g event => g.note event.op event.after.now) g =
      ⟨g.timely && trace.all fun event => event.op.assigns = none || event.op.timely event.after.now,
        g.late && trace.all fun event => event.op.assigns = none || !event.op.timely event.after.now⟩ := by
  induction trace generalizing g with
  | nil => simp
  | cons event rest ih =>
    rw [List.foldl_cons, ih]
    by_cases still : event.op.assigns = none
    · simp [Timing.note, still]
    · simp [Timing.note, still, Bool.and_assoc]

abbrev Timed (svc : Service) : Steps TaskSig (World instanceRuntime × Timing) :=
  Noting (Punctual svc) fun g event => g.note event.op event.after.now

section Rollouts

variable {svc : Service} {app : App} {workload : Workload} {opts : DeployOptions} {generation : String}
variable {s t : World instanceRuntime × Timing} {op : TaskOp} {answer : op.Answer}

theorem Timed.still (taken : Timed svc s op answer t) (still : op.assigns = none) :
    t.1.view.fsm.assignments = s.1.view.fsm.assignments ∧ t.2 = s.2 ∧ s.1.now ≤ t.1.now := by
  obtain ⟨⟨step, -⟩, noted⟩ := taken
  refine ⟨?_, noted.trans (if_pos still), World.now_le_step step⟩
  rcases (World.view_step step).fsm with same | ⟨ctx, command, rfl, stored⟩
  · rw [same]
  · rw [stored, Ledger.assignments_update]
    cases command with
    | upsertWorkloadAssignment => cases still
    | _ => rfl

/-- A record proposed in time is stored, and a late one is not. -/
theorem Timed.recording {ctx : Ctx} {node address : String} {status : AssignmentStatus} {err : Option Failure}
    {result : Check} (proper : Proper app.metadata workload)
    (taken : Timed svc s (recording ctx app.metadata workload node status generation err address) result t) :
    ctx.expired t.1.now = false ∧ t.2 = ⟨s.2.timely, false⟩ ∧
        t.1.view.fsm.getAssignment (assignmentKey app.metadata workload.name) =
          some (assignmentRecord app.metadata workload node status generation err address (artifactSummary workload.run)) ∨
      ctx.expired t.1.now = true ∧ t.2 = ⟨false, s.2.late⟩ ∧ t.1.view.fsm.assignments = s.1.view.fsm.assignments := by
  obtain ⟨⟨step, punctual⟩, noted⟩ := taken
  have noted := noted.trans (if_neg (by rintro ⟨⟩))
  cases late : ctx.expired t.1.now with
  | false =>
    simp only [TaskOp.punctual, late, Bool.not_false, beq_true] at punctual
    refine .inl ⟨rfl, by simpa [TaskOp.timely, late] using noted, ?_⟩
    rcases World.view_step step with ⟨-, stored⟩ | ⟨refused, -⟩
    · rw [stored, Ledger.update_assignmentRecord proper.named proper.present]
      have own : trimSpace (assignmentKey app.metadata workload.name) = (assignmentRecord app.metadata workload node status
          generation err address (artifactSummary workload.run)).key := trimSpace_assignmentKey ..
      exact View.record_getAssignment (v := s.1.view) own
    · exact absurd (Check.isOk_iff.mp punctual) refused
  | true =>
    refine .inr ⟨rfl, by simpa [TaskOp.timely, late] using noted, ?_⟩
    exact congrArg (fun f : FsmState => f.assignments) (World.apply_expired step late)

/-- What is left of a program that proposes no record. -/
theorem Still.keeps {α : Type} {p : Task α} {holds : World instanceRuntime × Timing → Prop} (still : Still p)
    (kept : ∀ {s t}, holds s → t.1.view.fsm.assignments = s.1.view.fsm.assignments → t.2 = s.2 → s.1.now ≤ t.1.now →
      holds t) (start : holds s) : Ensures (Timed svc) anything (fun _ => holds) p s :=
  Program.Asks.keeps still (fun held still taken =>
    have calm := taken.still still
    kept held calm.1 calm.2.1 calm.2.2) start

variable (app workload generation) in
/-- The assignment is failed exactly if every record was proposed in time, or if
it was so before and none was. -/
def Recorded (before : Prop) (s : World instanceRuntime × Timing) : Prop :=
  FailedAt s.1.view.fsm app.metadata workload.name generation ↔ s.2.timely = true ∨ before ∧ s.2.late = true

variable (app workload generation) in
/-- A call that is about to record a failure on a node. -/
structure Failing (before : Prop) (ctx : Ctx) (node : String) (s : World instanceRuntime × Timing) : Prop where
  stale : ∀ a, s.1.view.fsm.getAssignment (assignmentKey app.metadata workload.name) = some a →
    assignmentConvergedOnDifferentNode a node generation = true → s.2.timely = false
  live : ctx.expired s.1.now = false → s.2.timely = true
  known : FailedAt s.1.view.fsm app.metadata workload.name generation ↔ before ∧ s.2.late = true

variable {before : Prop} {ctx : Ctx} {node : String}

theorem FailedAt.congr {f g : Ledger} (same : f.assignments = g.assignments) {metadata : Metadata} {name : String} :
    FailedAt f metadata name generation ↔ FailedAt g metadata name generation := by
  simp only [FailedAt, Ledger.getAssignment, same]

theorem Recorded.kept (recorded : Recorded app workload generation before s)
    (same : t.1.view.fsm.assignments = s.1.view.fsm.assignments) (timing : t.2 = s.2) :
    Recorded app workload generation before t := by
  rw [Recorded, timing, FailedAt.congr same]
  exact recorded

theorem Ctx.expired_mono {m n : Nat} (later : m ≤ n) (live : ctx.expired n = false) : ctx.expired m = false := by
  cases open_ : ctx.deadline with
  | none => simp [Ctx.expired, open_]
  | some deadline =>
    simp only [Ctx.expired, open_, decide_eq_false_iff_not, not_le] at live ⊢
    omega

theorem Failing.kept (failing : Failing app workload generation before ctx node s)
    (same : t.1.view.fsm.assignments = s.1.view.fsm.assignments) (timing : t.2 = s.2) (later : s.1.now ≤ t.1.now) :
    Failing app workload generation before ctx node t := by
  refine ⟨?_, ?_, ?_⟩
  · rw [Ledger.getAssignment, same, timing]
    exact failing.stale
  · rw [timing]
    exact fun live => failing.live (Ctx.expired_mono later live)
  · rw [FailedAt.congr same, timing]
    exact failing.known

theorem Failing.recorded {err : Failure} (proper : Proper app.metadata workload)
    (failing : Failing app workload generation before ctx node s) :
    Ensures (Timed svc) anything (fun _ => Recorded app workload generation before)
      (recordDeployFailure ctx app workload node generation err) s := by
  have lastingBefore : Lasting (Timed svc) anything (Failing app workload generation before ctx node) :=
    fun s op held idle => (Idle.still (asks_perform idle)).keeps Failing.kept held
  have lasting : Lasting (Timed svc) anything (Recorded app workload generation before) :=
    fun s op held idle => (Idle.still (asks_perform idle)).keeps (fun held same timing _ => held.kept same timing) held
  refine recordDeployFailure_walk (fun _ => True) proper lastingBefore lasting ?dropped ?stale ?recorded (fun _ _ => trivial) ?filed
  case dropped => exact Still.keeps (asks_perform rfl) Failing.kept failing
  case filed => exact fun held _ => Still.keeps (asks_perform rfl) (fun held same timing _ => held.kept same timing) held
  case stale =>
    intro t a u held taken elsewhere
    obtain ⟨found, -⟩ := World.view_step taken.1.1
    obtain ⟨same, timing, -⟩ := taken.still rfl
    refine Recorded.kept ?_ same timing
    simp only [Recorded, held.stale a found.symm elsewhere, Bool.false_eq_true, false_or]
    exact held.known
  case recorded =>
    intro t held
    refine ⟨trivial, ?_⟩
    intro result u taken
    change Recorded app workload generation before u
    rcases Timed.recording proper taken with ⟨live, timing, stored⟩ | ⟨late, timing, same⟩
    · have timely := held.live (Ctx.expired_mono (World.now_le_step taken.1.1) live)
      rw [Recorded, timing]
      exact iff_of_true ⟨_, stored, rfl, by simp [sameGeneration, assignmentRecord]⟩ (.inl timely)
    · simp only [Recorded, timing, FailedAt.congr same, Bool.false_eq_true, false_or]
      exact held.known

variable (app workload generation) in
/-- Nothing has been proposed yet, and the assignment is the one found. -/
structure Unrecorded (before : Prop) (found : Option Assignment) (s : World instanceRuntime × Timing) : Prop where
  slot : s.1.view.fsm.getAssignment (assignmentKey app.metadata workload.name) = found
  timing : s.2 = {}
  known : FailedAt s.1.view.fsm app.metadata workload.name generation ↔ before

variable {found : Option Assignment}

theorem Unrecorded.kept (fresh : Unrecorded app workload generation before found s)
    (same : t.1.view.fsm.assignments = s.1.view.fsm.assignments) (timing : t.2 = s.2) :
    Unrecorded app workload generation before found t := by
  refine ⟨?_, timing.trans fresh.timing, (FailedAt.congr same).trans fresh.known⟩
  rw [Ledger.getAssignment, same]
  exact fresh.slot

theorem Still.unrecorded {α : Type} {p : Task α} (still : Still p)
    (fresh : Unrecorded app workload generation before found s) :
    Ensures (Timed svc) anything (fun _ => Unrecorded app workload generation before found) p s :=
  still.keeps (fun held same timing _ => held.kept same timing) fresh

theorem Unrecorded.failing (fresh : Unrecorded app workload generation before found s)
    (here : ∀ a, found = some a → assignmentConvergedOnDifferentNode a node generation = false) :
    Failing app workload generation before ctx node s := by
  refine ⟨fun a stored elsewhere => ?_, fun _ => by rw [fresh.timing], by simp [fresh.timing, fresh.known]⟩
  cases (here a (fresh.slot.symm.trans stored)).symm.trans elsewhere

/-- A choice of a node that is proposed late leaves the assignment as it was
found. -/
theorem Unrecorded.assigned {result : Check} (proper : Proper app.metadata workload)
    (fresh : Unrecorded app workload generation before found s)
    (taken : Timed svc s (recording ctx app.metadata workload node .assigned generation none "") result t) :
    Failing app workload generation before ctx node t := by
  rcases Timed.recording proper taken with ⟨live, timing, stored⟩ | ⟨late, timing, same⟩
  · refine ⟨fun a there elsewhere => ?_, fun _ => by rw [timing, fresh.timing], ?_⟩
    · obtain rfl := Option.some.inj (stored.symm.trans there)
      cases (not_convergedOnDifferentNode (.inr (trimSpace_trimSpace node))).symm.trans elsewhere
    · rw [timing]
      refine iff_of_false ?_ (by simp)
      rintro ⟨a, there, failed, -⟩
      obtain rfl := Option.some.inj (stored.symm.trans there)
      cases failed
  · refine ⟨fun a there elsewhere => by rw [timing], fun live => ?_, ?_⟩
    · cases live.symm.trans late
    · simp [FailedAt.congr same, timing, fresh.timing, fresh.known]

abbrev Tells (svc : Service) (app : App) (workload : Workload) (generation : String) (before : Prop) (p : Task Check)
    (s : World instanceRuntime × Timing) : Prop :=
  Ensures (Timed svc) anything (fun result t => result ≠ .ok () → Recorded app workload generation before t) p s

theorem Failing.tells {err cause : Failure} (proper : Proper app.metadata workload)
    (failing : Failing app workload generation before ctx node s) :
    Tells svc app workload generation before (do
      recordDeployFailure ctx app workload node generation err
      return .error cause) s := by
  exact (failing.recorded proper).bind fun _ _ recorded _ => recorded

theorem placeWorkload_tells (proper : Proper app.metadata workload)
    (fresh : Unrecorded app workload generation before found s) :
    Tells svc app workload generation before (placeWorkload svc ctx app workload generation) s := by
  refine (chooseWorkloadNode_reads.idle.still.unrecorded fresh).bind ?_
  rintro (err | chosen) t fresh
  · have failing : Failing app workload generation before ctx "" t :=
      fresh.failing fun a _ => not_convergedOnDifferentNode (.inl (by decide +kernel))
    exact failing.tells proper
  have assigned : Ensures (Timed svc) anything (fun _ => Failing app workload generation before ctx chosen)
      (applyWorkloadAssignment ctx app.metadata workload chosen .assigned generation none) t :=
    applyWorkloadAssignment_walk proper ⟨trivial, fun _ _ taken => fresh.assigned proper taken⟩
  refine assigned.bind ?_
  intro _ u failing
  have runs {p : Task (Except Failure WorkloadRunResult)} {rest : Except Failure WorkloadRunResult → Task Check}
      (still : Still p) (fails : ∀ err, rest (.error err) = do
        recordDeployFailure ctx app workload chosen generation err
        return .error err)
      (ends : ∀ ran u, Ensures (Timed svc) anything (fun result _ => result = .ok ()) (rest (.ok ran)) u) :
      Tells svc app workload generation before (p >>= rest) u := by
    refine (still.keeps Failing.kept failing).bind ?_
    rintro (err | ran) t failing
    · exact fails err ▸ failing.tells proper
    · exact (ends ran t).mono fun _ _ done failed => absurd done failed
  split
  · refine runs dispatchWorkload_handles.still (fun _ => rfl) fun ran u => ?_
    exact (Ensures.trivially _).bind fun _ _ _ => (Ensures.trivially _).bind fun _ _ _ => rfl
  · refine runs runLocalWorkload_handles.still (fun _ => rfl) fun ran u => ?_
    exact (Ensures.trivially _).bind fun _ _ _ => (Ensures.trivially _).bind fun _ _ _ => rfl

theorem canRetryFailedAssignment_still {a : Assignment} : Still (canRetryFailedAssignment workload a generation) := by
  unfold canRetryFailedAssignment
  split
  · trivial
  unfold allowWorkloadRestart
  split
  · trivial
  · exact asks_perform rfl

theorem handleExistingAssignment_tells {a : Assignment} (proper : Proper app.metadata workload)
    (fresh : Unrecorded app workload generation before (some a) s) :
    Ensures (Timed svc) anything (fun handled t => match handled with
        | .done result => result ≠ .ok () → Recorded app workload generation before t
        | .place => Unrecorded app workload generation before (some a) t)
      (handleExistingAssignment svc ctx app workload a generation opts) s := by
  unfold handleExistingAssignment
  split
  · exact fun failed => absurd rfl failed
  split
  · exact fun failed => absurd rfl failed
  refine (canRetryFailedAssignment_still.unrecorded fresh).bind ?_
  rintro (_ | _) t fresh
  · exact fun failed => absurd rfl failed
  have waits : Ensures (Timed svc) anything (fun waited t => Unrecorded app workload generation before (some a) t ∧
      (waited = false → failedAssignmentSameGeneration a generation = true)) (waitRetryDelay ctx workload a generation) t := by
    unfold waitRetryDelay
    split
    · rename_i failed
      exact (waitWorkloadRestartDelay_idle.still.unrecorded fresh).mono fun _ _ held => ⟨held, fun _ => failed⟩
    · exact ⟨fresh, by simp⟩
  refine waits.bind ?_
  rintro (_ | _) t ⟨fresh, failed⟩
  · obtain ⟨same, status⟩ := Bool.and_eq_true_iff.mp (failed rfl)
    exact fun _ => iff_of_true ⟨a, fresh.slot, of_decide_eq_true status, same⟩ (.inl (by rw [fresh.timing]))
  rw [ensures_bind, stopPreviousGeneration]
  split
  · exact fresh
  rename_i older
  dsimp only
  split
  · exact fresh
  refine (stopWorkloadOnNode_handles.still.unrecorded fresh).mono ?_
  rintro (err | _) u fresh
  · have failing : Failing app workload generation before ctx (trimSpace a.node) u := by
      refine fresh.failing ?_
      rintro _ ⟨⟩
      simp [assignmentConvergedOnDifferentNode, older]
    exact (failing.recorded proper).bind fun _ _ recorded _ => recorded
  · exact fresh

theorem deployOneWorkload_tells (proper : Proper app.metadata workload)
    (fresh : Unrecorded app workload generation before found s) :
    Tells svc app workload generation before (deployOneWorkload svc ctx app generation opts workload) s := by
  refine (withRolloutProgressDeadline_reads.idle.still.unrecorded fresh).bind ?_
  intro ctx s fresh
  rw [ensures_bind]
  refine ⟨trivial, ?_⟩
  intro read t taken
  obtain ⟨same, timing, -⟩ := taken.still rfl
  obtain ⟨seen, -⟩ := World.view_step taken.1.1
  obtain rfl : read = found := seen.trans fresh.slot
  cases read with
  | none => exact placeWorkload_tells proper (fresh.kept same timing)
  | some a =>
    refine (handleExistingAssignment_tells proper (fresh.kept same timing)).bind ?_
    rintro (result | _) t handled
    · exact handled
    · exact placeWorkload_tells proper handled

/-- A rollout that fails is recorded exactly when all that it proposes about the
assignment is proposed within its context, or when the assignment was failed
before and nothing of it is. -/
theorem failed_rollout_recorded_iff {ctx : Ctx} {w u : World instanceRuntime}
    {trace : List (Event TaskSig (World instanceRuntime))} {cause : Failure} (valid : app.validate svc.sorter = .ok ())
    (member : workload ∈ app.workloads)
    (run : Run (Punctual svc) (deployOneWorkload svc ctx app generation opts workload) w trace (.pure (.error cause)) u) :
    FailedAt u.view.fsm app.metadata workload.name generation ↔
      (∀ event ∈ trace, event.op.assigns ≠ none → event.op.timely event.after.now = true) ∨
        FailedAt w.view.fsm app.metadata workload.name generation ∧
          ∀ event ∈ trace, event.op.assigns ≠ none → event.op.timely event.after.now = false := by
  have proper := proper_of_validate valid member
  have fresh : Unrecorded app workload generation (FailedAt w.view.fsm app.metadata workload.name generation) _ (w, {}) :=
    ⟨rfl, rfl, Iff.rfl⟩
  have tells : Tells svc app workload generation _ (deployOneWorkload svc ctx app generation opts workload) (w, {}) :=
    deployOneWorkload_tells proper fresh
  have recorded : Recorded app workload generation _ _ := tells.noting_run run (by simp)
  simpa [Recorded, Timing.foldl_note, or_iff_not_imp_left] using recorded

end Rollouts

def hastyWorkload : Workload :=
  { imageWorkload "api" "nginx" with
    rollout := some { progressDeadline := "1s" }, mounts := [{ volume := "data", target := "/data" }] }

def hastyApp : App := { imageApp "web" "api" "nginx" with volumes := [{ name := "data" }], workloads := [hastyWorkload] }

def World.after (elapsed : Nat) (c : Choice instanceRuntime) : Choice instanceRuntime := { c with elapsed }

/-- The start fails some time after the choice of the node, and the binding of
the volume is recorded some time after the failure. -/
def failedStart (elapsed later : Nat) : List (Choice instanceRuntime) :=
  List.replicate 4 (World.smoothly "a") ++ World.after elapsed (World.refusing "a") ::
    List.replicate 3 (World.smoothly "a") ++ [World.after later (World.smoothly "a")]

/-- The failure is recorded in time, and the binding of the volume is not. -/
theorem failed_rollout_recorded_before_binding :
    ∃ (u : World instanceRuntime) (trace : List (Event TaskSig (World instanceRuntime))) (cause : Failure),
      Run (Punctual sampleService) (deployOneWorkload sampleService {} hastyApp (appGeneration hastyApp) {} hastyWorkload)
        (World.told hastyApp) trace (.pure (.error cause)) u ∧
      (∃ event ∈ trace, event.op.timely event.after.now = false) ∧
        FailedAt u.view.fsm hastyApp.metadata "api" (appGeneration hastyApp) := by
  have played : ((deployOneWorkload sampleService {} hastyApp (appGeneration hastyApp) {} hastyWorkload).play
      ((World.machine instanceRuntime sampleService).limited fun op answer u => op.punctual u.now answer)
      (failedStart 0 2000000000) (World.told hastyApp)).map (fun last => !last.2.isOk) = some true := by decide +kernel
  have traced : ((deployOneWorkload sampleService {} hastyApp (appGeneration hastyApp) {} hastyWorkload).trace
      ((World.machine instanceRuntime sampleService).limited fun op answer u => op.punctual u.now answer)
      (failedStart 0 2000000000) (World.told hastyApp)).map (fun trace =>
        (trace.any fun event => !event.op.timely event.after.now) &&
          trace.all fun event => event.op.assigns.isNone || event.op.timely event.after.now) = some true := by
    decide +kernel
  obtain ⟨⟨u, result⟩, ended, failed⟩ := Option.map_eq_some_iff.mp played
  obtain ⟨trace, followed, checked⟩ := Option.map_eq_some_iff.mp traced
  simp only [Bool.and_eq_true, List.any_eq_true, List.all_eq_true, Bool.not_eq_true', Bool.or_eq_true,
    Option.isNone_iff_eq_none] at checked
  obtain ⟨late, timely⟩ := checked
  cases result with
  | ok => cases failed
  | error cause =>
    have run := (run_of_play ended followed).mono fun taken => Machine.limited_step.mp taken
    refine ⟨u, trace, cause, run, late, ?_⟩
    refine (failed_rollout_recorded_iff (by decide +kernel) (List.mem_singleton.mpr rfl) run).mpr (.inl ?_)
    exact fun event member assigns => (timely event member).resolve_left assigns

/-- A start that fails after the deadline is not recorded: the workload stays
assigned to the node where it failed. -/
theorem expired_rollout_unrecorded :
    ¬ ∀ (svc : Service) (ctx : Ctx) (app : App) (workload : Workload) (opts : DeployOptions) (w u : World instanceRuntime)
      (cause : Failure), app.validate svc.sorter = .ok () → workload ∈ app.workloads →
      Finishes (Punctual svc) (deployOneWorkload svc ctx app (appGeneration app) opts workload) w (.error cause) u →
      (∀ a, u.view.fsm.getAssignment (assignmentKey app.metadata workload.name) = some a →
        assignmentConvergedOnDifferentNode a svc.localNode (appGeneration app) = false) →
        FailedAt u.view.fsm app.metadata workload.name (appGeneration app) := by
  intro recorded
  have played : ((deployOneWorkload sampleService {} hastyApp (appGeneration hastyApp) {} hastyWorkload).play
      ((World.machine instanceRuntime sampleService).limited fun op answer u => op.punctual u.now answer)
      (failedStart 2000000000 0) (World.told hastyApp)).map (fun last => !last.2.isOk &&
        (last.1.fsm.getAssignment (assignmentKey hastyApp.metadata hastyWorkload.name)).all fun a =>
          a.status = .assigned ∧ trimSpace a.node = "a") = some true := by
    decide +kernel
  obtain ⟨result, u, run, ended⟩ := exists_finishes_of_play played
  obtain ⟨refused, left⟩ := Bool.and_eq_true_iff.mp ended
  cases result with
  | ok => cases refused
  | error cause =>
    have assigned (a : Assignment)
        (found : u.view.fsm.getAssignment (assignmentKey hastyApp.metadata hastyWorkload.name) = some a) :
        a.status = .assigned ∧ trimSpace a.node = "a" := by
      rw [show u.fsm.getAssignment _ = some a from found, Option.all_some] at left
      exact of_decide_eq_true left
    obtain ⟨a, found, failed, -⟩ := recorded sampleService {} hastyApp hastyWorkload {} _ u cause (by decide +kernel)
      (List.mem_singleton.mpr rfl) (run.mono fun taken => Machine.limited_step.mp taken) fun a found =>
        not_convergedOnDifferentNode (.inr ((assigned a found).2.trans (by decide +kernel)))
    rw [(assigned a found).1] at failed
    cases failed

end Orch
