import Orch.Effect.Pieces
import Orch.Task.Minding
import Orch.Task.Moves

namespace Orch

open Effect

def TaskOp.grants : (op : TaskOp) → op.Answer → Bool
  | .takeRestart _ _, granted => granted
  | _, _ => false

def TaskOp.deploys (metadata : Metadata) (x : Workload) : TaskOp → Prop
  | .runtimeDeploy _ m w => m = metadata ∧ w = x
  | .dispatchWorkload _ _ m w => m = metadata ∧ w = x
  | _ => False

def TaskOp.clock : (op : TaskOp) → op.Answer → Option Nat
  | .now, time => some time
  | _, _ => none

def TaskOp.pause : TaskOp → Option Nat
  | .sleep _ pause => some pause
  | _ => none

section Traces

variable {R : Runtime}

def decided (trace : List (Event TaskSig (World R))) : Option Decision :=
  trace.findSome? fun event => event.op.decision event.before.fsm.nodeCapacity event.answer

def clockRead (trace : List (Event TaskSig (World R))) : Option Nat :=
  trace.findSome? fun event => event.op.clock event.answer

def pauseBegan (trace : List (Event TaskSig (World R))) : Option Nat :=
  trace.findSome? fun event => event.op.pause.map fun pause => event.after.now - pause

def PlacementSucceeds (svc : Service) (trace : List (Event TaskSig (World R))) : Prop :=
  ∀ d ∈ decided trace, (d.lands svc).isSome

/-- The node that placement leads to is this one, or there is a dispatcher. -/
def NodeReached (svc : Service) (trace : List (Event TaskSig (World R))) : Prop :=
  ∀ d ∈ decided trace, ∀ node ∈ d.lands svc, node = svc.localNode ∨ svc.dispatcher = true

/-- The pause ends within the time the rollout has since the clock was read
for its deadline. -/
def PauseFits (x : Workload) (trace : List (Event TaskSig (World R))) : Prop :=
  ∀ pause ∈ x.restartPause, ∀ limit ∈ x.progressLimit, ∀ opened ∈ clockRead trace, ∀ began ∈ pauseBegan trace,
    began + pause < opened + limit

variable {event : Event TaskSig (World R)} {early late : List (Event TaskSig (World R))}

theorem decided_append : decided (early ++ late) = (decided early).or (decided late) := List.findSome?_append

theorem decided_cons (none : event.op.decision event.before.fsm.nodeCapacity event.answer = none) :
    decided (event :: late) = decided late := by
  rw [decided, List.findSome?_cons, none]
  rfl

theorem pauseBegan_append : pauseBegan (early ++ late) = (pauseBegan early).or (pauseBegan late) := List.findSome?_append

theorem pauseBegan_cons (none : event.op.pause = none) : pauseBegan (event :: late) = pauseBegan late := by
  rw [pauseBegan, List.findSome?_cons, none]
  rfl

theorem clockRead_append : clockRead (early ++ late) = (clockRead early).or (clockRead late) := List.findSome?_append

end Traces

variable {result : Check}

section Turns

variable {R : Runtime} {svc : Service} {app : App} {x : Workload} {ctx : Ctx} {generation : String} {s u : World R}
variable {trace : List (Event TaskSig (World R))}

theorem ungranted_of_tends {α : Type} (id : WorkloadId) {p : Task α} {a : α}
    (run : Run (World.machine R svc).Step p s trace (.pure a) u) (tends : Tends id p) :
    ∀ event ∈ trace, event.op.grants event.answer = false := by
  intro event member
  have kind := run.asked tends event member
  obtain ⟨before, op, answer, after⟩ := event
  cases op with
  | takeRestart => exact kind.elim
  | _ => rfl

theorem sleep_step {pause : Nat} {answer : Check} (taken : (World.machine R svc).Step s (.sleep ctx pause) answer u) :
    (answer.isOk = !ctx.expired u.now) ∧ pause ≤ u.now := by
  obtain ⟨c, performed⟩ := taken
  simp only [World.machine, World.perform, World.performLocal] at performed
  split at performed
  · rename_i late
    obtain ⟨rfl, rfl⟩ := Prod.mk.inj (Option.some.inj performed)
    exact ⟨by rw [late]; rfl, Nat.le_add_left _ _⟩
  · rename_i early
    obtain ⟨rfl, rfl⟩ := Prod.mk.inj (Option.some.inj performed)
    rw [Bool.not_eq_true] at early
    exact ⟨by rw [early]; rfl, Nat.le_add_left _ _⟩

theorem waitWorkloadRestartDelay_run {waited : Bool}
    (run : Run (World.machine R svc).Step (waitWorkloadRestartDelay ctx x) s trace (.pure waited) u) :
    (x.restartPause = none ∧ trace = [] ∧ waited = true) ∨
      ∃ pause answer, x.restartPause = some pause ∧ trace = [⟨s, .sleep ctx pause, answer, u⟩] ∧
        waited = !ctx.expired u.now ∧ pause ≤ u.now := by
  rw [waitWorkloadRestartDelay_eq] at run
  cases paused : x.restartPause with
  | none =>
    rw [paused] at run
    exact .inl ⟨rfl, run.of_pure.1, run.of_pure.2.1⟩
  | some pause =>
    rw [paused] at run
    obtain ⟨answer, t, later, taken, rfl, ended⟩ := run.of_perform
    obtain ⟨rfl, rfl, rfl⟩ := ended.of_pure
    obtain ⟨outcome, within⟩ := sleep_step taken
    exact .inr ⟨pause, answer, rfl, rfl, outcome, within⟩

theorem withRolloutProgressDeadline_run {within : Ctx}
    (run : Run (World.machine R svc).Step (withRolloutProgressDeadline ctx x) s trace (.pure within) u) :
    (x.progressLimit = none ∧ trace = [] ∧ within = ctx) ∨
      ∃ limit opened, x.progressLimit = some limit ∧ trace = [⟨s, .now, opened, u⟩] ∧ within = ctx.withTimeout opened limit := by
  rw [withRolloutProgressDeadline_eq] at run
  cases limited : x.progressLimit with
  | none =>
    rw [limited] at run
    exact .inl ⟨rfl, run.of_pure.1, run.of_pure.2.1⟩
  | some limit =>
    rw [limited] at run
    obtain ⟨opened, t, later, -, rfl, ended⟩ := run.of_perform
    obtain ⟨rfl, rfl, rfl⟩ := ended.of_pure
    exact .inr ⟨limit, opened, rfl, rfl, rfl⟩

variable {opts : DeployOptions}

/-- A granted restart is followed by its pause alone. -/
theorem handleExistingAssignment_run {a : Assignment} {handled : Handled}
    (run : Run (World.machine R svc).Step (handleExistingAssignment svc ctx app x a generation opts) s trace (.pure handled) u) :
    (∀ event ∈ trace, event.op.grants event.answer = false) ∨
      ∃ granted paused, granted.op.grants granted.answer = true ∧ trace = granted :: paused ∧
        ((x.restartPause = none ∧ paused = [] ∧ handled = .place) ∨
          ∃ pause t answer, x.restartPause = some pause ∧ paused = [⟨t, .sleep ctx pause, answer, u⟩] ∧ pause ≤ u.now ∧
            (if ctx.expired u.now then ∃ result, handled = .done result else handled = .place)) := by
  unfold handleExistingAssignment at run
  split at run
  · exact .inl (by simp [run.of_pure.1])
  split at run
  · exact .inl (by simp [run.of_pure.1])
  obtain ⟨allowed, t, early, late, asked, rfl, rest⟩ := run.of_bind
  unfold canRetryFailedAssignment at asked
  by_cases failed : failedAssignmentSameGeneration a generation = true
  · have same : sameGeneration a generation = true := (Bool.and_eq_true_iff.mp failed).1
    rw [if_neg (by simp [failed])] at asked
    unfold allowWorkloadRestart at asked
    split at asked
    · obtain ⟨rfl, rfl, rfl⟩ := asked.of_pure
      exact .inl (by simp [rest.of_pure.1])
    have asked : Run (World.machine R svc).Step (ask (.takeRestart (restartAttemptKey a.key generation)
      (workloadMaxRestarts x)) >>= pure) s early (.pure allowed) t := asked
    obtain ⟨granted, t', later, -, rfl, answered⟩ := Run.of_perform asked
    obtain ⟨rfl, rfl, rfl⟩ := answered.of_pure
    cases allowed with
    | false => exact .inl (by simp [rest.of_pure.1, TaskOp.grants])
    | true =>
      refine .inr ⟨_, late, rfl, rfl, ?_⟩
      obtain ⟨waited, t', paused, tail, waits, rfl, onward⟩ := Run.of_bind rest
      rw [waitRetryDelay, if_pos failed] at waits
      have unstopped : stopPreviousGeneration svc ctx app.metadata x a generation = pure (.ok ()) := by
        simp only [stopPreviousGeneration, same, if_true]
      rw [unstopped] at onward
      rcases waitWorkloadRestartDelay_run waits with ⟨none, rfl, rfl⟩ | ⟨pause, answer, some, rfl, rfl, within⟩
      · obtain ⟨rfl, rfl, rfl⟩ := onward.of_pure
        exact .inl ⟨none, rfl, rfl⟩
      · refine .inr ⟨pause, t, answer, some, ?_⟩
        cases late : ctx.expired t'.now with
        | true =>
          rw [late] at onward
          obtain ⟨rfl, rfl, rfl⟩ := onward.of_pure
          exact ⟨rfl, within, by rw [if_pos late]; exact ⟨_, rfl⟩⟩
        | false =>
          rw [late] at onward
          obtain ⟨rfl, rfl, rfl⟩ := onward.of_pure
          exact ⟨rfl, within, by rw [if_neg (by simp [late])]⟩
  · rw [if_pos (by simp [failed])] at asked
    obtain ⟨rfl, rfl, rfl⟩ := asked.of_pure
    refine .inl (ungranted_of_tends (workloadId app.metadata x.name) rest ?_)
    rw [waitRetryDelay, if_neg failed]
    refine asks_bind trivial fun waited => ?_
    cases waited with
    | false => trivial
    | true =>
      refine asks_bind stopPreviousGeneration_tends ?_
      rintro (err | _)
      · exact asks_bind recordDeployFailure_reports.tends fun _ => trivial
      · trivial

theorem undeployed_of_reports (metadata : Metadata) (x : Workload) {α : Type} {p : Task α} {a : α}
    (run : Run (World.machine R svc).Step p s trace (.pure a) u) (reports : Reports p) :
    ¬ ∃ event ∈ trace, event.op.deploys metadata x := by
  rintro ⟨event, member, deploys⟩
  have kind := run.asked reports event member
  obtain ⟨before, op, answer, after⟩ := event
  cases op with
  | runtimeDeploy | dispatchWorkload => cases kind
  | _ => exact deploys

theorem chooseWorkloadNode_run {choice : Except Failure String}
    (run : Run (World.machine R svc).Step (chooseWorkloadNode svc x) s trace (.pure choice) u) :
    ∃ chosen, trace = [⟨s, .choosePlacement x, chosen, u⟩] ∧
      Decision.lands svc ⟨x, s.fsm.nodeCapacity, chosen⟩ = choice.toOption := by
  obtain ⟨chosen, t, later, -, rfl, ended⟩ := Run.of_perform run
  refine ⟨chosen, ?_⟩
  rcases chosen with err | node
  · dsimp only at ended
    cases preferred : preferredConfiguredNode svc x with
    | none =>
      simp only [preferred] at ended
      obtain ⟨rfl, rfl, rfl⟩ := ended.of_pure
      exact ⟨rfl, preferred⟩
    | some fallback =>
      simp only [preferred] at ended
      obtain ⟨rfl, rfl, rfl⟩ := ended.of_pure
      exact ⟨rfl, preferred⟩
  · obtain ⟨rfl, rfl, rfl⟩ := ended.of_pure
    exact ⟨rfl, rfl⟩

theorem deployRemoteWorkload_run {node : String}
    (run : Run (World.machine R svc).Step (deployRemoteWorkload svc ctx app x node generation) s trace (.pure result) u) :
    (∃ event ∈ trace, event.op.deploys app.metadata x) ↔ svc.dispatcher = true := by
  obtain ⟨sent, t, early, late, sends, rfl, onward⟩ := Run.of_bind run
  unfold dispatchWorkload at sends
  cases available : svc.dispatcher with
  | true =>
    rw [available, if_neg (by simp)] at sends
    obtain ⟨answer, t', later, -, rfl, -⟩ := Run.of_perform sends
    exact iff_of_true ⟨_, List.mem_append_left _ List.mem_cons_self, rfl, rfl⟩ rfl
  | false =>
    rw [available, if_pos (by simp)] at sends
    obtain ⟨rfl, rfl, rfl⟩ := sends.of_pure
    refine iff_of_false (undeployed_of_reports _ _ onward ?_) nofun
    exact asks_bind recordDeployFailure_reports fun _ => trivial

theorem deployLocalAssignedWorkload_run {node : String}
    (run : Run (World.machine R svc).Step (deployLocalAssignedWorkload svc ctx app x node generation) s trace (.pure result) u) :
    ∃ event ∈ trace, event.op.deploys app.metadata x := by
  obtain ⟨ran, t, early, late, runs, rfl, -⟩ := Run.of_bind run
  obtain ⟨deployed, t', first, second, deploys, rfl, -⟩ := Run.of_bind runs
  obtain ⟨answer, t'', later, -, rfl, -⟩ := Run.of_perform deploys
  exact ⟨_, List.mem_append_left _ (List.mem_append_left _ List.mem_cons_self), rfl, rfl⟩

theorem placeWorkload_run
    (run : Run (World.machine R svc).Step (placeWorkload svc ctx app x generation) s trace (.pure result) u) :
    ∃ d, decided trace = some d ∧ ((∃ event ∈ trace, event.op.deploys app.metadata x) ↔
      ∃ node, d.lands svc = some node ∧ (node = svc.localNode ∨ svc.dispatcher = true)) := by
  obtain ⟨choice, t, early, late, chooses, rfl, onward⟩ := Run.of_bind run
  obtain ⟨chosen, rfl, lands⟩ := chooseWorkloadNode_run chooses
  refine ⟨⟨x, s.fsm.nodeCapacity, chosen⟩, rfl, ?_⟩
  rw [lands]
  have later : (∃ event ∈ [⟨s, .choosePlacement x, chosen, t⟩] ++ late, event.op.deploys app.metadata x) ↔
      ∃ event ∈ late, event.op.deploys app.metadata x := by
    rw [List.singleton_append]
    simp [TaskOp.deploys]
  rw [later]
  rcases choice with err | node
  · refine iff_of_false (undeployed_of_reports _ _ onward ?_) ?_
    · exact asks_bind recordDeployFailure_reports fun _ => trivial
    · rintro ⟨node, none, -⟩
      cases none
  · obtain ⟨_, t', filed, tail, files, rfl, last⟩ := Run.of_bind onward
    have silent := undeployed_of_reports app.metadata x files (reports_of_records applyWorkloadAssignment_records)
    have only : (∃ event ∈ filed ++ tail, event.op.deploys app.metadata x) ↔
        ∃ event ∈ tail, event.op.deploys app.metadata x := by
      simp only [List.mem_append]
      constructor
      · rintro ⟨event, early | late, deploys⟩
        · exact absurd ⟨event, early, deploys⟩ silent
        · exact ⟨event, late, deploys⟩
      · rintro ⟨event, late, deploys⟩
        exact ⟨event, .inr late, deploys⟩
    rw [only]
    have landed : (∃ n, (Except.ok (ε := Failure) node).toOption = some n ∧ (n = svc.localNode ∨ svc.dispatcher = true)) ↔
        node = svc.localNode ∨ svc.dispatcher = true := by
      simp [Except.toOption]
    rw [landed]
    split at last
    · rename_i away
      rw [deployRemoteWorkload_run last]
      simp [away]
    · rename_i here
      exact iff_of_true (deployLocalAssignedWorkload_run last) (.inl (not_not.mp here))

theorem grant_silent {event : Event TaskSig (World R)} (granted : event.op.grants event.answer = true) :
    event.op.decision event.before.fsm.nodeCapacity event.answer = none ∧ event.op.clock event.answer = none ∧
      event.op.pause = none := by
  obtain ⟨before, op, answer, after⟩ := event
  cases op with
  | takeRestart => exact ⟨rfl, rfl, rfl⟩
  | _ => cases granted

theorem deployOneWorkload_lead {within : Ctx}
    (run : Run (World.machine R svc).Step (withRolloutProgressDeadline {} x) s trace (.pure within) u) :
    (∀ event ∈ trace, event.op.grants event.answer = false) ∧ decided trace = none ∧ pauseBegan trace = none ∧
      (∀ now, within.expired now = true ↔
        ∃ limit ∈ x.progressLimit, ∃ opened ∈ clockRead trace, opened + limit ≤ now) ∧
      (x.progressLimit.isSome → (clockRead trace).isSome) := by
  rcases withRolloutProgressDeadline_run run with ⟨none, rfl, rfl⟩ | ⟨limit, opened, some, rfl, rfl⟩
  · simp [decided, pauseBegan, none, Ctx.expired]
  · simp [decided, pauseBegan, clockRead, some, Ctx.expired, Ctx.withTimeout, TaskOp.grants, TaskOp.decision, TaskOp.pause,
      TaskOp.clock]

theorem placement_used (lead : List (Event TaskSig (World R))) {tail : List (Event TaskSig (World R))}
    (run : Run (World.machine R svc).Step (placeWorkload svc ctx app x generation) s tail (.pure result) u)
    (undecided : decided lead = none) (placed : PlacementSucceeds svc (lead ++ tail)) :
    (∃ later ∈ tail, later.op.deploys app.metadata x) ↔ NodeReached svc (lead ++ tail) := by
  obtain ⟨d, chosen, deployed⟩ := placeWorkload_run run
  have all : decided (lead ++ tail) = some d := by
    rw [decided_append, undecided, chosen]
    rfl
  obtain ⟨node, lands⟩ := Option.isSome_iff_exists.mp (placed d all)
  rw [deployed, NodeReached, all]
  simp [lands]

theorem deployOneWorkload_shape
    (run : Run (World.machine R svc).Step (deployOneWorkload svc {} app generation opts x) s trace (.pure result) u) :
    (∀ event ∈ trace, event.op.grants event.answer = false) ∨
      ∃ lead grant rest, trace = lead ++ grant :: rest ∧ (∀ event ∈ lead, event.op.grants event.answer = false) ∧
        (∀ event ∈ rest, event.op.grants event.answer = false) ∧
        (PlacementSucceeds svc trace → ((∃ later ∈ rest, later.op.deploys app.metadata x) ↔
          PauseFits x trace ∧ NodeReached svc trace)) := by
  obtain ⟨within, t, early, late, opens, rfl, onward⟩ := Run.of_bind run
  obtain ⟨found, t', late, -, rfl, onward'⟩ := Run.of_perform onward
  obtain ⟨quiet, undecided, unpaused, expires, read⟩ := deployOneWorkload_lead opens
  rw [List.append_cons]
  generalize leading : early ++ [⟨t, .getWorkloadAssignment (assignmentKey app.metadata x.name), found, t'⟩] = lead
  have leadQuiet : ∀ event ∈ lead, event.op.grants event.answer = false := by
    rw [← leading]
    intro event member
    rcases List.mem_append.mp member with first | here
    · exact quiet event first
    · rw [List.mem_singleton.mp here]
      rfl
  have leadUndecided : decided lead = none := by
    rw [← leading, decided_append, undecided]
    rfl
  have leadUnpaused : pauseBegan lead = none := by
    rw [← leading, pauseBegan_append, unpaused]
    rfl
  have leadRead (more : List (Event TaskSig (World R))) (limited : x.progressLimit.isSome) :
      clockRead (lead ++ more) = clockRead early := by
    obtain ⟨opened, known⟩ := Option.isSome_iff_exists.mp (read limited)
    rw [← leading, List.append_assoc, clockRead_append, known]
    rfl
  have without (none : ∀ event ∈ late, event.op.grants event.answer = false) :
      ∀ event ∈ lead ++ late, event.op.grants event.answer = false := fun event member =>
    (List.mem_append.mp member).elim (leadQuiet event) (none event)
  rcases found with _ | assignment
  · exact .inl (without (ungranted_of_tends _ onward' placeWorkload_tends))
  obtain ⟨handled, t'', paused, tail, handles, rfl, finish⟩ := Run.of_bind onward'
  have tailQuiet : ∀ event ∈ tail, event.op.grants event.answer = false := by
    cases handled with
    | done => simp [finish.of_pure.1]
    | place => exact ungranted_of_tends _ finish placeWorkload_tends
  rcases handleExistingAssignment_run handles with none | ⟨grant, pauses, allowed, rfl, follows⟩
  · exact .inl (without fun event member => (List.mem_append.mp member).elim (none event) (tailQuiet event))
  obtain ⟨grantUndecided, -, grantUnpaused⟩ := grant_silent allowed
  refine .inr ⟨lead, grant, pauses ++ tail, rfl, leadQuiet, ?_, fun placed => ?_⟩
  · rcases follows with ⟨-, rfl, -⟩ | ⟨pause, r, answer, -, rfl, -⟩
    · exact tailQuiet
    · exact List.forall_mem_cons.mpr ⟨rfl, tailQuiet⟩
  rcases follows with ⟨unasked, rfl, rfl⟩ | ⟨pause, r, answer, given, rfl, fits, ends⟩
  · have still : decided (lead ++ [grant]) = none := by
      rw [decided_append, leadUndecided, decided_cons grantUndecided]
      rfl
    have used := placement_used (lead ++ [grant]) finish still (by simpa using placed)
    rw [List.append_assoc, List.singleton_append] at used
    rw [List.nil_append, used]
    exact (and_iff_right fun pause given => by cases unasked.symm.trans given).symm
  · simp only [List.cons_append, List.nil_append] at placed ⊢
    have began : pauseBegan (lead ++ grant :: ⟨r, .sleep within pause, answer, t''⟩ :: tail) = some (t''.now - pause) := by
      rw [pauseBegan_append, leadUnpaused, pauseBegan_cons grantUnpaused]
      rfl
    have fitting : PauseFits x (lead ++ grant :: ⟨r, .sleep within pause, answer, t''⟩ :: tail) ↔
        within.expired t''.now = false := by
      rw [← Bool.not_eq_true, expires, PauseFits, given, began]
      constructor
      · rintro fine ⟨limit, limited, opened, known, over'⟩
        have within := fine pause rfl limit limited opened (by rwa [leadRead _ (by simp_all)]) _ rfl
        omega
      · rintro fine _ ⟨⟩ limit limited opened known _ ⟨⟩
        rw [leadRead _ (by simp_all)] at known
        by_contra late
        exact fine ⟨limit, limited, opened, known, by omega⟩
    split at ends
    · rename_i late
      obtain ⟨result', rfl⟩ := ends
      obtain ⟨rfl, -⟩ := finish.of_pure
      refine iff_of_false ?_ fun fine => by simp [fitting.mp fine.1] at late
      simp [TaskOp.deploys]
    · rename_i timely
      subst ends
      have still : decided (lead ++ [grant, ⟨r, .sleep within pause, answer, t''⟩]) = none := by
        rw [decided_append, leadUndecided, decided_cons grantUndecided]
        rfl
      have used := placement_used _ finish still (by simpa using placed)
      rw [List.append_assoc] at used
      rw [and_iff_right (fitting.mpr (by simpa using timely))]
      refine Iff.trans ?_ used
      simp [TaskOp.deploys]

theorem deployOneWorkload_turn {before after : List (Event TaskSig (World R))} {event : Event TaskSig (World R)}
    (run : Run (World.machine R svc).Step (deployOneWorkload svc {} app generation opts x) s (before ++ event :: after) (.pure result) u)
    (granted : event.op.grants event.answer = true) (placed : PlacementSucceeds svc (before ++ event :: after)) :
    (∃ later ∈ after, later.op.deploys app.metadata x) ↔
      PauseFits x (before ++ event :: after) ∧ NodeReached svc (before ++ event :: after) := by
  rcases deployOneWorkload_shape run with none | ⟨lead, grant, rest, same, first, last, used⟩
  · rw [none event (by simp)] at granted
    cases granted
  · obtain ⟨-, -, rfl⟩ := split_unique (fun event => TaskOp.grants event.op event.answer = true) same
      (fun event member => by simp [first event member]) (fun event member => by simp [last event member]) granted
    exact used placed

end Turns

section Passes

variable {R : Runtime} {svc : Service} {app : App}

def TaskOp.uncounting : TaskOp → Bool
  | .takeRestart _ _ => false
  | _ => true

theorem Reports.uncounting {α : Type} {p : Task α} (reports : Reports p) : p.Asks fun op : TaskOp => op.uncounting = true := by
  refine reports.mono ?_
  intro op kind
  cases op with
  | takeRestart => cases kind
  | _ => rfl

def WorkloadTurn (svc : Service) (app : App) (x : Workload) (trace : List (Event TaskSig (World R))) : Prop :=
  app.validate svc.sorter = .ok () ∧ x ∈ app.workloads ∧ ∃ s result u,
    Run (World.machine R svc).Step (deployOneWorkload svc {} app (appGeneration app) {} x) s trace (.pure result) u

/-- A program that counts restarts in the turns of workloads only. -/
abbrev InTurns (R : Runtime) (svc : Service) {α : Type} (p : Task α) : Prop :=
  Piecewise (World.machine R svc).Step (fun op : TaskOp => op.uncounting = true) (fun trace => ∃ app x, WorkloadTurn svc app x trace) p

theorem ask_inTurns {op : TaskOp} (plain : op.uncounting = true) : InTurns R svc (ask op) :=
  piecewise_of_asks (asks_perform plain)

theorem prepareDeploy_inTurns : InTurns R svc (prepareDeploy svc {} app) := by
  unfold prepareDeploy
  split
  · exact piecewise_pure
  · refine piecewise_then (piecewise_of_asks refreshLocal_idle.reports.uncounting) fun _ => ?_
    split <;> exact piecewise_pure

theorem prepareDeploy_ok {s u : World R} {trace : List (Event TaskSig (World R))} {workloads : List Workload}
    (run : Run (World.machine R svc).Step (prepareDeploy svc {} app) s trace (.pure (.ok workloads)) u) :
    app.validate svc.sorter = .ok () ∧ ∀ x ∈ workloads, x ∈ app.workloads := by
  unfold prepareDeploy at run
  split at run
  · exact nomatch run.of_pure.2.1
  rename_i valid
  obtain ⟨_, t, early, late, -, rfl, ended⟩ := Run.of_bind run
  split at ended
  · exact nomatch ended.of_pure.2.1
  rename_i ordered sorted
  obtain ⟨-, same, -⟩ := ended.of_pure
  obtain rfl := Except.ok.inj same
  exact ⟨valid, fun x member => (App.workloadsInDependencyOrder_ok sorted).1.mem_iff.mp member⟩

theorem deployAppWorkloads_inTurns : InTurns R svc (deployAppWorkloads svc {} app) := by
  refine piecewise_bind (fun prepared => ∀ workloads, prepared = .ok workloads →
    app.validate svc.sorter = .ok () ∧ ∀ x ∈ workloads, x ∈ app.workloads) prepareDeploy_inTurns ?_ ?_
  · rintro s trace prepared t run workloads rfl
    exact prepareDeploy_ok run
  · rintro (err | workloads) known
    · exact piecewise_pure
    · obtain ⟨valid, members⟩ := known workloads rfl
      refine piecewise_eachUntil fun x member {s trace result t} run => ?_
      rw [← List.append_nil trace]
      exact .next ⟨app, x, valid, members x member, s, result, t, run⟩ .done

theorem reconcileAll_inTurns : InTurns R svc (reconcileAll svc {}) := by
  refine piecewise_then (ask_inTurns rfl) fun apps => ?_
  exact piecewise_each fun app _ => piecewise_then deployAppWorkloads_inTurns fun _ => piecewise_pure

theorem reconcilePendingDeploys_inTurns : ∀ pending, InTurns R svc (reconcilePendingDeploys svc {} pending)
  | 0 => piecewise_pure
  | pending + 1 => by
    refine piecewise_then reconcileAll_inTurns fun _ => ?_
    refine piecewise_then (ask_inTurns rfl) ?_
    rintro (_ | _ | _)
    · exact piecewise_pure
    · exact reconcilePendingDeploys_inTurns pending
    · exact piecewise_pure

theorem runDeployReconcileLoop_inTurns (pending : Nat) : ∀ fuel, InTurns R svc (runDeployReconcileLoop svc {} pending fuel)
  | 0 => piecewise_pure
  | fuel + 1 => by
    refine piecewise_then (reconcilePendingDeploys_inTurns pending) ?_
    rintro (_ | _)
    · exact piecewise_pure
    refine piecewise_then (ask_inTurns rfl) ?_
    rintro (_ | _)
    · exact piecewise_pure
    · exact runDeployReconcileLoop_inTurns pending fuel

variable {w u : World R} {trace before after : List (Event TaskSig (World R))} {event : Event TaskSig (World R)}

/-- A restart that is allowed in a pass is allowed in the turn of a workload.
Where placement succeeds, this turn goes on to deploy the workload if the pause
before the restart fits in the time for the rollout and the node can be
reached, and only then. -/
theorem granted_restart_used_iff {pending fuel : Nat}
    (run : Run (World.machine R svc).Step (runDeployReconcileLoop svc {} pending fuel) w trace (.pure ()) u)
    (split : trace = before ++ event :: after) (granted : event.op.grants event.answer = true) :
    ∃ outer inner tail rest app x, before = outer ++ inner ∧ after = tail ++ rest ∧ WorkloadTurn svc app x (inner ++ event :: tail) ∧
      (PlacementSucceeds svc (inner ++ event :: tail) →
        ((∃ later ∈ tail, later.op.deploys app.metadata x) ↔
          PauseFits x (inner ++ event :: tail) ∧ NodeReached svc (inner ++ event :: tail))) := by
  have loud : ¬ event.op.uncounting = true := by
    obtain ⟨_, op, answer, _⟩ := event
    cases op with
    | takeRestart => exact nofun
    | _ => cases granted
  obtain ⟨outer, inner, tail, rest, first, last, app, x, valid, member, s, result, t, turn⟩ :=
    (runDeployReconcileLoop_inTurns pending fuel run).around split loud
  exact ⟨outer, inner, tail, rest, app, x, first, last, ⟨valid, member, s, result, t, turn⟩,
    deployOneWorkload_turn turn granted⟩

end Passes

/-- A workload that failed and waits before it is restarted, for longer than
its rollout may take or not. -/
def waitingApp (restartDelay : String) : App :=
  { imageApp "web" "api" "nginx" with
    workloads := [{ imageWorkload "api" "nginx" with
      lifecycle := some { restartDelay }, rollout := some { progressDeadline := "5s" } }] }

def World.failedOnce (restartDelay : String) : World instanceRuntime :=
  World.having (waitingApp restartDelay) (imageWorkload "api" "nginx") "a" .failed

/-- A turn of the loop over a workload with this delay: it ends, a restart is
granted in it, and all that is done in it passes a check. -/
def grantPlayed (restartDelay : String) (fine : Event TaskSig (World instanceRuntime) → Bool) : Option Bool :=
  let loop := runDeployReconcileLoop sampleService {} 1 1
  let choices := List.replicate 24 (World.smoothly "a")
  (loop.play (World.machine instanceRuntime sampleService) choices (World.failedOnce restartDelay)).bind fun _ =>
    (loop.trace (World.machine instanceRuntime sampleService) choices (World.failedOnce restartDelay)).map fun trace =>
      trace.any (fun event => event.op.grants event.answer) && trace.all fine

theorem exists_granted {restartDelay : String} {fine : Event TaskSig (World instanceRuntime) → Bool}
    (played : grantPlayed restartDelay fine = some true) :
    ∃ (u : World instanceRuntime) (before after : List (Event TaskSig (World instanceRuntime)))
      (event : Event TaskSig (World instanceRuntime)),
      Run (World.machine instanceRuntime sampleService).Step (runDeployReconcileLoop sampleService {} 1 1)
        (World.failedOnce restartDelay) (before ++ event :: after) (.pure ()) u ∧
        event.op.grants event.answer = true ∧ ∀ other ∈ before ++ event :: after, fine other = true := by
  obtain ⟨⟨u, _⟩, ended, traced⟩ := Option.bind_eq_some_iff.mp played
  obtain ⟨trace, followed, both⟩ := Option.map_eq_some_iff.mp traced
  rw [Bool.and_eq_true, List.any_eq_true, List.all_eq_true] at both
  obtain ⟨⟨event, member, granted⟩, all⟩ := both
  obtain ⟨before, after, rfl⟩ := List.append_of_mem member
  exact ⟨u, before, after, event, run_of_play ended followed, granted, all⟩

/-- The turn of a workload that waits for a second before it is restarted. -/
theorem granted_restart_used_after_pause :
    ∃ (u : World instanceRuntime) (before after : List (Event TaskSig (World instanceRuntime)))
      (event : Event TaskSig (World instanceRuntime)) (app : App) (x : Workload)
      (inner tail : List (Event TaskSig (World instanceRuntime))),
      Run (World.machine instanceRuntime sampleService).Step (runDeployReconcileLoop sampleService {} 1 1)
        (World.failedOnce "1s") (before ++ event :: after) (.pure ()) u ∧ event.op.grants event.answer = true ∧
        WorkloadTurn sampleService app x (inner ++ event :: tail) ∧
        (PlacementSucceeds sampleService (inner ++ event :: tail) →
          ((∃ later ∈ tail, later.op.deploys app.metadata x) ↔
            PauseFits x (inner ++ event :: tail) ∧ NodeReached sampleService (inner ++ event :: tail))) := by
  have played : grantPlayed "1s" (fun _ => true) = some true := by decide +kernel
  obtain ⟨u, before, after, event, run, granted, -⟩ := exists_granted played
  obtain ⟨outer, inner, tail, rest, app, x, -, -, turn, used⟩ := granted_restart_used_iff run rfl granted
  exact ⟨u, before, after, event, app, x, inner, tail, run, granted, turn, used⟩

/-- A pause longer than the rollout may take: the restart is allowed and
nothing is deployed. -/
theorem granted_restart_wasted :
    ¬ ∀ (svc : Service) (pending fuel : Nat) (w u : World instanceRuntime)
      (before after : List (Event TaskSig (World instanceRuntime))) (event : Event TaskSig (World instanceRuntime)),
      Run (World.machine instanceRuntime svc).Step (runDeployReconcileLoop svc {} pending fuel) w (before ++ event :: after)
        (.pure ()) u → event.op.grants event.answer = true →
        ∃ outer inner tail rest app x, before = outer ++ inner ∧ after = tail ++ rest ∧
          WorkloadTurn svc app x (inner ++ event :: tail) ∧ (PlacementSucceeds svc (inner ++ event :: tail) →
            ∃ later ∈ tail, later.op.deploys app.metadata x) := by
  intro used
  have played : grantPlayed "10s" (fun event => (event.op.decision event.before.fsm.nodeCapacity event.answer).isNone &&
      (event.op.call "a" event.answer).isNone) = some true := by decide +kernel
  obtain ⟨u, before, after, event, run, granted, idle⟩ := exists_granted played
  obtain ⟨outer, inner, tail, rest, app, x, rfl, rfl, -, deployed⟩ := used _ _ _ _ _ _ _ _ run granted
  have undecided : decided (inner ++ event :: tail) = none := by
    refine List.findSome?_eq_none_iff.mpr fun other member => ?_
    have inside : other ∈ outer ++ inner ++ event :: (tail ++ rest) := by
      simp only [List.mem_append, List.mem_cons] at member ⊢
      tauto
    exact Option.isNone_iff_eq_none.mp (Bool.and_eq_true_iff.mp (idle other inside)).1
  obtain ⟨later, member, deploys⟩ := deployed fun d found => by rw [undecided] at found; cases found
  have uncalled := (Bool.and_eq_true_iff.mp (idle later (by simp [member]))).2
  obtain ⟨_, op, answer, _⟩ := later
  cases op with
  | runtimeDeploy | dispatchWorkload => cases uncalled
  | _ => exact deploys

end Orch
