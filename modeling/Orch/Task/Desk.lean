import Orch.Task.Marks
import Orch.Task.Reads
import Orch.Raft.Documents

namespace Orch

open Effect

theorem Ledger.papers_update (f : Ledger) (command : Command) : (f.update command).papers = (f.papers.update command).papers := by
  cases command with
  | upsertNodeCapacity | upsertWorkloadAssignment | deleteDeployApp =>
    simp only [update, applyNodeCapacity, applyWorkloadAssignment, applyDeleteDeployApp]
    split <;> rfl
  | upsertVolumeBinding binding => rfl
  | upsertDeployApp app =>
    simp only [update, applyDeployApp, papers]
    split
    · rfl
    · split
      · split
        · simp only [appendDeployAppRevision]
          split
          · rfl
          · split <;> rfl
        · rfl
      · rfl

/-- What the decisions about rollbacks rest on: the documents, and the marks
of the process that decides. -/
structure Desk where
  papers : Ledger
  marks : Marks

def World.desk {R : Runtime} (svc : Service) (w : World R) : Desk := ⟨w.fsm.toLedger.papers, w.marks svc.localNode⟩

def Desk.Step : Steps TaskSig Desk := fun d op answer e =>
  Marks.Step d.marks op answer e.marks ∧
    match op, answer with
    | .getDesiredDeployApp metadata, found => found = d.papers.getDeployApp metadata ∧ e.papers = d.papers
    | .getPreviousDeployApp metadata, found => found = d.papers.previousDeployApp metadata ∧ e.papers = d.papers
    | .apply _ command, result =>
      (command.files = true → result = .ok () → e.papers = (d.papers.update command).papers) ∧
        (e.papers = d.papers ∨ command.files = true ∧ e.papers = (d.papers.update command).papers)
    | _, _ => e.papers = d.papers

/-- Every action in the world is one that the desk allows. -/
theorem World.desk_step {svc : Service} {w u : World instanceRuntime} {op : TaskOp} {answer : op.Answer}
    (taken : (machine instanceRuntime svc).Step w op answer u) : Desk.Step (w.desk svc) op answer (u.desk svc) := by
  refine ⟨marks_step taken, ?_⟩
  have seen := view_step taken
  have ledger : u.view = w.view → (u.desk svc).papers = (w.desk svc).papers := by
    intro same
    exact congrArg (fun v => v.fsm.papers) same
  cases op with
  | getDesiredDeployApp | getPreviousDeployApp => exact ⟨seen.1, ledger seen.2⟩
  | listDesiredDeployApps | getWorkloadAssignment | choosePlacement => exact ledger seen.2
  | apply ctx command =>
    have filed : u.view = { w.view with fsm := w.view.fsm.update command } →
        (u.desk svc).papers = ((w.desk svc).papers.update command).papers := by
      intro same
      exact (congrArg (fun v => v.fsm.papers) same).trans (Ledger.papers_update ..)
    have either (after : u.view = { w.view with fsm := w.view.fsm.update command }) :
        (u.desk svc).papers = (w.desk svc).papers ∨
          command.files = true ∧ (u.desk svc).papers = ((w.desk svc).papers.update command).papers := by
      cases files : command.files with
      | true => exact .inr ⟨rfl, filed after⟩
      | false => exact .inl ((congrArg (fun v => v.fsm.papers) after).trans (Ledger.papers_unfiled _ files))
    rcases seen with ⟨rfl, after⟩ | ⟨failed, same | after⟩
    · exact ⟨fun _ _ => filed after, either after⟩
    · exact ⟨fun _ ok => absurd ok failed, .inl (ledger same)⟩
    · exact ⟨fun _ ok => absurd ok failed, either after⟩
  | runtimeDeploy | runtimeStop =>
    obtain ⟨state, -, same⟩ := seen
    exact congrArg (fun v => v.fsm.papers) same
  | dispatchWorkload | dispatchStop =>
    obtain ⟨value, same, -⟩ := seen
    exact congrArg (fun v => v.fsm.papers) same
  | _ => exact ledger seen

def TaskOp.aside : TaskOp → Bool
  | .apply _ command => !command.files
  | op => op.unmarked

theorem Desk.Step.aside {d e : Desk} {op : TaskOp} {answer : op.Answer} (taken : Desk.Step d op answer e)
    (aside : op.aside = true) : e = d := by
  obtain ⟨papers, marks⟩ := e
  obtain ⟨marked, filed⟩ := taken
  have unmarked : op.unmarked = true := by
    cases op with
    | apply => rfl
    | _ => exact aside
  obtain rfl := marked.unmarked unmarked
  cases op with
  | takeRestart | markAutoRollbackAttempt | suppressAutoRollback => cases unmarked
  | getDesiredDeployApp | getPreviousDeployApp =>
    obtain ⟨-, rfl⟩ := filed
    rfl
  | apply ctx command =>
    simp only [TaskOp.aside, Bool.not_eq_true'] at aside
    rcases filed with ⟨-, same | ⟨files, -⟩⟩
    · cases same
      rfl
    · cases aside.symm.trans files
  | _ =>
    cases filed
    rfl

def TaskOp.unfiled : TaskOp → Bool
  | .apply _ command => !command.files
  | _ => true

theorem TaskOp.unfiled_of_aside {op : TaskOp} (aside : op.aside = true) : op.unfiled = true := by
  cases op with
  | apply => exact aside
  | _ => rfl

abbrev Aside {α : Type} (p : Task α) : Prop := p.Asks fun op : TaskOp => op.aside = true

theorem Aside.ensures {α : Type} {p : Task α} {post : α → Desk → Prop} {d : Desk} {step : Steps TaskSig Desk}
    (within : ∀ {d op answer e}, step d op answer e → Desk.Step d op answer e) (aside : Aside p)
    (after : ∀ a, post a d) : Ensures step anything post p d :=
  aside.stays (fun _ _ => trivial) (fun aside taken => (within taken).aside aside) after

section Aside

variable {metadata : Metadata} {app : App} {workload : Workload} {ctx : Ctx} {generation : String}

variable {α : Type}

theorem Reads.aside {p : Task α} (reads : Reads p) : Aside p := by
  refine reads.mono ?_
  intro op looks
  cases op with
  | apply | takeRestart | markAutoRollbackAttempt | suppressAutoRollback => cases looks
  | _ => rfl

theorem Serves.aside {p : Task α} (serves : Serves p) : Aside p := by
  refine serves.mono ?_
  intro op plain
  cases op with
  | apply => cases plain
  | _ => exact plain

theorem aside_of_records {p : Task α} (records : p.Asks fun op : TaskOp => op.records = true) : Aside p := by
  refine records.mono ?_
  intro op kept
  cases op with
  | apply ctx command =>
    cases command with
    | upsertWorkloadAssignment | upsertVolumeBinding => rfl
    | _ => cases kept
  | _ => cases kept

theorem preflightDeploy_aside : Aside (preflightDeploy app) := preflightDeploy_reads.aside

theorem stopWorkloadHealthMonitor_aside {name : String} : Aside (stopWorkloadHealthMonitor metadata name) :=
  stopWorkloadHealthMonitor_asks fun _ => rfl

variable {node : String}

theorem recordWorkload_aside {address : String} {status : AssignmentStatus} {binding : BindingStatus}
    {error : Option Failure} :
    Aside (recordWorkload ctx app workload node status binding generation error address) :=
  aside_of_records recordWorkload_records

theorem skipStaleDeployFailure_aside {name : String} :
    Aside (skipStaleDeployFailure metadata name node generation) := skipStaleDeployFailure_reads.aside

variable {svc : Service}

theorem stopWorkloadOnNode_aside :
    Aside (stopWorkloadOnNode svc ctx metadata workload node) :=
  stopWorkloadOnNode_handles.serves.aside

theorem stopAppWorkloads_aside : Aside (stopAppWorkloads svc ctx app) := by
  unfold stopAppWorkloads
  split
  · trivial
  refine asks_eachUntil (fun workload => ?_) _
  refine asks_bind (asks_bind stopTargetNode_reads.aside fun _ => stopWorkloadOnNode_aside) ?_
  rintro (err | _) <;>
    exact asks_bind assignmentNodeOrEmpty_reads.aside fun _ => asks_bind recordWorkload_aside fun _ => trivial

end Aside

end Orch
