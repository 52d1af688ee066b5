import Orch.Effect.Rounds
import Orch.Task.Instances
import Orch.Task.RecordSpecs
import Orch.Task.Walks

namespace Orch

open Effect

/-- A call that stops or starts a workload, and whether it succeeded. -/
inductive Call where
  | stop (id : WorkloadId) (ok : Bool)
  | start (id : WorkloadId) (node : String) (ok : Bool)
deriving DecidableEq

def Call.stopped : Call → Option WorkloadId
  | .stop id _ => some id
  | .start _ _ _ => none

def Call.started : Call → Option WorkloadId
  | .stop _ _ => none
  | .start id _ _ => some id

def Call.id : Call → WorkloadId
  | .stop id _ => id
  | .start id _ _ => id

/-- What placement answered for a workload, and the catalog it answered from. -/
structure Decision where
  workload : Workload
  catalog : Table Snapshot
  chosen : Except Failure String

/-- The calls and the placement decisions of a run so far. -/
structure Journal where
  calls : List Call := []
  decisions : List Decision := []

def TaskOp.call (self : String) : (op : TaskOp) → op.Answer → Option Call
  | .runtimeStop _ _ metadata name, result => some (.stop (workloadId metadata name) result.isOk)
  | .dispatchStop _ _ metadata workload, result => some (.stop (workloadId metadata workload.name) result.isOk)
  | .runtimeDeploy _ metadata workload, result => some (.start (workloadId metadata workload.name) self result.isOk)
  | .dispatchWorkload _ node metadata workload, result =>
    some (.start (workloadId metadata workload.name) (trimSpace node) result.isOk)
  | _, _ => none

def TaskOp.decision (catalog : Table Snapshot) : (op : TaskOp) → op.Answer → Option Decision
  | .choosePlacement workload, chosen => some ⟨workload, catalog, chosen⟩
  | _, _ => none

def Journal.jot (self : String) (j : Journal) (event : Event TaskSig Scene) : Journal where
  calls := j.calls ++ (event.op.call self event.answer).toList
  decisions := j.decisions ++ (event.op.decision event.before.fsm.nodeCapacity event.answer).toList

def World.journal (svc : Service) (trace : List (Event TaskSig (World instanceRuntime))) : Journal where
  calls := trace.filterMap fun event => event.op.call svc.localNode event.answer
  decisions := trace.filterMap fun event => event.op.decision event.before.fsm.nodeCapacity event.answer

abbrev Journaling (svc : Service) (step : Steps TaskSig Scene) :
    Steps TaskSig (Scene × Journal) :=
  Noting step (Journal.jot svc.localNode)

private theorem foldl_jot {svc : Service} (trace : List (Event TaskSig (World instanceRuntime))) (j : Journal) :
    trace.foldl (fun j event => j.jot svc.localNode ⟨event.before.view, event.op, event.answer, event.after.view⟩) j =
      ⟨j.calls ++ (World.journal svc trace).calls, j.decisions ++ (World.journal svc trace).decisions⟩ := by
  induction trace generalizing j with
  | nil => simp [World.journal]
  | cons event rest ih =>
    rw [List.foldl_cons, ih]
    have calls : (World.journal svc (event :: rest)).calls =
        (event.op.call svc.localNode event.answer).toList ++ (World.journal svc rest).calls := by
      simp only [World.journal, List.filterMap_cons]
      cases event.op.call svc.localNode event.answer <;> rfl
    have decisions : (World.journal svc (event :: rest)).decisions =
        (event.op.decision event.before.fsm.nodeCapacity event.answer).toList ++ (World.journal svc rest).decisions := by
      simp only [World.journal, List.filterMap_cons]
      cases event.op.decision event.before.fsm.nodeCapacity event.answer <;> rfl
    simp only [Journal.jot, calls, decisions, List.append_assoc]
    rfl

def World.written (s : World instanceRuntime × Journal) : Scene × Journal := (s.1.view, s.2)

theorem World.logged {svc : Service} {α : Type} {p : Task α} {fine : Steps TaskSig (World instanceRuntime)}
    {step : Steps TaskSig Scene} {post : α → Scene × Journal → Prop}
    {w u : World instanceRuntime} {trace : List (Event TaskSig (World instanceRuntime))} {a : α}
    (seen : ∀ {w op answer u}, fine w op answer u → step w.view op answer u.view)
    (ensured : Ensures (Journaling svc step) anything post p (w.view, {})) (run : Run fine p w trace (pure a) u) :
    post a (u.view, World.journal svc trace) := by
  let note (j : Journal) (event : Event TaskSig (World instanceRuntime)) : Journal :=
    j.jot svc.localNode ⟨event.before.view, event.op, event.answer, event.after.view⟩
  have simulated {s op answer t} (taken : Noting fine note s op answer t) :
      Journaling svc step (written s) op answer (written t) := ⟨seen taken.1, taken.2⟩
  have kept : Ensures (Noting fine note) anything (fun a t => post a (written t)) p (w, {}) :=
    (Ensures.simulate @simulated (s := (w, {})) ensured).permitting fun _ _ _ => trivial
  have last := kept.noting_run run
  rw [foldl_jot] at last
  simp only [List.nil_append] at last
  exact last

/-- The documents and the assignments of a ledger. -/
structure Records where
  deployApps : Table App
  assignments : Table Assignment

def Ledger.records (f : Ledger) : Records := ⟨f.deployApps, f.assignments⟩

def Records.getAssignment (r : Records) (key : String) : Option Assignment := r.assignments.lookup (trimSpace key)

/-- Records in which only one workload has been recorded anew. What stands
there at last is known if its proposal was accepted. -/
structure Records.Recorded (accepted : Prop) (a : Assignment) (r t : Records) : Prop where
  documents : t.deployApps = r.deployApps
  others : ∀ key, trimSpace key ≠ a.key → t.getAssignment key = r.getAssignment key
  own : accepted → t.getAssignment a.key = some a

theorem Records.Recorded.trans {accepted : Prop} {a b : Assignment} {r s t : Records} (first : Recorded accepted a r s)
    (second : Recorded accepted b s t) (same : a.key = b.key) : Recorded accepted b r t where
  documents := second.documents.trans first.documents
  others key other := (second.others key other).trans (first.others key (same ▸ other))
  own := second.own

theorem TaskOp.call_of_idle {self : String} {op : TaskOp} (idle : op.idle = true) (answer : op.Answer) :
    op.call self answer = none := by
  cases op with
  | runtimeStop | runtimeDeploy | dispatchStop | dispatchWorkload => cases idle
  | _ => rfl

theorem View.Step.records_of_idle {svc : Service} {v u : Scene} {op : TaskOp} {answer : op.Answer}
    (taken : View.Step svc v op answer u) (idle : op.idle = true) : u.fsm.records = v.fsm.records := by
  rcases taken.fsm with same | ⟨ctx, command, rfl, updated⟩
  · rw [same]
  · rw [updated, Ledger.records, Ledger.deployApps_update, Ledger.assignments_update]
    cases command with
    | upsertNodeCapacity | upsertVolumeBinding => rfl
    | upsertDeployApp | deleteDeployApp | upsertWorkloadAssignment => cases idle

/-- Something holds of the records kept and the calls made. -/
abbrev Noted (P : Records → List Call → Prop) (t : Scene × Journal) : Prop := P t.1.fsm.records t.2.calls

section Logging

variable {svc : Service} {step : Steps TaskSig Scene}
variable (within : step.Within (View.Step svc))
variable {metadata : Metadata} {app : App} {workload : Workload} {ctx : Ctx} {generation : String}
variable {s : Scene × Journal}
include within

theorem lasting_logged {P : Records → List Call → Prop} : Lasting (Journaling svc step) anything (Noted P) := by
  intro s op held idle
  refine ensures_ask trivial ?_
  rintro answer t ⟨taken, noted⟩
  have calls : t.2.calls = s.2.calls := by
    rw [noted]
    simp [Journal.jot, TaskOp.call_of_idle idle]
  rw [Noted, (within taken).records_of_idle idle, calls]
  exact held

theorem ask_logged (op : TaskOp) {Q : op.Answer → Records → List Call → Prop} (silent : op.proposes = false)
    (after : ∀ (answer : op.Answer) v u, step v op answer u →
      Q answer s.1.fsm.records (s.2.calls ++ (op.call svc.localNode answer).toList)) :
    Ensures (Journaling svc step) anything (fun answer => Noted (Q answer)) (ask op) s := by
  refine ensures_ask trivial ?_
  rintro answer t ⟨taken, noted⟩
  rcases (within taken).fsm with same | ⟨ctx, command, proposed, -⟩
  · rw [Noted, same, noted]
    exact after answer _ _ taken
  · rw [proposed] at silent
    cases silent

theorem stopHealthMonitor_logged {P : Records → List Call → Prop} {key : String} (held : Noted P s) :
    Ensures (Journaling svc step) anything (fun _ => Noted P) (ask (.stopHealthMonitor key)) s := by
  refine ask_logged within (.stopHealthMonitor key) (Q := fun _ => P) rfl fun _ _ _ _ => ?_
  exact (List.append_nil s.2.calls).symm ▸ held

variable {accepted : Prop}
variable (accepts : accepted → ∀ {v ctx command result u}, step v (.apply ctx command) result u → result = .ok ())

section Recording

include accepts

theorem recording_logged {node address : String} {status : AssignmentStatus} {error : Option Failure}
    (proper : Proper metadata workload) :
    Ensures (Journaling svc step) anything
      (fun _ t => s.1.fsm.records.Recorded accepted (assignmentRecord metadata workload node status generation error address
        (artifactSummary workload.run)) t.1.fsm.records ∧ t.2.calls = s.2.calls)
      (ask (recording ctx metadata workload node status generation error address)) s := by
  refine ensures_ask trivial ?_
  rintro result t ⟨taken, noted⟩
  have calls : t.2.calls = s.2.calls := by
    rw [noted]
    exact List.append_nil _
  refine ⟨?_, calls⟩
  have updated : s.1.fsm.records.Recorded accepted (assignmentRecord metadata workload node status generation error address
      (artifactSummary workload.run)) (s.1.record (assignmentRecord metadata workload node status generation error address
        (artifactSummary workload.run))).fsm.records := by
    refine ⟨rfl, fun key other => View.record_getAssignment_other other, fun _ => View.record_getAssignment ?_⟩
    exact trimSpace_assignmentKey ..
  rcases (within taken).local with ⟨-, after⟩ | ⟨refused, after | after⟩
  · rw [after, Ledger.update_assignmentRecord proper.named proper.present]
    exact updated
  · rw [after]
    exact ⟨rfl, fun _ _ => rfl, fun sure => absurd (accepts sure taken) refused⟩
  · rw [after, Ledger.update_assignmentRecord proper.named proper.present]
    exact updated

theorem recordWorkload_logged {node address : String} {status : AssignmentStatus} {binding : BindingStatus}
    {error : Option Failure} (proper : Proper app.metadata workload) :
    Ensures (Journaling svc step) anything
      (fun _ t => s.1.fsm.records.Recorded accepted (assignmentRecord app.metadata workload node status generation error address
        (artifactSummary workload.run)) t.1.fsm.records ∧ t.2.calls = s.2.calls)
      (recordWorkload ctx app workload node status binding generation error address) s := by
  refine recordWorkload_walk proper ?_ (recording_logged within accepts proper)
  exact lasting_logged within (P := fun r calls => s.1.fsm.records.Recorded accepted (assignmentRecord app.metadata workload
    node status generation error address (artifactSummary workload.run)) r ∧ calls = s.2.calls)

end Recording

theorem stopWorkload_logged (proper : Proper metadata workload) :
    Ensures (Journaling svc step) anything
      (fun result t => t.1.fsm.records = s.1.fsm.records ∧
        (t.2.calls = s.2.calls ++ [.stop (workloadId metadata workload.name) result.isOk] ∨
          result.isOk = false ∧ t.2.calls = s.2.calls))
      (stopWorkload svc ctx metadata workload) s := by
  let untouched (r : Records) (calls : List Call) : Prop := r = s.1.fsm.records ∧ calls = s.2.calls
  let done (ok : Bool) (r : Records) (calls : List Call) : Prop := r = s.1.fsm.records ∧
    (calls = s.2.calls ++ [.stop (workloadId metadata workload.name) ok] ∨ ok = false ∧ calls = s.2.calls)
  have remote {node : String} {t : Scene × Journal} (held : Noted untouched t) :
      Ensures (Journaling svc step) anything (fun result => Noted (done result.isOk))
        (ask (.dispatchStop ctx node metadata workload)) t := by
    refine ask_logged within (.dispatchStop ctx node metadata workload) (Q := fun result => done result.isOk) rfl
      fun result v u _ => ⟨held.1, .inl ?_⟩
    rw [held.2]
    rfl
  have stopped {t : Scene × Journal} (held : Noted untouched t) :
      Ensures (Journaling svc step) anything (fun result => Noted (done result.isOk))
        (ask (.runtimeStop ctx workload.runtime metadata workload.name)) t := by
    refine ask_logged within (.runtimeStop ctx workload.runtime metadata workload.name) (Q := fun result => done result.isOk)
      rfl fun result v u _ => ⟨held.1, .inl ?_⟩
    rw [held.2]
    rfl
  rw [stopWorkload]
  refine (lasting_logged within (P := untouched)).then stopTargetNode_reads.idle ⟨rfl, rfl⟩ ?_
  intro node t held
  exact stopWorkloadOnNode_walk proper (fun ok => lasting_logged within (P := done ok)) ⟨held.1, .inr ⟨rfl, held.2⟩⟩
    (fun _ _ => remote held) (fun _ => stopHealthMonitor_logged within held) fun t _ held => stopped held

/-- What a start that fails may have called: nothing, the start, or the start
of what did not become ready and the stop that takes it back. -/
def Broken (id : WorkloadId) (node : String) (calls : List Call) : Prop :=
  calls = [] ∨ calls = [.start id node false] ∨ ∃ ok, calls = [.start id node true, .stop id ok]

theorem runLocalWorkload_logged {node : String} (proper : Proper metadata workload) :
    Ensures (Journaling svc step) anything
      (fun result t => t.1.fsm.records = s.1.fsm.records ∧ match result with
        | .ok ran =>
          ran.status = .running ∧ t.2.calls = s.2.calls ++ [.start (workloadId metadata workload.name) svc.localNode true]
        | .error _ => ∃ own, Broken (workloadId metadata workload.name) svc.localNode own ∧ t.2.calls = s.2.calls ++ own)
      (runLocalWorkload ctx metadata workload node) s := by
  let started (r : Records) (calls : List Call) : Prop := r = s.1.fsm.records ∧
    calls = s.2.calls ++ [.start (workloadId metadata workload.name) svc.localNode true]
  let failed (r : Records) (calls : List Call) : Prop := r = s.1.fsm.records ∧
    ∃ own, Broken (workloadId metadata workload.name) svc.localNode own ∧ calls = s.2.calls ++ own
  have deployed : Ensures (Journaling svc step) anything
      (fun result t => if result.isOk then Noted started t else Noted failed t)
      (ask (.runtimeDeploy ctx metadata workload)) s := by
    refine ask_logged within (.runtimeDeploy ctx metadata workload)
      (Q := fun result r calls => if result.isOk then started r calls else failed r calls) rfl ?_
    rintro (err | _) v u _
    · exact ⟨rfl, _, .inr (.inl rfl), rfl⟩
    · exact ⟨rfl, rfl⟩
  have stopped (t : Scene × Journal) (held : Noted started t) :
      Ensures (Journaling svc step) anything (fun _ => Noted failed)
        (ask (.runtimeStop ctx workload.runtime metadata workload.name)) t := by
    refine ask_logged within (.runtimeStop ctx workload.runtime metadata workload.name) (Q := fun _ => failed) rfl
      fun result v u _ => ⟨held.1, _, .inr (.inr ⟨result.isOk, rfl⟩), ?_⟩
    rw [held.2, List.append_assoc]
    rfl
  refine (runLocalWorkload_walk proper (lasting_logged within (P := started)) (lasting_logged within (P := failed)) deployed
    (fun _ => stopHealthMonitor_logged within) stopped).mono ?_
  rintro (err | ran) t held
  · exact held
  · exact ⟨held.2.1, held.1, held.2.2⟩

theorem runWorkloadOnNode_logged {node : String} (proper : Proper metadata workload) (clean : trimSpace node = node)
    (named : node ≠ "") :
    Ensures (Journaling svc step) anything
      (fun result t => t.1.fsm.records = s.1.fsm.records ∧ match result with
        | .ok ran => ran.status = .running ∧ t.2.calls = s.2.calls ++ [.start (workloadId metadata workload.name) node true]
        | .error _ => ∃ own, Broken (workloadId metadata workload.name) node own ∧ t.2.calls = s.2.calls ++ own)
      (runWorkloadOnNode svc ctx metadata workload node) s := by
  simp only [runWorkloadOnNode, clean]
  rw [if_neg named]
  by_cases here : node = svc.localNode
  · rw [if_pos here, here]
    exact runLocalWorkload_logged within proper
  · rw [if_neg here, ensures_bind, dispatchWorkload]
    split
    · exact ⟨rfl, [], .inl rfl, (List.append_nil _).symm⟩
    refine (ask_logged within (.dispatchWorkload ctx node metadata workload) (Q := fun result r calls => r = s.1.fsm.records ∧
      calls = s.2.calls ++ [.start (workloadId metadata workload.name) node result.isOk] ∧
        ∀ reply, result = .ok reply → reply.status = some .running) rfl ?_).bind ?_
    · intro result v u taken
      obtain ⟨value, -, -, told⟩ := within taken
      refine ⟨rfl, ?_, fun reply answered => (told reply answered).2⟩
      rw [TaskOp.call, clean]
      rfl
    rintro (err | reply) t ⟨records, calls, told⟩
    · exact ⟨records, _, .inr (.inl rfl), calls⟩
    refine (lasting_logged within (P := fun r calls => r = s.1.fsm.records ∧
      calls = s.2.calls ++ [.start (workloadId metadata workload.name) node true])).then (asks_perform rfl)
      ⟨records, calls⟩ fun _ u held => ⟨held.1, ?_, held.2⟩
    change reply.status.getD _ = _
    rw [told reply rfl]
    rfl

end Logging

end Orch
