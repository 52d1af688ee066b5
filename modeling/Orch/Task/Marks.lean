import Orch.Task.Instances
import Orch.Task.Reads

namespace Orch

open Effect

/-- What a process remembers about its restarts and rollbacks. It is lost
with the process and never taken back before. -/
@[ext]
structure Marks where
  restartAttempts : Table Int := ∅
  autoRollbackAttempts : List String := []
  autoRollbackSuppressed : List String := []

def NodeTables.marks (n : NodeTables) : Marks := ⟨n.restartAttempts, n.autoRollbackAttempts, n.autoRollbackSuppressed⟩

def World.marks {R : Runtime} (w : World R) (node : String) : Marks := (w.tables node).marks

def Marks.attempts (m : Marks) (key : String) : Int := (m.restartAttempts.lookup key).getD 0

def TaskOp.unmarked : TaskOp → Bool
  | .takeRestart _ _ => false
  | .markAutoRollbackAttempt _ => false
  | .suppressAutoRollback _ => false
  | _ => true

def TaskOp.serves : TaskOp → Bool
  | .apply _ _ => false
  | op => op.unmarked

abbrev Serves {α : Type} (p : Task α) : Prop := p.Asks fun op : TaskOp => op.serves = true

variable {op : TaskOp}

theorem TaskOp.unmarked_of_serves (serves : op.serves = true) : op.unmarked = true := by
  cases op with
  | apply => cases serves
  | _ => exact serves

def Marks.Step : Steps TaskSig Marks := fun m op answer k =>
  match op, answer with
  | .takeRestart key maxRestarts, granted =>
    if maxRestarts > 0 ∧ m.attempts key ≥ maxRestarts then granted = false ∧ k = m
    else granted = true ∧ k = { m with restartAttempts := m.restartAttempts.insert key (m.attempts key + 1) }
  | .markAutoRollbackAttempt key, marked =>
    if key ∈ m.autoRollbackAttempts then marked = false ∧ k = m
    else marked = true ∧ k = { m with autoRollbackAttempts := key :: m.autoRollbackAttempts }
  | .suppressAutoRollback key, _ => k = { m with autoRollbackSuppressed := key :: m.autoRollbackSuppressed }
  | .autoRollbackIsSuppressed key, found => found = decide (key ∈ m.autoRollbackSuppressed) ∧ k = m
  | _, _ => k = m

theorem Marks.Step.unmarked {m k : Marks} {answer : op.Answer} (taken : Marks.Step m op answer k)
    (unmarked : op.unmarked = true) : k = m := by
  cases op with
  | takeRestart | markAutoRollbackAttempt | suppressAutoRollback => cases unmarked
  | autoRollbackIsSuppressed => exact taken.2
  | _ => exact taken

theorem Marks.attempts_insert {m : Marks} {key other : String} {count : Int} :
    Marks.attempts { m with restartAttempts := m.restartAttempts.insert key count } other =
      if other = key then count else m.attempts other := by
  unfold attempts
  split
  · rename_i same
    subst same
    rw [AList.lookup_insert]
    rfl
  · rename_i apart
    rw [AList.lookup_insert_ne apart]

variable {svc : Service}

namespace World

variable {R : Runtime}

variable {w : World R} {node : String}

theorem marks_updateTables {change : NodeTables → NodeTables}
    (same : (change (w.tables node)).marks = (w.tables node).marks) (n : String) :
    (w.updateTables node change).marks n = w.marks n := by
  simp only [marks, updateTables]
  rcases eq_or_ne n node with rfl | apart
  · rw [Function.update_self, same]
  · rw [Function.update_of_ne apart]

theorem marks_updateTables_same {change : NodeTables → NodeTables} :
    (w.updateTables node change).marks node = (change (w.tables node)).marks := by
  simp only [marks, updateTables, Function.update_self]

theorem marks_performLocal {self : String} {u : World R} {op : TaskOp} {c : LocalChoice R} {answer : op.Answer}
    (taken : w.performLocal self op c = some (u, answer)) (unmarked : op.unmarked = true) (n : String) :
    u.marks n = w.marks n := by
  cases op with
  | takeRestart | markAutoRollbackAttempt | suppressAutoRollback => cases unmarked
  | registerHealthMonitor | stopHealthMonitor | registryUpsert | registryDelete =>
    cases taken
    refine marks_updateTables ?_ n
    rfl
  | finishHealthMonitor key runID =>
    cases taken
    refine marks_updateTables ?_ n
    split
    · split <;> rfl
    · rfl
  | _ => rw [marks, marks, (performLocal_frame taken).tables rfl]

theorem marks_executeWorker {α : Type} {u : World R} {action name : String}
    {handler : Service → Task (Except Failure α)} {decode : α → DispatchResult} {c : Choice R}
    {result : Except Failure DispatchResult}
    (asks : ∀ worker, (handler worker).Asks fun op : TaskOp => op.unmarked = true) (n : String)
    (taken : w.executeWorker svc action node name handler decode c = some (u, result)) : u.marks n = w.marks n := by
  refine (executeWorker_keeps (fun _ u => u.marks n = w.marks n) ?_ rfl taken).2.elim fun _ kept => kept.1
  intro worker _ _ v same
  refine (asks worker).keeps ?_ same
  rintro s op answer t same unmarked ⟨c, taken⟩
  exact (marks_performLocal taken unmarked n).trans same

end World

section Workers

variable {metadata : Metadata} {workload : Workload} {ctx : Ctx}

theorem Handles.serves {α : Type} {p : Task α} {id : WorkloadId} (handles : Handles id p) : Serves p := by
  refine handles.mono ?_
  intro op kind
  cases op with
  | apply | takeRestart | markAutoRollbackAttempt | suppressAutoRollback => exact kind.elim
  | _ => rfl

variable {node : String}

theorem startLocalWorkloadHealthMonitor_serves {app : App} {generation address : String} :
    Serves (startLocalWorkloadHealthMonitor svc app workload node generation address) := by
  simp only [startLocalWorkloadHealthMonitor]
  split
  · trivial
  · exact asks_then rfl fun _ => trivial

theorem deployWorkerWorkload_serves {worker : Service} :
    Serves (deployWorkerWorkload worker ctx metadata workload node) := by
  unfold deployWorkerWorkload
  split
  · trivial
  refine asks_bind runLocalWorkload_handles.serves ?_
  rintro (err | result)
  · trivial
  refine asks_bind (asks_then rfl fun _ => trivial) fun app => ?_
  exact asks_bind startLocalWorkloadHealthMonitor_serves fun _ => trivial

theorem stopWorkerWorkload_serves {worker : Service} :
    Serves (stopWorkerWorkload worker ctx metadata workload node) := by
  have handles : Handles (workloadId metadata workload.name) (stopWorkerWorkload worker ctx metadata workload node) := by
    unfold stopWorkerWorkload
    split
    · trivial
    refine asks_bind (stopWorkloadHealthMonitor_asks fun _ => trivial) fun _ => asks_then rfl ?_
    rintro (err | _)
    · trivial
    · exact asks_bind (deleteRecord_asks fun _ => trivial) fun _ => trivial
  exact handles.serves

end Workers

/-- Every action in the world is one that the marks allow. -/
theorem World.marks_step {R : Runtime} {w u : World R} {answer : op.Answer}
    (taken : (machine R svc).Step w op answer u) :
    Marks.Step (w.marks svc.localNode) op answer (u.marks svc.localNode) := by
  obtain ⟨c, taken⟩ := step_iff.mp taken
  cases op with
  | dispatchWorkload =>
    exact marks_executeWorker (fun _ => deployWorkerWorkload_serves.mono fun _ => TaskOp.unmarked_of_serves) _ taken
  | dispatchStop =>
    exact marks_executeWorker (fun _ => stopWorkerWorkload_serves.mono fun _ => TaskOp.unmarked_of_serves) _ taken
  | takeRestart key maxRestarts =>
    simp only [perform, performLocal, takeRestart, Option.some.injEq] at taken
    simp only [Marks.Step]
    split at taken <;> rename_i exhausted <;> cases taken
    · rw [if_pos (by exact exhausted)]
      exact ⟨rfl, rfl⟩
    · rw [if_neg (by exact exhausted), marks_updateTables_same]
      exact ⟨rfl, rfl⟩
  | markAutoRollbackAttempt key =>
    simp only [perform, performLocal, markAutoRollbackAttempt, Option.some.injEq] at taken
    simp only [Marks.Step]
    split at taken <;> rename_i marked <;> cases taken
    · rw [if_pos (by exact marked)]
      exact ⟨rfl, rfl⟩
    · rw [if_neg (by exact marked), marks_updateTables_same]
      exact ⟨rfl, rfl⟩
  | suppressAutoRollback key =>
    cases taken
    exact marks_updateTables_same
  | autoRollbackIsSuppressed key =>
    cases taken
    exact ⟨rfl, rfl⟩
  | _ =>
    rw [perform_eq_performLocal rfl] at taken
    exact marks_performLocal taken rfl _

/-- What a service sees of the cluster, and what it remembers. -/
structure Books where
  view : Scene
  marks : Marks

def World.books (svc : Service) (w : World instanceRuntime) : Books := ⟨w.view, w.marks svc.localNode⟩

def Books.Step (svc : Service) : Steps TaskSig Books := fun b op answer c =>
  View.Step svc b.view op answer c.view ∧ Marks.Step b.marks op answer c.marks

theorem World.books_step {w u : World instanceRuntime} {answer : op.Answer}
    (taken : (machine instanceRuntime svc).Step w op answer u) :
    Books.Step svc (w.books svc) op answer (u.books svc) :=
  ⟨view_step taken, marks_step taken⟩

end Orch
