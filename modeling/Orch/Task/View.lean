import Orch.Effect.Ensures
import Orch.Task.Machine

namespace Orch

open Effect

/-- The part of the cluster that outlives a process: the replicated state and
the runtimes of each node. -/
structure View (R : Runtime) where
  fsm : Ledger
  runtimes : String → R.State

variable {R : Runtime}

namespace View

def setRuntime (v : View R) (node : String) (state : R.State) : View R :=
  { v with runtimes := Function.update v.runtimes node state }

@[simp] theorem setRuntime_same (v : View R) (node : String) (state : R.State) :
    (v.setRuntime node state).runtimes node = state :=
  Function.update_self ..

@[simp] theorem setRuntime_current (v : View R) (node : String) : v.setRuntime node (v.runtimes node) = v := by
  rw [setRuntime, Function.update_eq_self]

@[simp] theorem setRuntime_setRuntime (v : View R) (node : String) (s t : R.State) :
    (v.setRuntime node s).setRuntime node t = v.setRuntime node t := by
  simp only [setRuntime, Function.update_idem]

/-- What one action on a node can do to the replicated state and to the
runtimes there. -/
def LocalStep (self : String) : Steps TaskSig (View R) := fun v op answer u =>
  match op, answer with
  | .getDesiredDeployApp metadata, found => found = v.fsm.getDeployApp metadata ∧ u = v
  | .listDesiredDeployApps, apps => apps.Perm v.fsm.listDeployApps ∧ u = v
  | .getPreviousDeployApp metadata, found => found = v.fsm.previousDeployApp metadata ∧ u = v
  | .getWorkloadAssignment key, found => found = v.fsm.getAssignment key ∧ u = v
  | .choosePlacement workload, chosen => chosen = Orch.choosePlacement workload v.fsm.nodeCapacity self ∧ u = v
  | .apply _ command, result =>
    (result = .ok () ∧ u = { v with fsm := v.fsm.update command }) ∨
      (result ≠ .ok () ∧ (u = v ∨ u = { v with fsm := v.fsm.update command }))
  | .runtimeDeploy _ metadata workload, result =>
    ∃ state, R.Deploys (v.runtimes self) metadata workload result state ∧ u = v.setRuntime self state
  | .runtimeStop _ kind metadata name, result =>
    ∃ state, R.Stops (v.runtimes self) kind metadata name result state ∧ u = v.setRuntime self state
  | .dispatchWorkload _ _ _ _, _ => True
  | .dispatchStop _ _ _ _, _ => True
  | _, _ => u = v

end View

/-- The actions that change neither the replicated state nor a runtime and
take no time of their own. -/
def TaskOp.quiet : TaskOp → Bool
  | .apply _ _ => false
  | .sleep _ _ => false
  | .runtimeDeploy _ _ _ => false
  | .runtimeStop _ _ _ _ => false
  | .dispatchWorkload _ _ _ _ => false
  | .dispatchStop _ _ _ _ => false
  | _ => true

def TaskOp.awaits : TaskOp → Bool
  | .waitLocalLeader => true
  | .pollReconcileSignal => true
  | .waitReconcileTrigger => true
  | _ => false

abbrev Accepting {R : Runtime} (step : Steps TaskSig (View R)) : Prop :=
  ∀ {v ctx command result u}, step v (.apply ctx command) result u → result = .ok ()

abbrev Tame {α : Type} (p : Task α) : Prop := p.Asks fun op : TaskOp => op.quiet = true ∧ op.awaits = false

variable {op : TaskOp} {answer : op.Answer}

theorem View.LocalStep.quiet {self : String} {v u : View R}
    (taken : LocalStep self v op answer u) (quiet : op.quiet = true) : u = v := by
  cases op with
  | apply | sleep | runtimeDeploy | runtimeStop | dispatchWorkload | dispatchStop => cases quiet
  | getDesiredDeployApp | listDesiredDeployApps | getPreviousDeployApp | getWorkloadAssignment | choosePlacement =>
    exact taken.2
  | _ => exact taken

variable {w u : World R}

namespace World

def view (w : World R) : View R := ⟨w.fsm.toLedger, w.runtimes⟩

/-- An action on the node itself is one that a view allows. -/
theorem view_performLocal {self : String} {c : LocalChoice R}
    (taken : w.performLocal self op c = some (u, answer)) : View.LocalStep self w.view op answer u.view := by
  cases op with
  | listDesiredDeployApps =>
    simp only [performLocal, listDesired, Option.map_eq_some_iff, Prod.mk.injEq] at taken
    obtain ⟨apps, listed, rfl, rfl⟩ := taken
    split at listed
    · cases listed
      exact ⟨.refl _, rfl⟩
    · split at listed
      · rename_i permuted
        cases listed
        exact ⟨List.isPerm_iff.mp permuted, rfl⟩
      · cases listed
  | apply ctx command =>
    have same := Option.some.inj taken
    rcases (w.drift c).applyCommand_cases self ctx command c with ⟨err, outcome⟩ | ⟨_ | _, outcome⟩ <;>
      rw [outcome] at same <;> cases same
    · exact .inr ⟨by simp, .inl rfl⟩
    · exact .inr ⟨by simp, .inr rfl⟩
    · exact .inl ⟨rfl, rfl⟩
  | runtimeDeploy ctx metadata workload =>
    simp only [performLocal, Option.map_eq_some_iff] at taken
    obtain ⟨⟨state, result⟩, deployed, rfl, rfl⟩ := taken
    exact ⟨state, ⟨c.runtime, deployed⟩, rfl⟩
  | runtimeStop ctx kind metadata name =>
    simp only [performLocal, Option.map_eq_some_iff] at taken
    obtain ⟨⟨state, result⟩, stopped, rfl, rfl⟩ := taken
    exact ⟨state, ⟨c.runtime, stopped⟩, rfl⟩
  | getDesiredDeployApp | getPreviousDeployApp | getWorkloadAssignment | choosePlacement =>
    cases taken
    exact ⟨rfl, rfl⟩
  | dispatchWorkload | dispatchStop => cases taken
  | _ =>
    have frame := performLocal_frame taken
    exact show u.view = w.view by rw [view, view, frame.fsm rfl, frame.runtimes rfl]

end World

variable {told : (op : TaskOp) → op.Answer → Prop}

theorem heeds_ask {kind : TaskOp → Prop}
    {post : op.Answer → Prop} (right : kind op) (after : ∀ answer, told op answer → post answer) :
    Heeds (S := TaskSig) told kind post (ask op) :=
  heeds_perform (S := TaskSig) right after

theorem heeds_asked {kind : TaskOp → Prop} (right : kind op) :
    Heeds (S := TaskSig) told kind (fun _ => True) (ask op) :=
  heeds_ask right fun _ _ => trivial

theorem ensures_ask {σ : Type} {step : Steps TaskSig σ} {permit : σ → TaskOp → Prop}
    {post : op.Answer → σ → Prop} {s : σ} (permitted : permit s op)
    (after : ∀ (answer : op.Answer) t, step s op answer t → post answer t) : Ensures step permit post (ask op) s :=
  ⟨permitted, after⟩

variable {v : View R}

section Quiet

variable {self : String} {step : Steps TaskSig (View R)} {permit : View R → TaskOp → Prop}
variable (within : step.Within (View.LocalStep self))
variable (free : ∀ v op, op.quiet = true → permit v op)
include within free

theorem ensures_ask_quiet {post : op.Answer → View R → Prop} (quiet : op.quiet = true)
    (after : ∀ answer, step v op answer v → post answer v) : Ensures step permit post (ask op) v := by
  refine ensures_ask (free v op quiet) ?_
  intro answer u taken
  obtain rfl := (within taken).quiet quiet
  exact after answer taken

theorem Tame.ensures {α : Type} {p : Task α} {post : α → View R → Prop} (tame : Tame p)
    (after : ∀ a, post a v) : Ensures step permit post p v := by
  induction p with
  | pure value => exact after value
  | call op next ih =>
    refine ⟨free v op tame.1.1, ?_⟩
    intro answer u taken
    obtain rfl := (within taken).quiet tame.1.1
    exact ih answer (tame.2 answer)

variable {metadata : Metadata} {post : Unit → View R → Prop}

theorem stopWorkloadHealthMonitor_ensures {name : String} (after : post () v) :
    Ensures step permit post (stopWorkloadHealthMonitor metadata name) v := by
  unfold stopWorkloadHealthMonitor
  by_cases blank : assignmentKey metadata name = ""
  · rw [if_pos blank]
    exact after
  · rw [if_neg blank]
    exact ensures_ask_quiet within free rfl fun _ _ => after

theorem deleteRecord_ensures {name : String} (after : post () v) :
    Ensures step permit post (deleteRecord name) v := by
  unfold deleteRecord
  by_cases blank : trimSpace name = ""
  · rw [if_pos blank]
    exact after
  · rw [if_neg blank]
    exact ensures_ask_quiet within free rfl fun _ _ => after

variable {workload : Workload} {node : String}

theorem upsertRecord_ensures {status : AssignmentStatus} (after : post () v) :
    Ensures step permit post (upsertRecord workload node status) v :=
  ensures_ask_quiet within free rfl fun _ _ => after

theorem startLocalWorkloadHealthMonitor_ensures {svc : Service} {app : App} {generation address : String}
    (after : post () v) :
    Ensures step permit post (startLocalWorkloadHealthMonitor svc app workload node generation address) v := by
  simp only [startLocalWorkloadHealthMonitor]
  split
  · exact after
  · rw [ensures_bind]
    exact ensures_ask_quiet within free rfl fun _ _ => after

theorem stopLocalWorkload_ensures {ctx : Ctx} {post : Check → View R → Prop}
    (allowed : permit v (.runtimeStop ctx workload.runtime metadata workload.name))
    (failed : ∀ cause err u, step v (.runtimeStop ctx workload.runtime metadata workload.name) (.error cause) u → post (.error err) u)
    (stopped : ∀ u, step v (.runtimeStop ctx workload.runtime metadata workload.name) (.ok ()) u → post (.ok ()) u) :
    Ensures step permit post (stopLocalWorkload ctx metadata workload) v := by
  rw [stopLocalWorkload, ensures_bind]
  refine stopWorkloadHealthMonitor_ensures within free ?_
  rw [ensures_bind]
  refine ensures_ask allowed ?_
  rintro (err | _) u taken
  · exact failed err _ u taken
  · rw [ensures_bind]
    refine deleteRecord_ensures within free ?_
    exact stopped u taken

/-- A start fails, becomes ready, or is taken back. -/
theorem runLocalWorkload_ensures {ctx : Ctx} {post : Except Failure WorkloadRunResult → View R → Prop}
    (allowed : permit v (.runtimeDeploy ctx metadata workload))
    (stoppable : ∀ u, permit u (.runtimeStop ctx workload.runtime metadata workload.name))
    (failed : ∀ cause err u, step v (.runtimeDeploy ctx metadata workload) (.error cause) u → post (.error err) u)
    (ready : ∀ address u, step v (.runtimeDeploy ctx metadata workload) (.ok ()) u → post (.ok ⟨.running, address⟩) u)
    (unready : ∀ probe address err result u t, step v (.runtimeDeploy ctx metadata workload) (.ok ()) u →
      step u (.awaitReadiness ctx metadata workload probe address) (.error err) u →
      step u (.runtimeStop ctx workload.runtime metadata workload.name) result t → post (.error err) t) :
    Ensures step permit post (runLocalWorkload ctx metadata workload node) v := by
  rw [runLocalWorkload, deployLocalWorkload, ensures_bind, ensures_bind]
  refine ensures_ask allowed ?_
  rintro (err | _) u started
  · exact failed err _ u started
  rw [ensures_bind]
  refine upsertRecord_ensures within free ?_
  rw [ensures_pure, localWorkloadAddress, ensures_bind, ensures_bind]
  refine ensures_ask_quiet within free rfl ?_
  intro address _
  rw [ensures_pure, ensures_bind, waitWorkloadReadiness]
  cases workloadReadinessProbe workload with
  | none => exact ready _ u started
  | some probe =>
    refine ensures_ask_quiet within free rfl ?_
    rintro (err | _) answered
    · rw [ensures_bind]
      refine stopLocalWorkload_ensures within free (stoppable u) ?_ ?_
      · intro cause _ t taken
        exact unready probe _ err _ u t started answered taken
      · intro t taken
        exact unready probe _ err _ u t started answered taken
    · exact ready _ u started

end Quiet

def TaskOp.dispatches : TaskOp → Bool
  | .dispatchWorkload _ _ _ _ => true
  | .dispatchStop _ _ _ _ => true
  | _ => false

namespace World

theorem step_iff {svc : Service} :
    (machine R svc).Step w op answer u ↔ ∃ c : Choice R, w.perform svc op c = some (u, answer) :=
  Iff.rfl

theorem perform_eq_performLocal {svc : Service} {w : World R} {c : Choice R}
    (here : op.dispatches = false) : w.perform svc op c = w.performLocal svc.localNode op c.toLocalChoice := by
  cases op with
  | dispatchWorkload | dispatchStop => cases here
  | _ => rfl

theorem view_localStep {svc : Service}
    (taken : (machine R svc).Step w op answer u) : View.LocalStep svc.localNode w.view op answer u.view := by
  obtain ⟨c, taken⟩ := step_iff.mp taken
  cases op with
  | dispatchWorkload | dispatchStop => trivial
  | _ =>
    rw [perform_eq_performLocal rfl] at taken
    exact view_performLocal taken

theorem serve_keeps {α : Type} {self : String} {handler : Task α} (inv : Option α → World R → Prop)
    (kept : ∀ before w, inv before w →
      Ensures (localMachine R self).Step anything (fun reply u => inv (some reply) u) handler w) :
    ∀ {attempts : List (List (LocalChoice R))} {w u : World R} {before reply : Option α},
      inv before w → serve self handler attempts w before = some (u, reply) → inv reply u
  | [], w, u, before, reply, start, served => by
    cases served
    exact start
  | choices :: rest, w, u, before, reply, start, served => by
    rw [serve] at served
    split at served
    · cases served
    · rename_i after answer played
      refine serve_keeps inv kept ?_ served
      exact (kept before w start).finishes (finishes_of_play played)

end World

variable {svc : Service} {node : String}

theorem Service.worker_localNode {worker : Service} (found : svc.worker node = some worker) :
    worker.localNode = trimSpace node := by
  unfold Service.worker at found
  split at found
  · cases found
  · cases found
    rfl

variable {result : Except Failure DispatchResult}

/-- A dispatched call keeps what the worker's handler keeps. -/
theorem World.executeWorker_keeps {α : Type} {action name : String}
    {handler : Service → Task (Except Failure α)} {decode : α → DispatchResult} {c : Choice R}
    (inv : Option (Except Failure α) → World R → Prop)
    (kept : ∀ worker : Service, worker.localNode = trimSpace node → ∀ before w, inv before w →
      Ensures (localMachine R (trimSpace node)).Step anything (fun reply u => inv (some reply) u) (handler worker) w)
    (start : inv none (w.drift c.toLocalChoice))
    (taken : w.executeWorker svc action node name handler decode c = some (u, result)) :
    (svc.nodeURL node = none → u = w.drift c.toLocalChoice) ∧ ∃ reply, inv reply u ∧ ∀ done, result = .ok done →
      ∃ value, reply = some (.ok value) ∧ done = decode value ∧ (svc.nodeURL node).isSome := by
  simp only [executeWorker] at taken
  split at taken
  · rename_i url worker reachable found
    have here := Service.worker_localNode found
    rw [here] at taken
    split at taken
    · cases taken
    · rename_i after reply served
      have holds := serve_keeps inv (kept worker here) start served
      refine ⟨fun nowhere => absurd (nowhere.symm.trans reachable) (by simp), reply, ?_⟩
      split at taken <;> cases taken
      · exact ⟨holds, fun done same => ⟨_, rfl, by cases same; rfl, by simp [reachable]⟩⟩
      · exact ⟨holds, by simp⟩
      · exact ⟨holds, by simp⟩
  · cases taken
    exact ⟨fun _ => rfl, none, start, by simp⟩

theorem World.view_executeWorker {α : Type} {action name : String}
    {handler : Service → Task (Except Failure α)} {decode : α → DispatchResult} {c : Choice R}
    (inv : Option (Except Failure α) → View R → Prop)
    (kept : ∀ worker before v, inv before v →
      Ensures (View.LocalStep (trimSpace node)) anything (fun reply u => inv (some reply) u) (handler worker) v)
    (start : inv none w.view) (taken : w.executeWorker svc action node name handler decode c = some (u, result)) :
    (svc.nodeURL node = none → u.view = w.view) ∧ ∃ reply, inv reply u.view ∧ ∀ done, result = .ok done →
      ∃ value, reply = some (.ok value) ∧ done = decode value ∧ (svc.nodeURL node).isSome := by
  have ran := executeWorker_keeps (fun reply w => inv reply w.view)
    (fun worker _ before w holds => (kept worker before w.view holds).simulate fun ⟨_, taken⟩ => view_performLocal taken)
    (by exact start) taken
  exact ⟨fun nowhere => by rw [ran.1 nowhere]; rfl, ran.2⟩

end Orch
