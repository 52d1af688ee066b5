import Orch.Task.Progress
import Orch.Task.Lifecycle
import Orch.Task.RecordSpecs

namespace Orch

open Effect

def stopTarget (svc : Service) (f : Ledger) (metadata : Metadata) (workloadName : String) : String :=
  let node := trimSpace (f.recordedNode metadata workloadName)
  if node ≠ "" then node else svc.localNode

/-- A stop for that node leaves this one: it is this node, or its worker API
is known. -/
def Service.delivers (svc : Service) (node : String) : Prop :=
  node = svc.localNode ∨ svc.dispatcher = true ∧ (svc.nodeURL node).isSome

def View.StopAt (v : Scene) (node : String) (kind : RuntimeKind) (id : WorkloadId) (result : Check)
    (u : Scene) : Prop :=
  ∃ value, u = v.setRunning node kind id value ∧ (value = true → v.running node kind id = true) ∧
    (result = .ok () → value = false)

theorem currentNode_eq (svc : Service) (f : Ledger) (metadata : Metadata) (name : String) :
    (if trimSpace (((f.getAssignment (assignmentKey metadata name)).map Assignment.node).getD "") = "" then svc.localNode
      else trimSpace (((f.getAssignment (assignmentKey metadata name)).map Assignment.node).getD "")) =
      stopTarget svc f metadata name := by
  rw [stopTarget, Ledger.recordedNode]
  cases f.getAssignment (assignmentKey metadata name) <;> simp

theorem stopTarget_trimmed (svc : Service) (f : Ledger) (metadata : Metadata) (name : String) :
    trimSpace (stopTarget svc f metadata name) = stopTarget svc f metadata name := by
  simp only [stopTarget]
  split
  · exact trimSpace_trimSpace _
  · exact svc.trimmed

theorem stopTarget_ne_empty (svc : Service) (f : Ledger) (metadata : Metadata) (name : String) :
    stopTarget svc f metadata name ≠ "" := by
  simp only [stopTarget]
  split
  · assumption
  · exact svc.named

variable {node : String} {kind : RuntimeKind} {id : WorkloadId} {v : Scene}

theorem View.StopAt.same {result : Check} (failed : result ≠ .ok ()) :
    v.StopAt node kind id result v :=
  ⟨_, (setRunning_current ..).symm, fun running => running, fun ok => absurd ok failed⟩

theorem View.StopAt.fsm {v u : Scene} {result : Check} (stop : v.StopAt node kind id result u) :
    u.fsm = v.fsm := by
  obtain ⟨value, rfl, -, -⟩ := stop
  rfl

theorem View.StopAt.running {v u : Scene} {n : String} {k : RuntimeKind} {i : WorkloadId}
    {result : Check} (stop : v.StopAt node kind id result u) (running : u.running n k i = true) :
    v.running n k i = true := by
  obtain ⟨value, rfl, still, -⟩ := stop
  by_cases here : n = node ∧ k = kind ∧ i = id
  · obtain ⟨rfl, rfl, rfl⟩ := here
    rw [setRunning_same] at running
    exact still running
  · rwa [setRunning_other here] at running

section Stops

variable {svc : Service} {step : Steps TaskSig Scene} {permit : Scene → TaskOp → Prop}
variable {ctx : Ctx} {eager : Prop}
variable (within : step.Within (View.Step svc))
variable (free : ∀ v op, op.quiet = true → permit v op)
include within free

variable {metadata : Metadata}

theorem stopTargetNode_ensures {name : String} {post : String → Scene → Prop}
    (after : post (stopTarget svc v.fsm metadata name) v) :
    Ensures step permit post (stopTargetNode svc metadata name) v := by
  rw [stopTargetNode, ensures_bind]
  refine workloadAssignment_ensures (fun taken => (within taken).local) free ?_
  simp only [stopTarget, Ledger.recordedNode] at after
  split <;> rename_i found <;> simp only [found] at after
  · rw [if_neg (by simp [show trimSpace "" = "" by decide +kernel])] at after
    exact after
  · split <;> rename_i node
    · rw [if_pos node] at after
      exact after
    · rw [if_neg node] at after
      exact after

theorem operationApp_ensures {post : Except Failure App → Scene → Prop}
    (missing : ∀ err, post (.error err) v) (found : ∀ app, v.fsm.getDeployApp metadata = some app → post (.ok app) v) :
    Ensures step permit post (operationApp metadata) v := by
  have key := deployAppMapKey_normalizeOperationMetadata metadata
  simp only [operationApp]
  split
  · exact missing _
  rw [ensures_bind]
  refine ensures_ask_quiet (fun taken => (within taken).local) free rfl ?_
  rintro (_ | app) taken
  · exact missing _
  · obtain ⟨desired, -⟩ := (within taken).local
    rw [Ledger.getDeployApp_congr key] at desired
    exact found app desired.symm

variable (obeys : eager → ∀ {v op answer u}, step v op answer u → op.stopped answer = true)
variable (stoppable : ∀ v kind metadata name, permit v (.runtimeStop ctx kind metadata name))
include obeys stoppable

variable {workload : Workload}

/-- A stop sent to a node touches nothing but its workload there. It ends the
workload if it succeeds, and it does succeed when stops do and the node can
be reached. -/
theorem stopWorkloadOnNode_ensures {node : String} (clean : trimSpace node = node) (named : node ≠ "")
    (dispatchable : node ≠ svc.localNode → svc.dispatcher = true → permit v (.dispatchStop ctx node metadata workload)) :
    Ensures step permit
      (fun result u => v.StopAt node workload.runtime (workloadId metadata workload.name) result u ∧
        (result = .ok () → svc.delivers node) ∧
          (eager → (node ≠ svc.localNode → svc.dispatcher = true) → result = .ok ()))
      (stopWorkloadOnNode svc ctx metadata workload node) v := by
  have near {v op answer u} (taken : step v op answer u) := (within taken).local
  unfold stopWorkloadOnNode
  rw [clean]
  by_cases remote : node ≠ svc.localNode
  · rw [if_pos ⟨named, remote⟩, stopRemoteWorkload]
    by_cases available : svc.dispatcher = true
    · rw [available]
      rw [if_neg (by simp), ensures_bind]
      refine ensures_ask (dispatchable remote available) ?_
      rintro (err | reply) u taken
      · obtain ⟨value, rfl, still, -⟩ := within taken
        rw [clean] at still ⊢
        refine ⟨⟨value, rfl, still, by simp⟩, by simp, ?_⟩
        intro always _
        cases obeys always taken
      · obtain ⟨value, rfl, still, ended⟩ := within taken
        rw [clean] at still ⊢
        rw [ensures_bind]
        refine deleteRecord_ensures near free ?_
        exact ⟨⟨value, rfl, still, fun _ => (ended reply rfl).1⟩,
          fun _ => .inr ⟨available, (ended reply rfl).2⟩, fun _ _ => rfl⟩
    · rw [if_pos (by simpa using available)]
      refine ⟨View.StopAt.same (by simp [Check.fail]), by simp [Check.fail], ?_⟩
      intro _ there
      exact absurd (there remote) available
  · rw [if_neg (by simpa using fun _ => not_not.mp remote)]
    rw [ne_eq, not_not] at remote
    subst remote
    refine stopLocalWorkload_ensures near free (stoppable _ _ _ _) ?_ ?_
    · intro cause err u taken
      obtain ⟨value, rfl, still, -⟩ := (near taken).stop
      refine ⟨⟨value, rfl, still, by simp⟩, by simp, ?_⟩
      intro always _
      cases obeys always taken
    · intro u taken
      obtain ⟨value, rfl, still, ended⟩ := (near taken).stop
      exact ⟨⟨value, rfl, still, ended⟩, fun _ => .inl rfl, fun _ _ => rfl⟩

/-- A stop acts where the workload is recorded, if it can be delivered. -/
theorem stopWorkload_ensures
    (dispatchable : stopTarget svc v.fsm metadata workload.name ≠ svc.localNode → svc.dispatcher = true →
      permit v (.dispatchStop ctx (stopTarget svc v.fsm metadata workload.name) metadata workload)) :
    Ensures step permit
      (fun result u => v.StopAt (stopTarget svc v.fsm metadata workload.name) workload.runtime
          (workloadId metadata workload.name) result u ∧
        (result = .ok () → svc.delivers (stopTarget svc v.fsm metadata workload.name)) ∧
          (eager → svc.delivers (stopTarget svc v.fsm metadata workload.name) → result = .ok ()))
      (stopWorkload svc ctx metadata workload) v := by
  rw [stopWorkload, ensures_bind]
  refine stopTargetNode_ensures within free ?_
  refine (stopWorkloadOnNode_ensures within free obeys stoppable (stopTarget_trimmed ..)
    (stopTarget_ne_empty _ _ _ _) dispatchable).mono ?_
  rintro result u ⟨effect, delivered, prompt⟩
  refine ⟨effect, delivered, fun always delivers => prompt always fun remote => ?_⟩
  exact (delivers.resolve_left remote).1

variable (proposable : ∀ v command, permit v (.apply ctx command))
variable (accepts : ∀ {v command result u}, step v (.apply ctx command) result u → result = .ok ())
include proposable accepts

theorem stopAppWorkload_ensures {app : App} {generation : String} {post : Check → Scene → Prop}
    (named : trimSpace app.metadata.name ≠ "") (present : workload.key ≠ "")
    (dispatchable : stopTarget svc v.fsm app.metadata workload.name ≠ svc.localNode → svc.dispatcher = true →
      permit v (.dispatchStop ctx (stopTarget svc v.fsm app.metadata workload.name) app.metadata workload))
    (after : ∀ result u status error,
      v.StopAt (stopTarget svc v.fsm app.metadata workload.name) workload.runtime
        (workloadId app.metadata workload.name) result u →
      (result = .ok () → svc.delivers (stopTarget svc v.fsm app.metadata workload.name)) →
      (eager → svc.delivers (stopTarget svc v.fsm app.metadata workload.name) → result = .ok ()) →
      (result = .ok () → status = .stopped) → (result ≠ .ok () → status = .failed) →
      post result (u.record (assignmentRecord app.metadata workload (v.fsm.recordedNode app.metadata workload.name)
        status generation error "" (artifactSummary workload.run)))) :
    Ensures step permit post (stopAppWorkload svc ctx app generation workload) v := by
  have near {v op answer u} (taken : step v op answer u) := (within taken).local
  refine (stopWorkload_ensures within free obeys stoppable dispatchable).bind ?_
  rintro (err | _) u ⟨effect, delivered, prompt⟩
  · rw [ensures_bind]
    refine assignmentNodeOrEmpty_ensures near free ?_
    rw [effect.fsm]
    rw [ensures_bind]
    refine recordWorkload_ensures near proposable accepts named present ?_
    exact after _ u .failed (some err) effect delivered prompt (by simp) (by simp)
  · rw [ensures_bind]
    refine assignmentNodeOrEmpty_ensures near free ?_
    rw [effect.fsm]
    rw [ensures_bind]
    refine recordWorkload_ensures near proposable accepts named present ?_
    exact after _ u .stopped none effect delivered prompt (by simp) (by simp)

end Stops

end Orch
