import Orch.Task.Background
import Orch.Task.Progress
import Orch.Task.StopSpecs
import Mathlib.Logic.Relation

namespace Orch

open Effect

def StopsAt (svc : Service) (f : Ledger) (metadata : Metadata) (workload : Workload) (node : String)
    (kind : RuntimeKind) (id : WorkloadId) : Prop :=
  node = stopTarget svc f metadata workload.name ∧ kind = workload.runtime ∧ id = workloadId metadata workload.name

def StoppedAll (svc : Service) (metadata : Metadata) (workloads : List Workload) (v u : Scene) : Prop :=
  ∀ node kind id, u.running node kind id = true ↔
    v.running node kind id = true ∧ ∀ w ∈ workloads, ¬ StopsAt svc v.fsm metadata w node kind id

theorem StoppedAll.nil {svc : Service} {metadata : Metadata} {v : Scene} :
    StoppedAll svc metadata [] v v := by
  intro node kind id
  simp

theorem StoppedAll.snoc {svc : Service} {metadata : Metadata} {done : List Workload} {w : Workload}
    {v u t : Scene} (before : StoppedAll svc metadata done v u)
    (stop : u.StopAt (stopTarget svc v.fsm metadata w.name) w.runtime (workloadId metadata w.name) (.ok ()) t) :
    StoppedAll svc metadata (done ++ [w]) v t := by
  obtain ⟨value, rfl, -, ended⟩ := stop
  obtain rfl := ended rfl
  intro node kind id
  rw [View.setRunning_false_iff, before node kind id, and_assoc]
  simp only [List.mem_append, List.mem_singleton, StopsAt]
  constructor
  · rintro ⟨running, spared, here⟩
    refine ⟨running, ?_⟩
    rintro x (earlier | rfl)
    · exact spared x earlier
    · exact here
  · rintro ⟨running, spared⟩
    exact ⟨running, fun x earlier => spared x (.inl earlier), spared w (.inr rfl)⟩

/-- What a delete may come to: the desired document is gone, and the result
is nil when there was none, or when every stop succeeded. -/
def DeleteOutcome (svc : Service) (eager : Prop) (metadata : Metadata) (v : Scene) (result : Check)
    (u : Scene) : Prop :=
  u.fsm.getDeployApp metadata = none ∧
    match v.fsm.getDeployApp metadata with
    | none => result = .ok () ∧ u.running = v.running
    | some app =>
      match app.workloadsInDependencyOrder svc.sorter with
      | .error _ => result ≠ .ok ()
      | .ok workloads =>
        (result = .ok () → (∀ w ∈ workloads, svc.delivers (stopTarget svc v.fsm app.metadata w.name)) ∧
          StoppedAll svc app.metadata workloads v u) ∧
        (eager → (∀ w ∈ workloads, svc.delivers (stopTarget svc v.fsm app.metadata w.name)) → result = .ok ())

section Deletes

variable {svc : Service} {step : Steps TaskSig Scene} {permit : Scene → TaskOp → Prop}
variable {ctx : Ctx} {eager : Prop}
variable (within : step.Within (View.Step svc))
variable (free : ∀ v op, op.quiet = true → permit v op)
variable (obeys : eager → ∀ {v op answer u}, step v op answer u → op.stopped answer = true)
variable (stoppable : ∀ v kind metadata name, permit v (.runtimeStop ctx kind metadata name))
variable (proposable : ∀ v command, permit v (.apply ctx command))
variable (accepts : ∀ {v command result u}, step v (.apply ctx command) result u → result = .ok ())
include within free obeys stoppable proposable accepts

/-- Stopping the workloads of an app ends exactly the instances they are
recorded at, if every stop succeeds, and leaves the desired apps alone. -/
theorem stopAppWorkloads_ensures {app : App} {workloads : List Workload} {v : Scene}
    (named : trimSpace app.metadata.name ≠ "") (ordered : app.workloadsInDependencyOrder svc.sorter = .ok workloads)
    (dispatchable : ∀ u, ∀ w ∈ workloads, stopTarget svc v.fsm app.metadata w.name ≠ svc.localNode →
      svc.dispatcher = true → permit u (.dispatchStop ctx (stopTarget svc v.fsm app.metadata w.name) app.metadata w)) :
    Ensures step permit
      (fun result u => u.fsm.deployApps = v.fsm.deployApps ∧
        (result = .ok () → (∀ w ∈ workloads, svc.delivers (stopTarget svc v.fsm app.metadata w.name)) ∧
          StoppedAll svc app.metadata workloads v u) ∧
        (eager → (∀ w ∈ workloads, svc.delivers (stopTarget svc v.fsm app.metadata w.name)) → result = .ok ()))
      (stopAppWorkloads svc ctx app) v := by
  obtain ⟨permuted, distinct, nonblank⟩ := App.workloadsInDependencyOrder_ok ordered
  have distinct : (workloads.reverse.map Workload.key).Nodup := by
    rw [List.map_reverse, List.nodup_reverse]
    exact (permuted.map _).nodup_iff.mpr distinct
  have nonblank (w) (member : w ∈ workloads.reverse) : w.key ≠ "" :=
    nonblank w (permuted.mem_iff.mp (List.mem_reverse.mp member))
  simp only [stopAppWorkloads, ordered]
  -- The stops done so far have ended their instances, and no record has moved a workload still to come.
  refine ensures_eachUntil (fun rest u => u.fsm.deployApps = v.fsm.deployApps ∧
    ∃ done, done ++ rest = workloads.reverse ∧
      (∀ w ∈ rest, u.fsm.recordedNode app.metadata w.name = v.fsm.recordedNode app.metadata w.name) ∧
      (∀ w ∈ done, svc.delivers (stopTarget svc v.fsm app.metadata w.name)) ∧
      StoppedAll svc app.metadata done v u) ?finish ?round ⟨rfl, [], by simp, by simp, by simp, .nil⟩
  case finish =>
    rintro u ⟨same, done, all, -, delivered, stopped⟩
    rw [List.append_nil] at all
    subst all
    refine ⟨same, fun _ => ⟨fun w member => delivered w (List.mem_reverse.mpr member), ?_⟩, fun _ _ => rfl⟩
    intro node kind id
    simpa only [List.mem_reverse] using stopped node kind id
  case round =>
    rintro w rest u ⟨same, done, all, kept, delivered, stopped⟩
    have target : stopTarget svc u.fsm app.metadata w.name = stopTarget svc v.fsm app.metadata w.name := by
      simp only [stopTarget, kept w (by simp)]
    have member : w ∈ workloads.reverse := by simp [← all]
    refine stopAppWorkload_ensures within free obeys stoppable proposable accepts named (nonblank w member) ?_ ?_
    · rw [target]
      exact dispatchable u w (List.mem_reverse.mp member)
    rw [target]
    rintro (err | _) t status error effect reached prompt - -
    · refine ⟨?_, by simp, ?_⟩
      · rw [View.record_deployApps, effect.fsm, same]
      · intro always everywhere
        exact prompt always (everywhere w (List.mem_reverse.mp member))
    · have longer := stopped.snoc effect
      refine ⟨?_, done ++ [w], by simpa using all, ?_, ?_, longer⟩
      · rw [View.record_deployApps, effect.fsm, same]
      · intro x later
        have apart : assignmentKey app.metadata x.name ≠ assignmentKey app.metadata w.name := by
          refine assignmentKey_ne named (nonblank x (by simp [← all, later])) (nonblank w member) ?_
          intro clash
          rw [← all, List.map_append, List.map_cons, List.nodup_append] at distinct
          exact (List.nodup_cons.mp distinct.2.1).1 (clash ▸ List.mem_map_of_mem later)
        rw [recordedNode_record apart, effect.fsm]
        exact kept x (List.mem_cons_of_mem _ later)
      · intro x earlier
        rcases List.mem_append.mp earlier with earlier | here
        · exact delivered x earlier
        · rw [List.mem_singleton.mp here]
          exact reached rfl

/-- A delete removes the document and stops what it leads to. -/
theorem submitDelete_ensures {metadata : Metadata} {v : Scene} (named : trimSpace metadata.name ≠ "")
    (own : ∀ app, v.fsm.getDeployApp metadata = some app → sameAppMetadata app.metadata metadata = true)
    (dispatchable : ∀ u app workloads, v.fsm.getDeployApp metadata = some app →
      app.workloadsInDependencyOrder svc.sorter = .ok workloads →
      ∀ w ∈ workloads, stopTarget svc v.fsm app.metadata w.name ≠ svc.localNode → svc.dispatcher = true →
        permit u (.dispatchStop ctx (stopTarget svc v.fsm app.metadata w.name) app.metadata w)) :
    Ensures step permit (DeleteOutcome svc eager metadata v) (submitDelete svc ctx metadata) v := by
  have near {v op answer u} (taken : step v op answer u) := (within taken).local
  have key := deployAppMapKey_normalizeOperationMetadata metadata
  have stillNamed : trimSpace (normalizeOperationMetadata metadata).name ≠ "" := by
    simpa [normalizeOperationMetadata] using named
  simp only [submitDelete]
  rw [if_neg (by exact named), ensures_bind]
  refine ensures_ask_quiet near free rfl ?_
  intro found taken
  obtain ⟨rfl, -⟩ := near taken
  have same : v.fsm.getDeployApp (normalizeOperationMetadata metadata) = v.fsm.getDeployApp metadata :=
    Ledger.getDeployApp_congr key
  rw [ensures_bind, raftApplyDeleteDeployApp, if_neg (by exact named), same]
  refine ensures_ask (proposable _ _) ?_
  intro result u taken
  obtain rfl := accepts taken
  rcases near taken with ⟨-, rfl⟩ | ⟨bad, -⟩
  swap
  · exact absurd rfl bad
  have gone : (v.fsm.update (.deleteDeployApp (normalizeOperationMetadata metadata))).getDeployApp metadata = none := by
    rw [← Ledger.getDeployApp_congr key]
    exact Ledger.getDeployApp_delete stillNamed
  have target (m : Metadata) (name : String) :
      stopTarget svc (v.fsm.update (.deleteDeployApp (normalizeOperationMetadata metadata))) m name =
        stopTarget svc v.fsm m name := by
    have nodes : (v.fsm.update (.deleteDeployApp (normalizeOperationMetadata metadata))).recordedNode m name =
        v.fsm.recordedNode m name := Ledger.recordedNode_congr (Ledger.assignments_delete ..) m name
    simp only [stopTarget, nodes]
  unfold DeleteOutcome
  cases found : v.fsm.getDeployApp metadata with
  | none => exact ⟨gone, rfl, rfl⟩
  | some app =>
    have appNamed : trimSpace app.metadata.name ≠ "" := by
      have both := own app found
      simp only [sameAppMetadata, decide_eq_true_eq] at both
      rw [both.2]
      exact named
    cases ordered : app.workloadsInDependencyOrder svc.sorter with
    | error err =>
      simp only [stopAppWorkloads, ordered, ensures_pure]
      exact ⟨gone, by simp⟩
    | ok workloads =>
      refine (stopAppWorkloads_ensures within free obeys stoppable proposable accepts appNamed ordered ?_).mono ?_
      · intro u w member
        rw [target]
        exact dispatchable u app workloads found ordered w member
      · rintro result u ⟨apps, succeeded, prompt⟩
        simp only [target, StoppedAll, StopsAt] at succeeded prompt
        simp only [ordered]
        refine ⟨?_, succeeded, prompt⟩
        unfold Ledger.getDeployApp at gone ⊢
        rw [apps]
        exact gone

end Deletes

abbrev Accepted (svc : Service) : Steps TaskSig (World instanceRuntime) :=
  Assuming (World.machine instanceRuntime svc).Step TaskOp.accepted

theorem View.accepted_ok {svc : Service} {v u : Scene} {ctx : Ctx} {command : Command} {result : Check}
    (taken : Assuming (View.Step svc) TaskOp.accepted v (.apply ctx command) result u) : result = .ok () :=
  Check.isOk_iff.mp taken.2

def NothingRuns (metadata : Metadata) (w : World instanceRuntime) : Prop :=
  ∀ node kind name, w.view.running node kind (workloadId metadata name) = false

/-- The worlds that any number of deletes of the app lead to, whatever their
stops came to. -/
def Retried (svc : Service) (metadata : Metadata) : World instanceRuntime → World instanceRuntime → Prop :=
  Relation.ReflTransGen fun w u => ∃ ctx result, Finishes (Accepted svc) (submitDelete svc ctx metadata) w result u

def DeleteCompletes (svc : Service) (metadata : Metadata) (w : World instanceRuntime) : Prop :=
  ∀ ctx u, Finishes (Accepted svc) (submitDelete svc ctx metadata) w (.ok ()) u → NothingRuns metadata u

/-- A delete whose stops did not all succeed leaves the desired app to a retry. -/
def DeleteKeeps (svc : Service) (metadata : Metadata) (w : World instanceRuntime) : Prop :=
  ∀ ctx err u, Finishes (Accepted svc) (submitDelete svc ctx metadata) w (.error err) u →
    (u.view.fsm.getDeployApp metadata).isSome

/-- Every instance of the app is one that the desired document and the
assignments lead to. Without a document, there is none. -/
def DeleteCovers (svc : Service) (metadata : Metadata) (v : Scene) : Prop :=
  match v.fsm.getDeployApp metadata with
  | none => ∀ node kind name, v.running node kind (workloadId metadata name) = false
  | some app =>
    ∀ workloads, app.workloadsInDependencyOrder svc.sorter = .ok workloads →
      (∀ w ∈ workloads, svc.delivers (stopTarget svc v.fsm app.metadata w.name)) →
        ∀ node kind name, v.running node kind (workloadId metadata name) = true →
          ∃ w ∈ workloads, StopsAt svc v.fsm app.metadata w node kind (workloadId metadata name)

section Worlds

variable {svc : Service} {metadata : Metadata} {w u : World instanceRuntime}

/-- What a run of a delete comes to when its proposals are accepted. -/
theorem submitDelete_outcome {ctx : Ctx} {result : Check} (named : trimSpace metadata.name ≠ "")
    (own : ∀ app, w.view.fsm.getDeployApp metadata = some app → sameAppMetadata app.metadata metadata = true)
    (run : Finishes (Accepted svc) (submitDelete svc ctx metadata) w result u) :
    DeleteOutcome svc False metadata w.view result u.view := by
  have ensured : Ensures (Assuming (View.Step svc) TaskOp.accepted) anything
      (DeleteOutcome svc False metadata w.view) (submitDelete svc ctx metadata) w.view :=
    submitDelete_ensures (fun taken => taken.1) (fun _ _ _ => trivial) False.elim (fun _ _ _ _ => trivial)
      (fun _ _ => trivial) View.accepted_ok named own (fun _ _ _ _ _ _ _ _ _ => trivial)
  exact World.finishes_view ensured run

variable (svc) in
/-- Some run of a delete makes all the stops that can be delivered. -/
theorem submitDelete_smooth (named : trimSpace metadata.name ≠ "")
    (own : ∀ app, w.view.fsm.getDeployApp metadata = some app → sameAppMetadata app.metadata metadata = true)
    (deliverable : ∀ app workloads, w.view.fsm.getDeployApp metadata = some app →
      app.workloadsInDependencyOrder svc.sorter = .ok workloads →
        ∀ x ∈ workloads, svc.delivers (stopTarget svc w.view.fsm app.metadata x.name)) :
    ∃ result u, Finishes (Accepted svc) (submitDelete svc {} metadata) w result u ∧
      DeleteOutcome svc True metadata w.view result u.view := by
  have ensured : Ensures (Assuming (View.Step svc) TaskOp.succeeded) (fun _ op => op.doable svc {})
      (DeleteOutcome svc True metadata w.view) (submitDelete svc {} metadata) w.view := by
    refine submitDelete_ensures (fun taken => taken.1) (fun _ _ quiet => (TaskOp.doableHere_of_quiet quiet).2)
      (fun _ {_ _ _ _} taken => TaskOp.stopped_of_succeeded taken.2) (fun _ _ _ _ => trivial) (fun _ _ => rfl)
      (fun taken => Check.isOk_iff.mp taken.2) named own ?_
    intro u app workloads found ordered x member remote available
    obtain ⟨permuted, -, nonblank⟩ := App.workloadsInDependencyOrder_ok ordered
    have same := own app found
    simp only [sameAppMetadata, decide_eq_true_eq] at same
    rcases deliverable app workloads found ordered x member with here | ⟨-, reachable⟩
    · exact absurd here remote
    · exact ⟨reachable, by rw [same.2]; exact named, nonblank x (permuted.mem_iff.mp member)⟩
  have lifted : Ensures (Assuming (World.machine instanceRuntime svc).Step TaskOp.succeeded)
      (fun _ op => op.doable svc {}) (fun result u => DeleteOutcome svc True metadata w.view result u.view)
      (submitDelete svc {} metadata) w := ensured.simulate fun taken => ⟨World.view_step taken.1, taken.2⟩
  have enabled (u : World instanceRuntime) (op : TaskOp) (doable : op.doable svc {}) :
      ∃ answer t, Assuming (World.machine instanceRuntime svc).Step TaskOp.succeeded u op answer t := by
    obtain ⟨answer, t, taken, good, -⟩ := World.exists_step (w := u) rfl doable
    exact ⟨answer, t, taken, good⟩
  obtain ⟨result, u, run, outcome⟩ := lifted.exists_end enabled
  exact ⟨result, u, run.mono fun taken => ⟨taken.1, TaskOp.accepted_of_succeeded taken.2⟩, outcome⟩

/-- With a document at hand, a delete ends as the stops of its workloads do. -/
theorem submitDelete_found {told : (op : TaskOp) → op.Answer → Prop} {step : Steps TaskSig Scene} {v : Scene}
    {ctx : Ctx} {app : App} {post : Check → Prop} (within : step.Within (View.Step svc))
    (accepts : ∀ {v command result u}, step v (.apply ctx command) result u → result = .ok ())
    (tells : ∀ {v op answer u}, step v op answer u → told op answer) (named : trimSpace metadata.name ≠ "")
    (found : v.fsm.getDeployApp metadata = some app)
    (stops : Heeds told (fun _ => True) post (stopAppWorkloads svc ctx app)) :
    Ensures step anything (fun result _ => post result) (submitDelete svc ctx metadata) v := by
  simp only [submitDelete]
  rw [if_neg (by exact named), ensures_bind]
  refine ensures_ask trivial ?_
  intro desired u taken
  obtain ⟨rfl, -⟩ := (within taken).local
  rw [Ledger.getDeployApp_congr (deployAppMapKey_normalizeOperationMetadata metadata), found, ensures_bind,
    raftApplyDeleteDeployApp, if_neg (by exact named)]
  refine ensures_ask trivial ?_
  intro result t taken
  obtain rfl := accepts taken
  exact Ensures.of_told tells stops

theorem submitDelete_bare {ctx : Ctx} {app : App} {result : Check} (named : trimSpace metadata.name ≠ "")
    (found : w.view.fsm.getDeployApp metadata = some app) (bare : app.workloads = [])
    (run : Finishes (Accepted svc) (submitDelete svc ctx metadata) w result u) : result = .ok () := by
  have ensured : Ensures (Assuming (View.Step svc) TaskOp.accepted) anything (fun result _ => result = .ok ())
      (submitDelete svc ctx metadata) w.view := by
    refine submitDelete_found (fun taken => taken.1) View.accepted_ok (fun taken => taken.2) named found ?_
    simp only [stopAppWorkloads, App.workloadsInDependencyOrder, bare]
    rfl
  exact World.finishes_view ensured run

theorem stopAppWorkload_refused {app : App} {generation : String} {workload : Workload} {ctx : Ctx} :
    Refused (stopAppWorkload svc ctx app generation workload) := by
  have stops (node : String) : Refused (stopWorkloadOnNode svc ctx app.metadata workload node) := by
    unfold stopWorkloadOnNode
    split
    · unfold stopRemoteWorkload
      split
      · exact ⟨_, rfl⟩
      refine ⟨trivial, ?_⟩
      rintro (err | reply) - failed
      · exact ⟨_, rfl⟩
      · cases failed
    · refine heeds_then (Ensures.trivially _) fun _ => ⟨trivial, ?_⟩
      rintro (err | _) - failed
      · exact ⟨_, rfl⟩
      · cases failed
  refine heeds_bind (heeds_then (Ensures.trivially _) stops) ?_
  rintro _ ⟨err, rfl⟩
  exact heeds_then (Ensures.trivially _) fun _ => heeds_then (Ensures.trivially _) fun _ => ⟨_, rfl⟩

theorem stopAppWorkloads_refused {app : App} {ctx : Ctx} (some_left : app.workloads ≠ []) :
    Refused (stopAppWorkloads svc ctx app) := by
  unfold stopAppWorkloads
  cases ordered : app.workloadsInDependencyOrder svc.sorter with
  | error err => exact ⟨_, rfl⟩
  | ok workloads =>
    dsimp only
    have permuted := (App.workloadsInDependencyOrder_ok ordered).1
    cases reversed : workloads.reverse with
    | nil =>
      rw [List.reverse_eq_nil_iff.mp reversed] at permuted
      exact absurd permuted.nil_eq.symm some_left
    | cons last earlier =>
      refine heeds_bind stopAppWorkload_refused ?_
      rintro _ ⟨err, rfl⟩
      exact ⟨_, rfl⟩

/-- A delete in which no stop succeeds. -/
theorem submitDelete_refused {app : App} (named : trimSpace metadata.name ≠ "")
    (own : ∀ app, w.view.fsm.getDeployApp metadata = some app → sameAppMetadata app.metadata metadata = true)
    (found : w.view.fsm.getDeployApp metadata = some app) (some_left : app.workloads ≠ []) :
    ∃ err u, Finishes (Accepted svc) (submitDelete svc {} metadata) w (.error err) u := by
  let halting (op : TaskOp) (answer : op.Answer) : Bool := op.accepted answer && op.refused answer
  let proposed (op : TaskOp) : Prop := ∀ within command, op = .apply within command → within = {}
  have outcome : Ensures (Assuming (View.Step svc) halting) (fun _ => proposed) (DeleteOutcome svc False metadata w.view)
      (submitDelete svc {} metadata) w.view := by
    refine submitDelete_ensures (fun taken => taken.1) ?_ False.elim (fun _ _ _ _ _ _ same => by cases same)
      (fun _ _ _ _ same => by cases same; rfl) (fun taken => Check.isOk_iff.mp (Bool.and_eq_true_iff.mp taken.2).1)
      named own (fun _ _ _ _ _ _ _ _ _ _ _ same => by cases same)
    rintro v op quiet within command rfl
    cases quiet
  have fails : Ensures (Assuming (View.Step svc) halting) anything (fun result _ => ∃ err, result = .error err)
      (submitDelete svc {} metadata) w.view :=
    submitDelete_found (fun taken => taken.1) (fun taken => Check.isOk_iff.mp (Bool.and_eq_true_iff.mp taken.2).1)
      (fun taken => (Bool.and_eq_true_iff.mp taken.2).2) named found (stopAppWorkloads_refused some_left)
  have lifted : Ensures (Assuming (World.machine instanceRuntime svc).Step halting) (fun _ => proposed)
      (fun result _ => ∃ err, result = .error err) (submitDelete svc {} metadata) w :=
    ((outcome.and fails).mono fun _ _ both => both.2).simulate fun taken => ⟨World.view_step taken.1, taken.2⟩
  have enabled (s : World instanceRuntime) (op : TaskOp) (timely : proposed op) :
      ∃ answer t, Assuming (World.machine instanceRuntime svc).Step halting s op answer t := by
    cases op with
    | apply within command =>
      have doable : (TaskOp.apply within command).doable svc {} := timely within command rfl
      obtain ⟨answer, t, taken, good, -⟩ := World.exists_step (w := s) rfl doable
      exact ⟨answer, t, taken, Bool.and_eq_true_iff.mpr ⟨good, rfl⟩⟩
    | _ => exact World.exists_refused svc s _
  obtain ⟨_, u, run, err, rfl⟩ := lifted.exists_end enabled
  exact ⟨err, u, run.mono fun taken => ⟨taken.1, (Bool.and_eq_true_iff.mp taken.2).1⟩⟩

theorem Retried.own (named : trimSpace metadata.name ≠ "")
    (own : ∀ app, w.view.fsm.getDeployApp metadata = some app → sameAppMetadata app.metadata metadata = true)
    (retried : Retried svc metadata w u) :
    ∀ app, u.view.fsm.getDeployApp metadata = some app → sameAppMetadata app.metadata metadata = true := by
  induction retried with
  | refl => exact own
  | tail _ last ih =>
    obtain ⟨ctx, result, run⟩ := last
    intro app found
    have gone := (submitDelete_outcome named ih run).1
    rw [gone] at found
    cases found

theorem workloadId_congr {a b : Metadata} (same : sameAppMetadata a b = true) (name : String) :
    workloadId a name = workloadId b name := by
  simp only [sameAppMetadata, decide_eq_true_eq] at same
  simp only [workloadId, same.1, same.2]

theorem deleteCompletes_iff (named : trimSpace metadata.name ≠ "")
    (own : ∀ app, u.view.fsm.getDeployApp metadata = some app → sameAppMetadata app.metadata metadata = true) :
    DeleteCompletes svc metadata u ↔ DeleteCovers svc metadata u.view := by
  constructor
  · intro complete
    unfold DeleteCovers
    cases found : u.view.fsm.getDeployApp metadata with
    | none =>
      obtain ⟨result, t, run, -, outcome⟩ := submitDelete_smooth svc named own (by simp [found])
      simp only [found] at outcome
      obtain ⟨rfl, same⟩ := outcome
      intro node kind name
      rw [← same]
      exact complete {} t run node kind name
    | some app =>
      intro workloads ordered deliverable node kind name running
      by_contra uncovered
      obtain ⟨result, t, run, -, outcome⟩ := submitDelete_smooth svc (w := u) named own (by
        intro other order same sorted
        rw [found] at same
        cases same
        rw [ordered] at sorted
        cases sorted
        exact deliverable)
      simp only [found, ordered] at outcome
      obtain rfl := outcome.2 trivial deliverable
      have still := ((outcome.1 rfl).2 node kind (workloadId metadata name)).mpr ⟨running, by
        intro x member here
        exact uncovered ⟨x, member, here⟩⟩
      rw [complete {} t run node kind name] at still
      cases still
  · intro covers ctx t run node kind name
    obtain ⟨-, outcome⟩ := submitDelete_outcome named own run
    unfold DeleteCovers at covers
    cases found : u.view.fsm.getDeployApp metadata with
    | none =>
      simp only [found] at outcome covers
      rw [outcome.2]
      exact covers node kind name
    | some app =>
      simp only [found] at outcome covers
      cases ordered : app.workloadsInDependencyOrder svc.sorter with
      | error err =>
        simp only [ordered] at outcome
        exact absurd rfl outcome
      | ok workloads =>
        simp only [ordered] at outcome
        obtain ⟨delivered, stopped⟩ := outcome.1 trivial
        rw [← Bool.not_eq_true]
        intro running
        obtain ⟨earlier, spared⟩ := (stopped node kind _).mp running
        obtain ⟨x, member, here⟩ := covers workloads ordered delivered node kind name earlier
        exact spared x member here

/-- A document with workloads is removed before their stops, and one of them may
fail. -/
theorem deleteKeeps_iff (named : trimSpace metadata.name ≠ "")
    (own : ∀ app, u.view.fsm.getDeployApp metadata = some app → sameAppMetadata app.metadata metadata = true) :
    DeleteKeeps svc metadata u ↔ ∀ app, u.view.fsm.getDeployApp metadata = some app → app.workloads = [] := by
  constructor
  · intro keeps app found
    by_contra some_left
    obtain ⟨err, t, run⟩ := submitDelete_refused named own found some_left
    have present := keeps {} err t run
    rw [(submitDelete_outcome named own run).1] at present
    cases present
  · intro bare ctx err t run
    obtain ⟨-, outcome⟩ := submitDelete_outcome named own run
    cases found : u.view.fsm.getDeployApp metadata with
    | none =>
      simp only [found] at outcome
      cases outcome.1
    | some app => cases submitDelete_bare named found (bare app found) run

/-- After any number of deletes, the next one is complete exactly when every
instance of the app is still one that its document leads to, and it leaves the
document to a retry only where no stop is to be made. -/
theorem submitDelete_complete_iff (named : trimSpace metadata.name ≠ "")
    (own : ∀ app, w.view.fsm.getDeployApp metadata = some app → sameAppMetadata app.metadata metadata = true)
    (retried : Retried svc metadata w u) :
    (DeleteCompletes svc metadata u ↔ DeleteCovers svc metadata u.view) ∧
      (DeleteKeeps svc metadata u ↔ ∀ app, u.view.fsm.getDeployApp metadata = some app → app.workloads = []) :=
  ⟨deleteCompletes_iff named (retried.own named own), deleteKeeps_iff named (retried.own named own)⟩

end Worlds

def World.serving (node : String) (app : App) : World instanceRuntime :=
  { World.told app with
    runtimes := fun n kind id => n = node ∧ ∃ x ∈ app.workloads, kind = x.runtime ∧ id = workloadId app.metadata x.name }

def deployAndReconcile (svc : Service) (app : App) : Task Unit := do
  let _ ← submitDeploy svc {} app
  reconcileAll svc {}

/-- One workload runs where its document leads to. The next delete is complete if
it returns nil, and if its stop fails, there is no document left to retry it. -/
theorem submitDelete_complete_iff_running :
    DeleteCompletes sampleService { name := "web" } (World.serving "a" (imageApp "web" "api" "nginx")) ∧
      ¬ DeleteKeeps sampleService { name := "web" } (World.serving "a" (imageApp "web" "api" "nginx")) ∧
        ¬ NothingRuns { name := "web" } (World.serving "a" (imageApp "web" "api" "nginx")) := by
  have stored : (World.serving "a" (imageApp "web" "api" "nginx")).view.fsm.getDeployApp { name := "web" } =
      some (imageApp "web" "api" "nginx") := by decide +kernel
  have own : ∀ app, (World.serving "a" (imageApp "web" "api" "nginx")).view.fsm.getDeployApp { name := "web" } = some app →
      sameAppMetadata app.metadata { name := "web" } = true := by
    rw [stored]
    rintro _ ⟨⟩
    decide +kernel
  obtain ⟨completes, keeps⟩ := @submitDelete_complete_iff sampleService _ _ _ (by decide +kernel) own .refl
  refine ⟨completes.mpr ?_, fun kept => ?_, fun nothing => ?_⟩
  · simp only [DeleteCovers, stored]
    rintro workloads ordered - node kind name running
    obtain ⟨rfl, x, member, here⟩ := of_decide_eq_true running
    obtain ⟨permuted, -⟩ := App.workloadsInDependencyOrder_ok ordered
    obtain rfl := List.mem_singleton.mp member
    exact ⟨_, permuted.mem_iff.mpr member, by decide +kernel, here⟩
  · cases keeps.mp kept _ stored
  · have here : (World.serving "a" (imageApp "web" "api" "nginx")).view.running "a" .docker
        (workloadId { name := "web" } "api") = true := by decide +kernel
    rw [nothing] at here
    cases here

/-- The first delete fails to stop the only workload and the second returns
nil, with the workload still running. -/
theorem submitDelete_retry_incomplete :
    ¬ ∀ (svc : Service) (app : App) (w u : World instanceRuntime),
      Finishes (Accepted svc) (deployAndReconcile svc app) World.idle () w → Retried svc app.metadata w u →
        DeleteCompletes svc app.metadata u := by
  intro complete
  have played : (Program.play ((World.machine instanceRuntime sampleService).assuming TaskOp.accepted)
      (List.replicate 16 (World.smoothly "a") ++ [World.refusing "a"] ++ List.replicate 8 (World.smoothly "a"))
      (do
        deployAndReconcile sampleService (imageApp "web" "api" "nginx")
        let _ ← submitDelete sampleService {} { name := "web" }
        submitDelete sampleService {} { name := "web" })
      World.idle).map (fun last => last.2.isOk && last.1.runtimes "a" .docker (workloadId { name := "web" } "api")) =
        some true := by decide +kernel
  obtain ⟨result, t, run, passed⟩ := exists_finishes_of_play played
  simp only [Bool.and_eq_true, Check.isOk_iff] at passed
  obtain ⟨rfl, running⟩ := passed
  simp only [finishes_bind] at run
  obtain ⟨_, w, deployed, first, u, failed, retried⟩ := run
  have within {s t op answer} (taken : ((World.machine instanceRuntime sampleService).assuming TaskOp.accepted).Step
      s op answer t) := Machine.assuming_step taken
  have nothing := complete sampleService (imageApp "web" "api" "nginx") w u (deployed.mono within)
    (Relation.ReflTransGen.single ⟨{}, first, failed.mono within⟩) {} t (retried.mono within) "a" .docker "api"
  exact Bool.false_ne_true (nothing.symm.trans running)

end Orch
