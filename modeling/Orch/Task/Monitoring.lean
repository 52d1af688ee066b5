import Orch.Task.Coverage

namespace Orch

open Effect

/-- A cluster, and the startup-only monitors that have succeeded on each node
since its process was started. -/
structure Fleet (R : Runtime) where
  world : World R
  passed : List (String × HealthTarget) := []

variable {R : Runtime}

/-- All that is only in the memory of a process is lost when it restarts.
What its runtimes hold is up to them. -/
def World.restart (w : World R) (node : String) (state : R.State) : World R :=
  { w.setRuntime node state with tables := Function.update w.tables node {} }

/-- The process of a node restarts, and what its monitors have seen with it. -/
def Fleet.restart (f : Fleet R) (node : String) (state : R.State) : Fleet R where
  world := f.world.restart node state
  passed := f.passed.filter fun entry => entry.1 ≠ node

def TaskOp.probed : (op : TaskOp) → op.Answer → Bool
  | .probeHealth _ _, .passed => true
  | .probeHealth _ _, _ => false
  | _, _ => true

inductive Happening (R : Runtime) where
  | deed (svc : Service) (deed : Deed) (trace : List (Event TaskSig (World R)))
  | pass (svc : Service) (ctx : Ctx) (runID : Nat) (target : HealthTarget) (trace : List (Event TaskSig (World R)))
  | restart (node : String) (state : R.State)

namespace Happening

/-- A deed is done by a service to its end, and a monitor that is registered
and has no liveness probe to go on with ends when its startup probe passes. -/
def Takes : Happening R → Fleet R → Fleet R → Prop
  | .deed svc work trace, f, g =>
    Run (World.machine R svc).Step (work.program svc) f.world trace (.pure ()) g.world ∧ g.passed = f.passed
  | .pass svc ctx runID target trace, f, g =>
    ((f.world.tables svc.localNode).healthMonitors.lookup target.key = some (runID, target) ∧
      workloadLivenessProbe target.workload = none) ∧
    Run (Assuming (World.machine R svc).Step TaskOp.probed) (runWorkloadHealthMonitor ctx runID target) f.world trace
      (.pure ()) g.world ∧ g.passed = (svc.localNode, target) :: f.passed
  | .restart node state, f, g => g = f.restart node state

def Orderly (docs : App → Prop) : Happening R → Fleet R → Prop
  | .deed _ work trace, f =>
    (∀ app ∈ f.world.fsm.listDeployApps, docs app) ∧ ∀ event ∈ trace, work.smooth event.op event.answer = true
  | _, _ => True

/-- And no process restarts while a workload with a probe runs on its node. -/
def Gentle (docs : App → Prop) (turn : Happening R) (f : Fleet R) : Prop :=
  turn.Orderly docs f ∧ ∀ node state, turn = .restart node state → ∀ key a, f.world.fsm.assignments.lookup key = some a →
    a.status = .running → trimSpace a.node = node → ∀ app workload, docs app → workload ∈ app.workloads →
      assignmentKey app.metadata workload.name = key → appGeneration app = trimSpace a.generation →
        workloadHasBackgroundHealth workload = false

end Happening

namespace Fleet

/-- What a cluster comes to in turns that are all of a kind. -/
inductive Reaches (kind : Happening R → Fleet R → Prop) (f : Fleet R) : Fleet R → Prop
  | start : Reaches kind f f
  | next {g h : Fleet R} (turn : Happening R) : Reaches kind f g → kind turn g → turn.Takes g h → Reaches kind f h

/-- Every workload with a probe that runs has a monitor on its node, or the
startup probe, the only one it has, has passed there. -/
def Watched (docs : App → Prop) (f : Fleet R) : Prop :=
  ∀ key a, f.world.fsm.assignments.lookup key = some a → a.status = .running →
    ∀ app workload, docs app → workload ∈ app.workloads → assignmentKey app.metadata workload.name = key →
      appGeneration app = trimSpace a.generation → workloadHasBackgroundHealth workload = true →
        (∃ runID target, (f.world.tables (trimSpace a.node)).healthMonitors.lookup key = some (runID, target) ∧
          target.workload.health = workload.health) ∨
        workloadLivenessProbe workload = none ∧
          ∃ target, (trimSpace a.node, target) ∈ f.passed ∧ target.key = key ∧ target.workload.health = workload.health

/-- Whether a startup-only monitor for the key has succeeded on a node. -/
def succeeded (f : Fleet R) (key node : String) (workload : Workload) : Prop :=
  ∃ target, (node, target) ∈ f.passed ∧ target.key = key ∧ target.workload.health = workload.health

structure Sound (docs : App → Prop) (f : Fleet R) : Prop where
  filed : f.world.Filed
  covered : ∀ key, (f.world.ward key).Covered docs (f.succeeded key) key

variable {docs : App → Prop} {f g : Fleet R}

theorem Sound.watched (sound : f.Sound docs) : f.Watched docs := by
  intro key a found running app workload known member keyed generation probed
  obtain ⟨target, monitors, same⟩ | passed :=
    (sound.covered key a found running).watched app workload known member keyed generation probed
  · obtain ⟨⟨runID, seen⟩, entry, rfl⟩ := Option.map_eq_some_iff.mp monitors
    exact .inl ⟨runID, seen, entry, same⟩
  · exact .inr passed

theorem sound_of_empty (empty : f.world.fsm = {}) : f.Sound docs := by
  refine ⟨⟨?_, ?_⟩, ?_⟩
  · intro key app found
    rw [empty] at found
    cases found
  · intro key apps found
    rw [empty] at found
    cases found
  · intro key a found
    rw [World.ward, empty] at found
    cases found

variable {svc : Service} {trace : List (Event TaskSig (World R))}

theorem ensures_of_wards {α : Type} {good : (op : TaskOp) → op.Answer → Bool} {p : Task α} {w u : World R} {a : α}
    {post : Ward → Prop} {key : String} (filed : w.Filed)
    (run : Run (Assuming (World.machine R svc).Step good) p w trace (.pure a) u)
    (ensured : Ensures (Assuming (Ward.Step key svc) good) anything (fun _ => post) p (w.ward key)) :
    post (u.ward key) ∧ u.Filed := by
  have lifted : Ensures (Assuming (World.machine R svc).Step good) anything
      (fun _ u => post (u.ward key) ∧ u.Filed) p w := by
    have kept {w u : World R} {op : TaskOp} {answer : op.Answer} (filed : w.Filed)
        (taken : (World.machine R svc).Step w op answer u) :
        Ward.Step key svc (w.ward key) op answer (u.ward key) ∧ u.Filed := World.ward_step filed taken
    refine Ensures.invariant (fun filed _ taken => (kept filed taken.1).2) filed ?_
    refine ensured.simulate ?_
    rintro w op answer u ⟨filed, ⟨taken, fine⟩, -⟩
    exact ⟨(kept filed taken).1, fine⟩
  exact lifted.finishes ⟨trace, run⟩

theorem Sound.deed {deed : Deed} (catalogue : Catalogue docs) (sound : f.Sound docs)
    (orderly : (Happening.deed svc deed trace).Orderly docs f) (takes : (Happening.deed svc deed trace).Takes f g) :
    g.Sound docs := by
  obtain ⟨run, same⟩ := takes
  have smooth : Run (Assuming (World.machine R svc).Step deed.smooth) (deed.program svc) f.world trace (.pure ()) g.world :=
    run.within orderly.2
  have each (key : String) := ensures_of_wards sound.filed smooth
    (Deed.covers catalogue orderly.1 (sound.covered key))
  refine ⟨(each "").2, ?_⟩
  intro key
  have passed : g.succeeded key = f.succeeded key := by
    unfold succeeded
    rw [same]
  rw [passed]
  exact (each key).1

theorem runWorkloadHealthMonitor_drops {ctx : Ctx} {runID : Nat} {target : HealthTarget} {key : String} {d : Ward}
    (only : workloadLivenessProbe target.workload = none) :
    Ensures (Assuming (Ward.Step key svc) TaskOp.probed) anything
      (fun _ e => e = d ∨ e = d.drop key svc.localNode target.key) (runWorkloadHealthMonitor ctx runID target) d := by
  have ends : Ensures (Assuming (Ward.Step key svc) TaskOp.probed) anything
      (fun _ e => e = d ∨ e = d.drop key svc.localNode target.key) (ask (.finishHealthMonitor target.key runID)) d :=
    ⟨trivial, fun _ e taken => taken.1⟩
  rw [runWorkloadHealthMonitor, watchWorkloadHealth, only, ensures_bind, ensures_bind]
  cases workloadStartupProbe target.workload with
  | none => exact ends
  | some probe =>
    refine ⟨trivial, ?_⟩
    rintro (_ | err | _) e ⟨taken, passed⟩
    all_goals try cases passed
    obtain rfl : e = d := taken
    exact ends

theorem Sound.pass {ctx : Ctx} {runID : Nat} {target : HealthTarget} (sound : f.Sound docs)
    (takes : (Happening.pass svc ctx runID target trace).Takes f g) : g.Sound docs := by
  obtain ⟨⟨registered, only⟩, run, added⟩ := takes
  have each (key : String) : (g.world.ward key = f.world.ward key ∨
      g.world.ward key = (f.world.ward key).drop key svc.localNode target.key) ∧ g.world.Filed :=
    ensures_of_wards sound.filed run (runWorkloadHealthMonitor_drops only)
  refine ⟨(each "").2, ?_⟩
  intro key a found running
  have wider {node : String} {workload : Workload} (passed : f.succeeded key node workload) :
      g.succeeded key node workload := by
    obtain ⟨seen, member, rest⟩ := passed
    exact ⟨seen, added ▸ List.mem_cons_of_mem _ member, rest⟩
  have before : (f.world.ward key).current = some a := by
    rcases (each key).1 with same | dropped
    · rw [← same]
      exact found
    · rw [dropped, Ward.drop] at found
      split at found <;> exact found
  obtain ⟨dated, watched⟩ := sound.covered key a before running
  refine ⟨dated, ?_⟩
  intro app workload known member keyed generation probed
  rcases watched app workload known member keyed generation probed with ⟨seen, monitors, health⟩ | ⟨single, passed⟩
  · rcases (each key).1 with same | dropped
    · exact .inl ⟨seen, same ▸ monitors, health⟩
    by_cases own : target.key = key ∧ trimSpace a.node = svc.localNode
    · obtain ⟨mine, here⟩ := own
      -- The monitor that ends is the one the workload was watched by.
      rw [here, World.ward] at monitors
      dsimp only at monitors
      rw [← mine, registered] at monitors
      obtain rfl : target = seen := Option.some.inj monitors
      refine .inr ⟨?_, target, ?_, mine, health⟩
      · rw [workloadLivenessProbe, ← health]
        exact only
      · rw [added, here]
        exact List.mem_cons_self
    · refine .inl ⟨seen, ?_, health⟩
      rw [dropped, Ward.drop]
      split
      · rename_i mine
        exact (Function.update_of_ne (fun here => own ⟨mine, here⟩) _ _).trans monitors
      · exact monitors
  · exact .inr ⟨single, wider passed⟩

theorem Sound.restart {node : String} {state : R.State} (sound : f.Sound docs)
    (gentle : (Happening.restart node state).Gentle docs f) : (f.restart node state).Sound docs := by
  refine ⟨sound.filed, ?_⟩
  intro key a found running
  obtain ⟨dated, watched⟩ := sound.covered key a found running
  refine ⟨dated, ?_⟩
  intro app workload known member keyed generation probed
  have apart : trimSpace a.node ≠ node := by
    intro here
    have bare := gentle.2 node state rfl key a found running here app workload known member keyed generation
    rw [bare] at probed
    cases probed
  rcases watched app workload known member keyed generation probed with ⟨target, monitors, same⟩ | ⟨only, target, passed, rest⟩
  · refine .inl ⟨target, ?_, same⟩
    simp only [World.ward, Fleet.restart, World.restart, Function.update_of_ne apart]
    exact monitors
  · exact .inr ⟨only, target, List.mem_filter.mpr ⟨passed, by simpa using apart⟩, rest⟩

theorem Sound.turn {turn : Happening R} (catalogue : Catalogue docs) (sound : f.Sound docs) (gentle : turn.Gentle docs f)
    (takes : turn.Takes f g) : g.Sound docs := by
  cases turn with
  | deed svc work trace => exact sound.deed catalogue gentle.1 takes
  | pass svc ctx runID target trace => exact sound.pass takes
  | restart node state =>
    obtain rfl : g = f.restart node state := takes
    exact sound.restart gentle

end Fleet

theorem Fleet.Reaches.mono {kind wider : Happening R → Fleet R → Prop} {f g : Fleet R} (reached : f.Reaches kind g)
    (within : ∀ turn f, kind turn f → wider turn f) : f.Reaches wider g := by
  induction reached with
  | start => exact .start
  | next turn _ meant takes ih => exact .next turn ih (within _ _ meant) takes

theorem Fleet.Reaches.deed {docs : App → Prop} {f g : Fleet R} {svc : Service} {deed : Deed} {u : World R}
    (reached : f.Reaches (Happening.Gentle docs) g) (known : ∀ app ∈ g.world.fsm.listDeployApps, docs app)
    (run : Finishes (Assuming (World.machine R svc).Step deed.smooth) (deed.program svc) g.world () u) :
    f.Reaches (Happening.Gentle docs) ⟨u, g.passed⟩ := by
  obtain ⟨trace, run⟩ := run
  have smooth (event : Event TaskSig (World R)) (member : event ∈ trace) := (run.taken event member).2
  exact .next (.deed svc deed trace) reached ⟨⟨known, smooth⟩, nofun⟩ ⟨run.mono fun taken => taken.1, rfl⟩

/-- In a cluster that starts from nothing every workload with a probe that
runs is watched, as long as its turns are gentle. -/
theorem running_workloads_watched {docs : App → Prop} {f g : Fleet R} (catalogue : Catalogue docs)
    (empty : f.world.fsm = {}) (reached : f.Reaches (Happening.Gentle docs) g) : g.Watched docs := by
  have sound : g.Sound docs := by
    induction reached with
    | start => exact Fleet.sound_of_empty empty
    | next turn _ gentle takes ih => exact ih.turn catalogue gentle takes
  exact sound.watched

def probedApp : App :=
  { imageApp "web" "api" "nginx" with
    workloads := [{ imageWorkload "api" "nginx" with health := some { liveness := some { tcp := some { port := 80 } } } }] }

theorem catalogue_probedApp : Catalogue (· = probedApp) := by
  refine ⟨?_, ?_⟩
  · rintro app rfl
    exact ⟨Topological.peeling String, by decide +kernel⟩
  · rintro a b rfl rfl _
    rfl

theorem probedApp_runs : ∃ g : Fleet instanceRuntime,
    Fleet.Reaches (Happening.Gentle (· = probedApp)) ⟨World.idle, []⟩ g ∧ g.passed = [] ∧
      ∃ a, g.world.fsm.assignments.lookup "default/web/api" = some a ∧ a.status = .running ∧ trimSpace a.node = "a" ∧
        trimSpace a.generation = appGeneration probedApp := by
  have played : (((Deed.submit {} probedApp).program sampleService).play
      ((World.machine instanceRuntime sampleService).assuming (Deed.submit {} probedApp).smooth)
      (List.replicate 40 (World.smoothly "a")) World.idle).bind (fun submitted =>
        (((Deed.pass {}).program sampleService).play
          ((World.machine instanceRuntime sampleService).assuming (Deed.pass {}).smooth)
          (List.replicate 40 (World.smoothly "a")) submitted.1).map fun ran =>
            decide (submitted.1.fsm.listDeployApps = [probedApp]) &&
            (ran.1.fsm.assignments.lookup "default/web/api").any fun a =>
              a.status = .running ∧ trimSpace a.node = "a" ∧ trimSpace a.generation = appGeneration probedApp) =
      some true := by
    decide +kernel
  obtain ⟨⟨t, _⟩, submitted, played⟩ := Option.bind_eq_some_iff.mp played
  obtain ⟨⟨u, _⟩, ran, checked⟩ := Option.map_eq_some_iff.mp played
  simp only [Bool.and_eq_true, decide_eq_true_eq, Option.any_eq_true_iff_get] at checked
  obtain ⟨listed, present, running⟩ := checked
  have first : Fleet.Reaches (Happening.Gentle (· = probedApp)) ⟨World.idle, []⟩ ⟨t, []⟩ :=
    Fleet.Reaches.start.deed nofun
      ((finishes_of_play submitted).mono Machine.assuming_step)
  have second : Fleet.Reaches (Happening.Gentle (· = probedApp)) ⟨World.idle, []⟩ ⟨u, []⟩ :=
    first.deed (by simp [listed]) ((finishes_of_play ran).mono Machine.assuming_step)
  exact ⟨⟨u, []⟩, second, rfl, _, (Option.some_get present).symm, running⟩

/-- The app that has been started is watched. -/
theorem probedApp_watched : ∃ g : Fleet instanceRuntime,
    (∃ a, g.world.fsm.assignments.lookup "default/web/api" = some a ∧ a.status = .running) ∧ g.Watched (· = probedApp) := by
  obtain ⟨g, reached, -, a, found, running, -⟩ := probedApp_runs
  exact ⟨g, ⟨a, found, running⟩, running_workloads_watched catalogue_probedApp rfl reached⟩

/-- After a restart of its node nothing watches it, although it runs. -/
theorem restart_leaves_unwatched :
    ¬ ∀ (docs : App → Prop) (f g : Fleet instanceRuntime), Catalogue docs → f.world.fsm = {} →
      f.Reaches (Happening.Orderly docs) g → g.Watched docs := by
  intro always
  obtain ⟨g, reached, none, a, found, running, here, generation⟩ := probedApp_runs
  have restarted : Fleet.Reaches (Happening.Orderly (· = probedApp)) ⟨World.idle, []⟩
      (g.restart "a" (g.world.runtimes "a")) :=
    .next (.restart "a" (g.world.runtimes "a")) (reached.mono fun _ _ gentle => gentle.1) trivial rfl
  have watched := always _ _ _ catalogue_probedApp rfl restarted _ a found running probedApp _ rfl
    List.mem_cons_self (by decide +kernel) generation.symm (by decide +kernel)
  rw [here] at watched
  rcases watched with ⟨runID, target, monitors, -⟩ | ⟨-, target, passed, -⟩
  · simp only [Fleet.restart, World.restart, Function.update_self] at monitors
    cases monitors
  · simp only [Fleet.restart, none, List.filter_nil] at passed
    cases passed

end Orch
