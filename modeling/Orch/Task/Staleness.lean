import Orch.Effect.Parallel
import Orch.Task.Convergence
import Orch.Task.Reads
import Orch.Task.Replication

namespace Orch

open Effect

def TaskOp.reportsFailure : (op : TaskOp) → op.Answer → Bool
  | .probeHealth _ _, .failed _ => true
  | _, _ => false

/-- What a failed probe may lead to: the workload is stopped, taken from the
registry, or recorded. -/
def TaskOp.intervenes : TaskOp → Bool
  | .runtimeStop _ _ _ _ | .registryDelete _ | .apply _ (.upsertWorkloadAssignment _) => true
  | _ => false

section Watching

variable {R : Runtime} {ι : Type}

/-- Whether the last the monitor has heard is that a probe failed. -/
def noteReport (reported : Bool) (entry : Option ι × Event TaskSig (World R)) : Bool :=
  match entry.1 with
  | none => TaskOp.reportsFailure entry.2.op entry.2.answer
  | some _ => reported

/-- The monitor goes on, in the state before the event, after it has heard that
a probe failed. -/
def HandlesFailure (trace before : List (Option ι × Event TaskSig (World R))) (event : Event TaskSig (World R))
    (after : List (Option ι × Event TaskSig (World R))) : Prop :=
  trace = before ++ (none, event) :: after ∧ before.foldl noteReport false = true

/-- A failure that is handled when the assignment is no longer the one watched
has no effect. -/
def StaleHarmless (target : HealthTarget) (trace : List (Option ι × Event TaskSig (World R))) : Prop :=
  ∀ before event after, HandlesFailure trace before event after →
    ¬ event.before.fsm.RunsAt target.key target.nodeID target.generation →
      ∀ later, (none, later) ∈ (none, event) :: after → TaskOp.intervenes later.op = false

abbrev Hears : Steps TaskSig Bool := fun _ op answer reported => reported = TaskOp.reportsFailure op answer

/-- After a report, the monitor intervenes at once. -/
abbrev ActsOnReport (reported : Bool) (op : TaskOp) : Prop := reported = true → op.intervenes = true

theorem hears_of_asks {α : Type} {p : Task α} (asks : p.Asks fun op : TaskOp => ∀ answer, op.reportsFailure answer = false) :
    Ensures (Amid (fun s t => t = s) Hears) ActsOnReport (fun _ reported => reported = false) p false := by
  induction p with
  | pure value => rfl
  | call op next ih =>
    refine ⟨nofun, ?_⟩
    rintro answer reported ⟨_, heard, rfl⟩
    rw [show reported = false from heard.trans (asks.1 answer)]
    exact ih answer (asks.2 answer)

variable {ctx : Ctx} {target : HealthTarget}

theorem failLocalWorkloadHealth_hears {phase : String} {err : Failure} {heard : Bool} :
    Ensures (Amid (fun s t => t = s) Hears) ActsOnReport (fun _ reported => reported = false)
      (failLocalWorkloadHealth ctx target phase err) heard := by
  rw [failLocalWorkloadHealth, ensures_bind]
  refine ⟨fun _ => rfl, ?_⟩
  rintro stopped reported ⟨_, here, rfl⟩
  obtain rfl : reported = false := here
  refine hears_of_asks (asks_bind (deleteRecord_asks fun _ _ => rfl) fun _ => asks_bind ?_ ?_)
  · refine asks_bind (asks_perform fun _ => rfl) ?_
    rintro (_ | assignment) <;> trivial
  · rintro (_ | _)
    · trivial
    refine recordWorkload_records.mono ?_
    intro op records answer
    cases op with
    | apply => rfl
    | _ => cases records

theorem runWorkloadHealthMonitor_hears {runID : Nat} :
    Ensures (Amid (fun s t => t = s) Hears) ActsOnReport anything (runWorkloadHealthMonitor ctx runID target) false := by
  -- A phase ends with a report only if a probe was made and failed.
  have phase (name : String) (probe : Option Probe) : Ensures (Amid (fun s t => t = s) Hears) ActsOnReport
      (fun verdict reported => (∀ err, verdict ≠ .failed err) → reported = false) (runHealthPhase name probe target) false := by
    unfold runHealthPhase
    split
    · exact fun _ => rfl
    refine ⟨nofun, ?_⟩
    rintro verdict reported ⟨_, heard, rfl⟩ unfailed
    rw [show reported = _ from heard]
    cases verdict with
    | failed err => exact absurd rfl (unfailed err)
    | _ => rfl
  have watch : Ensures (Amid (fun s t => t = s) Hears) ActsOnReport (fun _ reported => reported = false)
      (watchWorkloadHealth ctx target) false := by
    refine (phase _ _).bind ?_
    rintro (_ | err | _) reported unfailed
    · obtain rfl := unfailed nofun
      refine (phase _ _).bind ?_
      rintro (_ | err | _) reported unfailed
      · exact unfailed nofun
      · exact failLocalWorkloadHealth_hears
      · exact unfailed nofun
    · exact failLocalWorkloadHealth_hears
    · exact unfailed nofun
  refine watch.bind ?_
  rintro _ _ rfl
  exact ⟨nofun, fun _ _ _ => trivial⟩

variable [DecidableEq ι]

theorem handled_intervenes {svcs : Option ι → Service} {ps rest : Option ι → Task Unit} {runID : Nat} {w u : World R}
    {trace : List (Option ι × Event TaskSig (World R))}
    (monitor : ps none = runWorkloadHealthMonitor ctx runID target)
    (weave : Weave (fun i => (World.machine R (svcs i)).Step) ps w trace rest u)
    {before after : List (Option ι × Event TaskSig (World R))} {event : Event TaskSig (World R)}
    (handles : HandlesFailure trace before event after) : TaskOp.intervenes event.op = true := by
  obtain ⟨noted, woven, found⟩ := weave.noting noteReport false
  let permit : Option ι → World R × Bool → TaskOp → Prop
    | none, s, op => ActsOnReport s.2 op
    | some _, _, _ => True
  let rely : Option ι → World R × Bool → World R × Bool → Prop
    | none, s, t => t.2 = s.2
    | some _, _, _ => True
  have promised (i : Option ι) : Withstands (rely i)
      (Noting (World.machine R (svcs i)).Step fun reported event => noteReport reported (i, event)) (permit i)
      anything (ps i) (w, false) := by
    cases i with
    | none =>
      have heard : Withstands (fun s t => t = s) Hears ActsOnReport anything (ps none) (Prod.snd (w, false)) := by
        rw [monitor]
        rintro _ rfl
        exact runWorkloadHealthMonitor_hears
      exact heard.simulate fun taken => taken.2
    | some k => exact fun _ _ => Ensures.trivially _
  have still (i : Option ι) (s : World R × Bool) : rely i s s := by cases i <;> trivial
  have join (i : Option ι) {s t u : World R × Bool} (first : rely i s t) (second : rely i t u) : rely i s u := by
    cases i with
    | none => exact Eq.trans second first
    | some k => trivial
  -- The others leave alone what the monitor has heard.
  have reliable {i j : Option ι} {s t : World R × Bool} {op : TaskOp} {answer : op.Answer} (other : j ≠ i)
      (_ : permit i s op) (taken : Noting (World.machine R (svcs i)).Step
        (fun reported event => noteReport reported (i, event)) s op answer t) : rely j s t := by
    cases j with
    | some k => trivial
    | none =>
      cases i with
      | none => exact absurd rfl other
      | some k => exact taken.2
  obtain ⟨permitted, -⟩ := woven.permitted promised still join reliable
  exact permitted none _ (found before none event after handles.1) handles.2

end Watching

/-- Whatever else goes on, a stale failure is harmless exactly when there is
none: when each failed probe is handled while the assignment is still the one
watched. -/
theorem stale_monitor_harmless_iff {R : Runtime} {ι : Type} [DecidableEq ι] {svcs : Option ι → Service}
    {ps rest : Option ι → Task Unit} {ctx : Ctx} {runID : Nat} {target : HealthTarget} {w u : World R}
    {trace : List (Option ι × Event TaskSig (World R))} (monitor : ps none = runWorkloadHealthMonitor ctx runID target)
    (weave : Weave (fun i => (World.machine R (svcs i)).Step) ps w trace rest u) :
    StaleHarmless target trace ↔ ∀ before event after, HandlesFailure trace before event after →
      event.before.fsm.RunsAt target.key target.nodeID target.generation := by
  constructor
  · intro harmless before event after handles
    by_contra stale
    have idle := harmless before event after handles stale event List.mem_cons_self
    rw [handled_intervenes monitor weave handles] at idle
    cases idle
  · intro current before event after handles stale
    exact absurd (current before event after handles) stale

/-- The old version of a workload is watched while a pass replaces it. -/
def watchedTarget : HealthTarget :=
  newWorkloadHealthTarget (imageApp "web" "api" "nginx")
    { imageWorkload "api" "nginx" with health := some { liveness := some { tcp := some { port := 80 } } } } "a" "g1" ""

def monitorAmidPass : Option Unit → Task Unit
  | none => runWorkloadHealthMonitor {} 1 watchedTarget
  | some _ => do
    let _ ← deployAppWorkloads sampleService {} (imageApp "web" "api" "caddy")

/-- The probe of the monitor fails, and whoever has a turn acts without
obstacles. -/
abbrev failedProbe : (_ : Option Unit) × (World.machine instanceRuntime sampleService).Choice :=
  ⟨none, { World.smoothly "a" with verdict := .failed (.errorf "connection refused") }⟩

abbrev watchTurn (i : Option Unit) : (_ : Option Unit) × (World.machine instanceRuntime sampleService).Choice :=
  ⟨i, World.smoothly "a"⟩

/-- The second event is a stop by the monitor, while its target runs on. -/
def stopsUnstale : List (Option Unit × Event TaskSig (World instanceRuntime)) → Bool
  | [_, (none, ⟨before, .runtimeStop _ _ _ _, _, _⟩)] =>
    decide (before.fsm.RunsAt watchedTarget.key watchedTarget.nodeID watchedTarget.generation)
  | _ => false

/-- Handled at once, the failure is not stale. -/
theorem stale_monitor_harmless_at_once :
    ∃ trace rest u, Weave (fun _ => (World.machine instanceRuntime sampleService).Step) monitorAmidPass World.outdated
        trace rest u ∧
      (∃ event ctx kind metadata name, (none, event) ∈ trace ∧ event.op = .runtimeStop ctx kind metadata name) ∧
      StaleHarmless watchedTarget trace := by
  have woven : (weave (fun _ => World.machine instanceRuntime sampleService) [failedProbe, watchTurn none]
      monitorAmidPass World.outdated).map (fun last => stopsUnstale last.1) = some true := by decide +kernel
  obtain ⟨trace, rest, u, weave, checked⟩ := exists_weave woven
  dsimp only at checked
  unfold stopsUnstale at checked
  split at checked
  · rename_i probe before ctx kind metadata name result after
    refine ⟨_, rest, u, weave, ⟨_, ctx, kind, metadata, name, List.mem_cons_of_mem _ List.mem_cons_self, rfl⟩,
      (stale_monitor_harmless_iff rfl weave).mpr ?_⟩
    rintro earlier event later ⟨cut, reported⟩
    rcases earlier with _ | ⟨_, _ | ⟨_, _⟩⟩
    · cases reported
    · obtain ⟨-, cut⟩ := List.cons.inj cut
      obtain ⟨same, -⟩ := List.cons.inj cut
      cases same
      exact of_decide_eq_true checked
    · have longer := congrArg List.length cut
      simp at longer
  · cases checked

/-- The pass replaces the old version by the new one between the last probe and
its handling, and the monitor stops the new one. -/
theorem stale_monitor_stops_successor :
    ¬ ∀ (ι : Type) (_ : DecidableEq ι) (svcs : Option ι → Service) (ps rest : Option ι → Task Unit) (ctx : Ctx) (runID : Nat)
      (target : HealthTarget) (w u : World instanceRuntime)
      (trace : List (Option ι × Event TaskSig (World instanceRuntime))),
      ps none = runWorkloadHealthMonitor ctx runID target →
      Weave (fun i => (World.machine instanceRuntime (svcs i)).Step) ps w trace rest u → StaleHarmless target trace := by
  intro harmless
  have woven : (weave (fun _ => World.machine instanceRuntime sampleService)
      (failedProbe :: List.replicate 20 (watchTurn (some ())) ++ [watchTurn none]) monitorAmidPass World.outdated).map
        (fun last => last.1.dropLast.foldl noteReport false && last.1.getLast?.any fun entry => entry.1.isNone &&
          TaskOp.intervenes entry.2.op &&
            decide (¬ entry.2.before.fsm.RunsAt watchedTarget.key watchedTarget.nodeID watchedTarget.generation)) =
        some true := by decide +kernel
  obtain ⟨trace, rest, u, weave, checked⟩ := exists_weave woven
  simp only [Bool.and_eq_true, Option.any_eq_true, Option.isNone_iff_eq_none, decide_eq_true_eq] at checked
  obtain ⟨reported, ⟨i, event⟩, last, ⟨rfl, intervenes⟩, stale⟩ := checked
  have cut := (List.dropLast_append_getLast? _ last).symm
  have idle := harmless _ inferInstance _ _ _ _ _ _ _ _ _ rfl weave _ event [] ⟨cut, reported⟩ stale event List.mem_cons_self
  rw [intervenes] at idle
  cases idle

end Orch
