import Orch.Task.Gating
import Orch.Task.Replication
import Mathlib.Data.List.Chain
import Mathlib.Logic.Relation

namespace Orch

open Effect

/-- The workloads of a document that a workload depends on, directly or through
others. -/
def App.ReliesOn (doc : App) : Workload → Workload → Prop :=
  Relation.TransGen fun y x => x ∈ doc.workloads ∧ y.DependsOn x

/-- A pass over a document, with what became of each workload that it came to. -/
def deployAppWorkloadsLogged (svc : Service) (ctx : Ctx) (app : App) (opts : DeployOptions) :
    Task (List (Workload × Check) × Check) := do
  match ← prepareDeploy svc ctx app with
  | .error err => return ([], .error err)
  | .ok workloads => Program.eachUntilLogged (deployOneWorkload svc ctx app (appGeneration app) opts) workloads

theorem forget_deployAppWorkloadsLogged (svc : Service) (ctx : Ctx) (app : App) (opts : DeployOptions) :
    (do return (← deployAppWorkloadsLogged svc ctx app opts).2) = deployAppWorkloadsWithOptions svc ctx app opts := by
  rw [deployAppWorkloadsLogged, deployAppWorkloadsWithOptions, Program.bind_assoc]
  refine congrArg (bind (prepareDeploy svc ctx app)) (funext ?_)
  rintro (err | workloads)
  · rfl
  · exact Program.forget_eachUntilLogged _ workloads

/-- Every workload that depends on none that failed has been processed. -/
def UnrelatedProcessed (doc : App) (log : List (Workload × Check)) : Prop :=
  ∀ y ∈ doc.workloads, (∀ x err, doc.ReliesOn y x → (x, .error err) ∉ log) → y ∈ log.map Prod.fst

section Passes

variable {svc : Service} {doc : App} {order : List Workload}

theorem finishes_prepareDeploy {R : Runtime} {ctx : Ctx} {w mid : World R} {prepared : Except Failure (List Workload)}
    (valid : doc.validate svc.sorter = .ok ()) (ordered : doc.workloadsInDependencyOrder svc.sorter = .ok order) :
    Finishes (World.machine R svc).Step (prepareDeploy svc ctx doc) w prepared mid ↔
      prepared = .ok order ∧ ∃ refreshed, Finishes (World.machine R svc).Step (refreshLocal svc ctx) w refreshed mid := by
  rw [prepareDeploy, valid]
  dsimp only
  rw [finishes_bind, ordered]
  constructor
  · rintro ⟨refreshed, t, first, later⟩
    obtain ⟨rfl, rfl⟩ := finishes_pure.mp later
    exact ⟨rfl, refreshed, first⟩
  · rintro ⟨rfl, refreshed, first⟩
    exact ⟨refreshed, mid, first, finishes_pure.mpr ⟨rfl, rfl⟩⟩

theorem unrelatedProcessed_cut {before after : List Workload} {f : Workload} {err : Failure}
    (ordered : doc.workloadsInDependencyOrder svc.sorter = .ok (before ++ f :: after)) :
    UnrelatedProcessed doc (before.map (·, .ok ()) ++ [(f, .error err)]) ↔ ∀ y ∈ after, doc.ReliesOn y f := by
  obtain ⟨permuted, distinct, -⟩ := App.workloadsInDependencyOrder_ok ordered
  have separate : (before ++ f :: after).Nodup := permuted.nodup_iff.mpr (List.Nodup.of_map _ distinct)
  have failing {x : Workload} {cause : Failure} :
      (x, Except.error cause) ∈ before.map (·, (Except.ok () : Check)) ++ [(f, Except.error err)] ↔ x = f ∧ cause = err := by
    simp
  have processed : (before.map (·, (Except.ok () : Check)) ++ [(f, Except.error err)]).map Prod.fst = before ++ [f] := by
    simp [Function.comp_def]
  rw [UnrelatedProcessed, processed]
  constructor
  · intro unrelated y behind
    by_contra independent
    have reached := unrelated y (permuted.mem_iff.mp (by simp [behind])) fun x cause relies failed => by
      obtain ⟨rfl, -⟩ := failing.mp failed
      exact independent relies
    rw [List.append_cons, List.nodup_append] at separate
    exact separate.2.2 y reached y behind rfl
  · intro behind y member sound
    have placed : y ∈ before ++ [f] ∨ y ∈ after := by
      rw [← List.mem_append, ← List.append_cons]
      exact permuted.mem_iff.mpr member
    rcases placed with reached | left
    · exact reached
    · exact absurd (failing.mpr ⟨rfl, rfl⟩) (sound f err (behind y left))

end Passes

section Failing

variable {svc : Service} {doc : App} {ctx : Ctx} {x : Workload} {generation : String}

theorem runLocalWorkload_fails {metadata : Metadata} {node : String} : Refused (runLocalWorkload ctx metadata x node) := by
  have deploys : Refused (deployLocalWorkload ctx metadata x node) := by
    refine ⟨trivial, ?_⟩
    rintro (err | _) - failed
    · exact ⟨_, rfl⟩
    · cases failed
  refine heeds_bind deploys ?_
  rintro _ ⟨err, rfl⟩
  exact ⟨_, rfl⟩

theorem dispatchWorkload_fails {metadata : Metadata} {node : String} : Refused (dispatchWorkload svc ctx metadata x node) := by
  unfold dispatchWorkload
  split
  · exact ⟨_, rfl⟩
  refine ⟨trivial, ?_⟩
  rintro (err | reply) - failed
  · exact ⟨_, rfl⟩
  · cases failed

theorem placeWorkload_fails : Refused (placeWorkload svc ctx doc x generation) := by
  refine heeds_then (Ensures.trivially _) ?_
  rintro (err | node)
  · exact heeds_then (Ensures.trivially _) fun _ => ⟨_, rfl⟩
  refine heeds_then (Ensures.trivially _) fun _ => ?_
  split
  · refine heeds_bind dispatchWorkload_fails ?_
    rintro _ ⟨err, rfl⟩
    exact heeds_then (Ensures.trivially _) fun _ => ⟨_, rfl⟩
  · refine heeds_bind runLocalWorkload_fails ?_
    rintro _ ⟨err, rfl⟩
    exact heeds_then (Ensures.trivially _) fun _ => ⟨_, rfl⟩

theorem deployOneWorkload_fails {opts : DeployOptions} {v : Scene}
    (unassigned : v.fsm.getAssignment (assignmentKey doc.metadata x.name) = none) :
    Ensures (Assuming (View.Step svc) TaskOp.refused) anything (fun result _ => ∃ err, result = .error err)
      (deployOneWorkload svc ctx doc generation opts x) v := by
  rw [deployOneWorkload, ensures_bind]
  refine Tame.ensures (fun taken => taken.1.local) (fun _ _ _ => trivial) withRolloutProgressDeadline_reads.tame fun ctx => ?_
  rw [ensures_bind]
  refine workloadAssignment_ensures (fun taken => taken.1.local) (fun _ _ _ => trivial) ?_
  rw [unassigned]
  exact Ensures.of_told (fun taken => taken.2) placeWorkload_fails

theorem exists_rolledOut {f : Workload} (named : trimSpace doc.metadata.name ≠ "") : ∀ {before : List Workload},
    (∀ y ∈ before, y.key ≠ "" ∧ f.key ≠ y.key) →
      ∃ v : Scene, (∀ y ∈ before, RunningNow v.fsm doc y) ∧
        v.fsm.getAssignment (assignmentKey doc.metadata f.name) = none
  | [], _ => ⟨World.idle.view, by simp, rfl⟩
  | y :: before, apart => by
    obtain ⟨v, running, unassigned⟩ := exists_rolledOut named fun z inside => apart z (List.mem_cons_of_mem _ inside)
    obtain ⟨present, other⟩ := apart y List.mem_cons_self
    refine ⟨v.record (assignmentRecord doc.metadata y "" .running (appGeneration doc) none "" (artifactSummary y.run)), ?_, ?_⟩
    · intro z inside
      by_cases same : z.key = y.key
      · refine ⟨_, (assigned_record named present).trans (if_pos same), rfl, ?_⟩
        simp [sameGeneration, assignmentRecord]
      · rcases List.mem_cons.mp inside with rfl | inside
        · exact absurd rfl same
        · exact (running z inside).record named present same
    · exact ((assigned_record named present).trans (if_neg other)).trans unassigned

end Failing

/-- A pass may fail at any workload of the order. -/
theorem exists_stopped_pass {svc : Service} {doc : App} {before after : List Workload} {f : Workload}
    (valid : doc.validate svc.sorter = .ok ())
    (ordered : doc.workloadsInDependencyOrder svc.sorter = .ok (before ++ f :: after)) :
    ∃ (w last : World instanceRuntime) (err : Failure),
      Finishes (World.machine instanceRuntime svc).Step (deployAppWorkloadsLogged svc {} doc {}) w
        (before.map (·, .ok ()) ++ [(f, .error err)], .error err) last := by
  obtain ⟨permuted, distinct, nonblank⟩ := App.workloadsInDependencyOrder_ok ordered
  have separate : ((before ++ f :: after).map Workload.key).Nodup := (permuted.map _).nodup_iff.mpr distinct
  rw [List.map_append, List.nodup_append] at separate
  have apart (y : Workload) (earlier : y ∈ before) : y.key ≠ "" ∧ f.key ≠ y.key :=
    ⟨nonblank y (permuted.mem_iff.mp (by simp [earlier])),
      (separate.2.2 _ (List.mem_map_of_mem earlier) _ (by simp)).symm⟩
  obtain ⟨v, running, unassigned⟩ := exists_rolledOut (App.validate_name valid) apart
  let w : World instanceRuntime := { World.idle with fsm := { toLedger := v.fsm } }
  have refreshes : Ensures (Assuming (World.machine instanceRuntime svc).Step TaskOp.refused) (fun _ op => op.rests = true)
      (fun _ u => u.view.fsm.assignments = v.fsm.assignments) (refreshLocal svc {}) w :=
    refreshLocal_rests.simulate fun taken => World.view_step taken.1
  obtain ⟨refreshed, mid, first, same⟩ := refreshes.exists_end fun s op _ => World.exists_refused svc s op
  have fails (s : World instanceRuntime) (held : s.view.fsm.assignments = v.fsm.assignments) :
      ∃ err t, Finishes (World.machine instanceRuntime svc).Step (deployOneWorkload svc {} doc (appGeneration doc) {} f) s
        (.error err) t := by
    have ensured : Ensures (Assuming (World.machine instanceRuntime svc).Step TaskOp.refused) anything
        (fun result _ => ∃ err, result = .error err) (deployOneWorkload svc {} doc (appGeneration doc) {} f) s := by
      refine (deployOneWorkload_fails ?_).simulate fun taken => ⟨World.view_step taken.1, taken.2⟩
      rw [Ledger.getAssignment, held]
      exact unassigned
    obtain ⟨_, t, run, err, rfl⟩ := ensured.exists_end fun s op _ => World.exists_refused svc s op
    exact ⟨err, t, run.mono fun taken => taken.1⟩
  have succeeds (y : Workload) (earlier : y ∈ before) (s : World instanceRuntime)
      (held : s.view.fsm.assignments = v.fsm.assignments) :
      ∃ t, Finishes (World.machine instanceRuntime svc).Step (deployOneWorkload svc {} doc (appGeneration doc) {} y) s
        (.ok ()) t ∧ t.view.fsm.assignments = v.fsm.assignments := by
    have ensured : Ensures (Assuming (World.machine instanceRuntime svc).Step TaskOp.refused) (fun _ op => op.rests = true)
        (fun result u => result = .ok () ∧ u.view = s.view) (deployOneWorkload svc {} doc (appGeneration doc) {} y) s := by
      obtain ⟨a, found, current⟩ := running y earlier
      have here : RunningNow s.view.fsm doc y := ⟨a, by rw [Ledger.getAssignment, held]; exact found, current⟩
      exact (deployOneWorkload_rests here).simulate fun taken => World.view_step taken.1
    obtain ⟨_, t, run, rfl, unchanged⟩ := ensured.exists_end fun s op _ => World.exists_refused svc s op
    exact ⟨t, run.mono fun taken => taken.1, by rw [unchanged]; exact held⟩
  obtain ⟨err, last, logged⟩ := exists_eachUntilLogged fails succeeds same
  have prepared := (finishes_prepareDeploy valid ordered).mpr ⟨rfl, refreshed, first.mono fun taken => taken.1⟩
  exact ⟨w, last, err, finishes_bind.mpr ⟨_, mid, prepared, logged⟩⟩

/-- Every pass over the document processes all that depends on no failure. -/
def ProcessesUnrelated (svc : Service) (doc : App) : Prop :=
  ∀ (ctx : Ctx) (opts : DeployOptions) (w last : World instanceRuntime) (log : List (Workload × Check)) (result : Check),
    Finishes (World.machine instanceRuntime svc).Step (deployAppWorkloadsLogged svc ctx doc opts) w (log, result) last →
      UnrelatedProcessed doc log

/-- No pass over a document leaves out a workload because of an unrelated one
exactly when each workload of its order relies on the one before it. The log is
that of the pass itself: forgetting it leaves the program as it is. -/
theorem unrelated_processed_iff {svc : Service} {doc : App} {order : List Workload}
    (valid : doc.validate svc.sorter = .ok ()) (ordered : doc.workloadsInDependencyOrder svc.sorter = .ok order) :
    (∀ ctx opts, (do return (← deployAppWorkloadsLogged svc ctx doc opts).2) =
      deployAppWorkloadsWithOptions svc ctx doc opts) ∧
    (ProcessesUnrelated svc doc ↔ order.IsChain fun x y => doc.ReliesOn y x) := by
  refine ⟨fun ctx opts => forget_deployAppWorkloadsLogged svc ctx doc opts, ?_, ?_⟩
  · intro unrelated
    rw [List.isChain_iff_forall_rel_of_append_cons_cons]
    rintro f y before after rfl
    obtain ⟨w, last, err, pass⟩ := exists_stopped_pass valid ordered
    exact (unrelatedProcessed_cut ordered).mp (unrelated _ _ w last _ _ pass) y List.mem_cons_self
  · intro chain ctx opts w last log result pass
    obtain ⟨prepared, mid, first, logged⟩ := finishes_bind.mp pass
    obtain ⟨rfl, -⟩ := (finishes_prepareDeploy valid ordered).mp first
    rcases eachUntilLogged_cut logged with all | ⟨before, f, after, err, rfl, all⟩
    · obtain rfl : log = order.map (·, .ok ()) := all
      intro y member _
      simpa [Function.comp_def] using (App.workloadsInDependencyOrder_ok ordered).1.mem_iff.mpr member
    · obtain rfl : log = before.map (·, .ok ()) ++ [(f, .error err)] := all
      rw [unrelatedProcessed_cut ordered]
      have trans : IsTrans Workload fun x y => doc.ReliesOn y x := ⟨fun _ _ _ first second => second.trans first⟩
      have behind := (List.isChain_split.mp chain).2
      rw [List.isChain_iff_pairwise, List.pairwise_cons] at behind
      exact behind.1

/-- Where one of two workloads depends on the other, none is left out. -/
theorem unrelated_processed_stackApp :
    stackApp.validate sampleService.sorter = .ok () ∧ ProcessesUnrelated sampleService stackApp := by
  have valid : stackApp.validate sampleService.sorter = .ok () := by decide +kernel
  have ordered : stackApp.workloadsInDependencyOrder sampleService.sorter = .ok stackApp.workloads.reverse := by
    decide +kernel
  refine ⟨valid, (unrelated_processed_iff valid ordered).2.mpr ?_⟩
  refine List.isChain_pair.mpr (.single ⟨?_, _, List.mem_cons_self, ?_⟩)
  · simp [stackApp]
  · decide +kernel

def looseApp : App where
  metadata := { name := "web" }
  workloads := [imageWorkload "api" "nginx", imageWorkload "db" "postgres"]

/-- The first one cannot be started, and the pass does not come to the second. -/
theorem unrelated_left_out :
    ¬ ∀ (svc : Service) (doc : App), doc.validate svc.sorter = .ok () → ProcessesUnrelated svc doc := by
  intro unrelated
  have valid : looseApp.validate sampleService.sorter = .ok () := by decide +kernel
  have ordered : looseApp.workloadsInDependencyOrder sampleService.sorter =
    .ok ([] ++ imageWorkload "api" "nginx" :: [imageWorkload "db" "postgres"]) := by decide +kernel
  obtain ⟨w, last, err, pass⟩ := exists_stopped_pass valid ordered
  have relies := (unrelatedProcessed_cut ordered).mp (unrelated _ _ valid _ _ _ _ _ _ pass) _ List.mem_cons_self
  -- Nothing depends on anything here.
  obtain ⟨x, ⟨-, ref, depends, -⟩, -⟩ := Relation.TransGen.head'_iff.mp relies
  cases depends

end Orch
