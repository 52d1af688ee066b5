import Orch.Raft.Entries
import Orch.Task.Local

namespace Orch

def appStatusPending : String := "pending"

def appStatusRunning : String := "running"

def appStatusStopped : String := "stopped"

def appStatusPartial : String := "partial"

def appStatusFailed : String := "failed"

structure AppWorkloadView where
  name : String
  kind : WorkloadKind
  runtime : RuntimeKind
  node : String := ""
  artifact : String
  status : String
  generation : String := ""
  error : String := ""
  updatedAt : Nat := 0

structure AppView where
  metadata : Metadata
  status : String := ""
  desiredGeneration : String
  observedGeneration : String := ""
  desiredWorkloads : Nat
  running : Nat := 0
  stopped : Nat := 0
  failed : Nat := 0
  pending : Nat := 0
  lastTransitionAt : Nat := 0
  lastError : String := ""
  revisionCount : Nat := 0
  rollbackAvailable : Bool := false
  previousGeneration : String := ""
  workloads : List AppWorkloadView := []

/-- The workloads in order, or as they stand in a document that has none. -/
def appWorkloadsForView (sorter : GraphSorter) (app : App) : List Workload :=
  match app.workloadsInDependencyOrder sorter with
  | .error _ => app.workloads
  | .ok workloads => workloads

def buildAppWorkloadView (s : RecordState) (metadata : Metadata) (workload : Workload) (desiredGeneration : String) :
    AppWorkloadView :=
  let item : AppWorkloadView :=
    { name := workload.name, kind := workload.kind, runtime := workload.runtime
      artifact := artifactSummary workload.run, status := appStatusPending }
  match s.getAssignment (assignmentKey metadata workload.name) with
  | none => item
  | some assignment =>
    let item :=
      { item with
        node := assignment.node, generation := trimSpace assignment.generation, updatedAt := assignment.updatedAt
        artifact := if assignment.artifact ≠ "" then assignment.artifact else item.artifact }
    if trimSpace assignment.generation ≠ desiredGeneration then item
    else
      { item with
        error := assignment.error
        status := if trimSpace assignment.status = "" then appStatusPending else trimSpace assignment.status }

namespace AppView

def countWorkloadStatus (view : AppView) (status : String) : AppView :=
  if status = AssignmentStatus.text .running then { view with running := view.running + 1 }
  else if status = AssignmentStatus.text .stopped then { view with stopped := view.stopped + 1 }
  else if status = AssignmentStatus.text .failed then { view with failed := view.failed + 1 }
  else { view with pending := view.pending + 1 }

def addWorkload (view : AppView) (item : AppWorkloadView) : AppView :=
  let view := { view with workloads := view.workloads ++ [item] }.countWorkloadStatus item.status
  let view := if view.lastTransitionAt < item.updatedAt then { view with lastTransitionAt := item.updatedAt } else view
  if item.error ≠ "" ∧ view.lastError = "" then { view with lastError := item.error } else view

def allDesiredWorkloadsObserved (view : AppView) : Bool :=
  if view.desiredWorkloads = 0 ∨ view.pending ≠ 0 then false
  else view.running + view.stopped + view.failed = view.desiredWorkloads

def addRevisionSummary (view : AppView) (f : Ledger) : AppView :=
  let view := { view with
    revisionCount := ((f.deployAppRevisions.lookup (deployAppMapKey view.metadata)).getD []).length }
  match f.previousDeployApp view.metadata with
  | none => view
  | some previous => { view with rollbackAvailable := true, previousGeneration := trimSpace previous.generation }

end AppView

def aggregateAppStatus (view : AppView) : String :=
  if view.desiredWorkloads = 0 then appStatusPending
  else if view.failed > 0 then appStatusFailed
  else if view.running = view.desiredWorkloads then appStatusRunning
  else if view.stopped = view.desiredWorkloads then appStatusStopped
  else if view.running > 0 ∨ view.stopped > 0 then appStatusPartial
  else appStatusPending

def buildAppView (sorter : GraphSorter) (f : Ledger) (s : RecordState) (app : App) : AppView :=
  let workloads := appWorkloadsForView sorter app
  let generation := appGeneration app
  let start : AppView := { metadata := app.metadata, desiredGeneration := generation, desiredWorkloads := workloads.length }
  let view := workloads.foldl
    (fun view workload => view.addWorkload (buildAppWorkloadView s app.metadata workload generation)) start
  let view := { view with status := aggregateAppStatus view }
  let view := if view.allDesiredWorkloadsObserved then { view with observedGeneration := generation } else view
  view.addRevisionSummary f

section Exact

/-- The workload has an assignment at the generation of the document, with
that status. -/
def HasStatus (s : RecordState) (app : App) (status : AssignmentStatus) (x : Workload) : Prop :=
  ∃ a, s.getAssignment (assignmentKey app.metadata x.name) = some a ∧ trimSpace a.generation = appGeneration app ∧
    trimSpace a.status = status.text

/-- The workload has no assignment, one of another generation, or one that is
neither running, stopped nor failed. -/
def IsPending (s : RecordState) (app : App) (x : Workload) : Prop :=
  s.getAssignment (assignmentKey app.metadata x.name) = none ∨
    ∃ a, s.getAssignment (assignmentKey app.metadata x.name) = some a ∧ (trimSpace a.generation ≠ appGeneration app ∨
      (trimSpace a.status ≠ AssignmentStatus.text .running ∧ trimSpace a.status ≠ AssignmentStatus.text .stopped ∧
        trimSpace a.status ≠ AssignmentStatus.text .failed))

instance {s : RecordState} {app : App} {status : AssignmentStatus} {x : Workload} : Decidable (HasStatus s app status x) :=
  decidable_of_iff ((s.getAssignment (assignmentKey app.metadata x.name)).any fun a =>
    trimSpace a.generation = appGeneration app ∧ trimSpace a.status = status.text) <| by
      simp [HasStatus, Option.any_eq_true]

instance {s : RecordState} {app : App} {x : Workload} : Decidable (IsPending s app x) :=
  decidable_of_iff ((s.getAssignment (assignmentKey app.metadata x.name)).all fun a =>
    trimSpace a.generation ≠ appGeneration app ∨
      (trimSpace a.status ≠ AssignmentStatus.text .running ∧ trimSpace a.status ≠ AssignmentStatus.text .stopped ∧
        trimSpace a.status ≠ AssignmentStatus.text .failed)) <| by
      unfold IsPending
      cases s.getAssignment (assignmentKey app.metadata x.name) <;> simp

variable {s : RecordState} {app : App} {x : Workload}

theorem isPending_iff : IsPending s app x ↔
    ¬ HasStatus s app .running x ∧ ¬ HasStatus s app .stopped x ∧ ¬ HasStatus s app .failed x := by
  unfold IsPending HasStatus
  cases s.getAssignment (assignmentKey app.metadata x.name) with
  | none => simp
  | some a =>
    by_cases current : trimSpace a.generation = appGeneration app <;> simp [current]

theorem buildAppWorkloadView_status {status : AssignmentStatus} (set : status.text ≠ "") (own : status.text ≠ appStatusPending) :
    (buildAppWorkloadView s app.metadata x (appGeneration app)).status = status.text ↔ HasStatus s app status x := by
  unfold buildAppWorkloadView HasStatus
  cases s.getAssignment (assignmentKey app.metadata x.name) with
  | none => simpa using Ne.symm own
  | some a =>
    dsimp only
    by_cases current : trimSpace a.generation = appGeneration app
    · rw [if_neg (not_not.mpr current)]
      by_cases blank : trimSpace a.status = ""
      · simpa [blank, current, Ne.symm set] using Ne.symm own
      · simp [blank, current]
    · rw [if_pos current]
      simpa [current] using Ne.symm own

theorem HasStatus.unique {a b : AssignmentStatus} (first : HasStatus s app a x) (second : HasStatus s app b x) :
    a.text = b.text := by
  obtain ⟨found, there, -, here⟩ := first
  obtain ⟨other, again, -, same⟩ := second
  obtain rfl := Option.some.inj (there.symm.trans again)
  exact here.symm.trans same

theorem countP_status (s : RecordState) (app : App) (workloads : List Workload) :
    workloads.countP (HasStatus s app .running ·) + workloads.countP (HasStatus s app .stopped ·) +
      workloads.countP (HasStatus s app .failed ·) + workloads.countP (IsPending s app ·) = workloads.length := by
  induction workloads with
  | nil => rfl
  | cons x rest ih =>
    have apart {a b : AssignmentStatus} (differ : a.text ≠ b.text) (here : HasStatus s app a x) : ¬ HasStatus s app b x :=
      fun there => differ (here.unique there)
    simp only [List.countP_cons, List.length_cons, decide_eq_true_eq, isPending_iff (x := x)]
    by_cases running : HasStatus s app .running x
    · have stopped := apart (b := .stopped) (by decide) running
      have failed := apart (b := .failed) (by decide) running
      simp only [running, stopped, failed, if_true, if_false, not_true_eq_false, false_and]
      omega
    by_cases stopped : HasStatus s app .stopped x
    · have failed := apart (b := .failed) (by decide) stopped
      simp only [running, stopped, failed, if_true, if_false, not_true_eq_false, false_and, and_false]
      omega
    by_cases failed : HasStatus s app .failed x
    · simp only [running, stopped, failed, if_true, if_false, not_true_eq_false, and_false]
      omega
    · simp only [running, stopped, failed, if_true, if_false, not_false_eq_true, and_self]
      omega

/-- What a walk over the items leaves of the counters. -/
structure AppView.Tallied (view : AppView) (items : List AppWorkloadView) (after : AppView) : Prop where
  metadata : after.metadata = view.metadata
  desiredGeneration : after.desiredGeneration = view.desiredGeneration
  observedGeneration : after.observedGeneration = view.observedGeneration
  desiredWorkloads : after.desiredWorkloads = view.desiredWorkloads
  running : after.running = view.running + items.countP (·.status = AssignmentStatus.text .running)
  stopped : after.stopped = view.stopped + items.countP (·.status = AssignmentStatus.text .stopped)
  failed : after.failed = view.failed + items.countP (·.status = AssignmentStatus.text .failed)
  total : after.running + after.stopped + after.failed + after.pending =
    view.running + view.stopped + view.failed + view.pending + items.length

theorem AppView.tallied_addWorkload (view : AppView) (item : AppWorkloadView) :
    view.Tallied [item] (view.addWorkload item) := by
  have counted : view.Tallied [item] ({ view with workloads := view.workloads ++ [item] }.countWorkloadStatus item.status) := by
    unfold countWorkloadStatus
    by_cases running : item.status = AssignmentStatus.text .running
    · rw [if_pos running]
      refine ⟨rfl, rfl, rfl, rfl, ?_, ?_, ?_, ?_⟩
      all_goals simp [running, AssignmentStatus.text]
      omega
    rw [if_neg running]
    by_cases stopped : item.status = AssignmentStatus.text .stopped
    · rw [if_pos stopped]
      refine ⟨rfl, rfl, rfl, rfl, ?_, ?_, ?_, ?_⟩
      all_goals simp [stopped, AssignmentStatus.text]
      omega
    rw [if_neg stopped]
    by_cases failed : item.status = AssignmentStatus.text .failed
    · rw [if_pos failed]
      refine ⟨rfl, rfl, rfl, rfl, ?_, ?_, ?_, ?_⟩
      all_goals simp [failed, AssignmentStatus.text]
      omega
    rw [if_neg failed]
    refine ⟨rfl, rfl, rfl, rfl, ?_, ?_, ?_, ?_⟩
    all_goals simp [running, stopped, failed]
    omega
  simp only [addWorkload]
  split <;> split <;>
    exact ⟨counted.metadata, counted.desiredGeneration, counted.observedGeneration, counted.desiredWorkloads,
      counted.running, counted.stopped, counted.failed, counted.total⟩

theorem AppView.Tallied.trans {view mid after : AppView} {front back : List AppWorkloadView} (first : view.Tallied front mid)
    (later : mid.Tallied back after) : view.Tallied (front ++ back) after := by
  refine ⟨later.metadata.trans first.metadata, later.desiredGeneration.trans first.desiredGeneration,
    later.observedGeneration.trans first.observedGeneration, later.desiredWorkloads.trans first.desiredWorkloads,
    ?_, ?_, ?_, ?_⟩
  · rw [later.running, first.running, List.countP_append, Nat.add_assoc]
  · rw [later.stopped, first.stopped, List.countP_append, Nat.add_assoc]
  · rw [later.failed, first.failed, List.countP_append, Nat.add_assoc]
  · rw [later.total, first.total, List.length_append, Nat.add_assoc]

theorem AppView.tallied_foldl (items : List AppWorkloadView) (view : AppView) :
    view.Tallied items (items.foldl addWorkload view) := by
  induction items generalizing view with
  | nil => exact ⟨rfl, rfl, rfl, rfl, rfl, rfl, rfl, rfl⟩
  | cons item rest ih => exact (view.tallied_addWorkload item).trans (ih _)

theorem AppView.addRevisionSummary_eq (view : AppView) (f : Ledger) : ∃ count available previous, view.addRevisionSummary f =
    { view with revisionCount := count, rollbackAvailable := available, previousGeneration := previous } := by
  simp only [addRevisionSummary]
  split <;> exact ⟨_, _, _, rfl⟩

theorem buildAppView_counts {sorter : GraphSorter} (f : Ledger) (valid : app.validate sorter = .ok ()) :
    let view := buildAppView sorter f s app
    view.desiredGeneration = appGeneration app ∧ view.desiredWorkloads = app.workloads.length ∧
      view.running = app.workloads.countP (HasStatus s app .running ·) ∧
      view.stopped = app.workloads.countP (HasStatus s app .stopped ·) ∧
      view.failed = app.workloads.countP (HasStatus s app .failed ·) ∧
      view.running + view.stopped + view.failed + view.pending = app.workloads.length ∧
      view.status = aggregateAppStatus view ∧
      view.observedGeneration = if view.allDesiredWorkloadsObserved then appGeneration app else "" := by
  obtain ⟨order, ordered⟩ := App.validate_ordered valid
  have permuted := (App.workloadsInDependencyOrder_ok ordered).1
  have listed : appWorkloadsForView sorter app = order := by
    unfold appWorkloadsForView
    rw [ordered]
  -- Each counter is a count over the workloads, whatever order they stand in.
  have counts (status : AssignmentStatus) (set : status.text ≠ "") (own : status.text ≠ appStatusPending) :
      (order.map fun w => buildAppWorkloadView s app.metadata w (appGeneration app)).countP (·.status = status.text) =
        app.workloads.countP (HasStatus s app status ·) := by
    rw [List.countP_map, ← permuted.countP_eq]
    refine List.countP_congr fun w _ => ?_
    simp only [Function.comp_apply, decide_eq_true_eq]
    exact buildAppWorkloadView_status set own
  have tallied := AppView.tallied_foldl (order.map fun w => buildAppWorkloadView s app.metadata w (appGeneration app))
    { metadata := app.metadata, desiredGeneration := appGeneration app, desiredWorkloads := order.length }
  rw [List.foldl_map] at tallied
  simp only [buildAppView, listed]
  revert tallied
  generalize order.foldl _ _ = tally
  intro tallied
  obtain ⟨count, available, previous, same⟩ := AppView.addRevisionSummary_eq
    (if ({ tally with status := aggregateAppStatus tally } : AppView).allDesiredWorkloadsObserved = true then
      { tally with status := aggregateAppStatus tally, observedGeneration := appGeneration app }
    else { tally with status := aggregateAppStatus tally }) f
  rw [same]
  have size := permuted.length_eq
  have running := tallied.running.trans (by rw [Nat.zero_add, counts .running (by decide) (by decide)])
  have stopped := tallied.stopped.trans (by rw [Nat.zero_add, counts .stopped (by decide) (by decide)])
  have failed := tallied.failed.trans (by rw [Nat.zero_add, counts .failed (by decide) (by decide)])
  have total : tally.running + tally.stopped + tally.failed + tally.pending = app.workloads.length := by
    rw [tallied.total, List.length_map, size]
    exact Nat.zero_add _
  have desired := tallied.desiredWorkloads.trans size
  split
  · rename_i observed
    exact ⟨tallied.desiredGeneration, desired, running, stopped, failed, total, rfl, (if_pos observed).symm⟩
  · rename_i unobserved
    exact ⟨tallied.desiredGeneration, desired, running, stopped, failed, total, rfl,
      tallied.observedGeneration.trans (if_neg unobserved).symm⟩

/-- The counters of the view add up to the number of workloads, and those that
are pending are counted as such. The app runs if all its workloads run at the
desired generation, has failed if one of them has, and the desired generation
has been observed if nothing is pending. -/
theorem app_view_is_exact {sorter : GraphSorter} {app : App} (valid : app.validate sorter = .ok ())
    (present : app.workloads ≠ []) (f : Ledger) (s : RecordState) :
    let view := buildAppView sorter f s app
    view.desiredWorkloads = app.workloads.length ∧ view.desiredGeneration = appGeneration app ∧
      view.running + view.stopped + view.failed + view.pending = app.workloads.length ∧
      view.pending = app.workloads.countP (IsPending s app ·) ∧
      (view.status = appStatusRunning ↔ ∀ x ∈ app.workloads, HasStatus s app .running x) ∧
      (view.status = appStatusFailed ↔ ∃ x ∈ app.workloads, HasStatus s app .failed x) ∧
      (view.observedGeneration = view.desiredGeneration ↔ ∀ x ∈ app.workloads, ¬ IsPending s app x) := by
  obtain ⟨generation, desired, running, stopped, failed, total, status, observed⟩ := buildAppView_counts (s := s) f valid
  revert generation desired running stopped failed total status observed
  generalize buildAppView sorter f s app = view
  intro generation desired running stopped failed total status observed
  have classes := countP_status s app app.workloads
  have pending : view.pending = app.workloads.countP (IsPending s app ·) := by omega
  have filled : view.desiredWorkloads ≠ 0 := by rwa [desired, ne_eq, List.length_eq_zero_iff]
  have all : view.running = app.workloads.length ↔ ∀ x ∈ app.workloads, HasStatus s app .running x := by
    simp [running, List.countP_eq_length]
  have any : view.failed > 0 ↔ ∃ x ∈ app.workloads, HasStatus s app .failed x := by
    simp [failed, List.countP_pos_iff]
  refine ⟨desired, generation, total, pending, ?_, ?_, ?_⟩
  · rw [status, aggregateAppStatus, if_neg filled, ← all, desired]
    by_cases trouble : view.failed > 0
    · rw [if_pos trouble]
      exact ⟨fun same => absurd same (by decide), fun every => by omega⟩
    rw [if_neg trouble]
    by_cases every : view.running = app.workloads.length
    · simp [every]
    · rw [if_neg every]
      refine ⟨fun same => absurd same ?_, fun yes => absurd yes every⟩
      split_ifs <;> decide
  · rw [status, aggregateAppStatus, if_neg filled, ← any]
    by_cases trouble : view.failed > 0
    · simp [trouble]
    · rw [if_neg trouble]
      refine ⟨fun same => absurd same ?_, fun yes => absurd yes trouble⟩
      split_ifs <;> decide
  · have idle : view.pending = 0 ↔ ∀ x ∈ app.workloads, ¬ IsPending s app x := by
      simp [pending, List.countP_eq_zero]
    have settled : view.allDesiredWorkloadsObserved = true ↔ view.pending = 0 := by
      unfold AppView.allDesiredWorkloadsObserved
      split_ifs with waiting
      · simpa using waiting.resolve_left filled
      · simp only [decide_eq_true_eq]
        omega
    rw [observed, generation, ← idle, ← settled]
    split
    · simp [*]
    · simpa [*] using Ne.symm (appGeneration_ne_empty app)

/-- An app of a workload that runs and one that has failed, both at the
generation of the document. -/
theorem app_view_is_exact_failed :
    let app := { imageApp "web" "api" "nginx" with workloads := [imageWorkload "api" "nginx", imageWorkload "db" "postgres"] }
    let s := (RecordState.applyWorkloadAssignment {}
      { metadata := { name := "web" }, workload := "api", status := "running",
        generation := appGeneration app }).applyWorkloadAssignment
      { metadata := { name := "web" }, workload := "db", status := "failed", generation := appGeneration app }
    let view := buildAppView (Topological.peeling String) {} s app
    view.status = appStatusFailed ∧ view.observedGeneration = view.desiredGeneration := by
  intro app s
  obtain ⟨-, -, -, -, -, failed, observed⟩ :=
    app_view_is_exact (show app.validate (Topological.peeling String) = .ok () by decide +kernel) (by simp [app]) {} s
  refine ⟨failed.mpr ⟨imageWorkload "db" "postgres", by simp [app], ?_⟩, observed.mpr ?_⟩
  · decide +kernel
  · decide +kernel

end Exact

end Orch
