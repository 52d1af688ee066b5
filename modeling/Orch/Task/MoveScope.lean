import Orch.Task.Moves
import Orch.Task.Selection

namespace Orch

open Effect

def StoppedNow (f : Ledger) (app : App) (x : Workload) : Prop :=
  ∃ a, f.getAssignment (assignmentKey app.metadata x.name) = some a ∧ a.status = .stopped ∧
    sameGeneration a (appGeneration app) = true

/-- The node an orderly move has for a workload: the one asked for, or the one
a placement decision about it leads to. -/
def MoveOp.Heads (svc : Service) (move : MoveOp) (decisions : List Decision) (x : Workload) (target : String) : Prop :=
  match move with
  | .migrate _ opts => target = trimSpace opts.targetNode
  | _ => ∃ d ∈ decisions, d.workload = x ∧ ∃ node, d.lands svc = some node ∧ target = trimSpace node

/-- Every selected workload that was stopped is recorded where the move would
take it. -/
def StoppedStay (svc : Service) (f : Ledger) (app : App) (move : MoveOp) (decisions : List Decision) : Prop :=
  ∀ selected, move.selection svc f app = .ok selected → ∀ x ∈ selected, StoppedNow f app x →
    ∀ target, move.Heads svc decisions x target → stopTarget svc f app.metadata x.name = target

def StoppedUnstarted (f : Ledger) (app : App) (calls : List Call) : Prop :=
  ∀ x ∈ app.workloads, StoppedNow f app x → ∀ node ok, .start (workloadId app.metadata x.name) node ok ∉ calls

section Scope

variable {svc : Service} {ctx : Ctx} {move : MoveOp} {app : App} {w u : World instanceRuntime}
variable {trace : List (Event TaskSig (World instanceRuntime))} {result : OperationResult}

theorem MoveOp.Aims.heads {f : Ledger} {x : Workload} {target : String} {own decisions : List Decision}
    (orderly : move.operation ≠ .failover) (aimed : move.Aims svc f app x target own) (made : own ⊆ decisions) :
    move.Heads svc decisions x target := by
  cases move with
  | migrate => exact aimed.1
  | failover => exact absurd rfl orderly
  | rebalance =>
    obtain ⟨d, node, rfl, -, same, lands, rfl⟩ := aimed
    exact ⟨d, made List.mem_cons_self, same, node, lands, rfl⟩

theorem MoveOp.Heads.unique {f : Ledger} {x : Workload} {target other : String} {own decisions : List Decision}
    (aimed : move.Aims svc f app x target own) (only : ∀ d, d ∈ own ↔ d ∈ decisions ∧ d.workload.key = x.key)
    (orderly : move.operation ≠ .failover) (heads : move.Heads svc decisions x other) : other = target := by
  cases move with
  | migrate => exact heads.trans aimed.1.symm
  | failover => exact absurd rfl orderly
  | rebalance =>
    obtain ⟨d, node, rfl, -, -, lands, rfl⟩ := aimed
    obtain ⟨e, member, same, there, landed, rfl⟩ := heads
    obtain rfl : e = d := List.mem_singleton.mp ((only e).mpr ⟨member, congrArg Workload.key same⟩)
    rw [Option.some.inj (landed.symm.trans lands)]

/-- A migrate or rebalance leaves the stopped workloads alone if each is
recorded where it would be taken, and one that succeeds leaves them alone only
then. -/
theorem moves_leave_stopped_iff (orderly : move.operation ≠ .failover)
    (desired : w.fsm.getDeployApp move.metadata = some app) (named : trimSpace app.metadata.name ≠ "")
    (run : Run (World.machine instanceRuntime svc).Step (move.program svc ctx) w trace (pure result) u) :
    (StoppedStay svc w.fsm.toLedger app move (World.journal svc trace).decisions →
      StoppedUnstarted w.fsm.toLedger app (World.journal svc trace).calls) ∧
    (result.2.isOk = true → StoppedUnstarted w.fsm.toLedger app (World.journal svc trace).calls →
      StoppedStay svc w.fsm.toLedger app move (World.journal svc trace).decisions) := by
  rcases MoveOp.outcome desired named run with ⟨silent, refused⟩ | ⟨workloads, selected, outcome⟩
  · refine ⟨fun _ x _ _ node ok => ?_, fun passed => ?_⟩
    · simp [silent]
    · rw [refused] at passed
      cases passed
  constructor
  · intro stay x member stopped node ok started
    obtain ⟨plans, planning, plan, inside, same, -⟩ := outcome.of_start started
    obtain ⟨own, aimed, made, away⟩ := planning.of_plan plan inside
    have picked : plan.workload ∈ workloads := (planning.ready plan inside).1
    obtain rfl : plan.workload = x :=
      MoveOp.selection_unique selected (MoveOp.selection_subset selected _ picked) member same
    refine away ⟨?_, stay workloads selected _ picked stopped _ (aimed.heads orderly made)⟩
    obtain ⟨a, recorded, -⟩ := stopped
    rw [recorded]
    rfl
  · intro passed unstarted selected' again x member stopped target heads
    obtain rfl : workloads = selected' := Except.ok.inj (selected.symm.trans again)
    obtain ⟨plans, planning, started⟩ := outcome.of_ok passed
    obtain ⟨aim, own, aimed, only, settled⟩ :=
      planning.of_workload MoveOp.Aims.owned (MoveOp.selection_distinct selected) x member
    obtain rfl : target = aim := MoveOp.Heads.unique aimed only orderly heads
    rcases settled with ⟨-, there⟩ | ⟨plan, inside, rfl, rfl⟩
    · exact there
    · exact absurd (started plan inside)
        (unstarted _ (MoveOp.selection_subset selected _ member) stopped _ true)

end Scope

def Named (names : List String) : Prop := ∃ raw ∈ names, trimSpace raw ≠ ""

instance : DecidablePred Named := fun names => inferInstanceAs (Decidable (∃ raw ∈ names, _))

/-- What a failover is meant for: the workloads named, or those that failed if
none is. -/
def MeantForFailover (f : Ledger) (app : App) (names : List String) (x : Workload) : Prop :=
  if Named names then ∃ raw ∈ names, trimSpace raw = x.key else f.Failed app.metadata x

/-- The selection is what the failover is meant for, and not empty. -/
def SelectsMeant (svc : Service) (f : Ledger) (app : App) (names : List String) : Prop :=
  ∀ selected, failoverSelection svc f app names = .ok selected →
    selected ≠ [] ∧ ∀ x ∈ app.workloads, x ∈ selected ↔ MeantForFailover f app names x

/-- The workload was started, or is recorded where the move would take it. -/
def Moved (svc : Service) (f : Ledger) (app : App) (move : MoveOp) (journal : Journal) (x : Workload) : Prop :=
  ∃ target own, move.Aims svc f app x target own ∧ own ⊆ journal.decisions ∧
    (((f.getAssignment (assignmentKey app.metadata x.name)).isSome ∧ stopTarget svc f app.metadata x.name = target) ∨
      .start (workloadId app.metadata x.name) target true ∈ journal.calls)

/-- What a run of a failover does about the workloads it is meant for: it
calls for no others, it fails if there is none, and if it succeeds each was
started or is recorded where the failover would take it. -/
def TouchesMeant (svc : Service) (f : Ledger) (app : App) (move : MoveOp) (journal : Journal) (ok : Bool) : Prop :=
  (∀ call ∈ journal.calls, ∃ x ∈ app.workloads, MeantForFailover f app move.opts.workloads x ∧
    call.id = workloadId app.metadata x.name) ∧
  ((∀ x ∈ app.workloads, ¬ MeantForFailover f app move.opts.workloads x) → ok = false) ∧
  (ok = true → ∀ x ∈ app.workloads, MeantForFailover f app move.opts.workloads x → Moved svc f app move journal x)

/-- Nothing but blanks is asked for although some workload has not failed. -/
def BlankRequest (f : Ledger) (app : App) (names : List String) : Prop :=
  names ≠ [] ∧ ¬ Named names ∧ (app.workloads = [] ∨ ∃ x ∈ app.workloads, ¬ f.Failed app.metadata x)

section Failover

variable {svc : Service} {f : Ledger} {app : App} {names : List String} {order : List Workload}

theorem not_named_iff : ¬ Named names ↔ requestedWorkloadNames names = [] := by
  rw [requestedWorkloadNames_eq_nil]
  simp [Named]

theorem failoverSelection_blank (sorted : app.workloadsInDependencyOrder svc.sorter = .ok order) (some : names ≠ [])
    (blank : ¬ Named names) : failoverSelection svc f app names = .ok order := by
  rw [failoverSelection, selectOperationWorkloads_eq sorted, if_pos (not_named_iff.mp blank)]
  simp [some]

theorem failoverSelection_named (sorted : app.workloadsInDependencyOrder svc.sorter = .ok order) (named : Named names)
    {selected : List Workload} (picked : failoverSelection svc f app names = .ok selected) :
    (∀ name ∈ requestedWorkloadNames names, name ∈ app.workloads.map Workload.key) ∧
      selected = order.filter fun w => w.key ∈ requestedWorkloadNames names := by
  have asked : requestedWorkloadNames names ≠ [] := fun none => not_named_iff.mpr none named
  have some : names ≠ [] := by
    rintro rfl
    simp [Named] at named
  rw [failoverSelection, selectOperationWorkloads_eq sorted, if_neg asked] at picked
  split at picked
  · cases picked
  · rename_i workloads found
    split at found
    · rename_i known
      cases found
      rw [if_pos (by simpa using some)] at picked
      exact ⟨known, (Except.ok.inj picked).symm⟩
    · cases found

theorem failoverSelection_nil (sorted : app.workloadsInDependencyOrder svc.sorter = .ok order) {selected : List Workload}
    (picked : failoverSelection svc f app [] = .ok selected) :
    selected ≠ [] ∧ selected = order.filter (f.Failed app.metadata) := by
  rw [failoverSelection, selectOperationWorkloads_eq sorted, if_pos (requestedWorkloadNames_eq_nil.mpr (by simp))] at picked
  dsimp only at picked
  rw [if_neg (by simp)] at picked
  split at picked
  · cases picked
  · rename_i some
    cases picked
    exact ⟨by simpa using some, rfl⟩

theorem selectsMeant_of_sorted (sorted : app.workloadsInDependencyOrder svc.sorter = .ok order) :
    SelectsMeant svc f app names ↔ ¬ BlankRequest f app names := by
  obtain ⟨permuted, -, -⟩ := App.workloadsInDependencyOrder_ok sorted
  constructor
  · rintro meant ⟨some, blank, unfit⟩
    obtain ⟨nonempty, exactly⟩ := meant order (failoverSelection_blank sorted some blank)
    rcases unfit with none | ⟨x, member, sound⟩
    · rw [none] at permuted
      exact nonempty permuted.eq_nil
    · have failed := (exactly x member).mp (permuted.mem_iff.mpr member)
      rw [MeantForFailover, if_neg blank] at failed
      exact sound failed
  · intro fit selected picked
    by_cases named : Named names
    · obtain ⟨known, rfl⟩ := failoverSelection_named sorted named picked
      obtain ⟨raw, asked, nonblank⟩ := id named
      have wanted : trimSpace raw ∈ requestedWorkloadNames names :=
        mem_requestedWorkloadNames.mpr ⟨nonblank, raw, asked, rfl⟩
      obtain ⟨x, member, key⟩ := List.mem_map.mp (known _ wanted)
      refine ⟨List.ne_nil_of_mem (List.mem_filter.mpr ⟨permuted.mem_iff.mpr member, by simpa [key] using wanted⟩), ?_⟩
      intro y inside
      have present : y.key ≠ "" := (App.workloadsInDependencyOrder_ok sorted).2.2 y inside
      rw [MeantForFailover, if_pos named, List.mem_filter, permuted.mem_iff, decide_eq_true_eq, mem_requestedWorkloadNames]
      exact ⟨fun picked => picked.2.2, fun meant => ⟨inside, present, meant⟩⟩
    · rcases eq_or_ne names [] with rfl | some
      · obtain ⟨nonempty, rfl⟩ := failoverSelection_nil sorted picked
        refine ⟨nonempty, fun y inside => ?_⟩
        rw [MeantForFailover, if_neg named, List.mem_filter, permuted.mem_iff, decide_eq_true_eq]
        exact and_iff_right inside
      · rw [failoverSelection_blank sorted some named] at picked
        cases picked
        have all : app.workloads ≠ [] ∧ ∀ x ∈ app.workloads, f.Failed app.metadata x := by
          by_contra unfit
          refine fit ⟨some, named, ?_⟩
          by_contra fine
          push Not at fine
          exact unfit fine
        refine ⟨fun none => all.1 ?_, fun y inside => ?_⟩
        · rw [none] at permuted
          exact permuted.symm.eq_nil
        · rw [MeantForFailover, if_neg named]
          exact ⟨fun _ => all.2 y inside, fun _ => permuted.mem_iff.mpr inside⟩

theorem selectsMeant_iff : SelectsMeant svc f app names ↔
    ((app.workloadsInDependencyOrder svc.sorter).isOk = true → ¬ BlankRequest f app names) := by
  cases sorted : app.workloadsInDependencyOrder svc.sorter with
  | ok order => simpa [Except.isOk, Except.toBool] using selectsMeant_of_sorted sorted
  | error err =>
    refine iff_of_true (fun selected picked => ?_) fun ok => by cases ok
    simp [failoverSelection, selectOperationWorkloads, sorted] at picked

variable {ctx : Ctx} {metadata : Metadata} {opts : AppOperationOptions} {w u : World instanceRuntime}
variable {trace : List (Event TaskSig (World instanceRuntime))} {result : OperationResult}

/-- A failover is about the workloads it is meant for, unless blanks are all
that is asked for: then it is about all of them. -/
theorem failover_touches_meant_iff (desired : w.fsm.getDeployApp metadata = some app)
    (named : trimSpace app.metadata.name ≠ "")
    (run : Run (World.machine instanceRuntime svc).Step ((MoveOp.failover metadata opts).program svc ctx) w trace
      (pure result) u) :
    (SelectsMeant svc w.fsm.toLedger app opts.workloads ↔
      ((app.workloadsInDependencyOrder svc.sorter).isOk = true → ¬ BlankRequest w.fsm.toLedger app opts.workloads)) ∧
    (¬ BlankRequest w.fsm.toLedger app opts.workloads →
      TouchesMeant svc w.fsm.toLedger app (.failover metadata opts) (World.journal svc trace) result.2.isOk) ∧
    (BlankRequest w.fsm.toLedger app opts.workloads → result.2.isOk = true →
      ∀ x ∈ app.workloads, Moved svc w.fsm.toLedger app (.failover metadata opts) (World.journal svc trace) x) := by
  refine ⟨selectsMeant_iff, ?_⟩
  have desired : w.fsm.getDeployApp (MoveOp.failover metadata opts).metadata = some app := desired
  rcases MoveOp.outcome desired named run with ⟨silent, refused⟩ | ⟨workloads, selected, outcome⟩
  · refine ⟨fun _ => ⟨?_, fun _ => refused, fun passed => ?_⟩, fun _ passed => ?_⟩
    · simp [silent]
    all_goals
      rw [refused] at passed
      cases passed
  have picked : failoverSelection svc w.fsm.toLedger app opts.workloads = .ok workloads := selected
  obtain ⟨order, sorted, -⟩ := MoveOp.selection_sublist selected
  have moved (passed : result.2.isOk = true) : ∀ x ∈ workloads,
      Moved svc w.fsm.toLedger app (.failover metadata opts) (World.journal svc trace) x := by
    intro x member
    obtain ⟨plans, planning, started⟩ := outcome.of_ok passed
    obtain ⟨target, own, aimed, only, settled⟩ :=
      planning.of_workload MoveOp.Aims.owned (MoveOp.selection_distinct selected) x member
    refine ⟨target, own, aimed, fun d here => ((only d).mp here).1, settled.imp_right ?_⟩
    rintro ⟨plan, inside, rfl, rfl⟩
    exact started plan inside
  constructor
  · intro fit
    obtain ⟨nonempty, exactly⟩ := (selectsMeant_of_sorted sorted).mpr fit workloads picked
    refine ⟨fun call member => ?_, fun none => ?_, fun passed x inside meant => moved passed x ((exactly x inside).mpr meant)⟩
    · obtain ⟨x, member, same⟩ := outcome.of_call call member
      have inside := MoveOp.selection_subset selected x member
      exact ⟨x, inside, (exactly x inside).mp member, same⟩
    · obtain ⟨x, member⟩ := List.exists_mem_of_ne_nil _ nonempty
      have inside := MoveOp.selection_subset selected x member
      exact absurd ((exactly x inside).mp member) (none x inside)
  · rintro ⟨some, blank, -⟩ passed x inside
    obtain ⟨permuted, -, -⟩ := App.workloadsInDependencyOrder_ok sorted
    rw [failoverSelection_blank sorted some blank] at picked
    cases picked
    exact moved passed x (permuted.mem_iff.mpr inside)

end Failover

def webApp : App := imageApp "web" "api" "nginx"

def World.halted : World instanceRuntime := World.having webApp (imageWorkload "api" "nginx") "a" .stopped

theorem stoppedNow_halted : StoppedNow World.halted.fsm.toLedger webApp (imageWorkload "api" "nginx") := by
  have recorded : (World.halted.fsm.getAssignment (assignmentKey webApp.metadata "api")).any (fun a =>
      a.status = .stopped ∧ sameGeneration a (appGeneration webApp) = true) = true := by decide +kernel
  cases found : World.halted.fsm.getAssignment (assignmentKey webApp.metadata "api") with
  | none =>
    rw [found] at recorded
    cases recorded
  | some a =>
    rw [found, Option.any_some] at recorded
    exact ⟨a, found, of_decide_eq_true recorded⟩

/-- The app with a second workload. -/
def widerApp : App := { webApp with workloads := [imageWorkload "api" "nginx", imageWorkload "web" "caddy"] }

/-- A migrate of the other workload takes it to node b and leaves the stopped
one alone. -/
theorem migrate_leaves_stopped : ∃ (u : World instanceRuntime) (trace : List (Event TaskSig (World instanceRuntime)))
    (result : OperationResult), Run (World.machine instanceRuntime sampleService).Step
      ((MoveOp.migrate widerApp.metadata ⟨"b", ["web"]⟩).program sampleService {})
        (World.having widerApp (imageWorkload "api" "nginx") "a" .stopped) trace (pure result) u ∧
      .start (workloadId widerApp.metadata "web") "b" true ∈ (World.journal sampleService trace).calls ∧
      StoppedUnstarted (World.having widerApp (imageWorkload "api" "nginx") "a" .stopped).fsm.toLedger widerApp
        (World.journal sampleService trace).calls := by
  generalize halted : World.having widerApp (imageWorkload "api" "nginx") "a" .stopped = w
  have played : (MoveOp.migrate widerApp.metadata ⟨"b", ["web"]⟩).played (List.replicate 12 World.reaching) w =
      some ([.start (workloadId widerApp.metadata "web") "b" true], true) := by
    subst halted
    decide +kernel
  obtain ⟨u, trace, result, run, calls, -⟩ := MoveOp.exists_run played
  have orderly : (MoveOp.migrate widerApp.metadata ⟨"b", ["web"]⟩).operation ≠ .failover := nofun
  refine ⟨u, trace, result, run, by simp [calls],
    (moves_leave_stopped_iff orderly (by subst halted; decide +kernel) (by decide +kernel) run).1 ?_⟩
  intro selected picked x member stopped
  obtain rfl : selected = [imageWorkload "web" "caddy"] := by
    refine Except.ok.inj (picked.symm.trans ?_)
    subst halted
    decide +kernel
  obtain rfl := List.mem_singleton.mp member
  have unrecorded : w.fsm.getAssignment (assignmentKey widerApp.metadata "web") = none := by
    subst halted
    decide +kernel
  obtain ⟨a, recorded, -⟩ := stopped
  cases unrecorded.symm.trans recorded

/-- A migrate to another node starts it there. -/
theorem migrate_starts_stopped :
    ¬ ∀ (svc : Service) (ctx : Ctx) (move : MoveOp) (app : App) (w u : World instanceRuntime)
      (trace : List (Event TaskSig (World instanceRuntime))) (result : OperationResult), move.operation ≠ .failover →
      w.fsm.getDeployApp move.metadata = some app → app.validate svc.sorter = .ok () →
      Run (World.machine instanceRuntime svc).Step (move.program svc ctx) w trace (pure result) u →
        StoppedUnstarted w.fsm.toLedger app (World.journal svc trace).calls := by
  intro unstarted
  have played : (MoveOp.migrate webApp.metadata { targetNode := "b" }).played (List.replicate 12 World.reaching) World.halted =
      some ([.stop (workloadId webApp.metadata "api") true, .start (workloadId webApp.metadata "api") "b" true], true) := by
    decide +kernel
  obtain ⟨u, trace, result, run, calls, -⟩ := MoveOp.exists_run played
  exact unstarted sampleService {} (.migrate webApp.metadata { targetNode := "b" }) webApp World.halted u trace result nofun
    (by decide +kernel) (by decide +kernel) run _ List.mem_cons_self stoppedNow_halted "b" true
    (calls ▸ List.mem_cons_of_mem _ List.mem_cons_self)

/-- The failover of a workload that failed on node a is about it alone. -/
theorem failover_touches_failed : ∃ (u : World instanceRuntime) (trace : List (Event TaskSig (World instanceRuntime)))
    (result : OperationResult), Run (World.machine instanceRuntime sampleService).Step
      ((MoveOp.failover webApp.metadata { targetNode := "b" }).program sampleService {})
        (World.having webApp (imageWorkload "api" "nginx") "a" .failed) trace (pure result) u ∧ result.2.isOk = true ∧
      TouchesMeant sampleService (World.having webApp (imageWorkload "api" "nginx") "a" .failed).fsm.toLedger webApp
        (.failover webApp.metadata { targetNode := "b" }) (World.journal sampleService trace) true := by
  have played : (MoveOp.failover webApp.metadata { targetNode := "b" }).played (List.replicate 12 World.reaching)
      (World.having webApp (imageWorkload "api" "nginx") "a" .failed) = some
        ([.start (workloadId webApp.metadata "api") "b" true], true) := by decide +kernel
  obtain ⟨u, trace, result, run, -, passed⟩ := MoveOp.exists_run played
  refine ⟨u, trace, result, run, passed, ?_⟩
  rw [← passed]
  refine (failover_touches_meant_iff (by decide +kernel) (by decide +kernel) run).2.1 ?_
  rintro ⟨some, -⟩
  exact some rfl

/-- A failover of the workload named by a blank takes it from where it runs. -/
theorem blank_failover_moves_running :
    ¬ ∀ (svc : Service) (ctx : Ctx) (metadata : Metadata) (opts : AppOperationOptions) (app : App)
      (w u : World instanceRuntime) (trace : List (Event TaskSig (World instanceRuntime))) (result : OperationResult),
      w.fsm.getDeployApp metadata = some app → app.validate svc.sorter = .ok () →
      Run (World.machine instanceRuntime svc).Step ((MoveOp.failover metadata opts).program svc ctx) w trace (pure result) u →
        TouchesMeant svc w.fsm.toLedger app (.failover metadata opts) (World.journal svc trace) result.2.isOk := by
  intro touches
  have played : (MoveOp.failover webApp.metadata { workloads := [" "], targetNode := "b" }).played
      (List.replicate 12 World.reaching) (World.having webApp (imageWorkload "api" "nginx") "a" .running) = some
        ([.stop (workloadId webApp.metadata "api") true, .start (workloadId webApp.metadata "api") "b" true], true) := by
    decide +kernel
  obtain ⟨u, trace, result, run, calls, -⟩ := MoveOp.exists_run played
  obtain ⟨meant, -⟩ := touches sampleService {} webApp.metadata { workloads := [" "], targetNode := "b" } webApp _ u trace result
    (by decide +kernel) (by decide +kernel) run
  obtain ⟨x, member, intended, -⟩ := meant (.start (workloadId webApp.metadata "api") "b" true) (by simp [calls])
  obtain rfl : x = imageWorkload "api" "nginx" := List.mem_singleton.mp member
  have unnamed : ¬ Named [" "] := by decide +kernel
  have healthy : ¬ (World.having webApp (imageWorkload "api" "nginx") "a" .running).fsm.toLedger.Failed webApp.metadata
      (imageWorkload "api" "nginx") := by decide +kernel
  rw [MeantForFailover, if_neg (show ¬ Named (MoveOp.failover _ { workloads := [" "], targetNode := "b" }).opts.workloads from
    unnamed)] at intended
  exact healthy intended

end Orch
