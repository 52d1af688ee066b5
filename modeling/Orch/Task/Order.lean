import Orch.Task.Blocking
import Orch.Task.Minding
import Orch.Task.Moves
import Orch.Task.Selection

namespace Orch

open Effect

section Dependencies

variable {sorter : GraphSorter} {app : App} {order : List Workload}

theorem App.reliesOn_sublist (sorted : app.workloadsInDependencyOrder sorter = .ok order) {x y : Workload}
    (member : y ∈ app.workloads) (relies : app.ReliesOn y x) : x ∈ app.workloads ∧ [x, y].Sublist order := by
  obtain ⟨permuted, distinct, -⟩ := App.workloadsInDependencyOrder_ok sorted
  have separate : order.Nodup := permuted.nodup_iff.mpr (List.Nodup.of_map _ distinct)
  have direct {x y : Workload} (member : y ∈ app.workloads) (depends : x ∈ app.workloads ∧ y.DependsOn x) :
      [x, y].Sublist order := by
    obtain ⟨inside, ref, listed, named⟩ := depends
    obtain ⟨dep, known, same, before⟩ := App.workloadsInDependencyOrder_sorted sorted member listed
    obtain rfl : dep = x := List.inj_on_of_nodup_map distinct known inside (same.trans named)
    exact before
  induction relies with
  | single depends => exact ⟨depends.1, direct member depends⟩
  | tail _ depends ih =>
    obtain ⟨inside, later⟩ := ih
    exact ⟨depends.1, Topological.sublist_pair_trans separate (direct inside depends) later⟩

theorem App.not_reliesOn_of_sublist (sorted : app.workloadsInDependencyOrder sorter = .ok order) {x y : Workload}
    (before : [x, y].Sublist order) : ¬ app.ReliesOn x y := by
  obtain ⟨permuted, distinct, -⟩ := App.workloadsInDependencyOrder_ok sorted
  have separate : order.Nodup := permuted.nodup_iff.mpr (List.Nodup.of_map _ distinct)
  intro relies
  have member : x ∈ app.workloads := permuted.mem_iff.mp (before.subset List.mem_cons_self)
  have twice := Topological.sublist_pair_trans separate before (App.reliesOn_sublist sorted member relies).2
  simpa using twice.nodup separate

theorem App.not_reliesOn_self (sorted : app.workloadsInDependencyOrder sorter = .ok order) {x : Workload}
    (member : x ∈ app.workloads) : ¬ app.ReliesOn x x := by
  obtain ⟨permuted, distinct, -⟩ := App.workloadsInDependencyOrder_ok sorted
  intro relies
  simpa using (App.reliesOn_sublist sorted member relies).2.nodup (permuted.nodup_iff.mpr (List.Nodup.of_map _ distinct))

theorem App.mem_dependencyEdges {a b : String} :
    (a, b) ∈ app.dependencyEdges ↔ ∃ y ∈ app.workloads, y.key = b ∧ ∃ ref ∈ y.dependsOn, trimSpace ref.name = a := by
  simp only [App.dependencyEdges, List.mem_flatMap, List.mem_map, Prod.mk.injEq]
  constructor
  · rintro ⟨y, member, ref, listed, rfl, rfl⟩
    exact ⟨y, member, rfl, ref, listed, rfl⟩
  · rintro ⟨y, member, rfl, ref, listed, rfl⟩
    exact ⟨y, member, ref, listed, rfl, rfl⟩

theorem App.reliesOn_of_transGen (distinct : (app.workloads.map Workload.key).Nodup)
    (known : ∀ w ∈ app.workloads, ∀ ref ∈ w.dependsOn, trimSpace ref.name ∈ app.workloads.map Workload.key) {a b : String}
    (leads : Relation.TransGen (fun a b => (a, b) ∈ app.dependencyEdges) a b) :
    ∃ x ∈ app.workloads, ∃ y ∈ app.workloads, x.key = a ∧ y.key = b ∧ app.ReliesOn y x := by
  have direct {a b : String} (edge : (a, b) ∈ app.dependencyEdges) :
      ∃ x ∈ app.workloads, ∃ y ∈ app.workloads, x.key = a ∧ y.key = b ∧ y.DependsOn x := by
    obtain ⟨y, member, rfl, ref, listed, rfl⟩ := App.mem_dependencyEdges.mp edge
    obtain ⟨x, inside, same⟩ := List.mem_map.mp (known y member ref listed)
    exact ⟨x, inside, y, member, same, rfl, ref, listed, same.symm⟩
  induction leads with
  | single edge =>
    obtain ⟨x, inside, y, member, left, right, depends⟩ := direct edge
    exact ⟨x, inside, y, member, left, right, .single ⟨inside, depends⟩⟩
  | tail _ edge ih =>
    obtain ⟨x, inside, y, member, left, right, relies⟩ := ih
    obtain ⟨y', again, z, last, same, key, depends⟩ := direct edge
    obtain rfl : y' = y := List.inj_on_of_nodup_map distinct again member (same.trans right.symm)
    exact ⟨x, inside, z, last, left, key, .head ⟨again, depends⟩ relies⟩

theorem App.no_order_iff : (∀ order, app.workloadsInDependencyOrder sorter ≠ .ok order) ↔
    (∃ w ∈ app.workloads, w.key = "") ∨ ¬ (app.workloads.map Workload.key).Nodup ∨
      (∃ w ∈ app.workloads, ∃ ref ∈ w.dependsOn, trimSpace ref.name ∉ app.workloads.map Workload.key) ∨
        ∃ w ∈ app.workloads, app.ReliesOn w w := by
  constructor
  · intro none
    by_contra fine
    simp only [not_or, not_exists, not_and, not_not] at fine
    obtain ⟨named, distinct, known, acyclic⟩ := fine
    have found : ∃ order, app.workloadsInDependencyOrder sorter = .ok order := by
      refine App.workloadsInDependencyOrder_isOk_iff.mpr ⟨named, distinct, known, fun a cycle => ?_⟩
      obtain ⟨x, inside, y, member, left, right, relies⟩ := App.reliesOn_of_transGen distinct known cycle
      obtain rfl : x = y := List.inj_on_of_nodup_map distinct inside member (left.trans right.symm)
      exact acyclic x inside relies
    obtain ⟨order, sorted⟩ := found
    exact none order sorted
  · intro flawed order sorted
    obtain ⟨named, distinct, known, -⟩ := App.workloadsInDependencyOrder_isOk_iff.mp ⟨order, sorted⟩
    rcases flawed with ⟨w, member, blank⟩ | twice | ⟨w, member, ref, listed, unknown⟩ | ⟨w, member, relies⟩
    · exact named w member blank
    · exact twice distinct
    · exact unknown (known w member ref listed)
    · exact App.not_reliesOn_self sorted member relies

end Dependencies

def App.Needs (app : App) (a b : WorkloadId) : Prop :=
  ∃ x ∈ app.workloads, ∃ y ∈ app.workloads, workloadId app.metadata x.name = a ∧ workloadId app.metadata y.name = b ∧
    app.ReliesOn x y

def StopOrder (app : App) (a b : Call) : Prop :=
  ∀ i ∈ a.stopped, ∀ j ∈ b.stopped, ¬ app.Needs j i

def StartOrder (app : App) (a b : Call) : Prop :=
  ∀ i ∈ a.started, ∀ j ∈ b.started, ¬ app.Needs i j

variable {id : WorkloadId}

theorem Call.id_of_stopped {call : Call} (stops : id ∈ call.stopped) : call.id = id := by
  cases call with
  | stop => simpa [Call.stopped, Call.id] using stops
  | start => simp [Call.stopped] at stops

theorem Call.id_of_started {call : Call} (starts : id ∈ call.started) : call.id = id := by
  cases call with
  | start => simpa [Call.started, Call.id] using starts
  | stop => simp [Call.started] at starts

section Ordering

variable {svc : Service} {app : App} {order : List Workload} {β ρ : Type} {who : β → Workload}
variable {round : β → ρ → List Call → Bool → ρ → Prop} {xs : List β} {r t : ρ} {calls : List Call} {ok : Bool}
variable (sorted : app.workloadsInDependencyOrder svc.sorter = .ok order)
include sorted

theorem App.needs_iff {x y : Workload} (left : x ∈ app.workloads) (right : y ∈ app.workloads) :
    app.Needs (workloadId app.metadata x.name) (workloadId app.metadata y.name) ↔ app.ReliesOn x y := by
  obtain ⟨-, distinct, -⟩ := App.workloadsInDependencyOrder_ok sorted
  have unique {v w : Workload} (one : v ∈ app.workloads) (other : w ∈ app.workloads)
      (same : workloadId app.metadata v.name = workloadId app.metadata w.name) : v = w :=
    List.inj_on_of_nodup_map distinct one other (congrArg WorkloadId.workload same)
  constructor
  · rintro ⟨v, one, w, other, first, second, relies⟩
    obtain rfl := unique one left first
    obtain rfl := unique other right second
    exact relies
  · intro relies
    exact ⟨x, left, y, right, rfl, rfl, relies⟩

theorem App.not_needs_self {x : Workload} (member : x ∈ app.workloads) :
    ¬ app.Needs (workloadId app.metadata x.name) (workloadId app.metadata x.name) :=
  fun needs => App.not_reliesOn_self sorted member ((App.needs_iff sorted member member).mp needs)

theorem App.order_pairwise : order.Pairwise fun x y =>
    ¬ app.Needs (workloadId app.metadata x.name) (workloadId app.metadata y.name) := by
  obtain ⟨permuted, -, -⟩ := App.workloadsInDependencyOrder_ok sorted
  refine List.pairwise_iff_forall_sublist.mpr fun {x y} before needs => App.not_reliesOn_of_sublist sorted before ?_
  exact (App.needs_iff sorted (permuted.mem_iff.mp (before.subset (by simp)))
    (permuted.mem_iff.mp (before.subset (by simp)))).mp needs

variable (own : ∀ x call, Leaves round x call → call.id = workloadId app.metadata (who x).name)
include own

theorem starts_ordered (rounds : Rounds round xs r calls ok t) (sublist : (xs.map who).Sublist order) :
    calls.Pairwise (StartOrder app) := by
  obtain ⟨permuted, -, -⟩ := App.workloadsInDependencyOrder_ok sorted
  refine rounds.pairwise ?_ ?_
  · intro x member r called ok s taken
    refine List.pairwise_of_forall_mem_list fun a first b second i starts j begins => ?_
    have left : a.id = _ := own x a ⟨r, called, ok, s, taken, first⟩
    have right : b.id = _ := own x b ⟨r, called, ok, s, taken, second⟩
    rw [← Call.id_of_started starts, ← Call.id_of_started begins, left, right]
    exact App.not_needs_self sorted (permuted.mem_iff.mp (sublist.subset (List.mem_map_of_mem member)))
  · refine (List.pairwise_map.mp ((App.order_pairwise sorted).sublist sublist)).imp ?_
    intro x y apart a b first second i starts j begins
    rw [← Call.id_of_started starts, ← Call.id_of_started begins, own x a first, own y b second]
    exact apart

theorem stops_ordered (rounds : Rounds round xs r calls ok t) (sublist : (xs.map who).Sublist order.reverse) :
    calls.Pairwise (StopOrder app) := by
  obtain ⟨permuted, -, -⟩ := App.workloadsInDependencyOrder_ok sorted
  refine rounds.pairwise ?_ ?_
  · intro x member r called ok s taken
    refine List.pairwise_of_forall_mem_list fun a first b second i stops j ends => ?_
    have left : a.id = _ := own x a ⟨r, called, ok, s, taken, first⟩
    have right : b.id = _ := own x b ⟨r, called, ok, s, taken, second⟩
    rw [← Call.id_of_stopped stops, ← Call.id_of_stopped ends, left, right]
    refine App.not_needs_self sorted (permuted.mem_iff.mp (List.mem_reverse.mp ?_))
    exact sublist.subset (List.mem_map_of_mem member)
  · have reversed := List.pairwise_reverse.mpr (App.order_pairwise sorted)
    refine (List.pairwise_map.mp (reversed.sublist sublist)).imp ?_
    intro x y apart a b first second i stops j ends
    rw [← Call.id_of_stopped stops, ← Call.id_of_stopped ends, own x a first, own y b second]
    exact apart

end Ordering

section Loops

variable {svc : Service} {app : App} {step : Steps TaskSig Scene} {s : Scene × Journal}
variable {α : Type}

theorem Minds.logged {p : Task α} (minds : Minds id p) :
    Ensures (Journaling svc step) anything
      (fun _ t => ∃ own, (∀ call ∈ own, call.id = id) ∧ t.2.calls = s.2.calls ++ own) p s := by
  have kept {r op answer t} (held : ∃ own, (∀ call ∈ own, Call.id call = id) ∧ r.2.calls = s.2.calls ++ own)
      (kind : TaskOp.minds id op) (taken : Journaling svc step r op answer t) :
      ∃ own, (∀ call ∈ own, Call.id call = id) ∧ t.2.calls = s.2.calls ++ own := by
    obtain ⟨own, about, calls⟩ := held
    refine ⟨own ++ (op.call svc.localNode answer).toList, ?_, ?_⟩
    · intro call member
      rcases List.mem_append.mp member with before | now
      · exact about call before
      · cases op with
        | runtimeStop | runtimeDeploy | dispatchStop | dispatchWorkload =>
          obtain rfl := List.mem_singleton.mp now
          exact kind
        | _ => simp [TaskOp.call] at now
    · rw [taken.2]
      simp [Journal.jot, calls]
  exact minds.keeps @kept ⟨[], by simp, by simp⟩

theorem eachUntil_minding {body : Workload → Task Check} {xs : List Workload}
    (minds : ∀ x ∈ xs, Minds (workloadId app.metadata x.name) (body x)) :
    Ensures (Journaling svc step) anything
      (fun result t => ∃ calls, Rounds (fun x (_ : Unit) own _ _ => ∀ call ∈ own, Call.id call = workloadId app.metadata x.name)
        xs () calls result.isOk () ∧ t.2.calls = s.2.calls ++ calls)
      (Program.eachUntil body xs) s := by
  refine ensures_rounds (fun _ : Scene × Journal => ())
    (fun t : Scene × Journal => t.2.calls) ?_
  intro x member s
  exact (minds x member).logged

end Loops

/-- Two stops out of order have a start of the second workload in between,
which its stop takes back. -/
def StopsInOrder (app : App) (calls : List Call) : Prop :=
  ∀ a ok b again, [.stop a ok, .stop b again].Sublist calls → app.Needs b a →
    ∃ node, [.stop a ok, .start b node true, .stop b again].Sublist calls

section Moving

variable {svc : Service} {accepted : Prop} {f : Ledger} {app : App} {Aims : Workload → String → List Decision → Prop}
variable {operation : Operation} {workloads order : List Workload} {decisions : List Decision}
variable {plans : List PlannedWorkloadMove} {calls halts launches : List Call} {generation : String} {ok : Bool} {r t : Records}

theorem launches_shape (rounds : Rounds (Launch accepted app generation) plans r launches ok t) :
    (∀ call ∈ launches, call.stopped = none) ∨
      ∃ front id node again, launches = front ++ [.start id node true, .stop id again] ∧
        ∀ call ∈ front, call.stopped = none := by
  induction rounds with
  | done => exact .inl (by simp)
  | next launched _ ih =>
    cases launched with
    | start =>
      rcases ih with none | ⟨front, id, node, again, rfl, none⟩
      · exact .inl (List.forall_mem_cons.mpr ⟨rfl, none⟩)
      · exact .inr ⟨_ :: front, id, node, again, rfl, List.forall_mem_cons.mpr ⟨rfl, none⟩⟩
  | fail launched =>
    cases launched with
    | refuse broken =>
      rcases broken with rfl | rfl | ⟨again, rfl⟩
      · exact .inl (by simp)
      · exact .inl (by simp [Call.stopped])
      · exact .inr ⟨[], _, _, again, rfl, by simp⟩

variable {front : List Call}

theorem stop_ne_of_unstopped (none : ∀ call ∈ front, call.stopped = none) {a : WorkloadId} {ok : Bool} :
    .stop a ok ∉ front :=
  fun member => by cases none _ member

theorem StopsInOrder.append (ordered : halts.Pairwise (StopOrder app)) (none : ∀ call ∈ front, call.stopped = none) :
    StopsInOrder app (halts ++ front) := by
  intro a ok b again sublist needs
  obtain ⟨left, right, cut, early, late⟩ := List.sublist_append_iff.mp sublist
  have empty : right = [] := by
    refine List.eq_nil_iff_forall_not_mem.mpr fun call member => ?_
    have stop : call ∈ [.stop a ok, .stop b again] := cut ▸ List.mem_append_right _ member
    rcases List.mem_pair.mp stop with rfl | rfl <;> exact stop_ne_of_unstopped none (late.subset member)
  rw [empty, List.append_nil] at cut
  have apart := ordered.sublist (cut ▸ early)
  rw [List.pairwise_pair] at apart
  exact absurd needs (apart a rfl b rfl)

theorem StopsInOrder.retract {node : String} {last : Bool} (ordered : StopsInOrder app front) :
    StopsInOrder app (front ++ [.start id node true, .stop id last]) := by
  intro a ok b again sublist needs
  obtain ⟨left, right, cut, early, late⟩ := List.sublist_append_iff.mp sublist
  match left, right, cut with
  | [], _, rfl =>
    cases late.eq_of_length rfl
  | [_], _, cut =>
    obtain ⟨rfl, rfl⟩ := List.cons.inj cut
    obtain ⟨rfl, rfl⟩ : b = id ∧ again = last := by simpa using List.singleton_sublist.mp late
    exact ⟨node, early.append (List.Sublist.refl _)⟩
  | [_, _], [], cut =>
    obtain ⟨node, between⟩ := ordered a ok b again (by simpa [cut] using early) needs
    exact ⟨node, between.trans (List.sublist_append_left _ _)⟩

/-- The calls of a move follow the order of the workloads it selects. -/
theorem MoveOutcome.ordered (outcome : MoveOutcome svc accepted f app operation Aims workloads calls decisions ok t)
    (sorted : app.workloadsInDependencyOrder svc.sorter = .ok order) (sublist : workloads.Sublist order) :
    StopsInOrder app calls ∧ calls.Pairwise (StartOrder app) := by
  have halted {plans halts} {ok : Bool} {r : Records} (planning : Planning svc f app Aims workloads decisions plans)
      (rounds : Rounds (Halt accepted app operation (appGeneration app)) plans.reverse f.records halts ok r) :
      halts.Pairwise (StopOrder app) ∧ ∀ call ∈ halts, call.started = none := by
    constructor
    · have along : (plans.reverse.map PlannedWorkloadMove.workload).Sublist order.reverse := by
        rw [List.map_reverse]
        exact (planning.sublist.trans sublist).reverse
      refine stops_ordered sorted (fun plan call left => ?_) rounds along
      obtain ⟨ok, rfl⟩ := Halt.leaves left
      rfl
    · intro call member
      obtain ⟨plan, -, left⟩ := rounds.mem_mark member
      obtain ⟨ok, rfl⟩ := Halt.leaves left
      rfl
  have unstarted {halts : List Call} (none : ∀ call ∈ halts, call.started = none) (a : Call) (member : a ∈ halts) (b : Call) :
      StartOrder app a b := by
    intro i starts
    rw [none a member] at starts
    cases starts
  cases outcome with
  | unplanned => exact ⟨by simp [StopsInOrder], List.Pairwise.nil⟩
  | unstopped planning rounds =>
    obtain ⟨ordered, none⟩ := halted planning rounds
    have alone : StopsInOrder app (calls ++ []) := .append ordered (by simp)
    rw [List.append_nil] at alone
    exact ⟨alone, List.pairwise_of_forall_mem_list fun a member b _ => unstarted none a member b⟩
  | @started _ plans halts _ launches _ _ planning rounds later =>
    obtain ⟨ordered, none⟩ := halted planning rounds
    constructor
    · rcases launches_shape later with silent | ⟨front, id, node, again, rfl, silent⟩
      · exact .append ordered silent
      · rw [← List.append_assoc]
        exact .retract (.append ordered silent)
    · refine List.pairwise_append.mpr ⟨List.pairwise_of_forall_mem_list fun a member b _ => unstarted none a member b, ?_,
        fun a member b _ => unstarted none a member b⟩
      refine starts_ordered sorted (fun plan call left => ?_) later (planning.sublist.trans sublist)
      rcases Launch.leaves left with ⟨ok, rfl⟩ | ⟨ok, rfl⟩ <;> rfl

end Moving

section Runs

variable {svc : Service} {ctx : Ctx} {app : App} {w u : World instanceRuntime}
variable {trace : List (Event TaskSig (World instanceRuntime))}

theorem stopAppWorkloads_ordered {result : Check}
    (run : Run (World.machine instanceRuntime svc).Step (stopAppWorkloads svc ctx app) w trace (pure result) u) :
    (World.journal svc trace).calls.Pairwise (StopOrder app) := by
  have ensured : Ensures (Journaling svc (View.Step svc)) anything
      (fun _ t => t.2.calls.Pairwise (StopOrder app)) (stopAppWorkloads svc ctx app) (w.view, {}) := by
    unfold stopAppWorkloads
    cases sorted : app.workloadsInDependencyOrder svc.sorter with
    | error err => exact List.Pairwise.nil
    | ok order =>
      refine (eachUntil_minding fun x _ => stopAppWorkload_minds).mono ?_
      rintro result t ⟨calls, rounds, noted⟩
      rw [noted, List.nil_append]
      refine stops_ordered sorted (fun x call left => ?_) rounds (by rw [List.map_id])
      obtain ⟨_, own, _, _, about, member⟩ := left
      exact about call member
  exact World.logged World.view_step ensured run

omit w u trace in
theorem deployAppWorkloads_logged {opts : DeployOptions} {s : Scene × Journal} :
    Ensures (Journaling svc (View.Step svc)) anything
      (fun _ t => ∃ own, own.Pairwise (StartOrder app) ∧ t.2.calls = s.2.calls ++ own)
      (deployAppWorkloadsWithOptions svc ctx app opts) s := by
  have prepared : Ensures (Journaling svc (View.Step svc)) anything
      (fun prepared t => t.2.calls = s.2.calls ∧
        ∀ order, prepared = .ok order → app.workloadsInDependencyOrder svc.sorter = .ok order)
      (prepareDeploy svc ctx app) s := by
    unfold prepareDeploy
    split
    · exact ⟨rfl, nofun⟩
    refine (lasting_logged (fun taken => taken) (P := fun _ calls => calls = s.2.calls)).then refreshLocal_idle rfl ?_
    intro _ t silent
    cases sorted : app.workloadsInDependencyOrder svc.sorter with
    | error err => exact ⟨silent, nofun⟩
    | ok order => exact ⟨silent, fun _ same => same⟩
  refine prepared.bind ?_
  rintro (err | order) t ⟨silent, sorted⟩
  · exact ⟨[], List.Pairwise.nil, by rw [silent, List.append_nil]⟩
  refine (eachUntil_minding fun x _ => deployOneWorkload_minds).mono ?_
  rintro result u ⟨calls, rounds, noted⟩
  refine ⟨calls, starts_ordered (sorted order rfl) (fun x call left => ?_) rounds (by rw [List.map_id]), by rw [noted, silent]⟩
  obtain ⟨_, own, _, _, about, member⟩ := left
  exact about call member

theorem deployAppWorkloads_ordered {opts : DeployOptions} {result : Check}
    (run : Run (World.machine instanceRuntime svc).Step (deployAppWorkloadsWithOptions svc ctx app opts) w trace (pure result) u) :
    (World.journal svc trace).calls.Pairwise (StartOrder app) := by
  obtain ⟨own, ordered, calls⟩ := World.logged World.view_step deployAppWorkloads_logged run
  rwa [calls, List.nil_append]

/-- The calls of a pass are blocks, one a document, each in order. -/
theorem reconcileAll_ordered {result : Unit}
    (run : Run (World.machine instanceRuntime svc).Step (reconcileAll svc ctx) w trace (pure result) u) :
    ∃ docs blocks, docs.Perm w.fsm.listDeployApps ∧ (World.journal svc trace).calls = blocks.flatten ∧
      List.Forall₂ (fun doc block => block.Pairwise (StartOrder doc)) docs blocks := by
  have ensured : Ensures (Journaling svc (View.Step svc)) anything
      (fun _ t => ∃ docs blocks, docs.Perm w.fsm.listDeployApps ∧ t.2.calls = blocks.flatten ∧
        List.Forall₂ (fun doc block => block.Pairwise (StartOrder doc)) docs blocks)
      (reconcileAll svc ctx) (w.view, {}) := by
    refine (ask_unnoted (fun taken => taken) rfl rfl).bind ?_
    rintro docs t ⟨rfl, listed⟩
    refine ensures_each (fun rest t => ∃ done blocks, docs = done ++ rest ∧ t.2.calls = blocks.flatten ∧
      List.Forall₂ (fun doc block => block.Pairwise (StartOrder doc)) done blocks) ?_ ?_ ⟨[], [], rfl, rfl, .nil⟩
    · rintro t ⟨done, blocks, cut, calls, ordered⟩
      rw [List.append_nil] at cut
      exact ⟨docs, blocks, listed.1, calls, cut ▸ ordered⟩
    · rintro doc rest t ⟨done, blocks, cut, calls, ordered⟩
      refine deployAppWorkloads_logged.bind ?_
      rintro result u ⟨own, more, calls'⟩
      refine ⟨done ++ [doc], blocks ++ [own], by simp [cut], by simp [calls, calls'], ?_⟩
      exact List.rel_append ordered (.cons more .nil)
  exact World.logged World.view_step ensured run

end Runs

/-- The dependencies decide the order of every operation. -/
theorem dependency_order_respected (svc : Service) (app : App) :
    (∀ order, app.workloadsInDependencyOrder svc.sorter = .ok order → order.Perm app.workloads ∧
      ∀ y ∈ app.workloads, ∀ x, app.ReliesOn y x → [x, y].Sublist order) ∧
    ((∀ order, app.workloadsInDependencyOrder svc.sorter ≠ .ok order) ↔
      (∃ w ∈ app.workloads, w.key = "") ∨ ¬ (app.workloads.map Workload.key).Nodup ∨
        (∃ w ∈ app.workloads, ∃ ref ∈ w.dependsOn, trimSpace ref.name ∉ app.workloads.map Workload.key) ∨
          ∃ w ∈ app.workloads, app.ReliesOn w w) ∧
    (∀ order names selected, app.workloadsInDependencyOrder svc.sorter = .ok order → requestedWorkloadNames names ≠ [] →
      (selectOperationWorkloads svc app names = .ok selected ↔
        (∀ name ∈ requestedWorkloadNames names, name ∈ app.workloads.map Workload.key) ∧
          selected = order.filter fun w => w.key ∈ requestedWorkloadNames names)) ∧
    (∀ (ctx : Ctx) (w u : World instanceRuntime) (trace : List (Event TaskSig (World instanceRuntime))) (result : Check),
      Run (World.machine instanceRuntime svc).Step (stopAppWorkloads svc ctx app) w trace (pure result) u →
        (World.journal svc trace).calls.Pairwise (StopOrder app)) ∧
    (∀ (ctx : Ctx) (move : MoveOp) (w u : World instanceRuntime) (trace : List (Event TaskSig (World instanceRuntime)))
      (result : OperationResult), w.fsm.getDeployApp move.metadata = some app → trimSpace app.metadata.name ≠ "" →
      Run (World.machine instanceRuntime svc).Step (move.program svc ctx) w trace (pure result) u →
        StopsInOrder app (World.journal svc trace).calls ∧ (World.journal svc trace).calls.Pairwise (StartOrder app)) ∧
    (∀ (ctx : Ctx) (opts : DeployOptions) (w u : World instanceRuntime)
      (trace : List (Event TaskSig (World instanceRuntime))) (result : Check),
      Run (World.machine instanceRuntime svc).Step (deployAppWorkloadsWithOptions svc ctx app opts) w trace (pure result) u →
        (World.journal svc trace).calls.Pairwise (StartOrder app)) ∧
    ∀ (ctx : Ctx) (w u : World instanceRuntime) (trace : List (Event TaskSig (World instanceRuntime))),
      Run (World.machine instanceRuntime svc).Step (reconcileAll svc ctx) w trace (pure ()) u →
        ∃ docs blocks, docs.Perm w.fsm.listDeployApps ∧ (World.journal svc trace).calls = blocks.flatten ∧
          List.Forall₂ (fun doc block => block.Pairwise (StartOrder doc)) docs blocks := by
  refine ⟨?_, App.no_order_iff, ?_, fun _ _ _ _ _ => stopAppWorkloads_ordered, ?_,
    fun _ _ _ _ _ _ => deployAppWorkloads_ordered, fun _ _ _ _ => reconcileAll_ordered⟩
  · intro order sorted
    exact ⟨(App.workloadsInDependencyOrder_ok sorted).1, fun y member x relies => (App.reliesOn_sublist sorted member relies).2⟩
  · intro order names selected sorted asked
    rw [selectOperationWorkloads_eq sorted, if_neg asked]
    split
    · rename_i known
      rw [Except.ok.injEq, eq_comm, and_iff_right known]
    · rename_i unknown
      exact ⟨nofun, fun all => absurd all.1 unknown⟩
  · intro ctx move w u trace result desired named run
    rcases MoveOp.outcome desired named run with ⟨silent, -⟩ | ⟨workloads, selected, outcome⟩
    · rw [silent]
      exact ⟨by simp [StopsInOrder], List.Pairwise.nil⟩
    · obtain ⟨order, sorted, sublist⟩ := MoveOp.selection_sublist selected
      exact outcome.ordered sorted sublist

def gatedApp : App where
  metadata := { name := "web" }
  workloads := [{ imageWorkload "api" "nginx" with
      dependsOn := [{ name := "db" }]
      health := some { readiness := some { tcp := some { port := 80 } } } }, imageWorkload "db" "postgres"]

def World.halfPlaced : World instanceRuntime := World.having gatedApp (imageWorkload "db" "postgres") "b" .running

/-- Both are started on node a, where the second one does not become ready. -/
def unreadyStart : List (Choice instanceRuntime) :=
  List.replicate 16 World.reaching ++ { World.reaching with ok := false } :: List.replicate 6 World.reaching

theorem unreadyStart_run : ∃ (u : World instanceRuntime) (trace : List (Event TaskSig (World instanceRuntime)))
    (result : OperationResult), Run (World.machine instanceRuntime sampleService).Step
      ((MoveOp.migrate gatedApp.metadata { targetNode := "a" }).program sampleService {}) World.halfPlaced trace (pure result) u ∧
        (World.journal sampleService trace).calls =
          [.stop (workloadId gatedApp.metadata "db") true, .start (workloadId gatedApp.metadata "db") "a" true,
            .start (workloadId gatedApp.metadata "api") "a" true, .stop (workloadId gatedApp.metadata "api") true] := by
  have played : (MoveOp.migrate gatedApp.metadata { targetNode := "a" }).played unreadyStart World.halfPlaced = some
      ([.stop (workloadId gatedApp.metadata "db") true, .start (workloadId gatedApp.metadata "db") "a" true,
        .start (workloadId gatedApp.metadata "api") "a" true, .stop (workloadId gatedApp.metadata "api") true], false) := by
    decide +kernel
  obtain ⟨u, trace, result, run, calls, -⟩ := MoveOp.exists_run played
  exact ⟨u, trace, result, run, calls⟩

/-- The stop that comes late takes back a start. -/
theorem dependency_order_respected_unready : ∃ (trace : List (Event TaskSig (World instanceRuntime))),
    (World.journal sampleService trace).calls ≠ [] ∧ StopsInOrder gatedApp (World.journal sampleService trace).calls := by
  obtain ⟨u, trace, result, run, calls⟩ := unreadyStart_run
  obtain ⟨-, -, -, -, moves, -, -⟩ := dependency_order_respected sampleService gatedApp
  exact ⟨trace, by simp [calls], (moves _ _ _ _ _ _ (by decide +kernel) (by decide +kernel) run).1⟩

/-- The stop of the second workload comes after that of its dependency. -/
theorem retracted_start_stops_late :
    ¬ ∀ (svc : Service) (ctx : Ctx) (app : App) (move : MoveOp) (w u : World instanceRuntime)
      (trace : List (Event TaskSig (World instanceRuntime))) (result : OperationResult),
      w.fsm.getDeployApp move.metadata = some app → app.validate svc.sorter = .ok () →
      Run (World.machine instanceRuntime svc).Step (move.program svc ctx) w trace (pure result) u →
        (World.journal svc trace).calls.Pairwise (StopOrder app) := by
  intro ordered
  obtain ⟨u, trace, result, run, calls⟩ := unreadyStart_run
  have late := ordered sampleService {} gatedApp (.migrate gatedApp.metadata { targetNode := "a" }) World.halfPlaced u trace
    result (by decide +kernel) (by decide +kernel) run
  rw [calls, List.pairwise_cons] at late
  refine late.1 (.stop (workloadId gatedApp.metadata "api") true) (by simp) _ rfl _ rfl ⟨_, List.mem_cons_self, _,
    List.mem_cons_of_mem _ List.mem_cons_self, rfl, rfl, ?_⟩
  refine .single ⟨List.mem_cons_of_mem _ List.mem_cons_self, _, List.mem_cons_self, ?_⟩
  decide +kernel

end Orch
