import Orch.Task.Convergence

namespace Orch

open Effect

/-- Of the workloads of an app exactly the named ones have assignments, which
say running, and nothing else of the app runs anywhere. -/
structure Cast (m : Metadata) (names : Set String) (v : Scene) : Prop where
  assigned : ∀ name a, (v.fsm.recordsOf m).assigned name = some a → trimSpace name ∈ names ∧ a.status = .running
  recorded : ∀ name, trimSpace name ∈ names → (v.fsm.recordsOf m).assigned name ≠ none
  running : ∀ node kind name, v.running node kind (workloadId m name) = true → trimSpace name ∈ names

namespace Cast

variable {m : Metadata} {names : Set String} {v u : Scene}

theorem congr {other : Metadata} (same : sameAppMetadata other m = true) (cast : Cast m names v) : Cast other names v := by
  have ids := workloadId_congr same
  simp only [sameAppMetadata, decide_eq_true_eq] at same
  have records : v.fsm.recordsOf other = v.fsm.recordsOf m := Ledger.recordsOf_congr same.1 same.2
  refine ⟨?_, ?_, ?_⟩
  · rw [records]
    exact cast.assigned
  · rw [records]
    exact cast.recorded
  · intro node kind name
    rw [ids]
    exact cast.running node kind name

theorem of_same (cast : Cast m names v) (records : (u.fsm.recordsOf m).assigned = (v.fsm.recordsOf m).assigned)
    (running : ∀ node kind name, u.running node kind (workloadId m name) = v.running node kind (workloadId m name)) :
    Cast m names u := by
  refine ⟨?_, ?_, ?_⟩
  · rw [records]
    exact cast.assigned
  · rw [records]
    exact cast.recorded
  · intro node kind name
    rw [running]
    exact cast.running node kind name

theorem kept {x : Workload} {a : Assignment} (cast : Cast m names v) (found : (v.fsm.recordsOf m).assigned x.name = some a) :
    Cast m (insert x.key names) v := by
  refine ⟨fun name b assigned => ?_, fun name inside => ?_, fun node kind name running => ?_⟩
  · exact ⟨.inr (cast.assigned name b assigned).1, (cast.assigned name b assigned).2⟩
  · rcases inside with own | before
    · rw [Ledger.assigned_congr own, found]
      exact Option.some_ne_none a
    · exact cast.recorded name before
  · exact .inr (cast.running node kind name running)

end Cast

section Passes

variable {svc : Service} {doc : App} {names : Set String} {ctx : Ctx}
variable (valid : doc.validate svc.sorter = .ok ()) (available : svc.dispatcher = true)
include valid available

variable {v : Scene}

/-- A deploy that nothing hinders adds its workload to the cast. -/
theorem deployOneWorkload_cast {x : Workload} (member : x ∈ doc.workloads) (keyed : v.fsm.Keyed)
    (cast : Cast doc.metadata names v) :
    Ensures (Assuming (View.Step svc) (TaskOp.unhindered svc)) anything
      (fun result u => result = .ok () ∧ u.fsm.Keyed ∧ u.fsm.deployApps = v.fsm.deployApps ∧
        Cast doc.metadata (insert x.key names) u)
      (deployOneWorkload svc ctx doc (appGeneration doc) {} x) v := by
  have named := App.validate_name valid
  have present := App.validate_present valid member
  refine (deployOneWorkload_ensures (fun taken => taken.1.local) (fun _ _ _ => trivial) (fun _ _ _ => trivial)
    View.unhindered_ok (fun v node result u => v.StopAt node x.runtime (workloadId doc.metadata x.name) result u ∧ result = .ok ())
    (fun v node result u => v.RunAt (trimSpace node) x.runtime (workloadId doc.metadata x.name) result u ∧
      ∃ ran, result = .ok ran) named present (fun _ _ _ => trivial) ?stops ?runs).mono ?_
  case stops =>
    intro ctx assignment found older placed live
    refine (stopWorkloadOnNode_ensures (fun taken => taken.1) (fun _ _ _ => trivial)
      (fun (_ : True) {_ _ _ _} taken => TaskOp.stopped_of_succeeded (TaskOp.succeeded_of_unhindered taken.2))
      (fun _ _ _ _ => trivial) (trimSpace_trimSpace _) placed (fun _ _ => trivial)).mono ?_
    rintro result t ⟨stop, -, prompt⟩
    exact ⟨stop, prompt trivial fun _ => available⟩
  case runs =>
    intro ctx t node readied chosen
    refine (runChosen_ensures (fun taken => taken.1) (fun _ _ _ => trivial)
      (fun (_ : True) {_ _ _ _} taken => TaskOp.succeeded_of_unhindered taken.2) (fun _ => trivial) (fun _ => trivial)
      (fun _ _ => trivial)).mono ?_
    rintro result last ⟨run, prompt⟩
    exact ⟨run, prompt trivial available⟩
  intro result u outcome
  -- Nothing fails, so the workload runs already or is started.
  cases outcome with
  | kept found idle => exact ⟨rfl, keyed, rfl, cast.kept found⟩
  | @cancelled a err found waits =>
    simp [failedAssignmentSameGeneration, (cast.assigned _ a found).2] at waits
  | unstopped found older placed live still recorded => cases still.2
  | unplaced readied nowhere recorded =>
    obtain ⟨err, taken, fallback⟩ := nowhere
    have good := taken.2
    simp [TaskOp.unhindered, fallback, Except.isOk, Except.toBool] at good
  | failed readied chosen ran recorded =>
    obtain ⟨-, _, bad⟩ := ran
    cases bad
  | @started ran node t last readied chosen run =>
    have before : t.fsm = v.fsm ∧ ∀ n k i, t.running n k i = true → v.running n k i = true := by
      cases readied with
      | fresh | again => exact ⟨rfl, fun _ _ _ running => running⟩
      | stopped found older placed live ended => exact ⟨ended.1.fsm, fun _ _ _ running => ended.1.running running⟩
    obtain ⟨⟨value, rfl, -, running⟩, -⟩ := run
    obtain ⟨unchanged, ran_before⟩ := before
    obtain ⟨-, status⟩ := running ran rfl
    rw [← unchanged] at keyed ⊢
    refine ⟨rfl, View.record_holds (View.record_holds keyed), rfl, ?_, ?_, ?_⟩
    · intro name a assigned
      rw [assigned_record named present] at assigned
      split at assigned
      · rename_i own
        cases assigned
        exact ⟨.inl own, status⟩
      · rename_i other
        rw [View.setRunning_fsm, assignedRecord, assigned_record named present, if_neg other, unchanged] at assigned
        exact ⟨.inr (cast.assigned name a assigned).1, (cast.assigned name a assigned).2⟩
    · intro name inside
      rw [assigned_record named present]
      split
      · exact Option.some_ne_none _
      · rename_i other
        rw [View.setRunning_fsm, assignedRecord, assigned_record named present, if_neg other, unchanged]
        exact cast.recorded name (inside.resolve_left other)
    · intro n k name running
      by_cases own : workloadId doc.metadata name = workloadId doc.metadata x.name
      · exact .inl (congrArg WorkloadId.workload own)
      · refine .inr (cast.running n k name (ran_before _ _ _ ?_))
        have elsewhere : ¬ (n = trimSpace node ∧ k = x.runtime ∧ workloadId doc.metadata name =
          workloadId doc.metadata x.name) := fun all => own all.2.2
        have same : ((t.record (assignedRecord doc x node (appGeneration doc))).setRunning (trimSpace node) x.runtime
            (workloadId doc.metadata x.name) value).running n k (workloadId doc.metadata name) =
              t.running n k (workloadId doc.metadata name) := View.setRunning_other elsewhere
        exact same.symm.trans running

theorem deployAppWorkloads_cast (keyed : v.fsm.Keyed) (cast : Cast doc.metadata names v) :
    Ensures (Assuming (View.Step svc) (TaskOp.unhindered svc)) anything
      (fun _ u => u.fsm.Keyed ∧ u.fsm.deployApps = v.fsm.deployApps ∧
        Cast doc.metadata (names ∪ { key | ∃ x ∈ doc.workloads, x.key = key }) u)
      (deployAppWorkloads svc ctx doc) v := by
  refine deployAppWorkloadsWithOptions_ensures (fun taken => taken.1.local) (fun _ _ _ => trivial)
    (fun _ _ _ => trivial) View.unhindered_ok (fun _ invalid => absurd valid invalid) ?_
  rintro catalog workloads - ordered
  obtain ⟨permuted, -, -⟩ := App.workloadsInDependencyOrder_ok ordered
  -- What is still to come joins later.
  refine ensures_eachUntil (fun rest u => u.fsm.Keyed ∧ u.fsm.deployApps = v.fsm.deployApps ∧
    (∀ x ∈ rest, x ∈ doc.workloads) ∧ ∃ joined : Set String, Cast doc.metadata joined u ∧ names ⊆ joined ∧
      (∀ key ∈ joined, key ∈ names ∨ ∃ x ∈ doc.workloads, x.key = key) ∧
      ∀ x ∈ doc.workloads, x ∈ rest ∨ x.key ∈ joined) ?_ ?_
    ⟨⟨keyed.desired, keyed.revised⟩, rfl, fun x inside => permuted.mem_iff.mp inside, names,
      cast.of_same rfl fun _ _ _ => rfl, Set.Subset.rfl, fun key inside => .inl inside,
      fun x inside => .inl (permuted.mem_iff.mpr inside)⟩
  · rintro u ⟨keyed, same, -, joined, cast, before, own, all⟩
    have exactly : joined = names ∪ { key | ∃ x ∈ doc.workloads, x.key = key } := by
      ext key
      constructor
      · exact own key
      · rintro (early | ⟨x, inside, rfl⟩)
        · exact before early
        · exact (all x inside).resolve_left (by simp)
    exact ⟨keyed, same, exactly ▸ cast⟩
  rintro x rest u ⟨keyed, same, inside, joined, cast, before, own, all⟩
  have member := inside x (by simp)
  refine (deployOneWorkload_cast valid available member keyed cast).mono ?_
  rintro _ t ⟨rfl, keyed, unchanged, cast⟩
  refine ⟨keyed, unchanged.trans same, fun y later => inside y (List.mem_cons_of_mem _ later), insert x.key joined, cast,
    before.trans (Set.subset_insert _ _), ?_, ?_⟩
  · rintro key (rfl | early)
    · exact .inr ⟨x, member, rfl⟩
    · exact own key early
  · intro y among
    rcases all y among with coming | joined
    · rcases List.mem_cons.mp coming with rfl | later
      · exact .inr (Set.mem_insert _ _)
      · exact .inl later
    · exact .inr (.inr joined)

theorem reconcileAll_cast (keyed : v.fsm.Keyed) (desired : v.fsm.getDeployApp doc.metadata = some doc)
    (cast : Cast doc.metadata names v) :
    Ensures (Assuming (View.Step svc) (TaskOp.unhindered svc)) anything
      (fun _ u => u.fsm.Keyed ∧ u.fsm.getDeployApp doc.metadata = some doc ∧
        Cast doc.metadata (names ∪ { key | ∃ x ∈ doc.workloads, x.key = key }) u)
      (reconcileAll svc ctx) v := by
  have others {cast : Set String} {u t : Scene} (same : t.fsm.recordsOf doc.metadata = u.fsm.recordsOf doc.metadata)
      (running : ∀ node kind name, t.running node kind (workloadId doc.metadata name) =
        u.running node kind (workloadId doc.metadata name))
      (held : u.fsm.getDeployApp doc.metadata = some doc ∧ Cast doc.metadata cast u) :
      t.fsm.getDeployApp doc.metadata = some doc ∧ Cast doc.metadata cast t :=
    ⟨(congrArg AppRecords.desired same).trans held.1, held.2.of_same (congrArg AppRecords.assigned same) running⟩
  refine reconcileAll_turn (fun taken => taken.1) View.unhindered_ok (App.validate_clean valid) (App.validate_name valid) keyed
    desired _ _ (fun same running => ⟨others same running, others same running⟩) ?_ ⟨desired, cast⟩
  rintro u keyed ⟨desired, cast⟩
  refine (deployAppWorkloads_cast valid available keyed cast).mono ?_
  rintro result t ⟨keyed, same, cast⟩
  refine ⟨keyed, ?_, cast⟩
  rw [Ledger.getDeployApp, same]
  exact desired

end Passes

/-- Documents are submitted one after the other, each accepted and followed by
a pass that meets no obstacle. -/
def Rollouts (svc : Service) : List App → World instanceRuntime → World instanceRuntime → Prop
  | [], w, u => u = w
  | doc :: rest, w, u => ∃ told passed,
    (∃ ctx, Finishes (Accepted svc) (submitDeploy svc ctx doc) w (.ok ()) told) ∧
    (∃ ctx, Finishes (Assuming (World.machine instanceRuntime svc).Step (TaskOp.unhindered svc)) (reconcileAll svc ctx) told
      () passed) ∧ Rollouts svc rest passed u

/-- What is assigned or running of the app belongs to its desired document. -/
def NothingDropped (m : Metadata) (w : World instanceRuntime) : Prop :=
  ∃ doc, w.view.fsm.getDeployApp m = some doc ∧
    (∀ name a, w.view.fsm.getAssignment (assignmentKey m name) = some a → a.status = .running ∨ a.status = .assigned →
      ∃ x ∈ doc.workloads, x.key = trimSpace name) ∧
    ∀ node kind name, w.view.running node kind (workloadId m name) = true → ∃ x ∈ doc.workloads, x.key = trimSpace name

section Runs

variable {svc : Service} {m : Metadata} {w u : World instanceRuntime}

/-- So a rollout adds the workloads of its document, and removes none. -/
theorem rollout_cast {doc : App} {names : Set String} {told passed : World instanceRuntime} (available : svc.dispatcher = true)
    (same : sameAppMetadata doc.metadata m = true) (keyed : w.view.fsm.Keyed) (cast : Cast m names w.view)
    (deploy : ∃ ctx, Finishes (Accepted svc) (submitDeploy svc ctx doc) w (.ok ()) told)
    (pass : ∃ ctx, Finishes (Assuming (World.machine instanceRuntime svc).Step (TaskOp.unhindered svc))
      (reconcileAll svc ctx) told () passed) :
    passed.view.fsm.Keyed ∧ passed.view.fsm.getDeployApp m = some doc.decoded ∧
      Cast m (names ∪ { key | ∃ x ∈ doc.workloads, x.key = key }) passed.view := by
  obtain ⟨ctx, deploy⟩ := deploy
  obtain ⟨valid, stored⟩ := submitDeploy_view deploy
  have passing : doc.decoded.validate svc.sorter = .ok () := (App.validate_decoded doc svc.sorter).trans valid
  have alike : sameAppMetadata m doc.decoded.metadata = true := by
    simp only [sameAppMetadata, decide_eq_true_eq] at same ⊢
    exact ⟨same.1.symm, same.2.symm⟩
  have ledger : told.view.fsm = w.view.fsm.update (.upsertDeployApp doc) := by rw [stored]
  have keyedTold : told.view.fsm.Keyed := by
    rw [ledger]
    exact keyed.update
  have desired : told.view.fsm.getDeployApp doc.decoded.metadata = some doc.decoded := by
    rw [ledger]
    exact Ledger.getDeployApp_upsert (App.validate_name valid)
  have castTold : Cast doc.decoded.metadata names told.view := by
    have before : Cast doc.metadata names w.view := cast.congr same
    rw [stored]
    refine before.of_same ?_ fun _ _ _ => rfl
    funext name
    simp only [Ledger.recordsOf, Ledger.getAssignment, Ledger.assignments_upsert]
  obtain ⟨ctx, pass⟩ := pass
  obtain ⟨keyed, desired, cast⟩ := World.finishes_view (reconcileAll_cast passing available keyedTold desired castTold) pass
  refine ⟨keyed, ?_, ?_⟩
  · rw [← desired]
    simp only [sameAppMetadata, decide_eq_true_eq] at alike
    exact Ledger.getDeployApp_congr (by rw [deployAppMapKey, deployAppMapKey, alike.1, alike.2])
  · have own : { key | ∃ x ∈ doc.decoded.workloads, x.key = key } = { key | ∃ x ∈ doc.workloads, x.key = key } := by
      ext key
      simp [App.decoded, Workload.key]
    rw [own] at cast
    exact cast.congr alike

theorem rollouts_cast {docs : List App} {names : Set String} (available : svc.dispatcher = true)
    (same : ∀ doc ∈ docs, sameAppMetadata doc.metadata m = true) (keyed : w.view.fsm.Keyed) (cast : Cast m names w.view)
    (runs : Rollouts svc docs w u) :
    u.view.fsm.Keyed ∧ Cast m (names ∪ { key | ∃ doc ∈ docs, ∃ x ∈ doc.workloads, x.key = key }) u.view := by
  induction docs generalizing w names with
  | nil =>
    cases runs
    exact ⟨keyed, by simpa using cast⟩
  | cons doc docs ih =>
    obtain ⟨told, passed, deploy, pass, later⟩ := runs
    obtain ⟨keyed, -, cast⟩ := rollout_cast available (same doc (by simp)) keyed cast deploy pass
    obtain ⟨keyed, cast⟩ := ih (fun doc inside => same doc (List.mem_cons_of_mem _ inside)) keyed cast later
    refine ⟨keyed, ?_⟩
    have all : names ∪ { key | ∃ x ∈ doc.workloads, x.key = key } ∪ { key | ∃ doc ∈ docs, ∃ x ∈ doc.workloads, x.key = key } =
        names ∪ { key | ∃ other ∈ doc :: docs, ∃ x ∈ other.workloads, x.key = key } := by
      ext key
      simp [or_assoc]
    exact all ▸ cast

theorem rollouts_append {first second : List App} :
    Rollouts svc (first ++ second) w u ↔ ∃ mid, Rollouts svc first w mid ∧ Rollouts svc second mid u := by
  induction first generalizing w with
  | nil => simp [Rollouts]
  | cons doc first ih =>
    simp only [List.cons_append, Rollouts, ih]
    constructor
    · rintro ⟨told, passed, deploy, pass, mid, early, late⟩
      exact ⟨mid, ⟨told, passed, deploy, pass, early⟩, late⟩
    · rintro ⟨mid, ⟨told, passed, deploy, pass, early⟩, late⟩
      exact ⟨told, passed, deploy, pass, mid, early, late⟩

/-- After the last pass all that runs belongs to the last document, exactly if
it has every workload of the earlier ones. -/
theorem nothing_dropped_iff {docs : List App} {doc : App} (available : svc.dispatcher = true) (keyed : w.view.fsm.Keyed)
    (fresh : Cast m ∅ w.view) (one : ∀ d ∈ docs ++ [doc], sameAppMetadata d.metadata m = true)
    (runs : Rollouts svc (docs ++ [doc]) w u) :
    NothingDropped m u ↔ ∀ d ∈ docs, ∀ x ∈ d.workloads, ∃ y ∈ doc.workloads, y.key = x.key := by
  obtain ⟨mid, early, told, passed, deploy, pass, rfl⟩ := rollouts_append.mp runs
  obtain ⟨keyed, cast⟩ := rollouts_cast available (fun d inside => one d (List.mem_append_left _ inside)) keyed fresh early
  obtain ⟨-, desired, cast⟩ := rollout_cast available (one doc (by simp)) keyed cast deploy pass
  have named {key : String} : (∃ x ∈ doc.decoded.workloads, x.key = key) ↔ ∃ x ∈ doc.workloads, x.key = key := by
    simp [App.decoded, Workload.key]
  rw [Set.empty_union] at cast
  constructor
  · rintro ⟨current, found, assigned, -⟩ d inside x member
    obtain rfl := Option.some.inj (found.symm.trans desired)
    obtain ⟨a, recorded⟩ := Option.ne_none_iff_exists'.mp (cast.recorded x.name (.inl ⟨d, inside, x, member, rfl⟩))
    exact named.mp (assigned x.name a recorded (.inl (cast.assigned x.name a recorded).2))
  · intro all
    have last {name : String} (played : trimSpace name ∈ { key | ∃ d ∈ docs, ∃ x ∈ d.workloads, x.key = key } ∪
        { key | ∃ x ∈ doc.workloads, x.key = key }) : ∃ x ∈ doc.decoded.workloads, x.key = trimSpace name := by
      rcases played with ⟨d, inside, x, member, same⟩ | own
      · exact named.mpr (same ▸ all d inside x member)
      · exact named.mpr own
    exact ⟨doc.decoded, desired, fun name a found _ => last (cast.assigned name a found).1,
      fun node kind name running => last (cast.running node kind name running)⟩

end Runs

def pairApp : App :=
  { imageApp "web" "api" "nginx" with workloads := [imageWorkload "api" "nginx", imageWorkload "db" "postgres"] }

def deployTwice (svc : Service) (first second : App) : Task (Check × Check) := do
  let deployed ← submitDeploy svc {} first
  reconcileAll svc {}
  let redeployed ← submitDeploy svc {} second
  reconcileAll svc {}
  return (deployed, redeployed)

theorem World.idle_cast (m : Metadata) : Cast m ∅ World.idle.view := by
  refine ⟨fun name a found => ?_, fun name inside => ?_, fun node kind name running => ?_⟩
  · cases found
  · cases inside
  · cases running

theorem rollouts_of_finishes {svc : Service} {first second : App} {w u : World instanceRuntime}
    (run : Finishes (Assuming (World.machine instanceRuntime svc).Step (TaskOp.unhindered svc))
      (deployTwice svc first second) w (.ok (), .ok ()) u) : Rollouts svc ([first] ++ [second]) w u := by
  have accepted {s t : World instanceRuntime} {op : TaskOp} {answer : op.Answer}
      (taken : Assuming (World.machine instanceRuntime svc).Step (TaskOp.unhindered svc) s op answer t) :
      Accepted svc s op answer t :=
    ⟨taken.1, TaskOp.accepted_of_succeeded (TaskOp.succeeded_of_unhindered taken.2)⟩
  simp only [deployTwice, finishes_bind] at run
  obtain ⟨_, told, deploy, _, passed, pass, _, retold, redeploy, _, last, repass, ended⟩ := run
  obtain ⟨results, rfl⟩ := finishes_pure.mp ended
  cases results
  exact ⟨told, passed, ⟨{}, deploy.mono accepted⟩, ⟨{}, pass⟩, retold, _, ⟨{}, redeploy.mono accepted⟩, ⟨{}, repass⟩, rfl⟩

theorem rollouts_of_play (first second : App) (check : World instanceRuntime → Bool)
    (played : ((deployTwice sampleService first second).play ((World.machine instanceRuntime sampleService).assuming
      (TaskOp.unhindered sampleService)) (List.replicate 60 (World.smoothly "a")) World.idle).map
        (fun last => last.2.1.isOk && last.2.2.isOk && check last.1) = some true) :
    ∃ last, Rollouts sampleService ([first] ++ [second]) World.idle last ∧ check last = true := by
  obtain ⟨⟨deployed, redeployed⟩, last, run, passed⟩ := exists_finishes_of_play played
  simp only [Bool.and_eq_true, Check.isOk_iff] at passed
  obtain ⟨⟨rfl, rfl⟩, passed⟩ := passed
  exact ⟨last, rollouts_of_finishes (run.mono Machine.assuming_step), passed⟩

/-- A workload that is added later is brought up beside the first one. -/
theorem nothing_dropped_added :
    ∃ u, Rollouts sampleService ([imageApp "web" "api" "nginx"] ++ [pairApp]) World.idle u ∧
      NothingDropped { name := "web" } u := by
  obtain ⟨u, runs, -⟩ := rollouts_of_play (imageApp "web" "api" "nginx") pairApp (fun _ => true) (by decide +kernel)
  exact ⟨u, runs, (nothing_dropped_iff rfl World.idle_keyed (World.idle_cast _) (by decide +kernel) runs).mpr
    (by decide +kernel)⟩

/-- A workload that a later document leaves out runs on. -/
theorem dropped_workload_runs :
    ¬ ∀ (svc : Service) (m : Metadata) (docs : List App) (doc : App) (w u : World instanceRuntime),
      svc.dispatcher = true → w.view.fsm.Keyed → Cast m ∅ w.view →
        (∀ d ∈ docs ++ [doc], sameAppMetadata d.metadata m = true) → Rollouts svc (docs ++ [doc]) w u → NothingDropped m u := by
  intro stopped
  obtain ⟨u, runs, running⟩ := rollouts_of_play pairApp (imageApp "web" "api" "nginx")
    (fun u => (u.fsm.getDeployApp { name := "web" }).any (fun doc => doc.workloads.all fun x => x.key ≠ "db") &&
      u.view.running "a" .docker (workloadId { name := "web" } "db")) (by decide +kernel)
  obtain ⟨doc, found, -, own⟩ := stopped sampleService { name := "web" } [pairApp] (imageApp "web" "api" "nginx") World.idle u
    rfl World.idle_keyed (World.idle_cast _) (by decide +kernel) runs
  simp only [Bool.and_eq_true] at running
  obtain ⟨x, member, key⟩ := own "a" .docker "db" running.2
  have absent := running.1
  rw [show u.fsm.getDeployApp { name := "web" } = some doc from found] at absent
  simp only [Option.any_some, List.all_eq_true, decide_eq_true_eq] at absent
  exact absent x member (key.trans (by decide +kernel))

end Orch
