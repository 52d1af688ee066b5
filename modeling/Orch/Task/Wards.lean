import Orch.Raft.Documents
import Orch.Task.View
import Orch.Task.Walks

namespace Orch

open Effect

/-- What is known about the workload of one key: the documents desired, its
assignment, and who watches it on each node. -/
structure Ward where
  desired : List App
  current : Option Assignment
  monitors : String → Option HealthTarget

variable {op : TaskOp}

namespace Ward

def record (d : Ward) (key : String) (a : Assignment) : Ward :=
  match normalizeAssignment a with
  | none => d
  | some b => if b.key = key then { d with current := some b } else d

def register (d : Ward) (key self : String) (target : HealthTarget) : Ward :=
  if target.key = key then { d with monitors := Function.update d.monitors self (some target) } else d

def drop (d : Ward) (key self k : String) : Ward :=
  if k = key then { d with monitors := Function.update d.monitors self none } else d

def LocalStep (key self : String) : Steps TaskSig Ward := fun d op answer e =>
  match op, answer with
  | .getDesiredDeployApp metadata, found =>
    (∀ app, found = some app → app ∈ d.desired ∧ deployAppMapKey app.metadata = deployAppMapKey metadata ∧
      trimSpace app.metadata.name ≠ "") ∧ e = d
  | .listDesiredDeployApps, apps => apps.Perm d.desired ∧ e = d
  | .getWorkloadAssignment k, found => (trimSpace k = key → found = d.current) ∧ e = d
  | .apply _ (.upsertWorkloadAssignment a), result =>
    (result = .ok () → e = d.record key a) ∧ (e = d ∨ e = d.record key a)
  | .apply _ (.upsertDeployApp _), _ => e.current = d.current ∧ e.monitors = d.monitors
  | .apply _ (.deleteDeployApp _), _ => e.current = d.current ∧ e.monitors = d.monitors
  | .registerHealthMonitor target, _ => e = d.register key self target
  | .stopHealthMonitor k, _ => e = d.drop key self k
  | .finishHealthMonitor k _, _ => e = d ∨ e = d.drop key self k
  | .dispatchWorkload _ _ _ _, _ => True
  | .dispatchStop _ _ _ _, _ => True
  | _, _ => e = d

variable {d e : Ward}

theorem LocalStep.idle {key self : String} {answer : op.Answer}
    (taken : LocalStep key self d op answer e) (idle : op.idle = true) : e = d := by
  cases op with
  | getDesiredDeployApp | listDesiredDeployApps | getWorkloadAssignment => exact taken.2
  | apply ctx command =>
    cases command with
    | upsertNodeCapacity | upsertVolumeBinding => exact taken
    | _ => cases idle
  | registerHealthMonitor | stopHealthMonitor | finishHealthMonitor | dispatchWorkload | dispatchStop => cases idle
  | _ => exact taken

/-- Only the monitor of one workload on one node may differ. -/
structure Near (key k node : String) (d e : Ward) : Prop where
  other : k ≠ key → e = d
  current : e.current = d.current
  elsewhere : ∀ n, n ≠ node → e.monitors n = d.monitors n

theorem Near.refl (key k node : String) (d : Ward) : Near key k node d d := ⟨fun _ => rfl, rfl, fun _ _ => rfl⟩

theorem Near.drop {key k node : String} (near : Near key k node d e) : Near key k node d (e.drop key node k) := by
  by_cases own : k = key
  · refine ⟨fun other => absurd own other, ?_, ?_⟩
    · simpa [Ward.drop, own] using near.current
    · intro n apart
      simpa [Ward.drop, own, Function.update_of_ne apart] using near.elsewhere n apart
  · rwa [Ward.drop, if_neg own]

theorem Near.register {key k node : String} {target : HealthTarget} (near : Near key k node d e)
    (same : target.key = k) : Near key k node d (e.register key node target) := by
  subst same
  by_cases own : target.key = key
  · refine ⟨fun other => absurd own other, ?_, ?_⟩
    · simpa [Ward.register, own] using near.current
    · intro n apart
      simpa [Ward.register, own, Function.update_of_ne apart] using near.elsewhere n apart
  · rwa [Ward.register, if_neg own]

end Ward

variable {R : Runtime}

def World.Filed (w : World R) : Prop :=
  w.fsm.toLedger.Holds fun key app => deployAppMapKey app.metadata = key ∧ trimSpace app.metadata.name ≠ ""

def World.ward (key : String) (w : World R) : Ward where
  desired := w.fsm.listDeployApps
  current := w.fsm.assignments.lookup key
  monitors node := ((w.tables node).healthMonitors.lookup key).map Prod.snd

theorem assignmentKey_of_app {a b : Metadata} {name : String} (same : deployAppMapKey a = deployAppMapKey b)
    (left : trimSpace a.name ≠ "") (right : trimSpace b.name ≠ "") : assignmentKey a name = assignmentKey b name := by
  by_cases blank : trimSpace name = ""
  · rw [assignmentKey_blank blank, assignmentKey_blank blank]
  have keyed {m : Metadata} (named : trimSpace m.name ≠ "") :
      assignmentKey m name = deployAppMapKey m ++ "/" ++ trimSpace name := by
    rw [assignmentKey, WorkloadId.key, if_neg (by simp [workloadId, named, blank])]
    rfl
  rw [keyed left, keyed right, same]

namespace World

variable {key self : String}

variable {w : World R}

theorem ward_updateTables {change : NodeTables → NodeTables}
    (same : (change (w.tables self)).healthMonitors = (w.tables self).healthMonitors) :
    (w.updateTables self change).ward key = w.ward key := by
  simp only [ward, updateTables, Ward.mk.injEq, true_and]
  funext node
  by_cases here : node = self
  · subst here
    rw [Function.update_self, same]
  · rw [Function.update_of_ne here]

theorem ward_monitors {monitors : Table (Nat × HealthTarget)} {change : NodeTables → NodeTables}
    (changed : (change (w.tables self)).healthMonitors = monitors) :
    (w.updateTables self change).ward key =
      { w.ward key with monitors := Function.update (w.ward key).monitors self ((monitors.lookup key).map Prod.snd) } := by
  simp only [ward, updateTables, Ward.mk.injEq, true_and]
  funext node
  by_cases here : node = self
  · subst here
    rw [Function.update_self, Function.update_self, changed]
  · rw [Function.update_of_ne here, Function.update_of_ne here]

theorem ward_register {target : HealthTarget} :
    (w.registerHealthMonitor self target).1.ward key = (w.ward key).register key self target := by
  rw [registerHealthMonitor, ward_monitors rfl, Ward.register]
  by_cases own : target.key = key
  · subst own
    rw [if_pos rfl, AList.lookup_insert]
    rfl
  · rw [if_neg own, AList.lookup_insert_ne (Ne.symm own)]
    exact congrArg (fun monitors => { w.ward key with monitors }) (Function.update_eq_self ..)

theorem ward_erase {k : String} :
    (w.updateTables self fun n => { n with healthMonitors := n.healthMonitors.erase k }).ward key =
      (w.ward key).drop key self k := by
  rw [ward_monitors rfl, Ward.drop]
  by_cases own : k = key
  · subst own
    rw [if_pos rfl, AList.lookup_erase]
    rfl
  · rw [if_neg own, AList.lookup_erase_ne (Ne.symm own)]
    exact congrArg (fun monitors => { w.ward key with monitors }) (Function.update_eq_self ..)

theorem ward_finish {k : String} {runID : Nat} :
    (w.finishHealthMonitor self k runID).ward key = w.ward key ∨
      (w.finishHealthMonitor self k runID).ward key = (w.ward key).drop key self k := by
  cases found : (w.tables self).healthMonitors.lookup k with
  | none =>
    refine .inl (ward_updateTables ?_)
    simp only [found]
  | some entry =>
    by_cases own : entry.1 = runID
    · refine .inr ?_
      rw [← ward_erase, finishHealthMonitor, updateTables, updateTables]
      simp only [found, own, if_true]
    · refine .inl (ward_updateTables ?_)
      simp only [found, own, if_false]

theorem ward_update (w : World R) (a : Assignment) :
    ({ w with fsm := w.fsm.update (.upsertWorkloadAssignment a) } : World R).ward key = (w.ward key).record key a := by
  simp only [ward, FsmState.update, Ward.record, Ledger.listDeployApps, Ledger.deployApps_update, Ledger.assignments_update,
    Command.desires, Command.assigns]
  cases normalizeAssignment a with
  | none => rfl
  | some b =>
    dsimp only
    by_cases own : b.key = key
    · subst own
      rw [if_pos rfl, AList.lookup_insert]
    · rw [if_neg own, AList.lookup_insert_ne (Ne.symm own)]

theorem Filed.performLocal {u : World R} {c : LocalChoice R} {answer : op.Answer} (filed : w.Filed)
    (taken : w.performLocal self op c = some (u, answer)) : u.Filed := by
  cases op with
  | apply ctx command =>
    have same := Option.some.inj taken
    rcases (w.drift c).applyCommand_cases self ctx command c with ⟨err, outcome⟩ | ⟨result, outcome⟩ <;>
      rw [outcome] at same <;> cases same
    · exact filed
    · exact Ledger.Holds.update filed fun _ _ named => ⟨rfl, named⟩
  | _ =>
    rw [Filed, (performLocal_frame taken).fsm rfl]
    exact filed

/-- An action on the node itself is one that a ward allows. -/
theorem ward_performLocal {u : World R} {c : LocalChoice R} {answer : op.Answer} (filed : w.Filed)
    (taken : w.performLocal self op c = some (u, answer)) :
    Ward.LocalStep key self (w.ward key) op answer (u.ward key) := by
  cases op with
  | getDesiredDeployApp metadata =>
    cases taken
    refine ⟨?_, rfl⟩
    intro app found
    have kept := filed.desired _ app found
    exact ⟨Ledger.getDeployApp_listed found, kept.1, kept.2⟩
  | listDesiredDeployApps =>
    have seen := view_performLocal taken
    simp only [performLocal, Option.map_eq_some_iff, Prod.mk.injEq] at taken
    obtain ⟨apps, -, rfl, rfl⟩ := taken
    exact ⟨seen.1, rfl⟩
  | getWorkloadAssignment k =>
    cases taken
    refine ⟨?_, rfl⟩
    rintro rfl
    rfl
  | apply ctx command =>
    have same := Option.some.inj taken
    rcases (w.drift c).applyCommand_cases self ctx command c with ⟨err, outcome⟩ | ⟨result, outcome⟩ <;>
      rw [outcome] at same <;> cases same
    · cases command with
      | upsertWorkloadAssignment => exact ⟨fun passed => (by cases passed), .inl rfl⟩
      | upsertDeployApp | deleteDeployApp => exact ⟨rfl, rfl⟩
      | _ => rfl
    cases command with
    | upsertWorkloadAssignment a => exact ⟨fun _ => ward_update w a, .inr (ward_update w a)⟩
    | upsertNodeCapacity node =>
      simp only [ward, Ward.LocalStep, FsmState.update, Ledger.update, Ledger.applyNodeCapacity]
      split <;> rfl
    | upsertVolumeBinding binding => rfl
    | upsertDeployApp | deleteDeployApp => exact ⟨congrArg (AList.lookup key) (Ledger.assignments_update ..), rfl⟩
  | takeRestart k maxRestarts =>
    simp only [performLocal, takeRestart, Option.some.injEq] at taken
    split at taken <;> cases taken
    · rfl
    · exact ward_updateTables rfl
  | markAutoRollbackAttempt k =>
    simp only [performLocal, markAutoRollbackAttempt, Option.some.injEq] at taken
    split at taken <;> cases taken
    · rfl
    · exact ward_updateTables rfl
  | registryUpsert | registryDelete | suppressAutoRollback =>
    cases taken
    exact ward_updateTables rfl
  | registerHealthMonitor target =>
    cases taken
    exact ward_register
  | stopHealthMonitor k =>
    cases taken
    exact ward_erase
  | finishHealthMonitor k runID =>
    cases taken
    exact ward_finish
  | dispatchWorkload | dispatchStop => cases taken
  | _ =>
    have frame := performLocal_frame taken
    exact show u.ward key = w.ward key by rw [ward, ward, frame.fsm rfl, frame.tables rfl]

end World

section Workers

variable {key : String} {worker : Service} {metadata : Metadata} {workload : Workload} {ctx : Ctx} {node : String} {d e : Ward}

theorem Ward.Near.lasting {permit : Ward → TaskOp → Prop} (free : ∀ d op, permit d op) {k self : String} :
    Lasting (Ward.LocalStep key self) permit (Ward.Near key k self d) := by
  intro e op near idle
  refine ⟨free e op, ?_⟩
  intro answer f taken
  obtain rfl := Ward.LocalStep.idle taken idle
  exact near

theorem validateWorkerWorkload_proper (valid : validateWorkerWorkload worker metadata workload node = .ok ()) :
    Proper metadata workload := by
  unfold validateWorkerWorkload at valid
  dsimp only at valid
  split at valid
  · cases valid
  rename_i named
  split at valid
  · cases valid
  rename_i present
  exact ⟨named, present⟩

theorem stopHealthMonitor_near {k : String} (near : Ward.Near key k worker.localNode d e) :
    Ensures (Ward.LocalStep key worker.localNode) anything (fun _ => Ward.Near key k worker.localNode d)
      (ask (.stopHealthMonitor k)) e := by
  refine ⟨trivial, ?_⟩
  rintro _ f taken
  cases taken
  exact near.drop

theorem deployWorkerWorkload_ward
    (near : Ward.Near key (assignmentKey metadata workload.name) worker.localNode d e) :
    Ensures (Ward.LocalStep key worker.localNode) anything
      (fun reply f => Ward.Near key (assignmentKey metadata workload.name) worker.localNode d f ∧
        ∀ value, reply = .ok value → assignmentKey metadata workload.name = key → workloadHasBackgroundHealth workload = true →
          ∃ target, f.monitors worker.localNode = some target ∧ target.workload = workload)
      (deployWorkerWorkload worker ctx metadata workload node) e := by
  have lasting : Lasting (Ward.LocalStep key worker.localNode) anything
      (Ward.Near key (assignmentKey metadata workload.name) worker.localNode d) := Ward.Near.lasting fun _ _ => trivial
  unfold deployWorkerWorkload
  split
  · exact ⟨near, fun _ replied => by cases replied⟩
  rename_i valid
  have proper := validateWorkerWorkload_proper valid
  rw [ensures_bind]
  refine (runLocalWorkload_walk proper lasting lasting ⟨trivial, ?_⟩ (fun _ => stopHealthMonitor_near) ?_).mono ?_
  · rintro (err | _) f taken <;> cases taken <;> exact near
  · intro f started
    refine ⟨trivial, ?_⟩
    rintro _ g taken
    cases taken
    exact started
  rintro (err | ran) f after
  · exact ⟨after, fun _ replied => by cases replied⟩
  rw [ensures_bind]
  have desired : Ensures (Ward.LocalStep key worker.localNode) anything
      (fun app g => g = f ∧ Proper app.metadata workload ∧
        assignmentKey app.metadata workload.name = assignmentKey metadata workload.name)
      (desiredHealthMonitorApp metadata workload) f := by
    refine ⟨trivial, ?_⟩
    rintro (_ | app) g ⟨kept, same⟩
    · exact ⟨same, proper, rfl⟩
    · obtain ⟨-, filed, named⟩ := kept app rfl
      exact ⟨same, ⟨named, proper.present⟩, assignmentKey_of_app filed named proper.named⟩
  refine desired.mono ?_
  rintro app g ⟨rfl, own⟩
  have watched : Ensures (Ward.LocalStep key worker.localNode) anything
      (fun _ f => Ward.Near key (assignmentKey metadata workload.name) worker.localNode d f ∧
        (assignmentKey metadata workload.name = key → workloadHasBackgroundHealth workload = true →
          ∃ target, f.monitors worker.localNode = some target ∧ target.workload = workload))
      (startLocalWorkloadHealthMonitor worker app workload worker.localNode (appGeneration app) ran.address) g := by
    refine startLocalWorkloadHealthMonitor_walk own.1 ?_ ?_
    · intro plain
      refine ⟨after.2, fun _ background => ?_⟩
      cases plain.symm.trans background
    · intro background
      refine ⟨trivial, ?_⟩
      rintro _ f taken
      cases taken
      refine ⟨after.2.register own.2, fun mine _ => ?_⟩
      rw [Ward.register, if_pos (by exact own.2.trans mine)]
      exact ⟨_, Function.update_self .., rfl⟩
  refine watched.bind ?_
  rintro _ f ⟨near, watched⟩
  exact ⟨near, fun _ _ => watched⟩

theorem stopWorkerWorkload_ward (near : Ward.Near key (assignmentKey metadata workload.name) worker.localNode d e) :
    Ensures (Ward.LocalStep key worker.localNode) anything
      (fun _ f => Ward.Near key (assignmentKey metadata workload.name) worker.localNode d f)
      (stopWorkerWorkload worker ctx metadata workload node) e := by
  have lasting : Lasting (Ward.LocalStep key worker.localNode) anything
      (Ward.Near key (assignmentKey metadata workload.name) worker.localNode d) := Ward.Near.lasting fun _ _ => trivial
  unfold stopWorkerWorkload
  split
  · exact near
  rename_i valid
  have proper := validateWorkerWorkload_proper valid
  have dropped : Ensures (Ward.LocalStep key worker.localNode) anything
      (fun _ => Ward.Near key (assignmentKey metadata workload.name) worker.localNode d)
      (stopWorkloadHealthMonitor metadata workload.name) e := by
    rw [stopWorkloadHealthMonitor, if_neg proper.key]
    exact stopHealthMonitor_near near
  refine dropped.bind ?_
  intro _ f near
  rw [ensures_bind]
  refine ⟨trivial, ?_⟩
  rintro (err | _) g taken <;> cases taken
  · exact near
  · exact lasting.then deleteRecord_idle near fun _ _ kept => kept

end Workers

/-- What an action of a service does to a ward, other nodes included. -/
def Ward.Step (key : String) (svc : Service) : Steps TaskSig Ward := fun d op answer e =>
  match op, answer with
  | .dispatchWorkload _ node metadata workload, reply =>
    Near key (assignmentKey metadata workload.name) (trimSpace node) d e ∧
      ∀ done, reply = .ok done → assignmentKey metadata workload.name = key → workloadHasBackgroundHealth workload = true →
        ∃ target, e.monitors (trimSpace node) = some target ∧ target.workload.health = workload.health
  | .dispatchStop _ node metadata workload, _ => Near key (assignmentKey metadata workload.name) (trimSpace node) d e
  | op, answer => LocalStep key svc.localNode d op answer e

theorem Ward.Step.local {key : String} {svc : Service} {d e : Ward} {answer : op.Answer}
    (taken : Ward.Step key svc d op answer e) : Ward.LocalStep key svc.localNode d op answer e := by
  cases op with
  | dispatchWorkload | dispatchStop => trivial
  | _ => exact taken

theorem World.localMachine_ward {α : Type} {key self : String} {w : World R} {p : Task α} {post : α → Ward → Prop}
    (filed : w.Filed) (ensured : Ensures (Ward.LocalStep key self) anything post p (w.ward key)) :
    Ensures (localMachine R self).Step anything (fun a u => post a (u.ward key) ∧ u.Filed) p w := by
  refine Ensures.invariant (fun filed _ ⟨_, taken⟩ => filed.performLocal taken) filed ?_
  refine ensured.simulate ?_
  rintro s op answer t ⟨filed, ⟨_, taken⟩, -⟩
  exact ward_performLocal filed taken

theorem World.ward_step {key : String} {svc : Service} {w u : World R} {answer : op.Answer} (filed : w.Filed)
    (taken : (machine R svc).Step w op answer u) : Ward.Step key svc (w.ward key) op answer (u.ward key) ∧ u.Filed := by
  obtain ⟨c, taken⟩ := step_iff.mp taken
  cases op with
  | dispatchWorkload ctx node metadata workload =>
    obtain ⟨-, reply, ⟨⟨near, watched⟩, later⟩, answered⟩ := executeWorker_keeps
      (fun reply u => (Ward.Near key (assignmentKey metadata workload.name) (trimSpace node) (w.ward key) (u.ward key) ∧
        ∀ value, reply = some (.ok value) → assignmentKey metadata workload.name = key →
          workloadHasBackgroundHealth workload = true →
            ∃ target, (u.ward key).monitors (trimSpace node) = some target ∧ target.workload.health = workload.health) ∧ u.Filed)
      (by
        rintro worker here before v ⟨⟨near, -⟩, filed⟩
        rw [← here] at near ⊢
        have served : Ensures (Ward.LocalStep key worker.localNode) anything _
            (deployWorkerWorkload worker {} metadata workload.decoded node) (v.ward key) := deployWorkerWorkload_ward near
        refine (localMachine_ward filed served).mono ?_
        rintro reply u ⟨⟨near, watched⟩, filed⟩
        refine ⟨⟨near, ?_⟩, filed⟩
        rintro value ⟨⟩ own background
        obtain ⟨target, found, same⟩ := watched value rfl own background
        exact ⟨target, found, by rw [same]; rfl⟩)
      ⟨⟨.refl .., nofun⟩, filed⟩ taken
    refine ⟨⟨near, ?_⟩, later⟩
    rintro done rfl
    obtain ⟨value, rfl, -, -⟩ := answered done rfl
    exact watched value rfl
  | dispatchStop ctx node metadata workload =>
    obtain ⟨-, reply, ⟨near, later⟩, -⟩ := executeWorker_keeps
      (fun _ u => Ward.Near key (assignmentKey metadata workload.name) (trimSpace node) (w.ward key) (u.ward key) ∧ u.Filed)
      (by
        rintro worker here before v ⟨near, filed⟩
        rw [← here] at near ⊢
        have served : Ensures (Ward.LocalStep key worker.localNode) anything _
            (stopWorkerWorkload worker {} metadata workload.decoded node) (v.ward key) := stopWorkerWorkload_ward near
        exact localMachine_ward filed served)
      ⟨.refl .., filed⟩ taken
    exact ⟨near, later⟩
  | _ =>
    rw [perform_eq_performLocal rfl] at taken
    exact ⟨ward_performLocal filed taken, filed.performLocal taken⟩

end Orch
