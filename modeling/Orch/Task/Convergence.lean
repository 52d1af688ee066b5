import Orch.Task.Marks
import Orch.Task.Redeploy

namespace Orch

open Effect

/-- Every call succeeds, every workload finds a node, and no wait is cut
short. -/
def TaskOp.unhindered (svc : Service) (op : TaskOp) (answer : op.Answer) : Bool :=
  op.succeeded answer &&
    match op, answer with
    | .choosePlacement workload, chosen => chosen.isOk || (preferredConfiguredNode svc workload).isSome
    | .sleep _ _, result => result.isOk
    | _, _ => true

variable {svc : Service}

theorem TaskOp.succeeded_of_unhindered {op : TaskOp} {answer : op.Answer} (good : op.unhindered svc answer = true) :
    op.succeeded answer = true := by
  simp only [unhindered, Bool.and_eq_true] at good
  exact good.1

def TaskOp.ended (svc : Service) : (op : TaskOp) → op.Answer → Option (String × WorkloadId)
  | .runtimeStop _ _ metadata name, .ok _ => some (svc.localNode, workloadId metadata name)
  | .dispatchStop _ node metadata workload, .ok _ => some (trimSpace node, workloadId metadata workload.name)
  | _, _ => none

def TaskOp.started : TaskOp → Option WorkloadId
  | .runtimeDeploy _ metadata workload => some (workloadId metadata workload.name)
  | .dispatchWorkload _ _ metadata workload => some (workloadId metadata workload.name)
  | _ => none

def TaskOp.restarts : TaskOp → Bool
  | .takeRestart _ _ => true
  | _ => false

def noteStop {σ : Type} (svc : Service) (stops : List (String × WorkloadId)) (event : Event TaskSig σ) :
    List (String × WorkloadId) :=
  match TaskOp.ended svc event.op event.answer with
  | some stop => stop :: stops
  | none => stops

/-- Where the workload has to be stopped before the document replaces it. -/
def stopDue (f : Ledger) (doc : App) (x : Workload) : Option String :=
  match f.getAssignment (assignmentKey doc.metadata x.name) with
  | none => none
  | some a =>
    if sameGeneration a (appGeneration doc) = false ∧ trimSpace a.node ≠ "" ∧ assignmentMayHaveRuntime a.status = true then
      some (trimSpace a.node)
    else none

def Ledger.Filed (f : Ledger) : Prop := ∀ key a, f.getAssignment key = some a → a.key = trimSpace key

theorem Ledger.Filed.update {f : Ledger} (filed : f.Filed) (command : Command) : (f.update command).Filed := by
  intro key a found
  rw [getAssignment, assignments_update] at found
  cases command with
  | upsertWorkloadAssignment assignment =>
    simp only [Command.assigns] at found
    split at found
    · exact filed key a found
    · rename_i b normalized
      by_cases own : trimSpace key = b.key
      · rw [own, AList.lookup_insert] at found
        cases found
        exact own.symm
      · rw [AList.lookup_insert_ne own] at found
        exact filed key a found
  | _ => exact filed key a found

/-- The workload may be started at this generation: nobody has stopped it,
and if it failed it has restarts left. -/
def Startable (f : Ledger) (m : Marks) (doc : App) (x : Workload) : Prop :=
  ∀ a, f.getAssignment (assignmentKey doc.metadata x.name) = some a → sameGeneration a (appGeneration doc) = true →
    a.status ≠ .stopped ∧ (a.status = .failed → restartPolicyForWorkload x ≠ .never ∧
      (workloadMaxRestarts x > 0 →
        m.attempts (restartAttemptKey a.key (appGeneration doc)) < workloadMaxRestarts x))

/-- The steps of a pass that meets no obstacle, with the stops so far. -/
abbrev Unhindered (svc : Service) : Steps TaskSig (Books × List (String × WorkloadId)) :=
  Noting (Assuming (Books.Step svc) (TaskOp.unhindered svc)) (noteStop svc)

/-- A workload is started only after the stop that was due for it. -/
def StopFirst (f : Ledger) (doc : App) (stops : List (String × WorkloadId)) (op : TaskOp) : Prop :=
  ∀ x ∈ doc.workloads, op.started = some (workloadId doc.metadata x.name) →
    ∀ node ∈ stopDue f doc x, (node, workloadId doc.metadata x.name) ∈ stops

/-- The books and the stops so far. -/
abbrev Account := Books × List (String × WorkloadId)

/-- What a program that meets no obstacle comes to, with its stops before its starts. -/
abbrev StopsFirst (svc : Service) (f : Ledger) (doc : App) {α : Type} (post : α → Account → Prop)
    (p : Task α) (s : Account) : Prop :=
  Ensures (Unhindered svc) (fun s op => StopFirst f doc s.2 op) post p s

/-- Nothing was recorded or counted in between. -/
abbrev Unmoved (s t : Account) : Prop :=
  t.1.view = s.1.view ∧ (∀ key, t.1.marks.attempts key = s.1.marks.attempts key) ∧ s.2 ⊆ t.2

theorem subset_noteStop {σ : Type} {stops : List (String × WorkloadId)} {event : Event TaskSig σ} :
    stops ⊆ noteStop svc stops event := by
  unfold noteStop
  split
  · exact List.subset_cons_self _ _
  · exact List.Subset.refl _

/-- A program that counts no restart and starts nothing but the one workload. -/
abbrev Calm {α : Type} (svc : Service) (startable : Option WorkloadId) (p : Task α) : Prop :=
  Heeds (fun (op : TaskOp) answer => op.unhindered svc answer = true)
    (fun op : TaskOp => op.restarts = false ∧ ∀ id ∈ op.started, some id = startable) (fun _ => True) p

theorem Marks.Step.attempts {m k : Marks} {op : TaskOp} {answer : op.Answer} (taken : Marks.Step m op answer k)
    (other : op.restarts = false) (key : String) : k.attempts key = m.attempts key := by
  cases op with
  | takeRestart => cases other
  | markAutoRollbackAttempt marked =>
    simp only [Step] at taken
    split at taken <;> rw [taken.2]
    rfl
  | suppressAutoRollback =>
    cases taken
    rfl
  | _ => rw [taken.unmarked rfl]

variable {node : String}

section Calm

variable {svc : Service} {f : Ledger} {doc : App} {x : Workload} {ctx : Ctx}

variable {α : Type} {startable : Option WorkloadId} {stops : List (String × WorkloadId)}

theorem Calm.ensures {p : Task α} {post : α → Scene → Prop} {b : Books} (calm : Calm svc startable p)
    (ready : ∀ later op, stops ⊆ later → (∀ id ∈ op.started, some id = startable) → StopFirst f doc later op)
    (ensured : Ensures (Assuming (View.Step svc) (TaskOp.unhindered svc)) anything post p b.view) :
    StopsFirst svc f doc
      (fun a s => post a s.1.view ∧ (∀ key, s.1.marks.attempts key = b.marks.attempts key) ∧ stops ⊆ s.2) p (b, stops) := by
  induction p generalizing b stops with
  | pure value => exact ⟨ensured, fun _ => rfl, List.Subset.refl _⟩
  | call op next ih =>
    refine ⟨ready _ op (List.Subset.refl _) calm.1.2, ?_⟩
    rintro answer ⟨c, later⟩ ⟨⟨⟨seen, marked⟩, good⟩, noted⟩
    dsimp only at noted seen marked
    have grown : stops ⊆ later := noted ▸ subset_noteStop
    refine (ih answer (calm.2 answer () good) (fun more op further => ready more op (List.Subset.trans grown further))
      (ensured.2 answer _ ⟨seen, good⟩)).mono ?_
    rintro a t ⟨after, counted, further⟩
    exact ⟨after, fun key => (counted key).trans (marked.attempts calm.1.1 key), List.Subset.trans grown further⟩

variable {op : TaskOp}

theorem StopFirst.other (none : op.started = none) :
    StopFirst f doc stops op := by
  intro x _ started
  rw [none] at started
  cases started

theorem Calm.idle {p : Task α} {b : Books} {good : α → Prop} (calm : Calm svc none p)
    (ensured : Ensures (Assuming (View.Step svc) (TaskOp.unhindered svc)) anything (fun a v => good a ∧ v = b.view) p b.view) :
    StopsFirst svc f doc (fun a s => good a ∧ Unmoved (b, stops) s) p (b, stops) := by
  refine (calm.ensures ?_ ensured).mono ?_
  · intro later op _ none
    refine StopFirst.other (Option.eq_none_iff_forall_not_mem.mpr ?_)
    intro id started
    cases none id started
  · rintro a s ⟨⟨holds, same⟩, counted, grown⟩
    exact ⟨holds, same, counted, grown⟩

theorem calm_ask (other : op.restarts = false) (none : op.started = none) :
    Calm svc startable (ask op) := by
  refine heeds_asked ⟨other, ?_⟩
  rw [none]
  exact fun _ impossible => nomatch impossible

theorem Idle.calm {p : Task α} (idle : Idle p) : Calm svc startable p := by
  refine Program.Asks.ensures idle ?_
  intro _ op plain
  cases op with
  | takeRestart | runtimeDeploy | dispatchWorkload => cases plain
  | _ => exact ⟨rfl, nofun⟩

theorem calm_of_records {p : Task α} (records : p.Asks fun op : TaskOp => op.records = true) :
    Calm svc startable p := by
  refine records.ensures ?_
  intro _ op kept
  cases op with
  | apply => exact ⟨rfl, nofun⟩
  | _ => cases kept

variable {metadata : Metadata}

theorem stopWorkloadHealthMonitor_calm {name : String} :
    Calm svc startable (stopWorkloadHealthMonitor metadata name) := by
  unfold stopWorkloadHealthMonitor
  split
  · trivial
  · exact calm_ask rfl rfl

/-- The programs that are calm and end well, as nothing hinders them. -/
abbrev Calmly {α : Type} (svc : Service) (startable : Option WorkloadId) (post : α → Prop) (p : Task α) : Prop :=
  Heeds (fun (op : TaskOp) answer => op.unhindered svc answer = true)
    (fun op : TaskOp => op.restarts = false ∧ ∀ id ∈ op.started, some id = startable) post p

theorem calmly_ask (other : op.restarts = false) (none : op.started = none) :
    Calmly svc startable (fun answer => op.unhindered svc answer = true) (ask op) := by
  refine heeds_ask ⟨other, ?_⟩ fun _ good => good
  rw [none]
  exact fun _ impossible => nomatch impossible

theorem calmly_start {id : WorkloadId} (other : op.restarts = false) (starts : op.started = some id) :
    Calmly svc (some id) (fun answer => op.succeeded answer = true) (ask op) :=
  heeds_ask ⟨other, fun _ same => same.symm.trans starts⟩ fun _ good => TaskOp.succeeded_of_unhindered good

theorem runLocalWorkload_calmly :
    Calmly svc (some (workloadId metadata x.name)) (fun result => ∃ ran, result = .ok ran)
      (runLocalWorkload ctx metadata x node) := by
  have deploys : Calmly svc (some (workloadId metadata x.name)) (fun result => result = .ok ())
      (deployLocalWorkload ctx metadata x node) := by
    refine heeds_bind (calmly_start rfl rfl) ?_
    rintro (err | _) good
    · cases good
    · exact heeds_then (calm_ask rfl rfl) fun _ => ensures_pure.mpr rfl
  have waits (address : String) : Calmly svc (some (workloadId metadata x.name)) (fun result => result = .ok ())
      (waitWorkloadReadiness ctx metadata x address) := by
    unfold waitWorkloadReadiness
    split
    · exact ensures_pure.mpr rfl
    · refine (calmly_ask rfl rfl).mono ?_
      intro result _ good
      exact Check.isOk_iff.mp (TaskOp.succeeded_of_unhindered good)
  have looks : Calm svc (some (workloadId metadata x.name)) (localWorkloadAddress metadata x.name) :=
    heeds_then (calm_ask rfl rfl) fun _ => trivial
  refine heeds_bind deploys ?_
  rintro _ rfl
  refine heeds_then looks fun address => heeds_bind (waits address) ?_
  rintro _ rfl
  exact ensures_pure.mpr ⟨_, rfl⟩

theorem runChosen_calmly (available : svc.dispatcher = true) :
    Calmly svc (some (workloadId metadata x.name)) (fun result => ∃ ran, result = .ok ran)
      (runChosen svc ctx metadata x node) := by
  unfold runChosen
  split
  · rw [dispatchWorkload, if_neg (by simp [available])]
    refine heeds_bind (calmly_start rfl rfl) ?_
    rintro (err | reply) good
    · cases good
    · exact ensures_pure.mpr ⟨_, rfl⟩
  · exact runLocalWorkload_calmly

theorem placeWorkload_calm {generation : String} (available : svc.dispatcher = true) :
    Calm svc (some (workloadId doc.metadata x.name)) (placeWorkload svc ctx doc x generation) := by
  have chooses : Calmly svc (some (workloadId doc.metadata x.name)) (fun result => ∃ node, result = .ok node)
      (chooseWorkloadNode svc x) := by
    refine heeds_bind (calmly_ask rfl rfl) ?_
    rintro (err | node) good
    · obtain ⟨fallback, preferred⟩ := Option.isSome_iff_exists.mp good
      rw [preferred]
      exact ensures_pure.mpr ⟨_, rfl⟩
    · exact ensures_pure.mpr ⟨_, rfl⟩
  refine heeds_bind chooses ?_
  rintro _ ⟨node, rfl⟩
  refine heeds_then (calm_of_records applyWorkloadAssignment_records) fun _ => ?_
  have ran : Calmly svc (some (workloadId doc.metadata x.name)) (fun result => ∃ ran, result = .ok ran)
    (runChosen svc ctx doc.metadata x node) := runChosen_calmly available
  rw [runChosen] at ran
  split
  · rename_i remote
    rw [if_pos remote] at ran
    refine heeds_bind ran ?_
    rintro _ ⟨result, rfl⟩
    exact heeds_then (calm_ask rfl rfl) fun _ => heeds_then (calm_of_records recordWorkload_records) fun _ => trivial
  · rename_i here
    rw [if_neg here] at ran
    refine heeds_bind ran ?_
    rintro _ ⟨result, rfl⟩
    refine heeds_then (calm_of_records recordWorkload_records) fun _ => heeds_then ?_ fun _ => trivial
    simp only [startLocalWorkloadHealthMonitor]
    split
    · trivial
    · exact heeds_then (calm_ask rfl rfl) fun _ => trivial

end Calm

section Workloads

variable {svc : Service} {f : Ledger} {doc : App} {x : Workload} {ctx : Ctx}

variable {v : Scene}

theorem View.unhindered_ok {u : Scene} {ctx : Ctx} {command : Command} {result : Check}
    (taken : Assuming (View.Step svc) (TaskOp.unhindered svc) v (.apply ctx command) result u) : result = .ok () :=
  Check.isOk_iff.mp (TaskOp.succeeded_of_unhindered taken.2)

/-- The workload was run, and nothing has been recorded about it. -/
def RanWell (v : Scene) (_node : String) (result : Except Failure WorkloadRunResult)
    (u : Scene) : Prop :=
  u.fsm = v.fsm ∧ ∃ ran, result = .ok ran ∧ ran.status = .running

variable (valid : doc.validate svc.sorter = .ok ()) (available : svc.dispatcher = true) (member : x ∈ doc.workloads)
include valid available member

omit valid member in
theorem runChosen_runs {metadata : Metadata} :
    Ensures (Assuming (View.Step svc) (TaskOp.unhindered svc)) anything (RanWell v node)
      (runChosen svc ctx metadata x node) v := by
  refine (runChosen_ensures (fun taken => taken.1) (fun _ _ _ => trivial)
    (fun (_ : True) {_ _ _ _} taken => TaskOp.succeeded_of_unhindered taken.2) (fun _ => trivial) (fun _ => trivial)
    (fun _ _ => trivial)).mono ?_
  rintro result last ⟨run, prompt⟩
  obtain ⟨ran, rfl⟩ := prompt trivial available
  obtain ⟨value, rfl, -, started⟩ := run
  exact ⟨rfl, ran, rfl, (started ran rfl).2⟩

theorem placeWorkload_runs :
    Ensures (Assuming (View.Step svc) (TaskOp.unhindered svc)) anything
      (fun result u => result = .ok () ∧ RunningNow u.fsm doc x ∧
        ∀ name, trimSpace name ≠ x.key →
          (u.fsm.recordsOf doc.metadata).assigned name = (v.fsm.recordsOf doc.metadata).assigned name)
      (placeWorkload svc ctx doc x (appGeneration doc)) v := by
  have named := App.validate_name valid
  have present := App.validate_present valid member
  refine placeWorkload_ensures (fun taken => taken.1.local) (fun _ _ _ => trivial) (fun _ _ _ => trivial)
    View.unhindered_ok named present (fun node _ => runChosen_runs available) ?_ ?_ ?_
  · rintro err t ⟨cause, taken, nowhere⟩ -
    have good := taken.2
    simp [TaskOp.unhindered, nowhere, Except.isOk, Except.toBool] at good
  · rintro cause node t last - ⟨-, _, bad, -⟩ -
    cases bad
  · rintro result node t - ⟨same, _, ⟨⟩, running⟩
    refine ⟨rfl, ?_, ?_⟩
    · refine ⟨_, View.record_getAssignment (trimSpace_assignmentKey ..), running, ?_⟩
      simp [sameGeneration, assignmentRecord]
    · intro name other
      rw [assigned_record named present, if_neg other, same, assignedRecord, assigned_record named present, if_neg other]

variable {s : Account}

omit valid member in
theorem stopWorkloadOnNode_noted {metadata : Metadata} (clean : trimSpace node = node) (placed : node ≠ "") :
    StopsFirst svc f doc (fun result t => result = .ok () ∧ t.1.view.fsm = s.1.view.fsm ∧
        (∀ key, t.1.marks.attempts key = s.1.marks.attempts key) ∧ (node, workloadId metadata x.name) ∈ t.2 ∧ s.2 ⊆ t.2)
      (stopWorkloadOnNode svc ctx metadata x node) s := by
  have forgets (t : Account) : StopsFirst svc f doc (fun _ s => True ∧ Unmoved t s) (deleteRecord x.name) t :=
    deleteRecord_idle.calm.idle (deleteRecord_ensures (fun taken => taken.1.local) (fun _ _ _ => trivial) ⟨trivial, rfl⟩)
  have unwatches (t : Account) : StopsFirst svc f doc (fun _ s => True ∧ Unmoved t s)
      (stopWorkloadHealthMonitor metadata x.name) t :=
    stopWorkloadHealthMonitor_calm.idle (stopWorkloadHealthMonitor_ensures (fun taken => taken.1.local)
      (fun _ _ _ => trivial) ⟨trivial, rfl⟩)
  unfold stopWorkloadOnNode
  rw [clean, StopsFirst]
  by_cases remote : node ≠ svc.localNode
  · rw [if_pos ⟨placed, remote⟩, stopRemoteWorkload, if_neg (by simp [available]), ensures_bind]
    refine ensures_ask (StopFirst.other rfl) ?_
    rintro (err | reply) ⟨c, stops⟩ ⟨⟨⟨seen, marked⟩, good⟩, noted⟩
    · cases TaskOp.succeeded_of_unhindered good
    · obtain ⟨value, same, -⟩ := seen
      dsimp only [noteStop, TaskOp.ended] at noted same marked
      refine (forgets _).bind ?_
      rintro _ t ⟨-, view, counted, grown⟩
      refine ⟨rfl, by rw [view, same]; rfl, fun key => (counted key).trans (marked.attempts rfl key), grown ?_, ?_⟩
      · rw [noted, clean]
        exact List.mem_cons_self
      · rw [noted] at grown
        exact List.Subset.trans (List.subset_cons_self _ _) grown
  · rw [if_neg (by simpa using fun _ => not_not.mp remote), stopLocalWorkload, ensures_bind]
    rw [ne_eq, not_not] at remote
    subst remote
    refine (unwatches s).mono ?_
    rintro _ u ⟨-, quiet, counted, grown⟩
    refine ⟨StopFirst.other rfl, ?_⟩
    rintro (err | _) ⟨c, stops⟩ ⟨⟨⟨seen, marked⟩, good⟩, noted⟩
    · cases TaskOp.succeeded_of_unhindered good
    · obtain ⟨value, same, -⟩ := (View.Step.local seen).stop
      dsimp only [noteStop, TaskOp.ended] at noted same marked
      refine (forgets _).bind ?_
      rintro _ t ⟨-, view, later, further⟩
      refine ⟨rfl, by rw [view, same, quiet]; rfl,
        fun key => (later key).trans ((marked.attempts rfl key).trans (counted key)), further ?_, ?_⟩
      · rw [noted]
        exact List.mem_cons_self
      · rw [noted] at further
        exact List.Subset.trans grown (List.Subset.trans (List.subset_cons_self _ _) further)

omit valid available member in
theorem waitWorkloadRestartDelay_waits {b : Books} {stops : List (String × WorkloadId)} :
    StopsFirst svc f doc (fun waited t => waited = true ∧ Unmoved (b, stops) t)
      (waitWorkloadRestartDelay ctx x) (b, stops) := by
  refine waitWorkloadRestartDelay_idle.calm.idle ?_
  rw [waitWorkloadRestartDelay_eq]
  cases x.restartPause with
  | none => exact ⟨rfl, rfl⟩
  | some pause =>
    refine ⟨trivial, ?_⟩
    rintro (err | _) u ⟨taken, good⟩
    · simp [TaskOp.unhindered, Except.isOk, Except.toBool] at good
    · exact ⟨rfl, taken⟩

/-- What deploying a workload without obstacles has done: it runs, what was
due before has been stopped, and nothing else has changed. -/
structure Advanced (f : Ledger) (doc : App) (x : Workload) (s t : Books × List (String × WorkloadId)) : Prop where
  running : RunningNow t.1.view.fsm doc x
  others : ∀ name, trimSpace name ≠ x.key →
    (t.1.view.fsm.recordsOf doc.metadata).assigned name = (s.1.view.fsm.recordsOf doc.metadata).assigned name
  counted : ∀ key, key ≠ restartAttemptKey (assignmentKey doc.metadata x.name) (appGeneration doc) →
    t.1.marks.attempts key = s.1.marks.attempts key
  grown : s.2 ⊆ t.2
  stopped : ∀ node ∈ stopDue f doc x, (node, workloadId doc.metadata x.name) ∈ t.2

/-- Nothing has been recorded yet, and no restart counted but the own one. -/
structure Waiting (doc : App) (x : Workload) (s t : Books × List (String × WorkloadId)) : Prop where
  same : t.1.view.fsm = s.1.view.fsm
  counted : ∀ key, key ≠ restartAttemptKey (assignmentKey doc.metadata x.name) (appGeneration doc) →
    t.1.marks.attempts key = s.1.marks.attempts key
  grown : s.2 ⊆ t.2

variable {t : Account}

omit valid available member in
theorem Waiting.trans {u : Account} (first : Waiting doc x s t) (second : Waiting doc x t u) : Waiting doc x s u :=
  ⟨second.same.trans first.same, fun key apart => (second.counted key apart).trans (first.counted key apart),
    List.Subset.trans first.grown second.grown⟩

omit valid available member in
theorem Waiting.of_idle (idle : Unmoved s t) : Waiting doc x s t :=
  ⟨by rw [idle.1], fun key _ => idle.2.1 key, idle.2.2⟩

theorem placeWorkload_advances (waiting : Waiting doc x s t)
    (stopped : ∀ node ∈ stopDue f doc x, (node, workloadId doc.metadata x.name) ∈ t.2) :
    StopsFirst svc f doc
      (fun result u => result = .ok () ∧ Advanced f doc x s u) (placeWorkload svc ctx doc x (appGeneration doc)) t := by
  refine ((placeWorkload_calm available).ensures ?_ (placeWorkload_runs valid available member)).mono ?_
  · intro later op more own y inside started node due
    obtain ⟨order, ordered⟩ := App.validate_ordered valid
    have separate := (App.workloadsInDependencyOrder_ok ordered).2.1
    have mine : workloadId doc.metadata y.name = workloadId doc.metadata x.name := Option.some.inj (own _ started)
    obtain rfl := List.inj_on_of_nodup_map separate inside member (congrArg WorkloadId.workload mine)
    exact more (stopped node due)
  · rintro result u ⟨⟨rfl, running, others⟩, unchanged, more⟩
    refine ⟨rfl, running, ?_, fun key apart => (unchanged key).trans (waiting.counted key apart),
      List.Subset.trans waiting.grown more, fun node due => more (stopped node due)⟩
    intro name apart
    rw [others name apart, waiting.same]

omit valid available member in
theorem canRetryFailedAssignment_granted {a : Assignment} (own : a.key = assignmentKey doc.metadata x.name)
    (budget : failedAssignmentSameGeneration a (appGeneration doc) = true → restartPolicyForWorkload x ≠ .never ∧
      (workloadMaxRestarts x > 0 →
        s.1.marks.attempts (restartAttemptKey a.key (appGeneration doc)) < workloadMaxRestarts x)) :
    StopsFirst svc f doc (fun granted t => granted = true ∧ Waiting doc x s t)
      (canRetryFailedAssignment x a (appGeneration doc)) s := by
  unfold canRetryFailedAssignment
  split
  · exact ⟨rfl, rfl, fun _ _ => rfl, List.Subset.refl _⟩
  rename_i failed
  obtain ⟨policy, left⟩ := budget (by simpa using failed)
  rw [allowWorkloadRestart, if_neg policy]
  refine ⟨StopFirst.other rfl, ?_⟩
  rintro granted ⟨c, stops⟩ ⟨⟨⟨seen, marked⟩, -⟩, noted⟩
  dsimp only [noteStop, TaskOp.ended] at noted
  simp only [Marks.Step] at marked
  split at marked
  · rename_i exhausted
    have := left exhausted.1
    omega
  · obtain ⟨rfl, after⟩ := marked
    refine ⟨rfl, by rw [show c.view = s.1.view from seen], ?_, by rw [noted]; exact List.Subset.refl _⟩
    intro key apart
    dsimp only
    rw [after, Marks.attempts_insert, if_neg (own ▸ apart)]

omit valid member in
/-- What is due has been stopped before the workload is placed. -/
theorem stopPreviousGeneration_advances {a : Assignment}
    (found : f.getAssignment (assignmentKey doc.metadata x.name) = some a) (waiting : Waiting doc x s t) :
    StopsFirst svc f doc (fun result u => result = .ok () ∧ Waiting doc x s u ∧
      ∀ node ∈ stopDue f doc x, (node, workloadId doc.metadata x.name) ∈ u.2)
      (stopPreviousGeneration svc ctx doc.metadata x a (appGeneration doc)) t := by
  simp only [stopPreviousGeneration, stopDue, found]
  by_cases same : sameGeneration a (appGeneration doc) = true
  · rw [if_pos same]
    exact ⟨rfl, waiting, by simp [same]⟩
  rw [if_neg same]
  by_cases inert : trimSpace a.node = "" ∨ (!assignmentMayHaveRuntime a.status) = true
  · rw [if_pos inert]
    refine ⟨rfl, waiting, fun node due => ?_⟩
    rcases inert with blank | gone
    · simp [blank] at due
    · rw [Bool.not_eq_true'] at gone
      simp [gone] at due
  rw [if_neg inert]
  simp only [not_or, Bool.not_eq_true', Bool.not_eq_false] at inert
  refine (stopWorkloadOnNode_noted available (trimSpace_trimSpace a.node) inert.1).mono ?_
  rintro _ last ⟨rfl, quiet, unchanged, ended, more⟩
  refine ⟨rfl, waiting.trans ⟨quiet, fun key _ => unchanged key, more⟩, ?_⟩
  simpa [same, inert.1, inert.2] using ended

/-- A workload that may be started is running in the end. -/
theorem deployOneWorkload_advances (filed : f.Filed)
    (before : s.1.view.fsm.getAssignment (assignmentKey doc.metadata x.name) = f.getAssignment (assignmentKey doc.metadata x.name))
    (startable : Startable f s.1.marks doc x) :
    StopsFirst svc f doc (fun result t => result = .ok () ∧ Advanced f doc x s t)
      (deployOneWorkload svc ctx doc (appGeneration doc) {} x) s := by
  have deadline : StopsFirst svc f doc (fun _ t => True ∧ Unmoved s t) (withRolloutProgressDeadline ctx x) s :=
    withRolloutProgressDeadline_reads.idle.calm.idle (Tame.ensures (fun taken => taken.1.local) (fun _ _ _ => trivial)
      withRolloutProgressDeadline_reads.tame fun _ => ⟨trivial, rfl⟩)
  refine deadline.bind ?_
  rintro ctx t ⟨-, same, counted, grown⟩
  refine ⟨StopFirst.other rfl, ?_⟩
  rintro found ⟨c, stops⟩ ⟨⟨⟨⟨read, seen⟩, marked⟩, -⟩, noted⟩
  dsimp only [noteStop, TaskOp.ended] at noted seen marked
  have waiting : Waiting doc x s (c, stops) := by
    refine Waiting.of_idle ⟨seen.trans same, fun key => ?_, by rw [noted]; exact grown⟩
    rw [show c.marks = t.1.marks from marked]
    exact counted key
  rw [same, before] at read
  cases found with
  | none =>
    refine placeWorkload_advances valid available member waiting ?_
    intro node due
    simp [stopDue, ← read] at due
  | some a =>
    have own : a.key = assignmentKey doc.metadata x.name := by
      rw [filed _ a read.symm, trimSpace_assignmentKey]
    have allowed := startable a read.symm
    change Ensures _ _ _ (handleExistingAssignment svc ctx doc x a (appGeneration doc) {} >>= _) _
    rw [ensures_bind, handleExistingAssignment]
    by_cases converged : workloadAssignmentConverged a (appGeneration doc) = true
    · rw [if_pos converged]
      simp only [workloadAssignmentConverged, Bool.and_eq_true, decide_eq_true_eq] at converged
      refine ⟨rfl, ⟨a, ?_, converged.2, converged.1⟩, fun name _ => ?_, waiting.counted, waiting.grown, ?_⟩
      · rw [waiting.same, before, ← read]
      · rw [waiting.same]
      · intro node due
        simp [stopDue, ← read, converged.1] at due
    rw [if_neg converged]
    have wanted : shouldSkipStoppedAssignment a (appGeneration doc) {} = false := by
      by_contra skipped
      simp only [shouldSkipStoppedAssignment, Bool.not_false, Bool.true_and, Bool.not_eq_false, Bool.and_eq_true,
        decide_eq_true_eq] at skipped
      exact (allowed skipped.1).1 skipped.2
    rw [if_neg (by simp [wanted])]
    refine (canRetryFailedAssignment_granted own ?_).bind ?_
    · intro failed
      simp only [failedAssignmentSameGeneration, Bool.and_eq_true, decide_eq_true_eq] at failed
      obtain ⟨policy, left⟩ := (allowed failed.1).2 failed.2
      refine ⟨policy, fun bounded => ?_⟩
      rw [show c.marks = t.1.marks from marked, counted]
      exact left bounded
    rintro _ u ⟨rfl, retrying⟩
    have delay : StopsFirst svc f doc
        (fun waited v => waited = true ∧ Waiting doc x s v) (waitRetryDelay ctx x a (appGeneration doc)) u := by
      unfold waitRetryDelay
      split
      · refine waitWorkloadRestartDelay_waits.mono ?_
        rintro _ v ⟨rfl, idle⟩
        exact ⟨rfl, (waiting.trans retrying).trans (.of_idle idle)⟩
      · exact ⟨rfl, waiting.trans retrying⟩
    refine delay.bind ?_
    rintro _ v ⟨rfl, delayed⟩
    refine (stopPreviousGeneration_advances available read.symm delayed).bind ?_
    rintro _ last ⟨rfl, waited, stopped⟩
    exact placeWorkload_advances valid available member waited stopped

omit valid available member in
theorem refreshLocal_calm : Calm svc none (refreshLocal svc ctx) := by
  unfold refreshLocal
  refine heeds_then (calm_ask rfl rfl) ?_
  rintro (err | report)
  · trivial
  refine heeds_then (calm_ask rfl rfl) ?_
  rintro (_ | _)
  · trivial
  refine heeds_then (calm_ask rfl rfl) ?_
  rintro (err | _) <;> trivial

omit available member in
theorem restartAttemptKey_ne {y : Workload} (member : x ∈ doc.workloads) (inside : y ∈ doc.workloads) (apart : y.key ≠ x.key) :
    restartAttemptKey (assignmentKey doc.metadata y.name) (appGeneration doc) ≠
      restartAttemptKey (assignmentKey doc.metadata x.name) (appGeneration doc) := by
  intro same
  simp only [restartAttemptKey, trimSpace_assignmentKey, String.append_left_inj] at same
  exact assignmentKey_ne (App.validate_name valid) (App.validate_present valid inside) (App.validate_present valid member)
    apart same

omit member in
theorem deployAppWorkloads_advances (filed : s.1.view.fsm.Filed)
    (startable : ∀ x ∈ doc.workloads, Startable s.1.view.fsm s.1.marks doc x) :
    Ensures (Unhindered svc) (fun t op => StopFirst s.1.view.fsm doc t.2 op)
      (fun result t => result = .ok () ∧ ∀ x ∈ doc.workloads, RunningNow t.1.view.fsm doc x ∧
        ∀ node ∈ stopDue s.1.view.fsm doc x, (node, workloadId doc.metadata x.name) ∈ t.2)
      (deployAppWorkloads svc ctx doc) s := by
  have refreshes : Ensures (Assuming (View.Step svc) (TaskOp.unhindered svc)) anything
      (fun _ v => v.fsm.assignments = s.1.view.fsm.assignments) (refreshLocal svc ctx) s.1.view :=
    refreshLocal_ensures (fun taken => taken.1.local) (fun _ _ _ => trivial) (fun _ _ _ => trivial)
      View.unhindered_ok fun _ _ => rfl
  obtain ⟨workloads, ordered⟩ := App.validate_ordered valid
  obtain ⟨permuted, separate, -⟩ := App.workloadsInDependencyOrder_ok ordered
  have members {y : Workload} : y ∈ workloads ↔ y ∈ doc.workloads := permuted.mem_iff
  have distinct : (workloads.map Workload.key).Nodup := (permuted.map _).nodup_iff.mpr separate
  rw [deployAppWorkloads, deployAppWorkloadsWithOptions, ensures_bind, prepareDeploy, valid]
  dsimp only
  refine (refreshLocal_calm.ensures ?_ refreshes).bind ?_
  · intro later op _ none
    refine StopFirst.other (Option.eq_none_iff_forall_not_mem.mpr ?_)
    intro id started
    cases none id started
  rintro _ t ⟨seen, counted, -⟩
  rw [ordered]
  -- The workloads to come are as they were, all others have advanced.
  refine ensures_eachUntil (fun rest u => (rest.map Workload.key).Nodup ∧
    (∀ y ∈ rest, y ∈ doc.workloads ∧
      (u.1.view.fsm.recordsOf doc.metadata).assigned y.name = (s.1.view.fsm.recordsOf doc.metadata).assigned y.name ∧
      u.1.marks.attempts (restartAttemptKey (assignmentKey doc.metadata y.name) (appGeneration doc)) =
        s.1.marks.attempts (restartAttemptKey (assignmentKey doc.metadata y.name) (appGeneration doc))) ∧
    ∀ y ∈ doc.workloads, y ∈ rest ∨ RunningNow u.1.view.fsm doc y ∧
      ∀ node ∈ stopDue s.1.view.fsm doc y, (node, workloadId doc.metadata y.name) ∈ u.2) ?_ ?_
    ⟨distinct, fun y inside => ⟨members.mp inside, by simp only [Ledger.recordsOf, Ledger.getAssignment, seen],
      counted _⟩, fun y inside => .inl (members.mpr inside)⟩
  · rintro u ⟨-, -, advanced⟩
    exact ⟨rfl, fun y inside => (advanced y inside).resolve_left (by simp)⟩
  rintro y rest u ⟨distinct, waiting, advanced⟩
  rw [List.map_cons, List.nodup_cons] at distinct
  obtain ⟨inside, same, counted⟩ := waiting y (by simp)
  have budget : Startable s.1.view.fsm u.1.marks doc y := by
    intro a found
    have allowed := startable y inside a found
    rw [filed _ a found, trimSpace_assignmentKey] at allowed ⊢
    rwa [counted]
  refine (deployOneWorkload_advances valid available inside filed same budget).mono ?_
  rintro result v ⟨rfl, here⟩
  refine ⟨distinct.2, ?_, ?_⟩
  · intro z later
    obtain ⟨member, unchanged, uncounted⟩ := waiting z (List.mem_cons_of_mem _ later)
    have apart : z.key ≠ y.key := fun clash => distinct.1 (clash ▸ List.mem_map_of_mem later)
    exact ⟨member, (here.others z.name apart).trans unchanged,
      (here.counted _ (restartAttemptKey_ne valid inside member apart)).trans uncounted⟩
  · intro z member
    by_cases this : z.key = y.key
    · rw [List.inj_on_of_nodup_map separate member inside this]
      exact .inr ⟨here.running, here.stopped⟩
    rcases advanced z member with coming | ⟨⟨a, found, running⟩, stopped⟩
    · rcases List.mem_cons.mp coming with rfl | later
      · exact absurd rfl this
      · exact .inl later
    · exact .inr ⟨⟨a, (here.others z.name this).trans found, running⟩, fun node due => here.grown (stopped node due)⟩

end Workloads

/-- The actions of a pass that finds everything as it should be: it may report
its own capacity, and changes nothing else. -/
def TaskOp.rests : TaskOp → Bool
  | .runtimeDeploy _ _ _ | .runtimeStop _ _ _ _ | .dispatchWorkload _ _ _ _ | .dispatchStop _ _ _ _ => false
  | .apply _ (.upsertNodeCapacity _) => true
  | .apply _ _ => false
  | _ => true

section Rest

variable {svc : Service} {doc : App} {ctx : Ctx}

theorem TaskOp.rests_of_quiet {op : TaskOp} (quiet : op.quiet = true) : op.rests = true := by
  cases op with
  | apply | runtimeDeploy | runtimeStop | dispatchWorkload | dispatchStop => cases quiet
  | _ => rfl

variable {v : Scene}

theorem refreshLocal_rests :
    Ensures (View.Step svc) (fun _ op => op.rests = true) (fun _ u => u.fsm.assignments = v.fsm.assignments)
      (refreshLocal svc ctx) v := by
  have free (_ : Scene) (op : TaskOp) (quiet : op.quiet = true) := TaskOp.rests_of_quiet quiet
  rw [refreshLocal, ensures_bind]
  refine ensures_ask_quiet (fun taken => taken.local) free rfl ?_
  rintro (err | report) -
  · rfl
  rw [ensures_bind]
  refine ensures_ask_quiet (fun taken => taken.local) free rfl ?_
  rintro (_ | _) -
  · rfl
  rw [ensures_bind]
  have kept (node : Snapshot) : (v.fsm.update (.upsertNodeCapacity node)).assignments = v.fsm.assignments := by
    simp only [Ledger.update, Ledger.applyNodeCapacity]
    split <;> rfl
  refine ensures_ask rfl ?_
  rintro (err | _) u taken <;> rcases taken with ⟨-, rfl⟩ | ⟨-, rfl | rfl⟩ <;> first | exact kept _ | rfl

theorem deployOneWorkload_rests {opts : DeployOptions} {y : Workload} (running : RunningNow v.fsm doc y) :
    Ensures (View.Step svc) (fun _ op => op.rests = true) (fun result u => result = .ok () ∧ u = v)
      (deployOneWorkload svc ctx doc (appGeneration doc) opts y) v := by
  have free (_ : Scene) (op : TaskOp) (quiet : op.quiet = true) := TaskOp.rests_of_quiet quiet
  obtain ⟨a, found, status, current⟩ := running
  rw [deployOneWorkload, ensures_bind]
  refine Tame.ensures (fun taken => taken.local) free withRolloutProgressDeadline_reads.tame fun ctx => ?_
  rw [ensures_bind]
  refine workloadAssignment_ensures (fun taken => taken.local) free ?_
  rw [found]
  dsimp only
  rw [ensures_bind, handleExistingAssignment, if_pos (by simp [workloadAssignmentConverged, status, current])]
  exact ⟨rfl, rfl⟩

theorem deployAppWorkloads_rests (running : ∀ x ∈ doc.workloads, RunningNow v.fsm doc x) :
    Ensures (View.Step svc) (fun _ op => op.rests = true) anything (deployAppWorkloads svc ctx doc) v := by
  rw [deployAppWorkloads, deployAppWorkloadsWithOptions, ensures_bind, prepareDeploy]
  split
  · trivial
  refine refreshLocal_rests.bind ?_
  intro _ u seen
  split
  · trivial
  rename_i workloads ordered
  have members {y : Workload} (inside : y ∈ workloads) : y ∈ doc.workloads :=
    (App.workloadsInDependencyOrder_ok ordered).1.mem_iff.mp inside
  refine ensures_eachUntil (fun rest t => t.fsm.assignments = v.fsm.assignments ∧ ∀ y ∈ rest, y ∈ doc.workloads)
    (fun _ _ => trivial) ?_ ⟨seen, fun y inside => members inside⟩
  rintro y rest t ⟨same, inside⟩
  have here : RunningNow t.fsm doc y := by
    obtain ⟨a, found, current⟩ := running y (inside y (by simp))
    exact ⟨a, by rw [Ledger.getAssignment, same]; exact found, current⟩
  refine (deployOneWorkload_rests here).mono ?_
  rintro _ u ⟨rfl, rfl⟩
  exact ⟨same, fun z later => inside z (List.mem_cons_of_mem _ later)⟩

end Rest

/-- Each workload that was live in another generation on some node is stopped
there, before it is started anew. -/
def StoppedBeforeStart (svc : Service) (doc : App) (f : Ledger) (trace : List (Event TaskSig (World instanceRuntime))) : Prop :=
  ∀ x ∈ doc.workloads, ∀ node ∈ stopDue f doc x,
    (∃ event ∈ trace, TaskOp.ended svc event.op event.answer = some (node, workloadId doc.metadata x.name)) ∧
    ∀ before event after, trace = before ++ event :: after →
      TaskOp.started event.op = some (workloadId doc.metadata x.name) →
        ∃ earlier ∈ before, TaskOp.ended svc earlier.op earlier.answer = some (node, workloadId doc.metadata x.name)

theorem noted_stop {σ : Type} {stop : String × WorkloadId} {trace : List (Event TaskSig σ)}
    {stops : List (String × WorkloadId)} (noted : stop ∈ trace.foldl (noteStop svc) stops) :
    stop ∈ stops ∨ ∃ event ∈ trace, TaskOp.ended svc event.op event.answer = some stop := by
  induction trace generalizing stops with
  | nil => exact .inl noted
  | cons event trace ih =>
    rcases ih noted with early | ⟨later, inside, ended⟩
    · unfold noteStop at early
      split at early
      · rename_i first ended
        rcases List.mem_cons.mp early with rfl | early
        · exact .inr ⟨event, by simp, ended⟩
        · exact .inl early
      · exact .inl early
    · exact .inr ⟨later, List.mem_cons_of_mem _ inside, ended⟩

def World.noted (svc : Service) (s : World instanceRuntime × List (String × WorkloadId)) :
    Books × List (String × WorkloadId) := (s.1.books svc, s.2)

/-- A pass over a document that meets no obstacle leaves every workload
running at its generation, and has stopped each older one before it started
the new one. Once all run, a pass changes nothing. -/
theorem pass_converges_then_rests {svc : Service} {doc : App} (valid : doc.validate svc.sorter = .ok ())
    (available : svc.dispatcher = true) (ctx : Ctx) (w : World instanceRuntime) (filed : w.view.fsm.Filed) :
    (∀ trace result last, (∀ x ∈ doc.workloads, Startable w.view.fsm (w.marks svc.localNode) doc x) →
      Run (Assuming (World.machine instanceRuntime svc).Step (TaskOp.unhindered svc)) (deployAppWorkloads svc ctx doc) w
        trace (.pure result) last →
      result = .ok () ∧ (∀ x ∈ doc.workloads, RunningNow last.view.fsm doc x) ∧
        StoppedBeforeStart svc doc w.view.fsm trace) ∧
    (∀ trace rest last, (∀ x ∈ doc.workloads, RunningNow w.view.fsm doc x) →
      Run (World.machine instanceRuntime svc).Step (deployAppWorkloads svc ctx doc) w trace rest last →
      ∀ event ∈ trace, TaskOp.rests event.op = true) := by
  constructor
  · intro trace result last startable run
    have ensured : Ensures (Noting (Assuming (World.machine instanceRuntime svc).Step (TaskOp.unhindered svc)) (noteStop svc))
        (fun s op => StopFirst w.view.fsm doc s.2 op)
        (fun result s => result = .ok () ∧ ∀ x ∈ doc.workloads, RunningNow s.1.view.fsm doc x ∧
          ∀ node ∈ stopDue w.view.fsm doc x, (node, workloadId doc.metadata x.name) ∈ s.2)
        (deployAppWorkloads svc ctx doc) (w, []) := by
      have above : Ensures (Unhindered svc) _ _ (deployAppWorkloads svc ctx doc) (World.noted svc (w, [])) :=
        deployAppWorkloads_advances valid available filed startable
      refine above.simulate ?_
      rintro ⟨s, stops⟩ op answer ⟨t, later⟩ ⟨⟨taken, good⟩, noted⟩
      exact ⟨⟨World.books_step taken, good⟩, noted⟩
    obtain ⟨rfl, reached⟩ := ensured.noting_run run
    refine ⟨rfl, fun x inside => (reached x inside).1, ?_⟩
    intro x inside node due
    have stopped := noted_stop ((reached x inside).2 node due)
    refine ⟨stopped.resolve_left (by simp), ?_⟩
    intro before event after cut started
    have first := ensured.noting run before event after cut x inside started node due
    exact (noted_stop first).resolve_left (by simp)
  · intro trace rest last running run event inside
    have ensured : Ensures (World.machine instanceRuntime svc).Step (fun _ op => op.rests = true) (fun _ _ => True)
        (deployAppWorkloads svc ctx doc) w :=
      (deployAppWorkloads_rests running).simulate World.view_step
    exact (ensured.run run).1 event inside

def World.outdated : World instanceRuntime :=
  { World.idle with
    fsm := FsmState.update {} (.upsertWorkloadAssignment
      (assignmentRecord { name := "web" } (imageWorkload "api" "nginx") "a" .running "g1" none "" "nginx")) }

/-- A new version is rolled out: the old one is stopped on its node, and then
the new one runs. -/
theorem pass_converges_outdated :
    ∃ trace result last, Run (Assuming (World.machine instanceRuntime sampleService).Step (TaskOp.unhindered sampleService))
        (deployAppWorkloads sampleService {} (imageApp "web" "api" "caddy")) World.outdated trace (.pure result) last ∧
      result = .ok () ∧ (∀ x ∈ (imageApp "web" "api" "caddy").workloads,
        RunningNow last.view.fsm (imageApp "web" "api" "caddy") x) ∧
      ∃ event ∈ trace, TaskOp.ended sampleService event.op event.answer = some ("a", workloadId { name := "web" } "api") := by
  have played : (Program.play
      ((World.machine instanceRuntime sampleService).assuming (TaskOp.unhindered sampleService))
      (List.replicate 16 (World.smoothly "a")) (deployAppWorkloads sampleService {} (imageApp "web" "api" "caddy"))
      World.outdated).map (fun last => last.2.isOk) = some true := by decide +kernel
  obtain ⟨result, last, ⟨trace, run⟩, -⟩ := exists_finishes_of_play played
  have filed : World.outdated.view.fsm.Filed := by
    refine Ledger.Filed.update ?_ _
    intro key a found
    cases found
  have startable : ∀ x ∈ (imageApp "web" "api" "caddy").workloads,
      Startable World.outdated.view.fsm (World.outdated.marks "a") (imageApp "web" "api" "caddy") x := by
    have older : (World.outdated.view.fsm.getAssignment (assignmentKey { name := "web" } "api")).map
        (fun a => sameGeneration a (appGeneration (imageApp "web" "api" "caddy"))) = some false := by decide +kernel
    intro x inside a found same
    obtain rfl := List.mem_singleton.mp inside
    rw [show World.outdated.view.fsm.getAssignment (assignmentKey { name := "web" } "api") = some a from found,
      Option.map_some, same] at older
    cases older
  have passes := run.mono Machine.assuming_step
  obtain ⟨rfl, running, stopped⟩ := (pass_converges_then_rests (by decide +kernel) rfl {} World.outdated filed).1 trace result
    last startable passes
  refine ⟨trace, _, last, passes, rfl, running, ?_⟩
  exact (stopped (imageWorkload "api" "caddy") (by exact List.mem_singleton_self _) "a" (by decide +kernel)).1

end Orch
