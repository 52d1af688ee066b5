import Orch.Task.Marks
import Orch.Task.Progress
import Orch.Task.RestartLoops

namespace Orch

open Effect

variable {R : Runtime}

/-- The cluster, and the monitors that a process has launched so far. -/
structure Process (R : Runtime) where
  world : World R
  launched : List (Nat × HealthTarget) := []

def Process.launch (launched : List (Nat × HealthTarget)) (op : TaskOp) (answer : op.Answer) : List (Nat × HealthTarget) :=
  match op, answer with
  | .registerHealthMonitor target, runID => (runID, target) :: launched
  | _, _ => launched

def Actor.up (launched : List (Nat × HealthTarget)) : Actor → Bool
  | .monitor runID target => (runID, target) ∈ launched
  | _ => true

def Process.machine (R : Runtime) (svc : Service) (i : Actor) : Machine TaskSig (Process R) where
  Choice := Choice R
  perform s op choice :=
    if i.up s.launched then
      (World.perform svc s.world op choice).map fun (w, answer) => (⟨w, launch s.launched op answer⟩, answer)
    else none

/-- How long the loops of a process go on, and the contexts of its goroutines. -/
structure Lifetime where
  ctx : Actor → Ctx := fun _ => {}
  pending : Nat
  passes : Nat
  scans : Nat

/-- What each goroutine does: one request that submits a document, the two loops,
and a monitor for each registration. -/
def Actor.program (svc : Service) (doc : App) (life : Lifetime) : Actor → Task Unit
  | .submit => do let _ ← submitDeploy svc (life.ctx .submit) doc
  | .reconcile => runDeployReconcile svc (life.ctx .reconcile) life.pending life.passes
  | .recover => runFailureRecovery svc (life.ctx .recover) life.scans
  | .monitor runID target => runWorkloadHealthMonitor (life.ctx (.monitor runID target)) runID target

/-- What is counted: the workload of that key is passed to the runtime. -/
def TaskOp.startsKey (key : String) : TaskOp → Bool
  | .runtimeDeploy _ metadata w => assignmentKey metadata w.name = key
  | _ => false

variable {trace : List (Actor × Event TaskSig (Process R))}

namespace Process

variable {c : Counted} {svc : Service} {i : Actor}

def meter (c : Counted) (svc : Service) (s : Process R × Tally) : Meter where
  sound := s.1.world.fsm.toLedger.Holds fun _ app => c.Keeps app
  launched := ∀ entry ∈ s.1.launched, c.Aims entry.2
  current := s.1.world.fsm.assignments.lookup c.key
  attempts := (s.1.world.marks svc.localNode).attempts c.attemptKey
  tally := s.2

def Tallied (R : Runtime) (c : Counted) (svc : Service) (i : Actor) : Steps TaskSig (Process R × Tally) :=
  Noting (Assuming (machine R svc i).Step TaskOp.accepted) fun tally event => tally.note c i event.op event.answer

theorem machine_step {s t : Process R} {op : TaskOp} {answer : op.Answer} (taken : (machine R svc i).Step s op answer t) :
    i.up s.launched = true ∧ (World.machine R svc).Step s.world op answer t.world ∧
      t.launched = launch s.launched op answer := by
  obtain ⟨choice, taken⟩ := taken
  simp only [machine] at taken
  split at taken
  · rename_i up
    obtain ⟨⟨w, reply⟩, performed, same⟩ := Option.map_eq_some_iff.mp taken
    cases same
    exact ⟨up, ⟨choice, performed⟩, rfl⟩
  · cases taken

variable {s t : Process R × Tally}

theorem meter_congr (ledger : t.1.world.fsm.toLedger = s.1.world.fsm.toLedger)
    (marks : (t.1.world.marks svc.localNode).restartAttempts = (s.1.world.marks svc.localNode).restartAttempts)
    (launched : t.1.launched = s.1.launched) (tally : t.2 = s.2) : meter c svc t = meter c svc s := by
  simp only [meter, Marks.attempts, ledger, marks, launched, tally]

theorem meter_apply {ctx : Ctx} {command : Command} {result : Check}
    (updated : t.1.world.fsm.toLedger = s.1.world.fsm.toLedger.update command)
    (marks : t.1.world.marks svc.localNode = s.1.world.marks svc.localNode) (launched : t.1.launched = s.1.launched)
    (tally : t.2 = s.2)
    (unwatched : ∀ runID target, i = .monitor runID target → (meter c svc s).launched → c.Aims target) :
    Meter.Step c svc i (meter c svc s) (.apply ctx command) result (meter c svc t) := by
  refine ⟨unwatched, ?_⟩
  have assigned := (congrArg Ledger.assignments updated).trans (Ledger.assignments_update ..)
  have sound (unfiled : command.files = false) : t.1.world.fsm.toLedger.Holds (fun _ app => c.Keeps app) =
      s.1.world.fsm.toLedger.Holds (fun _ app => c.Keeps app) := by
    have papers := s.1.world.fsm.toLedger.papers_unfiled unfiled
    rw [← updated] at papers
    exact propext ⟨.of_papers papers.symm, .of_papers papers⟩
  cases command with
  | upsertWorkloadAssignment a =>
    change meter c svc t = (meter c svc s).record c.key a
    simp only [Meter.record, meter, sound rfl, marks, launched, tally, assigned, Command.assigns]
    cases normalizeAssignment a with
    | none => rfl
    | some b =>
      dsimp only
      by_cases own : b.key = c.key
      · rw [if_pos own, own, AList.lookup_insert]
      · rw [if_neg own, AList.lookup_insert_ne (Ne.symm own)]
  | upsertNodeCapacity | upsertVolumeBinding =>
    change meter c svc t = meter c svc s
    simp only [meter, sound rfl, marks, launched, tally, assigned, Command.assigns]
  | upsertDeployApp app =>
    refine ⟨(meter c svc t).sound, ?_, ?_⟩
    · intro before kept
      change t.1.world.fsm.toLedger.Holds _
      rw [updated]
      exact before.update fun _ same _ => by cases same; exact kept
    · simp only [meter, marks, launched, tally, assigned, Command.assigns]
  | deleteDeployApp metadata =>
    refine ⟨(meter c svc t).sound, ?_, ?_⟩
    · intro before
      change t.1.world.fsm.toLedger.Holds _
      rw [updated]
      exact before.update fun _ same => by cases same
    · simp only [meter, marks, launched, tally, assigned, Command.assigns]

theorem executeWorker_alone {α : Type} {w u : World R} {action node name : String}
    {handler : Service → Task (Except Failure α)} {decode : α → DispatchResult} {choice : Choice R}
    {result : Except Failure DispatchResult} (unknown : svc.nodeURL node = none)
    (taken : w.executeWorker svc action node name handler decode choice = some (u, result)) :
    result.isOk = false ∧ u = w.drift choice.toLocalChoice := by
  simp only [World.executeWorker, unknown] at taken
  cases taken
  exact ⟨rfl, rfl⟩

/-- Every action in the world is one that the meter allows. -/
theorem meter_step (alone : ∀ node, node ≠ svc.localNode → svc.nodeURL node = none) {op : TaskOp} {answer : op.Answer}
    (taken : Tallied R c svc i s op answer t) :
    Meter.Step c svc i (meter c svc s) op answer (meter c svc t) := by
  obtain ⟨⟨taken, fine⟩, noted⟩ := taken
  obtain ⟨up, step, launched⟩ := machine_step taken
  have view := World.view_localStep step
  have marks := World.marks_step step
  have aims (runID : Nat) (target : HealthTarget) (watches : i = .monitor runID target)
      (before : (meter c svc s).launched) : c.Aims target := by
    subst watches
    exact before _ (of_decide_eq_true up)
  refine ⟨aims, ?_⟩
  cases op with
  | dispatchWorkload ctx node metadata w | dispatchStop ctx node metadata w =>
    intro away
    obtain ⟨choice, performed⟩ := World.step_iff.mp step
    obtain ⟨failed, same⟩ := executeWorker_alone (alone node away) performed
    exact ⟨failed, meter_congr (by rw [same]; rfl) (congrArg Marks.restartAttempts marks) launched noted⟩
  | listDesiredDeployApps =>
    obtain ⟨listed, same⟩ := view
    refine ⟨?_, meter_congr (congrArg View.fsm same) (congrArg Marks.restartAttempts marks) launched noted⟩
    intro sound app member
    obtain ⟨-, kept⟩ := sound.listed (listed.mem_iff.mp member)
    exact kept
  | getPreviousDeployApp metadata =>
    obtain ⟨found, same⟩ := view
    refine ⟨?_, meter_congr (congrArg View.fsm same) (congrArg Marks.restartAttempts marks) launched noted⟩
    rintro sound revision rfl
    exact sound.previous found.symm
  | getWorkloadAssignment k =>
    obtain ⟨found, same⟩ := view
    refine ⟨?_, meter_congr (congrArg View.fsm same) (congrArg Marks.restartAttempts marks) launched noted⟩
    rintro own
    rw [found, Ledger.getAssignment, own]
    rfl
  | getDesiredDeployApp | choosePlacement =>
    exact meter_congr (congrArg View.fsm view.2) (congrArg Marks.restartAttempts marks) launched noted
  | apply ctx command =>
    have updated : t.1.world.fsm.toLedger = s.1.world.fsm.toLedger.update command := by
      rcases view with ⟨-, updated⟩ | ⟨refused, -⟩
      · exact congrArg View.fsm updated
      · exact absurd (Check.isOk_iff.mp fine) refused
    exact (meter_apply updated marks launched noted aims).2
  | takeRestart k limit =>
    have ledger : t.1.world.fsm.toLedger = s.1.world.fsm.toLedger := congrArg View.fsm view
    refine ⟨(meter c svc t).attempts, ?_, ?_⟩
    · simp only [meter, ledger, launched, noted]
      rfl
    simp only [Marks.Step] at marks
    split at marks <;> rename_i spent <;> obtain ⟨granted, same⟩ := marks
    · have after : (meter c svc t).attempts = (meter c svc s).attempts :=
        congrArg (fun m : Marks => m.attempts c.attemptKey) same
      split
      · exact after
      · rename_i own
        rw [not_not] at own
        rw [own] at spent
        rw [if_pos (by exact spent)]
        exact ⟨granted, after⟩
    · have after : (meter c svc t).attempts = if c.attemptKey = k then (s.1.world.marks svc.localNode).attempts k + 1
          else (meter c svc s).attempts :=
        (congrArg (fun m : Marks => m.attempts c.attemptKey) same).trans Marks.attempts_insert
      split
      · rename_i other
        rw [after, if_neg (Ne.symm other)]
      · rename_i own
        rw [not_not] at own
        rw [own] at spent after
        rw [if_neg (by exact spent)]
        rw [if_pos rfl] at after
        exact ⟨granted, after⟩
  | registerHealthMonitor target =>
    have ledger : t.1.world.fsm.toLedger = s.1.world.fsm.toLedger := congrArg View.fsm view
    have marked : t.1.world.marks svc.localNode = s.1.world.marks svc.localNode := marks
    refine ⟨(meter c svc t).launched, ?_, ?_⟩
    · intro before aims entry member
      rw [launched] at member
      rcases List.mem_cons.mp member with rfl | member
      · exact aims
      · exact before entry member
    · simp only [meter, ledger, marked, noted]
      rfl
  | runtimeDeploy ctx metadata w =>
    obtain ⟨state, -, same⟩ := view
    have ledger : t.1.world.fsm.toLedger = s.1.world.fsm.toLedger := congrArg View.fsm same
    have marked : t.1.world.marks svc.localNode = s.1.world.marks svc.localNode := marks
    have unlaunched : t.1.launched = s.1.launched := launched
    change meter c svc t = _
    simp only [meter, ledger, marked, unlaunched, noted]
  | runtimeStop ctx kind metadata name =>
    obtain ⟨state, -, same⟩ := view
    exact meter_congr (congrArg View.fsm same) (congrArg Marks.restartAttempts marks) launched noted
  | markAutoRollbackAttempt k =>
    have kept : (t.1.world.marks svc.localNode).restartAttempts = (s.1.world.marks svc.localNode).restartAttempts := by
      simp only [Marks.Step] at marks
      split at marks <;> rw [marks.2]
    exact meter_congr (congrArg View.fsm view) kept launched noted
  | suppressAutoRollback k =>
    have kept : (t.1.world.marks svc.localNode).restartAttempts = (s.1.world.marks svc.localNode).restartAttempts := by
      simp only [Marks.Step] at marks
      rw [marks]
    exact meter_congr (congrArg View.fsm view) kept launched noted
  | autoRollbackIsSuppressed =>
    exact meter_congr (congrArg View.fsm view) (congrArg Marks.restartAttempts marks.2) launched noted
  | _ =>
    exact meter_congr (congrArg View.fsm view) (congrArg Marks.restartAttempts marks) launched noted

theorem program_withstands {doc : App} {life : Lifetime} {d : Meter} (member : c.workload ∈ c.doc.workloads)
    (submitted : doc.decoded = c.doc) (rested : Meter.Rested c d) (keyed : d.Keyed c) (launched : d.launched) :
    Withstands (Meter.Rely c i) (Meter.Step c svc i) (Meter.Permits c svc i) anything (i.program svc doc life) d := by
  have stored : c.doc.decoded = c.doc := by rw [← submitted, App.decoded_decoded]
  intro e moved
  cases i with
  | submit =>
    exact (Meter.submitDeploy_keeps submitted).bind fun _ _ _ => trivial
  | reconcile => exact (Meter.runDeployReconcile_rests member stored (rested.stable moved)).mono fun _ _ _ => trivial
  | recover =>
    have scanning : Meter.Scanning c e := ⟨moved.sound rested.sound, moved.keyed keyed⟩
    exact (Meter.runFailureRecovery_scans member scanning).mono fun _ _ _ => trivial
  | monitor runID target => exact Meter.runWorkloadHealthMonitor_settles (moved.launched launched)

theorem starts_foldl {tally : Tally} :
    (trace.foldl (fun tally entry => tally.note c entry.1 entry.2.op entry.2.answer) tally).starts =
      tally.starts + trace.countP fun entry => entry.2.op.startsKey c.key := by
  induction trace generalizing tally with
  | nil => rfl
  | cons entry rest ih =>
    rw [List.foldl_cons, ih, List.countP_cons]
    have one : (tally.note c entry.1 entry.2.op entry.2.answer).starts =
        tally.starts + if entry.2.op.startsKey c.key = true then 1 else 0 := by
      obtain ⟨i, before, op, answer, after⟩ := entry
      cases op with
      | takeRestart k limit =>
        simp only [Tally.note]
        split <;> rfl
      | runtimeDeploy ctx metadata w =>
        simp only [Tally.note, TaskOp.startsKey, decide_eq_true_eq]
        split <;> rfl
      | _ => rfl
    omega

end Process

/-- A process starts on a cluster that keeps no document about the workload, and
no assignment of it. The documents of other apps are valid. -/
structure Process.Unstarted (svc : Service) (key : String) (w : World R) : Prop where
  documents : w.fsm.toLedger.Holds fun _ app =>
    (∃ sorter, app.validate sorter = .ok ()) ∧ ∀ v ∈ app.workloads, assignmentKey app.metadata v.name ≠ key
  unassigned : w.fsm.assignments.lookup key = none
  restarted : (w.tables svc.localNode).restartAttempts = ∅

namespace Process.Unstarted

variable {c : Counted} {svc : Service} {w : World R}

theorem rested (unstarted : Unstarted svc c.key w) : Meter.Rested c (meter c svc (⟨w, []⟩, Tally.opening)) := by
  refine ⟨⟨fun k app found => ?_, fun k revisions found r kept => ?_⟩, fun _ => ?_, fun a found => ?_⟩
  · obtain ⟨valid, other⟩ := unstarted.documents.desired k app found
    exact ⟨valid, .inr other⟩
  · obtain ⟨valid, other⟩ := unstarted.documents.revised k revisions found r kept
    exact ⟨valid, .inr other⟩
  · simp [meter, Tally.opening]
  · cases unstarted.unassigned.symm.trans found

theorem keyed (unstarted : Unstarted svc c.key w) : (meter c svc (⟨w, []⟩, Tally.opening)).Keyed c := by
  intro a found
  cases unstarted.unassigned.symm.trans found

theorem balanced (unstarted : Unstarted svc c.key w) : (meter c svc (⟨w, []⟩, Tally.opening)).Balanced c := by
  refine ⟨?_, ?_, fun positive => ?_, fun _ => rfl⟩
  · simp [meter, Tally.opening]
  · simp [meter, Tally.opening, World.marks, NodeTables.marks, Marks.attempts, unstarted.restarted]
  · simpa [meter, Tally.opening] using le_of_lt positive

end Process.Unstarted

theorem Process.exists_balanced {c : Counted} {svc : Service} {doc : App} {life : Lifetime} {w : World R} {u : Process R}
    {rest : Actor → Task Unit}
    (alone : ∀ node, node ≠ svc.localNode → svc.nodeURL node = none) (member : c.workload ∈ c.doc.workloads)
    (submitted : doc.decoded = c.doc) (unstarted : Unstarted svc c.key w)
    (weave : Weave (fun i => Assuming (machine R svc i).Step TaskOp.accepted) (Actor.program svc doc life) ⟨w, []⟩ trace rest u) :
    ∃ tally : Tally, tally.starts = trace.countP (fun entry => entry.2.op.startsKey c.key) ∧
      (meter c svc (u, tally)).Balanced c := by
  obtain ⟨noted, tallied, -⟩ := weave.noting (fun tally entry => tally.note c entry.1 entry.2.op entry.2.answer) Tally.opening
  have promised (i : Actor) : Withstands (fun s t => Meter.Rely c i (meter c svc s) (meter c svc t)) (Tallied R c svc i)
      (fun s => Meter.Permits c svc i (meter c svc s)) anything (i.program svc doc life)
      (⟨w, []⟩, Tally.opening) :=
    (program_withstands member submitted unstarted.rested unstarted.keyed fun _ launched => absurd launched
      List.not_mem_nil).simulate fun taken => meter_step alone taken
  obtain ⟨permitted, -⟩ := tallied.permitted promised (fun i s => .refl _) (fun i _ _ _ first second => first.trans second)
    (fun other permitted taken => Meter.rely_of_step other permitted (meter_step alone taken))
  refine ⟨_, ?_, tallied.keeps (fun s => (meter c svc s).Balanced c) permitted
    (fun balanced permitted taken => balanced.step permitted (meter_step alone taken)) unstarted.balanced⟩
  rw [starts_foldl]
  exact Nat.zero_add _

/-- On a cluster of one node a workload is started once, and then as often as its
restarts are allowed, however the goroutines of the process interleave and
whatever the runtime answers. -/
theorem starts_within_cap {svc : Service} {doc : App} {workload : Workload} {life : Lifetime} {w : World R} {u : Process R}
    {rest : Actor → Task Unit} {trace : List (Actor × Event TaskSig (Process R))}
    (alone : ∀ node, node ≠ svc.localNode → svc.nodeURL node = none) (member : workload ∈ doc.workloads)
    (unstarted : Process.Unstarted svc (assignmentKey doc.metadata workload.name) w)
    (weave : Weave (fun i => Assuming (Process.machine R svc i).Step TaskOp.accepted) (Actor.program svc doc life)
      ⟨w, []⟩ trace rest u) :
    (workloadMaxRestarts workload > 0 →
      (trace.countP fun entry => entry.2.op.startsKey (assignmentKey doc.metadata workload.name) : Int) ≤
        workloadMaxRestarts workload + 1) ∧
    (restartPolicyForWorkload workload = .never →
      trace.countP (fun entry => entry.2.op.startsKey (assignmentKey doc.metadata workload.name)) ≤ 1) := by
  -- The document is kept as it is read back from its command.
  have inside : workload.decoded ∈ doc.decoded.workloads := List.mem_map_of_mem member
  obtain ⟨tally, counted, balanced⟩ :=
    Process.exists_balanced (c := ⟨doc.decoded, workload.decoded⟩) alone inside rfl unstarted weave
  have spent : tally.starts ≤ tally.takes + 1 := by
    have := balanced.spent
    change tally.starts + tally.credit .reconcile + tally.credit .recover ≤ tally.takes + 1 at this
    omega
  change tally.starts = trace.countP (fun entry => entry.2.op.startsKey (assignmentKey doc.metadata workload.name)) at counted
  rw [← counted]
  refine ⟨fun positive => ?_, fun never => ?_⟩
  · have capped : (tally.takes : Int) ≤ workloadMaxRestarts workload := balanced.capped positive
    omega
  · have none : tally.takes = 0 := balanced.never never
    omega

def loneService : Service := { sampleService with clusterNodes := ∅ }

def restartedWorkload : Workload := { imageWorkload "api" "nginx" with lifecycle := some { maxRestarts := 1 } }

def restartedApp : App := { imageApp "web" "api" "nginx" with workloads := [restartedWorkload] }

theorem Process.unstarted_idle (key : String) : Process.Unstarted loneService key World.idle :=
  ⟨⟨nofun, nofun⟩, rfl, rfl⟩

/-- The app is submitted, and the runtime refuses every start in four passes. -/
def refusedTurns : List ((_ : Actor) × Choice instanceRuntime) :=
  List.replicate 8 ⟨.submit, World.smoothly "a"⟩ ++ List.replicate 80 ⟨.reconcile, World.refusing "a"⟩

/-- Both starts are made, and no more. -/
theorem starts_reach_cap :
    ∃ trace : List (Actor × Event TaskSig (Process instanceRuntime)),
      trace.countP (fun entry => entry.2.op.startsKey (assignmentKey restartedApp.metadata restartedWorkload.name)) = 2 ∧
      (trace.countP (fun entry => entry.2.op.startsKey (assignmentKey restartedApp.metadata restartedWorkload.name)) : Int) ≤
        workloadMaxRestarts restartedWorkload + 1 := by
  have woven : (weave (fun i => (Process.machine instanceRuntime loneService i).assuming TaskOp.accepted) refusedTurns
      (Actor.program loneService restartedApp ⟨fun _ => {}, 1, 4, 0⟩) ⟨World.idle, []⟩).map (fun last => decide
        (last.1.countP (fun entry => entry.2.op.startsKey (assignmentKey restartedApp.metadata restartedWorkload.name)) = 2)) =
      some true := by decide +kernel
  obtain ⟨trace, rest, u, weave, checked⟩ := exists_weave woven
  have alone (node : String) (_ : node ≠ loneService.localNode) : loneService.nodeURL node = none := by
    unfold Service.nodeURL
    dsimp only
    split <;> rfl
  have taken : Weave (fun i => Assuming (Process.machine instanceRuntime loneService i).Step TaskOp.accepted)
      (Actor.program loneService restartedApp ⟨fun _ => {}, 1, 4, 0⟩) ⟨World.idle, []⟩ trace rest u :=
    weave.mono Machine.assuming_step
  have member : restartedWorkload ∈ restartedApp.workloads := List.mem_cons_self
  exact ⟨trace, of_decide_eq_true checked, (starts_within_cap alone member (Process.unstarted_idle _) taken).1 (by decide)⟩

end Orch
