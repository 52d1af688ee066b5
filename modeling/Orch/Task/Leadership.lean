import Orch.Raft.Signals
import Orch.Task.Minding
import Mathlib.Logic.Relation

namespace Orch

open Effect

abbrev Busy {α : Type} (p : Task α) : Prop := p.Asks fun op : TaskOp => op.awaits = false

section Passes

variable {svc : Service} {ctx : Ctx}

theorem Idle.busy {α : Type} {p : Task α} (idle : Idle p) : Busy p :=
  Program.Asks.mono idle.minds fun _ (minds : TaskOp.minds ⟨"", "", ""⟩ _) => minds.awaits

theorem reconcileAll_busy : Busy (reconcileAll svc ctx) := by
  refine asks_then rfl fun apps => asks_each ?_ _
  intro app
  refine asks_bind (asks_bind ?_ ?_) fun _ => trivial
  · unfold prepareDeploy
    split
    · trivial
    refine asks_bind refreshLocal_idle.busy fun _ => ?_
    split <;> trivial
  rintro (err | workloads)
  · trivial
  · exact asks_eachUntil (fun _ => deployOneWorkload_minds.mono fun _ => TaskOp.minds.awaits) _

end Passes

def TaskOp.triggers : (op : TaskOp) → op.Answer → Bool
  | .pollReconcileSignal, .signal => true
  | .waitReconcileTrigger, going => going
  | _, _ => false

/-- A pass starts when the wait for leadership is over, and at each trigger. -/
def TaskOp.starts : (op : TaskOp) → op.Answer → Bool
  | .waitLocalLeader, result => result.isOk
  | op, answer => op.triggers answer

def TaskOp.acts : TaskOp → Bool
  | .runtimeDeploy _ _ _ => true
  | .runtimeStop _ _ _ _ => true
  | .dispatchWorkload _ _ _ _ => true
  | .dispatchStop _ _ _ _ => true
  | _ => false

theorem TaskOp.starts_of_awaits {op : TaskOp} {answer : op.Answer} (busy : op.awaits = false) :
    op.starts answer = false := by
  cases op with
  | waitLocalLeader | pollReconcileSignal | waitReconcileTrigger => cases busy
  | _ => rfl

section Loop

variable {R : Runtime} {svc : Service} {ctx : Ctx}

def noteStart (last : Option (Event TaskSig (World R))) (event : Event TaskSig (World R)) :
    Option (Event TaskSig (World R)) :=
  if event.op.starts event.answer then some event else last

def passStart (before : List (Event TaskSig (World R))) : Option (Event TaskSig (World R)) :=
  before.foldl noteStart none

def LedBy (svc : Service) (start : Option (Event TaskSig (World R))) : Prop :=
  ∃ event, start = some event ∧ event.after.leader = some svc.localNode

/-- Whatever a pass did was done by a node that led when it started. -/
def OnlyLeaderActs (svc : Service) (trace : List (Event TaskSig (World R))) : Prop :=
  ∀ before event after, trace = before ++ event :: after → event.op.acts = true → LedBy svc (passStart before)

/-- The steps of a cluster in which the node leads at every trigger it
takes. -/
def LedTriggers (R : Runtime) (svc : Service) : Steps TaskSig (World R) := fun w op answer u =>
  (World.machine R svc).Step w op answer u ∧ (op.triggers answer = true → u.leader = some svc.localNode)

abbrev NotedStep (R : Runtime) (svc : Service) := Noting (LedTriggers R svc) noteStart

abbrev ActsLed (svc : Service) (s : World R × Option (Event TaskSig (World R))) (op : TaskOp) : Prop :=
  op.acts = true → LedBy svc s.2

theorem World.leads_of_wait {w u : World R} (taken : (World.machine R svc).Step w .waitLocalLeader (.ok ()) u) :
    u.leader = some svc.localNode := by
  obtain ⟨c, taken⟩ := taken
  have same : w.performLocal svc.localNode .waitLocalLeader c.toLocalChoice = some (u, .ok ()) := taken
  simp only [World.performLocal] at same
  split at same
  · cases same
  · split at same
    · cases same
      assumption
    · cases same

theorem busy_led {α : Type} {p : Task α} (busy : Busy p) {s : World R × Option (Event TaskSig (World R))}
    (led : LedBy svc s.2) : Ensures (NotedStep R svc) (ActsLed svc) (fun _ t => LedBy svc t.2) p s := by
  induction p generalizing s with
  | pure value => exact led
  | call op next ih =>
    refine ⟨fun _ => led, ?_⟩
    rintro answer t ⟨-, noted⟩
    refine ih answer (busy.2 answer) ?_
    rw [noted, noteStart, if_neg (by rw [TaskOp.starts_of_awaits busy.1]; exact Bool.false_ne_true)]
    exact led

theorem ensures_wait {op : TaskOp} {s : World R × Option (Event TaskSig (World R))} (led : LedBy svc s.2)
    (waits : op.acts = false) (same : ∀ answer, op.starts answer = op.triggers answer) :
    Ensures (NotedStep R svc) (ActsLed svc) (fun _ t => LedBy svc t.2) (ask op) s := by
  refine ⟨fun acts => absurd (waits.symm.trans acts) Bool.false_ne_true, ?_⟩
  rintro answer t ⟨⟨-, leads⟩, noted⟩
  change LedBy svc t.2
  rw [noted, noteStart]
  split
  · next starts => exact ⟨_, rfl, leads (by rw [← same]; exact starts)⟩
  · exact led

theorem reconcilePendingDeploys_led : ∀ {fuel : Nat} {s : World R × Option (Event TaskSig (World R))}, LedBy svc s.2 →
    Ensures (NotedStep R svc) (ActsLed svc) (fun _ t => LedBy svc t.2) (reconcilePendingDeploys svc ctx fuel) s
  | 0, _, led => led
  | fuel + 1, s, led => by
    refine (busy_led reconcileAll_busy led).bind fun _ t led => ?_
    refine (ensures_wait led rfl (by rintro (_ | _ | _) <;> rfl)).bind ?_
    rintro (_ | _ | _) u led
    · exact led
    · exact reconcilePendingDeploys_led led
    · exact led

theorem runDeployReconcileLoop_led {pending : Nat} : ∀ {fuel : Nat} {s : World R × Option (Event TaskSig (World R))},
    LedBy svc s.2 → Ensures (NotedStep R svc) (ActsLed svc) anything
      (runDeployReconcileLoop svc ctx pending fuel) s
  | 0, _, _ => trivial
  | fuel + 1, s, led => by
    refine (reconcilePendingDeploys_led led).bind ?_
    rintro (_ | _) t led
    · trivial
    refine (ensures_wait led rfl (fun _ => rfl)).bind ?_
    rintro (_ | _) u led
    · trivial
    · exact runDeployReconcileLoop_led led

theorem runDeployReconcile_led {pending fuel : Nat} {w : World R} :
    Ensures (NotedStep R svc) (ActsLed svc) anything (runDeployReconcile svc ctx pending fuel) (w, none) := by
  refine ⟨fun acts => absurd acts Bool.false_ne_true, ?_⟩
  rintro (err | _) t ⟨⟨taken, -⟩, noted⟩
  · trivial
  · refine runDeployReconcileLoop_led ?_
    rw [noted]
    exact ⟨_, rfl, World.leads_of_wait taken⟩

/-- In every run of the reconcile loop in which the node leads at each signal
or tick it takes, whatever a pass does is done by a node that led when the
pass started. -/
theorem onlyLeaderActs_of_led_triggers {pending fuel : Nat} {w t : World R} {q : Task Unit}
    {trace : List (Event TaskSig (World R))}
    (run : Run (World.machine R svc).Step (runDeployReconcile svc ctx pending fuel) w trace q t)
    (led : ∀ event ∈ trace, event.op.triggers event.answer = true → event.after.leader = some svc.localNode) :
    OnlyLeaderActs svc trace :=
  runDeployReconcile_led.noting (run.within led)

end Loop

theorem onlyLeaderActs_of_led_triggers_smooth :
    ∃ trace : List (Event TaskSig (World instanceRuntime)), (∃ event ∈ trace, event.op.acts = true) ∧
      OnlyLeaderActs sampleService trace := by
  have traced : ((runDeployReconcile sampleService {} 1 2).trace (World.machine instanceRuntime sampleService)
      (List.replicate 16 (World.smoothly "a")) (World.told (imageApp "web" "api" "nginx"))).map
      (fun trace => (trace.any fun event => event.op.acts) &&
        trace.all fun event => event.after.leader = some "a") = some true := by
    decide +kernel
  obtain ⟨trace, q, t, passed, run⟩ := exists_run_of_check traced
  simp only [Bool.and_eq_true, List.any_eq_true, List.all_eq_true, decide_eq_true_eq] at passed
  exact ⟨trace, passed.1, onlyLeaderActs_of_led_triggers run fun event member _ => passed.2 event member⟩

/-- Node a fails to start the workload, loses the leadership to b, and at the
next tick starts the workload all the same. -/
theorem deposed_leader_acts :
    ¬ ∀ (svc : Service) (ctx : Ctx) (pending fuel : Nat) (w t : World instanceRuntime) (q : Task Unit)
      (trace : List (Event TaskSig (World instanceRuntime))),
      Run (World.machine instanceRuntime svc).Step (runDeployReconcile svc ctx pending fuel) w trace q t →
        OnlyLeaderActs svc trace := by
  intro only
  have traced : ((runDeployReconcile sampleService {} 1 2).trace (World.machine instanceRuntime sampleService)
      (List.replicate 8 (World.smoothly "a") ++ [World.refusing "a"] ++ List.replicate 4 (World.smoothly "a") ++
        List.replicate 9 (World.smoothly "b"))
      (World.told (imageApp "web" "api" "nginx"))).map
      (fun trace => (trace.getLast?.any fun event => event.op.acts) &&
        (passStart trace.dropLast).all fun event => event.after.leader = some "b") = some true := by
    decide +kernel
  obtain ⟨trace, q, t, passed, run⟩ := exists_run_of_check traced
  obtain ⟨acting, other⟩ := Bool.and_eq_true_iff.mp passed
  obtain ⟨event, last, acts⟩ := (Option.any_eq_true _ _).mp acting
  obtain ⟨start, started, leads⟩ := only _ _ _ _ _ _ _ _ run trace.dropLast event []
    (List.dropLast_append_getLast? event last).symm acts
  rw [started, Option.all_some, decide_eq_true_eq, leads] at other
  revert other
  decide

section Phases

open DeploySignals (Moves)

variable {svc : Service} {ctx : Ctx} {phase : LoopPhase} {op : TaskOp}

/-- The phases of `DeploySignals` in which the reconcile loop makes a call. A
pass begins with its first one. -/
def LoopPhase.Makes (phase : LoopPhase) : TaskOp → Prop
  | .waitLocalLeader => phase = .following
  | .pollReconcileSignal => phase = .passing
  | .waitReconcileTrigger => phase = .waiting
  | _ => phase = .due ∨ phase = .passing

/-- Where the loop is after a call. A tick is taken for a signal. -/
def LoopPhase.after : (op : TaskOp) → op.Answer → LoopPhase
  | .waitLocalLeader, result => if result.isOk then .due else .stopped
  | .pollReconcileSignal, .done => .stopped
  | .pollReconcileSignal, .signal => .due
  | .pollReconcileSignal, .empty => .waiting
  | .waitReconcileTrigger, going => if going then .due else .stopped
  | _, _ => .passing

/-- What a call does to the phase, the moves of `DeploySignals` do. -/
theorem LoopPhase.Makes.moves (makes : phase.Makes op) (answer : op.Answer) :
    Relation.ReflTransGen (fun p q => ∃ event, Moves event .reconcile p q) phase (LoopPhase.after op answer) := by
  have finish : Relation.ReflTransGen (fun p q => ∃ event, Moves event .reconcile p q) .passing .polling := .single ⟨_, .finish⟩
  cases op with
  | waitLocalLeader =>
    obtain rfl := makes
    rcases answer with err | _
    · exact .single ⟨_, .stop (.inl rfl)⟩
    · exact .single ⟨_, .lead⟩
  | pollReconcileSignal =>
    obtain rfl := makes
    rcases answer with _ | _ | _
    · exact finish.tail ⟨_, .stop (.inr (.inl rfl))⟩
    · exact finish.tail ⟨_, .receive (.inr rfl)⟩
    · exact finish.tail ⟨_, .rest⟩
  | waitReconcileTrigger =>
    obtain rfl := makes
    rcases answer with _ | _
    · exact .single ⟨_, .stop (.inr (.inr rfl))⟩
    · exact .single ⟨_, .receive (.inl rfl)⟩
  | _ =>
    rcases makes with rfl | rfl
    · exact .single ⟨_, .start⟩
    · exact .refl

abbrev InPhase {α : Type} (post : α → LoopPhase → Prop) (p : Task α) (phase : LoopPhase) : Prop :=
  Ensures (fun _ (op : TaskOp) answer next => next = LoopPhase.after op answer) LoopPhase.Makes post p phase

theorem reconcileAll_inPhase : InPhase (fun _ next => next = .passing) (reconcileAll svc ctx) .due := by
  refine ⟨.inl rfl, ?_⟩
  rintro apps _ rfl
  refine (reconcileAll_busy.2 apps).stays ?_ ?_ fun _ => rfl
  · intro op busy
    cases op with
    | waitLocalLeader | pollReconcileSignal | waitReconcileTrigger => cases busy
    | _ => exact .inr rfl
  · rintro op answer _ busy rfl
    cases op with
    | waitLocalLeader | pollReconcileSignal | waitReconcileTrigger => cases busy
    | _ => rfl

theorem reconcilePendingDeploys_inPhase : ∀ {fuel : Nat},
    InPhase (fun going next => going = true → next = .waiting) (reconcilePendingDeploys svc ctx fuel) .due
  | 0 => by simp [reconcilePendingDeploys]
  | fuel + 1 => by
    refine reconcileAll_inPhase.bind ?_
    rintro _ _ rfl
    refine ⟨rfl, ?_⟩
    rintro (_ | _ | _) _ rfl
    · rintro ⟨⟩
    · exact reconcilePendingDeploys_inPhase
    · exact fun _ => rfl

theorem runDeployReconcileLoop_inPhase {pending : Nat} : ∀ {fuel : Nat},
    InPhase anything (runDeployReconcileLoop svc ctx pending fuel) .due
  | 0 => trivial
  | fuel + 1 => by
    refine reconcilePendingDeploys_inPhase.bind ?_
    rintro (_ | _) phase waits
    · trivial
    obtain rfl := waits rfl
    refine ⟨rfl, ?_⟩
    rintro (_ | _) _ rfl
    · trivial
    · exact runDeployReconcileLoop_inPhase

/-- The reconcile loop makes each call in its phase, from the wait for the
leadership on. -/
theorem runDeployReconcile_inPhase {pending fuel : Nat} :
    InPhase anything (runDeployReconcile svc ctx pending fuel) .following := by
  refine ⟨rfl, ?_⟩
  rintro (err | _) _ rfl
  · trivial
  · exact runDeployReconcileLoop_inPhase

end Phases

end Orch
