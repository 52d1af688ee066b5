import Orch.Placement
import Orch.Runtime.Manager
import Orch.Task.Local
import Mathlib.Logic.Function.Basic

namespace Orch

open Effect

/-- The tables the service of a node keeps in memory. -/
structure NodeTables where
  registry : Table WorkloadRecord := ∅
  healthRun : Nat := 0
  healthMonitors : Table (Nat × HealthTarget) := ∅
  restartAttempts : Table Int := ∅
  autoRollbackAttempts : List String := []
  autoRollbackSuppressed : List String := []

/-- The cluster: the replicated state, who leads, the time, and for each node
its runtimes and tables. Every replica is taken to be up to date. -/
structure World (R : Runtime) where
  fsm : FsmState := {}
  leader : Option String := none
  now : Nat := 0
  runtimes : String → R.State
  tables : String → NodeTables := fun _ => {}

namespace World

variable {R : Runtime}

def updateTables (w : World R) (node : String) (change : NodeTables → NodeTables) : World R :=
  { w with tables := Function.update w.tables node (change (w.tables node)) }

def setRuntime (w : World R) (node : String) (state : R.State) : World R :=
  { w with runtimes := Function.update w.runtimes node state }

end World

def World.idle : World instanceRuntime where
  runtimes _ _ _ := false

/-- A cluster that has been told of an app and has not started it yet. -/
def World.told (app : App) : World instanceRuntime := { World.idle with fsm := FsmState.update {} (.upsertDeployApp app) }

/-- What the environment decides for one action on a node: leadership may
change and time may pass before it, and each call may fail. -/
structure LocalChoice (R : Runtime) where
  elect : Option (Option String) := none
  elapsed : Nat := 0
  ok : Bool := true
  /-- A proposal that fails may still be committed. -/
  landed : Bool := false
  order : Option (List App) := none
  report : HostReport := {}
  address : Option String := none
  verdict : HealthVerdict := .passed
  poll : Poll := .empty
  runtime : R.Choice

/-- For a request to another node also the times its handler runs there,
and whether the last reply comes back. -/
structure Choice (R : Runtime) extends LocalChoice R where
  attempts : List (List (LocalChoice R)) := []
  delivered : Bool := true

def Command.notLeaderMessage : Command → String
  | .upsertNodeCapacity _ => "not leader: send node capacity to the raft leader node"
  | .upsertDeployApp _ => "not leader: send deploy to the raft leader node"
  | .deleteDeployApp _ => "not leader: send delete to the raft leader node"
  | .upsertWorkloadAssignment _ => "not leader: send workload assignment to the raft leader node"
  | .upsertVolumeBinding _ => "not leader: send volume binding to the raft leader node"

namespace World

variable {R : Runtime}

def drift (w : World R) (c : LocalChoice R) : World R :=
  { w with leader := c.elect.getD w.leader, now := w.now + c.elapsed }

/-- A proposal goes through on the leader only, and within its context. -/
def applyCommand (w : World R) (self : String) (ctx : Ctx) (command : Command) (c : LocalChoice R) : World R × Check :=
  if w.leader ≠ some self then (w, .fail command.notLeaderMessage)
  else if ctx.expired w.now then (w, .error (.wrapf .deadlineExceeded "dragonboat propose"))
  else if c.ok then ({ w with fsm := w.fsm.update command }, .ok ())
  else (if c.landed then { w with fsm := w.fsm.update command } else w, .error (.wrapf (.errorf "timeout") "dragonboat propose"))

/-- The attempt counter of a workload generation, up to its maximum. -/
def takeRestart (w : World R) (self key : String) (maxRestarts : Int) : World R × Bool :=
  let attempts := ((w.tables self).restartAttempts.lookup key).getD 0
  if maxRestarts > 0 ∧ attempts ≥ maxRestarts then (w, false)
  else (w.updateTables self fun n => { n with restartAttempts := n.restartAttempts.insert key (attempts + 1) }, true)

def registerHealthMonitor (w : World R) (self : String) (target : HealthTarget) : World R × Nat :=
  let runID := (w.tables self).healthRun + 1
  (w.updateTables self fun n =>
    { n with healthRun := runID, healthMonitors := n.healthMonitors.insert target.key (runID, target) }, runID)

def finishHealthMonitor (w : World R) (self key : String) (runID : Nat) : World R :=
  w.updateTables self fun n =>
    match n.healthMonitors.lookup key with
    | some (id, _) => if id = runID then { n with healthMonitors := n.healthMonitors.erase key } else n
    | none => n

def markAutoRollbackAttempt (w : World R) (self key : String) : World R × Bool :=
  if key ∈ (w.tables self).autoRollbackAttempts then (w, false)
  else (w.updateTables self fun n => { n with autoRollbackAttempts := key :: n.autoRollbackAttempts }, true)

/-- The desired apps in some order, as a walk over a map gives them. -/
def listDesired (w : World R) (order : Option (List App)) : Option (List App) :=
  match order with
  | none => some w.fsm.listDeployApps
  | some apps => if apps.isPerm w.fsm.listDeployApps then some apps else none

def withCheck (w : World R) (c : LocalChoice R) (message : String) : World R × Check :=
  (w, if c.ok then .ok () else .fail message)

/-- One action of the service on node `self` that involves no other node. -/
def performLocal (self : String) (start : World R) (op : TaskOp) (c : LocalChoice R) : Option (World R × op.Answer) :=
  let w := start.drift c
  match op with
  | .getDesiredDeployApp metadata => some (w, w.fsm.getDeployApp metadata)
  | .listDesiredDeployApps => (w.listDesired c.order).map fun apps => (w, apps)
  | .getPreviousDeployApp metadata => some (w, w.fsm.previousDeployApp metadata)
  | .getWorkloadAssignment key => some (w, w.fsm.getAssignment key)
  | .choosePlacement workload => some (w, Orch.choosePlacement workload w.fsm.nodeCapacity self)
  | .catalogNodeIDs => some (w, Orch.catalogNodeIDs w.fsm.nodeCapacity)
  | .collectHostInfo =>
    some (w, if c.ok then .ok { c.report with sampledAt := w.now } else .error (.errorf "collect host info failed"))
  | .isLocalLeader => some (w, decide (w.leader = some self))
  | .apply ctx command => some (w.applyCommand self ctx command c)
  | .now => some (w, w.now)
  | .sleep ctx duration =>
    let later := { w with now := w.now + duration }
    if ctx.expired later.now then some (later, .error (.wrapf .deadlineExceeded "readiness wait canceled"))
    else some (later, .ok ())
  | .runtimeDeploy _ metadata workload =>
    (R.deploy (w.runtimes self) metadata workload c.runtime).map fun result =>
      (w.setRuntime self result.1, result.2)
  | .runtimeStop _ kind metadata name =>
    (R.stop (w.runtimes self) kind metadata name c.runtime).map fun result =>
      (w.setRuntime self result.1, result.2)
  | .runtimeStatus _ kind metadata name =>
    (R.status (w.runtimes self) kind metadata name c.runtime).map fun status => (w, status)
  | .lookupLocalWorkloadIPv4 _ _ => some (w, c.address)
  | .awaitReadiness _ _ _ _ _ => some (w.withCheck c "readiness probe failed")
  | .probeHealth _ _ => some (w, c.verdict)
  | .bindHostPort _ _ _ => some (w.withCheck c "bind failed")
  | .takeRestart key maxRestarts => some (w.takeRestart self key maxRestarts)
  | .registerHealthMonitor target => some (w.registerHealthMonitor self target)
  | .stopHealthMonitor key =>
    some (w.updateTables self fun n => { n with healthMonitors := n.healthMonitors.erase key }, ())
  | .finishHealthMonitor key runID => some (w.finishHealthMonitor self key runID, ())
  | .registryUpsert record =>
    some (w.updateTables self fun n => { n with registry := n.registry.insert record.name record }, ())
  | .registryDelete name => some (w.updateTables self fun n => { n with registry := n.registry.erase name }, ())
  | .markAutoRollbackAttempt key => some (w.markAutoRollbackAttempt self key)
  | .suppressAutoRollback key =>
    some (w.updateTables self fun n => { n with autoRollbackSuppressed := key :: n.autoRollbackSuppressed }, ())
  | .autoRollbackIsSuppressed key => some (w, decide (key ∈ (w.tables self).autoRollbackSuppressed))
  | .waitLocalLeader =>
    if !c.ok then some (w, .error (.wrapf .deadlineExceeded "wait local leader"))
    else if w.leader = some self then some (w, .ok ())
    else none
  | .waitReconcileTrigger => some (w, c.ok)
  | .pollReconcileSignal => some (w, c.poll)
  | .dispatchWorkload _ _ _ _ => none
  | .dispatchStop _ _ _ _ => none

theorem applyCommand_cases (w : World R) (self : String) (ctx : Ctx) (command : Command) (c : LocalChoice R) :
    (∃ err, w.applyCommand self ctx command c = (w, .error err)) ∨
      ∃ result, w.applyCommand self ctx command c = ({ w with fsm := w.fsm.update command }, result) := by
  unfold applyCommand
  split
  · exact .inl ⟨_, rfl⟩
  split
  · exact .inl ⟨_, rfl⟩
  split
  · exact .inr ⟨_, rfl⟩
  split
  · exact .inr ⟨_, rfl⟩
  · exact .inl ⟨_, rfl⟩

end World

def TaskOp.proposes : TaskOp → Bool
  | .apply _ _ => true
  | _ => false

def TaskOp.tabulates : TaskOp → Bool
  | .takeRestart _ _ | .registerHealthMonitor _ | .stopHealthMonitor _ | .finishHealthMonitor _ _ | .registryUpsert _
  | .registryDelete _ | .markAutoRollbackAttempt _ | .suppressAutoRollback _ => true
  | _ => false

def TaskOp.runs : TaskOp → Bool
  | .runtimeDeploy _ _ _ | .runtimeStop _ _ _ _ => true
  | _ => false

/-- What an action other than those of its kind leaves as it was. No action takes
time back. -/
structure World.Frame {R : Runtime} (op : TaskOp) (w u : World R) : Prop where
  fsm : op.proposes = false → u.fsm = w.fsm
  tables : op.tabulates = false → u.tables = w.tables
  runtimes : op.runs = false → u.runtimes = w.runtimes
  now : w.now ≤ u.now

theorem World.performLocal_frame {R : Runtime} {self : String} {w u : World R} {op : TaskOp} {c : LocalChoice R}
    {answer : op.Answer} (taken : w.performLocal self op c = some (u, answer)) : World.Frame op w u := by
  have drifted : w.now ≤ (w.drift c).now := Nat.le_add_right _ _
  cases op with
  | apply ctx command =>
    have same := Option.some.inj taken
    rcases (w.drift c).applyCommand_cases self ctx command c with ⟨err, outcome⟩ | ⟨result, outcome⟩ <;>
      (rw [outcome] at same; cases same; exact ⟨nofun, fun _ => rfl, fun _ => rfl, drifted⟩)
  | runtimeDeploy | runtimeStop =>
    obtain ⟨result, -, same⟩ := Option.map_eq_some_iff.mp taken
    cases same
    exact ⟨fun _ => rfl, fun _ => rfl, nofun, drifted⟩
  | listDesiredDeployApps | runtimeStatus =>
    obtain ⟨result, -, same⟩ := Option.map_eq_some_iff.mp taken
    cases same
    exact ⟨fun _ => rfl, fun _ => rfl, fun _ => rfl, drifted⟩
  | sleep ctx duration =>
    simp only [performLocal] at taken
    split at taken <;> cases taken <;>
      exact ⟨fun _ => rfl, fun _ => rfl, fun _ => rfl, drifted.trans (Nat.le_add_right _ _)⟩
  | waitLocalLeader =>
    simp only [performLocal] at taken
    split at taken
    · cases taken
      exact ⟨fun _ => rfl, fun _ => rfl, fun _ => rfl, drifted⟩
    · split at taken <;> cases taken
      exact ⟨fun _ => rfl, fun _ => rfl, fun _ => rfl, drifted⟩
  | takeRestart | markAutoRollbackAttempt =>
    simp only [performLocal, takeRestart, markAutoRollbackAttempt, Option.some.injEq] at taken
    split at taken <;> cases taken <;> exact ⟨fun _ => rfl, nofun, fun _ => rfl, drifted⟩
  | registerHealthMonitor | stopHealthMonitor | finishHealthMonitor | registryUpsert | registryDelete | suppressAutoRollback =>
    cases taken
    exact ⟨fun _ => rfl, nofun, fun _ => rfl, drifted⟩
  | dispatchWorkload | dispatchStop => cases taken
  | _ =>
    cases taken
    exact ⟨fun _ => rfl, fun _ => rfl, fun _ => rfl, drifted⟩

end Orch
