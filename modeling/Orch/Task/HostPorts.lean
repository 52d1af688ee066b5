import Orch.Task.Reads
import Orch.Task.Rollback
import Mathlib.Data.List.Flatten

namespace Orch

open Effect

def App.hostEndpoints (app : App) : List Endpoint :=
  app.workloads.flatMap fun workload => workload.endpoints.filter fun endpoint => 0 < endpoint.hostPort

/-- Two endpoints cannot both have the port they claim. An address that is
empty once normalised stands for all of the host. -/
def Endpoint.Clashes (a b : Endpoint) : Prop :=
  (a.protocol = .udp ↔ b.protocol = .udp) ∧ a.hostPort = b.hostPort ∧
    (normalizeHostPortIP a.hostIP = normalizeHostPortIP b.hostIP ∨ normalizeHostPortIP a.hostIP = "" ∨
      normalizeHostPortIP b.hostIP = "")

def HostPortsApart (apps : List App) : Prop :=
  (apps.flatMap App.hostEndpoints).Pairwise fun a b => ¬ a.Clashes b

section Claims

/-- What a conflict depends on: the protocol, the address and the port. -/
def HostPortClaim.place (c : HostPortClaim) : String × String × Int := (c.protocol, c.hostIP, c.hostPort)

def Endpoint.place (e : Endpoint) : String × String × Int :=
  (normalizeHostPortProtocol e.protocol, normalizeHostPortIP e.hostIP, e.hostPort)

def Overlaps (a b : String × String × Int) : Prop :=
  a.1 = b.1 ∧ a.2.2 = b.2.2 ∧ (a.2.1 = b.2.1 ∨ a.2.1 = "" ∨ b.2.1 = "")

theorem hostPortClaims_place (app : App) : (hostPortClaims app).map HostPortClaim.place = app.hostEndpoints.map Endpoint.place := by
  rw [hostPortClaims, App.hostEndpoints, List.map_flatMap, List.map_flatMap]
  congr 1
  funext workload
  induction workload.endpoints with
  | nil => rfl
  | cons endpoint rest ih =>
    by_cases unclaimed : endpoint.hostPort ≤ 0
    · simpa [List.filterMap_cons, List.filter_cons, unclaimed, not_lt.mpr unclaimed] using ih
    · simpa [List.filterMap_cons, List.filter_cons, unclaimed, not_le.mp unclaimed] using ⟨rfl, ih⟩

theorem exists_claim {app : App} {e : Endpoint} (member : e ∈ app.hostEndpoints) :
    ∃ c ∈ hostPortClaims app, c.place = e.place :=
  List.mem_map.mp (hostPortClaims_place app ▸ List.mem_map_of_mem member)

theorem hostPortClaimsConflict_iff (a b : HostPortClaim) : hostPortClaimsConflict a b = true ↔ Overlaps a.place b.place := by
  simp only [hostPortClaimsConflict, Overlaps, HostPortClaim.place, Bool.and_eq_true, Bool.or_eq_true, decide_eq_true_eq]
  tauto

theorem Endpoint.clashes_iff (a b : Endpoint) : a.Clashes b ↔ Overlaps a.place b.place := by
  have protocols : (a.protocol = .udp ↔ b.protocol = .udp) ↔
      normalizeHostPortProtocol a.protocol = normalizeHostPortProtocol b.protocol := by
    unfold normalizeHostPortProtocol
    split <;> split <;> simp [*]
  rw [Clashes, protocols, Overlaps, place, place]

theorem preflightDuplicates_pairwise {claims : List HostPortClaim} (passed : preflightDuplicates claims = .ok ()) :
    claims.Pairwise fun a b => ¬ Overlaps a.place b.place := by
  induction claims with
  | nil => exact .nil
  | cons claim rest ih =>
    rw [preflightDuplicates] at passed
    split at passed
    · cases passed
    rename_i free
    refine .cons ?_ (ih passed)
    intro other member
    rw [← hostPortClaimsConflict_iff]
    exact List.find?_eq_none.mp free other member

theorem preflightDuplicateHostPorts_ok {app : App} (passed : preflightDuplicateHostPorts app = .ok ()) :
    app.hostEndpoints.Pairwise fun a b => ¬ a.Clashes b := by
  have places : ((hostPortClaims app).map HostPortClaim.place).Pairwise fun a b => ¬ Overlaps a b :=
    List.pairwise_map.mpr (preflightDuplicates_pairwise passed)
  rw [hostPortClaims_place, List.pairwise_map] at places
  exact places.imp fun free clashes => free ((Endpoint.clashes_iff ..).mp clashes)

theorem preflightExisting_ok {metadata : Metadata} {incoming : List HostPortClaim} {apps : List App}
    (passed : preflightExisting metadata incoming apps = .ok ()) :
    ∀ existing ∈ apps, sameAppMetadata metadata existing.metadata = false →
      ∀ a ∈ incoming, ∀ b ∈ hostPortClaims existing, ¬ Overlaps a.place b.place := by
  induction apps with
  | nil => exact nofun
  | cons first rest ih =>
    rw [preflightExisting] at passed
    intro existing member other
    split at passed
    · rename_i same
      rcases List.mem_cons.mp member with rfl | later
      · cases other.symm.trans same
      · exact ih passed existing later other
    split at passed
    · rename_i free
      rcases List.mem_cons.mp member with rfl | later
      · intro a wanted b held
        rw [← hostPortClaimsConflict_iff]
        have unheld := List.findSome?_eq_none_iff.mp free a wanted
        rw [Option.map_eq_none_iff] at unheld
        exact List.find?_eq_none.mp unheld b held
      · exact ih passed existing later other
    · cases passed

end Claims

/-- A document takes no port twice, and none that another app has. -/
structure App.Fits (app : App) (desired : Table App) : Prop where
  own : app.hostEndpoints.Pairwise fun a b => ¬ a.Clashes b
  others : ∀ existing ∈ desired.values, sameAppMetadata app.metadata existing.metadata = false →
    ∀ a ∈ app.hostEndpoints, ∀ b ∈ existing.hostEndpoints, ¬ a.Clashes b

/-- Documents are kept under their own keys, and their ports are apart. -/
structure PortsKept (desired : Table App) : Prop where
  keyed : ∀ entry ∈ desired.entries, deployAppMapKey entry.2.metadata = entry.1
  apart : HostPortsApart desired.values

theorem hostEndpoints_decoded (app : App) : app.decoded.hostEndpoints = app.hostEndpoints := by
  simp only [App.hostEndpoints, App.decoded, List.flatMap_map]
  rfl

theorem sameAppMetadata_key {a b : Metadata} (same : sameAppMetadata a b = true) : deployAppMapKey a = deployAppMapKey b := by
  simp only [sameAppMetadata, decide_eq_true_eq] at same
  rw [deployAppMapKey, deployAppMapKey, same.1, same.2]

variable {desired : Table App}

theorem PortsKept.erase (kept : PortsKept desired) (key : String) : PortsKept (desired.erase key) := by
  have fewer : (desired.erase key).entries.Sublist desired.entries := List.kerase_sublist ..
  refine ⟨fun entry member => kept.keyed entry (fewer.subset member), ?_⟩
  have values : (Table.values (desired.erase key)).Sublist desired.values := by
    unfold Table.values
    exact fewer.map _
  exact kept.apart.sublist (values.flatMap App.hostEndpoints)

theorem PortsKept.insert {app : App} (kept : PortsKept desired) (fits : app.Fits desired) :
    PortsKept (desired.insert (deployAppMapKey app.metadata) app.decoded) := by
  have rest := kept.erase (deployAppMapKey app.metadata)
  constructor
  · intro entry member
    rcases List.mem_cons.mp member with rfl | old
    · rfl
    · exact rest.keyed entry old
  · have split : (Table.values (desired.insert (deployAppMapKey app.metadata) app.decoded)).flatMap App.hostEndpoints =
        app.hostEndpoints ++ (Table.values (desired.erase (deployAppMapKey app.metadata))).flatMap App.hostEndpoints := by
      rw [← hostEndpoints_decoded app]
      rfl
    rw [HostPortsApart, split, List.pairwise_append]
    refine ⟨fits.own, rest.apart, ?_⟩
    intro a claimed b held
    obtain ⟨existing, listed, held⟩ := List.mem_flatMap.mp held
    obtain ⟨entry, member, rfl⟩ := List.mem_map.mp listed
    refine fits.others entry.2 ?_ ?_ a claimed b held
    · exact List.mem_map_of_mem ((List.kerase_sublist ..).subset member)
    · -- A document of the same app would be stored under the same key.
      rw [Bool.eq_false_iff]
      intro same
      have key : entry.1 = deployAppMapKey app.metadata := (rest.keyed entry member).symm.trans (sameAppMetadata_key same).symm
      have present : entry.1 ∈ (desired.entries.kerase (deployAppMapKey app.metadata)).keys := List.mem_keys_of_mem member
      rw [key] at present
      exact List.notMem_keys_kerase _ desired.nodupKeys present

theorem PortsKept.desires {command : Command} (kept : PortsKept desired)
    (fits : ∀ app, command = .upsertDeployApp app → app.Fits desired) : PortsKept (command.desires desired) := by
  cases command with
  | upsertDeployApp app =>
    rw [Command.desires]
    split
    · exact kept
    · exact kept.insert (fits app rfl)
  | deleteDeployApp metadata =>
    rw [Command.desires]
    split
    · exact kept
    · exact kept.erase _
  | _ => exact kept

def Desired.Step : Steps TaskSig (Table App) := fun desired op answer after =>
  match op, answer with
  | .listDesiredDeployApps, apps => apps.Perm desired.values ∧ after = desired
  | .apply _ command, _ => after = desired ∨ after = command.desires desired
  | _, _ => after = desired

/-- Every action in the world is one that the documents allow. -/
theorem World.desired_step {svc : Service} {w u : World instanceRuntime} {op : TaskOp} {answer : op.Answer}
    (taken : (machine instanceRuntime svc).Step w op answer u) : Desired.Step w.fsm.deployApps op answer u.fsm.deployApps := by
  have seen := view_step taken
  have unchanged : u.view = w.view → u.fsm.deployApps = w.fsm.deployApps := fun same => congrArg (·.fsm.deployApps) same
  cases op with
  | listDesiredDeployApps => exact ⟨seen.1, unchanged seen.2⟩
  | getDesiredDeployApp | getPreviousDeployApp | getWorkloadAssignment | choosePlacement => exact unchanged seen.2
  | apply ctx command =>
    have updated (after : u.view = { w.view with fsm := w.view.fsm.update command }) :
        u.fsm.deployApps = command.desires w.fsm.deployApps :=
      (congrArg (·.fsm.deployApps) after).trans (Ledger.deployApps_update ..)
    rcases seen with ⟨-, after⟩ | ⟨-, same | after⟩
    · exact .inr (updated after)
    · exact .inl (unchanged same)
    · exact .inr (updated after)
  | runtimeDeploy | runtimeStop =>
    obtain ⟨state, -, same⟩ := seen
    exact congrArg (·.fsm.deployApps) same
  | dispatchWorkload | dispatchStop =>
    obtain ⟨value, same, -⟩ := seen
    exact congrArg (·.fsm.deployApps) same
  | _ => exact unchanged seen

/-- What an action may be asked for: a document that is filed fits in. -/
def Desired.Permit (desired : Table App) (op : TaskOp) : Prop :=
  ∀ ctx app, op = .apply ctx (.upsertDeployApp app) → app.Fits desired

/-- No permitted action stores a document whose ports are taken. -/
theorem PortsKept.step {after : Table App} {op : TaskOp} {answer : op.Answer} (kept : PortsKept desired)
    (permitted : Desired.Permit desired op) (taken : Desired.Step desired op answer after) : PortsKept after := by
  cases op with
  | listDesiredDeployApps => exact taken.2 ▸ kept
  | apply ctx command =>
    rcases taken with rfl | rfl
    · exact kept
    · exact kept.desires fun app filed => permitted ctx app (by rw [filed])
  | _ => exact taken ▸ kept

section Programs

variable {desired : Table App} {app : App} {metadata : Metadata} {workload : Workload} {generation : String} {ctx : Ctx}
  {svc : Service}

theorem ensures_unfiled {α : Type} {p : Task α} {post : α → Table App → Prop}
    (asks : p.Asks fun op : TaskOp => op.unfiled = true) (after : ∀ a, post a desired) :
    Ensures Desired.Step Desired.Permit post p desired := by
  refine asks.stays ?_ ?_ after
  · rintro op unfiled ctx app rfl
    cases unfiled
  · intro op answer after unfiled taken
    cases op with
    | listDesiredDeployApps => exact taken.2
    | apply ctx command =>
      rcases taken with same | updated
      · exact same
      · cases command with
        | upsertDeployApp | deleteDeployApp => cases unfiled
        | _ => exact updated
    | _ => exact taken

theorem TaskOp.unfiled_of_idle {op : TaskOp} (idle : op.idle = true) : op.unfiled = true := by
  cases op with
  | apply ctx command =>
    cases command with
    | upsertNodeCapacity | upsertVolumeBinding | upsertWorkloadAssignment => rfl
    | upsertDeployApp | deleteDeployApp => cases idle
  | _ => rfl

theorem ensures_idle {α : Type} {p : Task α} {post : α → Table App → Prop} (idle : Idle p) (after : ∀ a, post a desired) :
    Ensures Desired.Step Desired.Permit post p desired :=
  ensures_unfiled (idle.mono fun _ => TaskOp.unfiled_of_idle) after

theorem preflightDeploy_fits :
    Ensures Desired.Step Desired.Permit (fun passed after => after = desired ∧ (passed = .ok () → app.Fits desired))
      (preflightDeploy app) desired := by
  unfold preflightDeploy
  split
  · exact ⟨rfl, fun passed => by cases passed⟩
  rename_i passed
  have own := preflightDuplicateHostPorts_ok passed
  dsimp only
  split
  · rename_i nothing
    refine ⟨rfl, fun _ => ⟨own, ?_⟩⟩
    intro existing _ _ a claimed
    obtain ⟨c, listed, -⟩ := exists_claim claimed
    rw [List.isEmpty_iff.mp nothing] at listed
    cases listed
  rw [preflightExistingHostPorts, ensures_bind, ensures_bind]
  refine ⟨fun _ _ filed => (by cases filed), ?_⟩
  rintro apps _ ⟨listed, rfl⟩
  refine ensures_pure.mpr (ensures_pure.mpr ?_)
  cases free : preflightExisting app.metadata (hostPortClaims app) apps with
  | error err => exact ⟨rfl, fun passed => by cases passed⟩
  | ok _ =>
    refine ensures_idle preflightLocalHostPorts_reads.idle fun checked => ⟨rfl, fun _ => ⟨own, ?_⟩⟩
    intro existing member other a claimed b held clashes
    obtain ⟨c, wanted, place⟩ := exists_claim claimed
    obtain ⟨d, taken, position⟩ := exists_claim held
    refine preflightExisting_ok free existing (listed.mem_iff.mpr member) other c wanted d taken ?_
    rw [place, position]
    exact (Endpoint.clashes_iff ..).mp clashes

theorem submitDeploy_fits : Ensures Desired.Step Desired.Permit anything (submitDeploy svc ctx app) desired := by
  unfold submitDeploy
  split
  · trivial
  refine preflightDeploy_fits.bind ?_
  rintro (err | _) _ ⟨rfl, fits⟩
  · trivial
  refine ⟨?_, ?_⟩
  · rintro _ _ ⟨⟩
    exact fits rfl
  · rintro (err | _) _ _ <;> trivial

theorem submitRollback_fits : Ensures Desired.Step Desired.Permit anything (submitRollback svc ctx metadata) desired := by
  simp only [submitRollback]
  split
  · trivial
  refine ⟨fun _ _ filed => (by cases filed), ?_⟩
  rintro (_ | revision) _ rfl
  · trivial
  change Ensures _ _ _ (suppressAutoRollback (normalizeOperationMetadata metadata) revision.generation >>= _) _
  rw [ensures_bind]
  refine ensures_idle suppressAutoRollback_idle fun _ => ?_
  refine submitDeploy_fits.bind ?_
  rintro (err | _) _ _ <;> trivial

theorem submitDelete_fits : Ensures Desired.Step Desired.Permit anything (submitDelete svc ctx metadata) desired := by
  simp only [submitDelete]
  split
  · trivial
  rename_i named
  refine ⟨fun _ _ filed => (by cases filed), ?_⟩
  rintro found _ rfl
  change Ensures _ _ _ (raftApplyDeleteDeployApp ctx (normalizeOperationMetadata metadata) >>= _) _
  rw [ensures_bind, raftApplyDeleteDeployApp, if_neg named]
  refine ⟨fun _ _ filed => (by cases filed), ?_⟩
  rintro (err | _) after -
  · trivial
  rcases found with _ | app
  · trivial
  · change Ensures _ _ _ (stopAppWorkloads svc ctx app) _
    exact ensures_unfiled (stopAppWorkloads_aside.mono fun _ => TaskOp.unfiled_of_aside) fun _ => trivial

theorem maybeAutoRollbackDeployFailure_fits :
    Ensures Desired.Step Desired.Permit anything (maybeAutoRollbackDeployFailure metadata workload generation)
      desired := by
  rw [maybeAutoRollbackDeployFailure, ensures_bind]
  refine ensures_idle autoRollbackRevision_idle ?_
  rintro (_ | revision)
  · trivial
  refine ⟨fun _ _ filed => (by cases filed), ?_⟩
  rintro now _ rfl
  change Ensures _ _ _ (preflightDeploy revision.app >>= _) _
  refine preflightDeploy_fits.bind ?_
  rintro (err | _) _ ⟨rfl, fits⟩
  · trivial
  rw [ensures_bind]
  refine ensures_idle suppressAutoRollback_idle fun _ => ?_
  refine ⟨?_, fun _ _ _ => trivial⟩
  rintro _ _ ⟨⟩
  exact fits rfl

theorem recordDeployFailure_fits {node : String} {err : Failure} :
    Ensures Desired.Step Desired.Permit anything (recordDeployFailure ctx app workload node generation err)
      desired := by
  rw [recordDeployFailure, ensures_bind]
  refine ensures_unfiled (stopWorkloadHealthMonitor_aside.mono fun _ => TaskOp.unfiled_of_aside) fun _ => ?_
  rw [ensures_bind]
  refine ensures_unfiled (skipStaleDeployFailure_aside.mono fun _ => TaskOp.unfiled_of_aside) ?_
  rintro (_ | _)
  · rw [ensures_bind]
    exact ensures_unfiled (recordWorkload_aside.mono fun _ => TaskOp.unfiled_of_aside) fun _ =>
      maybeAutoRollbackDeployFailure_fits
  · trivial

theorem Act.fits {act : Act} : Ensures Desired.Step Desired.Permit anything (act.program svc) desired := by
  cases act with
  | deploy ctx app =>
    exact submitDeploy_fits.bind fun _ _ _ => trivial
  | rollback ctx metadata =>
    exact submitRollback_fits.bind fun _ _ _ => trivial
  | delete ctx metadata =>
    exact submitDelete_fits.bind fun _ _ _ => trivial
  | failure ctx app workload node generation err => exact recordDeployFailure_fits

end Programs

/-- What one act after the other, each on some node, leads to. An act may be
anywhere in its course, or cut off there. -/
inductive Reaches (w : World instanceRuntime) : World instanceRuntime → Prop
  | start : Reaches w w
  | act {svc : Service} {act : Act} {u v : World instanceRuntime} (before : Reaches w u)
      (visits : Visits (World.machine instanceRuntime svc).Step (act.program svc) u v) : Reaches w v

/-- However documents come and go, no two endpoints claim the same port. -/
theorem host_ports_stay_apart {w u : World instanceRuntime} (empty : w.fsm.deployApps = ∅) (reaches : Reaches w u) :
    HostPortsApart u.fsm.listDeployApps := by
  have kept : PortsKept u.fsm.deployApps := by
    induction reaches with
    | start =>
      rw [empty]
      exact ⟨nofun, .nil⟩
    | @act svc act u v before visits ih =>
      have fits : Ensures (World.machine instanceRuntime svc).Step (fun w => Desired.Permit w.fsm.deployApps) (fun _ _ => True)
        (act.program svc) u := Act.fits.simulate World.desired_step
      exact fits.visits (fun w => PortsKept w.fsm.deployApps) (fun kept permitted taken =>
        kept.step permitted (World.desired_step taken)) ih visits
  exact kept.apart

/-- A name server has its port for both protocols. -/
def nameServer : App where
  metadata := { name := "dns" }
  workloads := [{ imageWorkload "server" "coredns" with endpoints :=
    [{ name := "stream", port := 53, hostPort := 53 }, { name := "packets", port := 53, hostPort := 53, protocol := .udp }] }]

theorem host_ports_apart_nameServer :
    ∃ u, Reaches World.idle u ∧ (u.fsm.listDeployApps.flatMap App.hostEndpoints).length = 2 ∧
      HostPortsApart u.fsm.listDeployApps := by
  have played : (((Act.deploy {} nameServer).program sampleService).play (World.machine instanceRuntime sampleService)
      (List.replicate 20 (World.smoothly "a")) World.idle).map
        (fun last => decide ((last.1.fsm.listDeployApps.flatMap App.hostEndpoints).length = 2)) = some true := by
    decide +kernel
  obtain ⟨_, u, run, claimed⟩ := exists_finishes_of_play played
  have reaches : Reaches World.idle u := .act .start run.visits
  exact ⟨u, reaches, of_decide_eq_true claimed, host_ports_stay_apart rfl reaches⟩

end Orch
