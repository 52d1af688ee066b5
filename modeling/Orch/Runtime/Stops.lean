import Orch.Runtime.Names
import Orch.Runtime.Process

namespace Orch

open Effect

/-- What a missing file gives. -/
def Failure.notExist : Failure := .errorf "no such file or directory"

/-- `errors.Is`, which looks into what an error wraps. -/
def Failure.is : Failure → Failure → Bool
  | .wrapf cause _ _, target => cause.is target
  | err, target => err = target

/-- `os.IsNotExist`, which does not look into an error. -/
def Failure.isNotExist (err : Failure) : Bool := err = .notExist

namespace FirecrackerProvider

/-- The calls of a stop: to the file system, to the table of running machines,
to the SDK and to the operating system. -/
inductive VmOp where
  | readState
  | removeState
  | removeSocket
  | runningVMM
  | untrack
  | stopVMM (machine : Nat)
  | ctxErr
  | signal (pid : Nat)
  | waitExit (pid : Nat)
  | kill (pid : Nat)

abbrev VmOp.Answer : VmOp → Type
  | .readState => Except Failure Nat
  | .runningVMM => Option (Nat × Nat)
  | .waitExit _ => Bool
  | .removeState | .stopVMM _ | .ctxErr | .signal _ => Check
  | _ => Unit

abbrev VmSig : Signature := ⟨VmOp, VmOp.Answer⟩

abbrev VmTask := Program VmSig

abbrev ask (op : VmOp) : VmTask op.Answer := Program.perform (S := VmSig) op

def untrackRunningVMM (pid : Nat) : VmTask Unit := do
  match ← ask .runningVMM with
  | some (tracked, _) => if tracked = pid then ask .untrack else return ()
  | none => return ()

def stopViaSDK (pid : Nat) : VmTask Bool := do
  match ← ask .runningVMM with
  | some (tracked, machine) => if tracked = pid then return (← ask (.stopVMM machine)).isOk else return false
  | none => return false

def stopProcess (pid : Nat) : VmTask Unit := do
  if !(← stopViaSDK pid) then
    match ← ask (.signal pid) with
    | .error _ => ask (.kill pid)
    | .ok _ => pure ()
  if ← ask (.waitExit pid) then return () else ask (.kill pid)

def stop : VmTask Check := do
  match ← ask .readState with
  | .error err => if err.is .notExist then return .pass else return .error err
  | .ok pid =>
    match ← ask .ctxErr with
    | .error err => return .error err
    | .ok _ =>
      stopProcess pid
      untrackRunningVMM pid
      ask .removeSocket
      ask .removeState

end FirecrackerProvider

namespace SystemdProvider

/-- What the state file says about the unit. -/
structure UnitState where
  unitName : String
  unitPath : String

/-- The calls of a stop: to the file system, to systemd and its job, and to the
DNS service. -/
inductive UnitOp where
  | readState
  | connect
  | stopUnit (unitName : String)
  | jobResult
  | disableUnit (unitName : String)
  | removeUnit (unitPath : String)
  | reload
  | removeRecord
  | removeState

abbrev UnitOp.Answer : UnitOp → Type
  | .readState => Except Failure UnitState
  | .jobResult => Except Failure String
  | _ => Check

abbrev UnitSig : Signature := ⟨UnitOp, UnitOp.Answer⟩

abbrev UnitTask := Program UnitSig

abbrev ask (op : UnitOp) : UnitTask op.Answer := Program.perform (S := UnitSig) op

def waitSystemdJob (action unitName : String) : UnitTask Check := do
  match ← ask .jobResult with
  | .error err => return .error err
  | .ok result =>
    if result ≠ "done" then return .fail "%s unit %s: %s" [.text action, .text unitName, .text result] else return .pass

def systemdStop (unitName : String) : UnitTask Check := do
  match ← ask (.stopUnit unitName) with
  | .error err => return .error (.wrapf err "stop unit %s" [.text unitName])
  | .ok _ => waitSystemdJob "stop" unitName

/-- The reload after a stop, with a new connection if there was none. -/
def reload (connected : Bool) : UnitTask Check := do
  if connected then ask .reload
  else
    match ← ask .connect with
    | .error err => return .error (.wrapf err "connect systemd dbus")
    | .ok _ => ask .reload

def finishStop (connected : Bool) : UnitTask Check := do
  let _ ← reload connected
  match ← ask .removeRecord with
  | .error err => return .error (.wrapf err "remove workload DNS")
  | .ok _ => ask .removeState

def removeUnit (connected : Bool) (unitName unitPath : String) : UnitTask Check := do
  match ← ask (.removeUnit unitPath) with
  | .error err => if err.isNotExist then finishStop connected else return .error (.wrapf err "remove unit %s" [.text unitName])
  | .ok _ => finishStop connected

def stopUnit (unitName unitPath : String) : UnitTask Check := do
  match ← ask .connect with
  | .error _ => removeUnit false unitName unitPath
  | .ok _ =>
    let _ ← systemdStop unitName
    let _ ← ask (.disableUnit unitName)
    removeUnit true unitName unitPath

def systemdUnitPath (unitName : String) : String := "/etc/systemd/system/" ++ unitName

/-- What is recorded, if anything, and what goes for it otherwise. -/
def recordedOr (recorded otherwise : String) : String := if trimSpace recorded ≠ "" then recorded else otherwise

def stop (metadata : Metadata) (workloadName : String) : UnitTask Check := do
  let unitName := Systemd.defaultUnitName metadata workloadName
  match ← ask .readState with
  | .error err => if err.isNotExist then stopUnit unitName (systemdUnitPath unitName) else return .error err
  | .ok st => stopUnit (recordedOr st.unitName unitName) (recordedOr st.unitPath (systemdUnitPath unitName))

end SystemdProvider

/-- Whether an instance runs, unless a stop ends it, and its state file is there. -/
structure Installed where
  running : Bool
  filed : Bool := true

/-- A stop that returns no error has ended the instance, and any other has left
the state file. -/
def Truthful (after : Installed × Check) : Prop :=
  (after.2 = .ok () → after.1.running = false) ∧ (after.2 ≠ .ok () → after.1.filed = true)

/-- The calls come out as given. A unit ends when its stop job is done. -/
def SystemdProvider.UnitOp.reply (answers : (op : UnitOp) → op.Answer) (s : Installed) (op : UnitOp) : Installed × op.Answer :=
  (match op with
    | .jobResult => if answers .jobResult = .ok "done" then { s with running := false } else s
    | .removeState => if answers .removeState = .ok () then { s with filed := false } else s
    | _ => s, answers op)

/-- A process ends when it is found to have exited, or when it is killed and
that works. -/
def ProcessProvider.ProcOp.reply (answers : (op : ProcOp) → op.Answer) (kills : Bool) (s : Installed) (op : ProcOp) :
    Installed × op.Answer :=
  (match op with
    | .waitExit pid => if answers (.waitExit pid) = true then { s with running := false } else s
    | .kill _ => if kills then { s with running := false } else s
    | .removeState => if answers .removeState = .ok () then { s with filed := false } else s
    | _ => s, answers op)

section Truthful

namespace SystemdProvider

variable {answers : (op : UnitOp) → op.Answer}

theorem reload_handle {connected : Bool} {s : Installed} : ((reload connected).handle (UnitOp.reply answers) s).1 = s := by
  cases connected with
  | true => rfl
  | false =>
    rw [reload, if_neg Bool.false_ne_true, Program.handle_bind]
    simp only [ask, Program.perform, Program.handle, UnitOp.reply]
    cases answers .connect <;> rfl

theorem finishStop_truthful_iff {connected running : Bool} :
    Truthful ((finishStop connected).handle (UnitOp.reply answers) ⟨running, true⟩) ↔
      running = false ∨ answers .removeRecord ≠ .ok () ∨ answers .removeState ≠ .ok () := by
  rw [finishStop, Program.handle_bind, reload_handle, Program.handle_bind]
  simp only [ask, Program.perform, Program.handle, UnitOp.reply]
  cases recorded : answers .removeRecord with
  | error err => simp [Truthful, Program.handle, Pure.pure]
  | ok => cases removed : answers .removeState <;> simp [Truthful, Program.handle, UnitOp.reply, removed]

theorem removeUnit_truthful_iff {connected running : Bool} {unitName unitPath : String} :
    Truthful ((removeUnit connected unitName unitPath).handle (UnitOp.reply answers) ⟨running, true⟩) ↔ running = false ∨
      (∃ err, answers (.removeUnit unitPath) = .error err ∧ err.isNotExist = false) ∨
        answers .removeRecord ≠ .ok () ∨ answers .removeState ≠ .ok () := by
  rw [removeUnit, Program.handle_bind]
  simp only [ask, Program.perform, Program.handle, UnitOp.reply]
  cases answers (.removeUnit unitPath) with
  | ok => simp [finishStop_truthful_iff]
  | error err =>
    cases missing : err.isNotExist
    · simp [missing, Truthful, Program.handle, Pure.pure]
    · simp [missing, finishStop_truthful_iff]

end SystemdProvider

namespace ProcessProvider

variable {answers : (op : ProcOp) → op.Answer} {kills running : Bool}

theorem stopProcess_handle {pid : Nat} :
    ((stopProcess pid).handle (ProcOp.reply answers kills) ⟨running, true⟩).1 = ⟨running &&
      !(decide (answers (.interrupt pid) = .ok () ∧ answers (.waitExit pid) = true) || kills), true⟩ := by
  rw [stopProcess, Program.handle_bind]
  simp only [ask, Program.perform, Program.handle, ProcOp.reply]
  cases answers (.interrupt pid) with
  | error err => cases kills <;> simp [Program.handle, ProcOp.reply]
  | ok =>
    cases exited : answers (.waitExit pid) <;> cases kills <;>
      simp [Program.handle_bind, Program.handle, ProcOp.reply, exited, Pure.pure]

theorem removeWorkloadA_handle {s : Installed} :
    removeWorkloadA.handle (ProcOp.reply answers kills) s = (s, match answers .getRecord with
      | none => .pass
      | some prev => Check.wrap (answers (.deleteRecord prev)) "delete workload record") := by
  rw [removeWorkloadA, Program.handle_bind]
  simp only [ask, Program.perform, Program.handle, ProcOp.reply]
  cases answers .getRecord with
  | none => rfl
  | some prev =>
    simp only [Program.handle_bind, Program.handle, ProcOp.reply]
    cases answers (.deleteRecord prev) <;> rfl

end ProcessProvider

end Truthful

open SystemdProvider ProcessProvider in
/-- A stop tells the truth iff nothing runs before it, it ends what runs, or a
later step fails that it reports. -/
theorem stops_truthful_iff (running : Bool) :
    (∀ (answers : (op : UnitOp) → op.Answer) (metadata : Metadata) (workloadName : String) (st : UnitState),
      answers .readState = .ok st →
      (Truthful ((stop metadata workloadName).handle (UnitOp.reply answers) ⟨running, true⟩) ↔ running = false ∨
        (answers .connect = .ok () ∧ answers (.stopUnit (recordedOr st.unitName (Systemd.defaultUnitName metadata
          workloadName))) = .ok () ∧ answers .jobResult = .ok "done") ∨
        (∃ err, answers (.removeUnit (recordedOr st.unitPath (systemdUnitPath (Systemd.defaultUnitName metadata
          workloadName)))) = .error err ∧ err.isNotExist = false) ∨
        answers .removeRecord ≠ .ok () ∨ answers .removeState ≠ .ok ())) ∧
    ∀ (answers : (op : ProcOp) → op.Answer) (kills : Bool) (pid : Nat), answers .readState = .found pid →
      (Truthful (stopBody.handle (ProcOp.reply answers kills) ⟨running, true⟩) ↔ running = false ∨
        (answers (.interrupt pid) = .ok () ∧ answers (.waitExit pid) = true) ∨ kills = true ∨
        (∃ prev, answers .getRecord = some prev ∧ answers (.deleteRecord prev) ≠ .ok ()) ∨ answers .removeState ≠ .ok ()) := by
  constructor
  · intro answers metadata workloadName st found
    rw [stop, Program.handle_bind]
    simp only [SystemdProvider.ask, Program.perform, Program.handle, UnitOp.reply, found, stopUnit, Program.handle_bind]
    generalize recordedOr st.unitName (Systemd.defaultUnitName metadata workloadName) = unit
    cases answers .connect with
    | error err => simp [removeUnit_truthful_iff]
    | ok =>
      simp only [systemdStop, waitSystemdJob, Program.handle_bind, SystemdProvider.ask, Program.perform, Program.handle,
        UnitOp.reply]
      cases answers (.stopUnit unit) with
      | error err => simp [removeUnit_truthful_iff, Program.handle, Pure.pure]
      | ok =>
        cases job : answers .jobResult with
        | error err => simp [removeUnit_truthful_iff, Program.handle, Pure.pure, UnitOp.reply, job]
        | ok result =>
          by_cases done : result = "done" <;>
            simp [removeUnit_truthful_iff, Program.handle, Pure.pure, UnitOp.reply, job, done]
  · intro answers kills pid found
    rw [stopBody, Program.handle_bind,
      ← decide_eq_true_iff (p := answers (.interrupt pid) = .ok () ∧ answers (.waitExit pid) = true)]
    simp only [ProcessProvider.ask, Program.perform, Program.handle, ProcOp.reply, found, Program.handle_bind,
      stopProcess_handle, removeWorkloadA_handle]
    generalize decide (answers (.interrupt pid) = .ok () ∧ answers (.waitExit pid) = true) = exits
    have last : Truthful ((ProcessProvider.ask .removeState).handle (ProcOp.reply answers kills)
        ⟨running && !(exits || kills), true⟩) ↔
        running = false ∨ exits = true ∨ kills = true ∨ answers .removeState ≠ .ok () := by
      cases removed : answers .removeState <;> cases running <;> cases exits <;> cases kills <;>
        simp [Truthful, Program.perform, Program.handle, ProcOp.reply, removed]
    cases answers .getRecord with
    | none => simpa [Check.pass, Program.perform] using last
    | some prev =>
      cases deleted : answers (.deleteRecord prev) with
      | error err => simp [Check.wrap, Truthful, Program.handle, Pure.pure, deleted]
      | ok => simpa [Check.wrap, Program.perform, deleted] using last

def SystemdProvider.UnitOp.smoothly (connected : Check) : (op : UnitOp) → op.Answer
  | .readState => .ok ⟨"web.service", "/etc/systemd/system/web.service"⟩
  | .connect => connected
  | .jobResult => .ok "done"
  | .stopUnit _ | .disableUnit _ | .removeUnit _ | .reload | .removeRecord | .removeState => .ok ()

def ProcessProvider.ProcOp.stubbornly : (op : ProcOp) → op.Answer
  | .readState => .found 7
  | .start => .ok 7
  | .processAlive _ => true
  | .waitExit _ => false
  | .wait => 7
  | .getRecord => none
  | .removeState | .writeState _ | .openLogFiles | .interrupt _ | .saveRecord _ | .deleteRecord _ => .ok ()
  | .begin | .finish _ | .kill _ | .goWait _ | .setRecord _ | .eraseRecord | .happen => ()

theorem stops_truthful_smoothly :
    Truthful ((SystemdProvider.stop { name := "web" } "api").handle
      (SystemdProvider.UnitOp.reply (SystemdProvider.UnitOp.smoothly .pass)) ⟨true, true⟩) ∧
    Truthful (ProcessProvider.stopBody.handle
      (ProcessProvider.ProcOp.reply ProcessProvider.ProcOp.stubbornly true) ⟨true, true⟩) :=
  ⟨((stops_truthful_iff true).1 _ _ _ _ rfl).mpr (.inr (.inl ⟨rfl, rfl, rfl⟩)),
    ((stops_truthful_iff true).2 _ _ 7 rfl).mpr (.inr (.inr (.inl rfl)))⟩

/-- Without a connection to systemd the unit goes on and its state file is
removed, and so it is when a process can be neither interrupted nor killed. -/
theorem stop_loses_running :
    (¬ ∀ (answers : (op : SystemdProvider.UnitOp) → op.Answer) (metadata : Metadata) (workloadName : String),
      Truthful ((SystemdProvider.stop metadata workloadName).handle (SystemdProvider.UnitOp.reply answers) ⟨true, true⟩)) ∧
    ¬ ∀ (answers : (op : ProcessProvider.ProcOp) → op.Answer) (kills : Bool),
      Truthful (ProcessProvider.stopBody.handle (ProcessProvider.ProcOp.reply answers kills) ⟨true, true⟩) := by
  constructor
  · intro truthful
    cases (truthful (SystemdProvider.UnitOp.smoothly (.fail "connection refused")) { name := "web" } "api").1 rfl
  · intro truthful
    cases (truthful ProcessProvider.ProcOp.stubbornly false).1 rfl

section Missing

/-- The state files of all providers, by the runtime and the name each is kept
under, with the workload it is for, and the workload records of the DNS service
by their keys, which all providers share. -/
structure Host where
  filed : RuntimeKind → String → Option (Metadata × String) := fun _ _ => none
  records : String → Option DnsRecord := fun _ => none

def Host.removeState (host : Host) (kind : RuntimeKind) (base : String) : Host :=
  { host with filed := fun other name => if other = kind ∧ name = base then none else host.filed other name }

def Host.eraseRecord (host : Host) (key : String) : Host :=
  { host with records := fun other => if other = key then none else host.records other }

/-- What is made of an error of `readState`. -/
def ProcessProvider.StateRead.ofError (err : Failure) : StateRead := if err.is .notExist then .missing else .failed err

/-- The calls come out as given, but a state file is found only if it is there. -/
def ProcessProvider.ProcOp.onHost (answers : (op : ProcOp) → op.Answer) (base key : String) (host : Host) :
    (op : ProcOp) → Host × op.Answer
  | .readState =>
    (host, if (host.filed .process base).isSome then answers .readState else .ofError (.wrapf .notExist "read process state"))
  | .removeState => (host.removeState .process base, answers .removeState)
  | .getRecord => (host, host.records key)
  | .eraseRecord => (host.eraseRecord key, ())
  | op => (host, answers op)

def SystemdProvider.UnitOp.onHost (answers : (op : UnitOp) → op.Answer) (base key : String) (host : Host) :
    (op : UnitOp) → Host × op.Answer
  | .readState =>
    (host, if (host.filed .systemd base).isSome then answers .readState else .error (.wrapf .notExist "read systemd state"))
  | .removeState => (host.removeState .systemd base, answers .removeState)
  | .removeRecord => (host.eraseRecord key, answers .removeRecord)
  | op => (host, answers op)

def FirecrackerProvider.VmOp.onHost (answers : (op : VmOp) → op.Answer) (base : String) (host : Host) :
    (op : VmOp) → Host × op.Answer
  | .readState => (host, if (host.filed .firecracker base).isSome then answers .readState
      else .error (.wrapf .notExist "read firecracker state"))
  | .removeState => (host.removeState .firecracker base, answers .removeState)
  | op => (host, answers op)

/-- The providers that keep state files, each with how its calls come out. -/
inductive FileBacked where
  | process (answers : (op : ProcessProvider.ProcOp) → op.Answer)
  | firecracker (answers : (op : FirecrackerProvider.VmOp) → op.Answer)
  | systemd (answers : (op : SystemdProvider.UnitOp) → op.Answer)

def FileBacked.kind : FileBacked → RuntimeKind
  | .process _ => .process
  | .firecracker _ => .firecracker
  | .systemd _ => .systemd

def FileBacked.stop (metadata : Metadata) (name : String) (host : Host) : FileBacked → Host × Check
  | .process answers => ProcessProvider.stopBody.handle
    (ProcessProvider.ProcOp.onHost answers (sanitizedTriple metadata name) (workloadRecordKey metadata.nspace name)) host
  | .firecracker answers => FirecrackerProvider.stop.handle
    (FirecrackerProvider.VmOp.onHost answers (sanitizedTriple metadata name)) host
  | .systemd answers => (SystemdProvider.stop metadata name).handle
    (SystemdProvider.UnitOp.onHost answers (sanitizedTriple metadata name) (workloadRecordKey metadata.nspace name)) host

/-- Another workload that a provider of the host has on file. -/
def Host.Has (host : Host) (metadata : Metadata) (name : String) (kind : RuntimeKind) (base : String)
    (other : Metadata × String) : Prop :=
  host.filed kind base = some other ∧ workloadId other.1 other.2 ≠ workloadId metadata name

/-- A stop returns no error and leaves every other workload as it is, its state
file and its record. -/
def Host.Unharmed (host : Host) (metadata : Metadata) (name : String) (after : Host × Check) : Prop :=
  after.2 = .ok () ∧ ∀ kind base other, host.Has metadata name kind base other → after.1.filed kind base = some other ∧
    after.1.records (workloadRecordKey other.1.nspace other.2) = host.records (workloadRecordKey other.1.nspace other.2)

/-- The condition under which a stop without a state file is harmless: not for
systemd, and for a process if no other workload is published under its key. -/
def FileBacked.Spares (metadata : Metadata) (name : String) (host : Host) : FileBacked → Prop
  | .process _ => ∀ kind base other, host.Has metadata name kind base other →
    workloadRecordKey other.1.nspace other.2 = workloadRecordKey metadata.nspace name →
      host.records (workloadRecordKey metadata.nspace name) = none
  | .firecracker _ => True
  | .systemd _ => False

def FileBacked.Deletes : FileBacked → Prop
  | .process answers => ∀ rec, answers (.deleteRecord rec) = .ok ()
  | _ => True

/-- A stop of a workload that its provider has no state file for returns no
error and touches no workload of any provider, exactly when it is not systemd's
and takes no record away that another workload is published under. -/
theorem stop_without_state_iff (metadata : Metadata) (name : String) (host : Host) (provider : FileBacked)
    (missing : host.filed provider.kind (sanitizedTriple metadata name) = none) (deletes : provider.Deletes) :
    host.Unharmed metadata name (provider.stop metadata name host) ↔ provider.Spares metadata name host := by
  cases provider with
  | systemd answers =>
    simp only [FileBacked.kind] at missing
    -- What `readState` wraps, `os.IsNotExist` does not find.
    have stopped : (FileBacked.systemd answers).stop metadata name host =
        (host, .error (.wrapf .notExist "read systemd state")) := by
      simp [FileBacked.stop, SystemdProvider.stop, SystemdProvider.ask, Program.perform, Program.handle,
        SystemdProvider.UnitOp.onHost, missing, Failure.isNotExist, Failure.notExist, Pure.pure]
    simp [stopped, Host.Unharmed, FileBacked.Spares]
  | firecracker answers =>
    simp only [FileBacked.kind] at missing
    have stopped : (FileBacked.firecracker answers).stop metadata name host = (host, .pass) := by
      simp [FileBacked.stop, FirecrackerProvider.stop, FirecrackerProvider.ask, Program.perform, Program.handle,
        FirecrackerProvider.VmOp.onHost, missing, Failure.is, Failure.notExist, Pure.pure]
    simp only [stopped, FileBacked.Spares, iff_true]
    exact ⟨rfl, fun _ _ _ has => ⟨has.1, rfl⟩⟩
  | process answers =>
    simp only [FileBacked.kind] at missing
    generalize keyed : workloadRecordKey metadata.nspace name = key
    have stopped : (FileBacked.process answers).stop metadata name host =
        (if host.records key = none then host else host.eraseRecord key, .pass) := by
      simp only [FileBacked.stop, keyed, ProcessProvider.stopBody, ProcessProvider.removeWorkloadA, ProcessProvider.ask,
        Program.perform, Program.handle_bind, Program.handle, ProcessProvider.ProcOp.onHost, missing, Option.isSome_none,
        ProcessProvider.StateRead.ofError, Failure.is, Failure.notExist, decide_true, if_true, Bool.false_eq_true, if_false]
      cases host.records key with
      | none => rfl
      | some prev => simp [Program.handle_bind, Program.handle, ProcessProvider.ProcOp.onHost, deletes prev, Pure.pure]
    simp only [stopped, Host.Unharmed, FileBacked.Spares, keyed, Check.pass, true_and]
    constructor
    · intro unharmed kind base other has same
      have kept := (unharmed kind base other has).2
      rw [same] at kept
      by_contra published
      rw [if_neg published] at kept
      exact published (by simpa [Host.eraseRecord] using kept.symm)
    · intro spared kind base other has
      split
      · exact ⟨has.1, rfl⟩
      · rename_i published
        exact ⟨has.1, if_neg fun same => published (spared kind base other has same)⟩

/-- A unit of the app `shop` is on file and published, and so is a process of
the app `web`, which has lost its state file. -/
def shopHost : Host where
  filed kind base := if kind = .systemd ∧ base = "default-shop-db" then some ({ name := "shop" }, "db") else none
  records key := if key = "default/db" ∨ key = "default/api" then some ⟨"", key, 60, typeA, "10.0.0.1"⟩ else none

theorem shopHost_has {metadata : Metadata} {name : String} {kind : RuntimeKind} {base : String} {other : Metadata × String}
    (has : shopHost.Has metadata name kind base other) : other = ({ name := "shop" }, "db") := by
  have filed := has.1
  simp only [shopHost, Option.ite_none_right_eq_some] at filed
  exact (Option.some.inj filed.2).symm

/-- The process takes its own record along, and leaves the unit. -/
theorem stop_without_state_process :
    let after := (FileBacked.process ProcessProvider.ProcOp.stubbornly).stop { name := "web" } "api" shopHost
    after.1.records "default/api" = none ∧ shopHost.Unharmed { name := "web" } "api" after := by
  refine ⟨by decide +kernel, (stop_without_state_iff _ _ _ (.process _) (by decide +kernel) fun _ => rfl).mpr ?_⟩
  intro kind base other has same
  rw [shopHost_has has] at same
  exact absurd same (by decide +kernel)

/-- A unit that was never started cannot be stopped, and a process that was
never started takes the record of a unit along. -/
theorem stop_without_state_fails :
    let harmless (provider : FileBacked) := ∀ metadata name, shopHost.filed provider.kind (sanitizedTriple metadata name) = none →
      shopHost.Unharmed metadata name (provider.stop metadata name shopHost)
    ¬ harmless (.systemd (SystemdProvider.UnitOp.smoothly .pass)) ∧ ¬ harmless (.process ProcessProvider.ProcOp.stubbornly) := by
  constructor
  · intro harmless
    exact absurd (harmless { name := "web" } "api" (by decide +kernel)).1 (by decide +kernel)
  · intro harmless
    have kept := ((harmless { name := "web" } "db" (by decide +kernel)).2 .systemd "default-shop-db" ({ name := "shop" }, "db")
      ⟨by decide +kernel, by decide +kernel⟩).2
    exact absurd kept (by decide +kernel)

end Missing

end Orch
