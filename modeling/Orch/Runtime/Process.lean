import Orch.Dns.Workloads
import Orch.Effect.Parallel

namespace Orch.ProcessProvider

open Effect

/-- What `readState` gives: the PID in the state file, if there is one. -/
inductive StateRead where
  | missing
  | failed (err : Failure)
  | found (pid : Nat)

/-- The calls of the provider: to the file system, to the operating system, and
to the store and the records of the DNS service. A call of `Deploy` or `Stop`
begins and finishes. -/
inductive ProcOp where
  | begin
  | finish (result : Check)
  | readState
  | removeState
  | writeState (pid : Nat)
  | openLogFiles
  | start
  | processAlive (pid : Nat)
  | kill (pid : Nat)
  | interrupt (pid : Nat)
  | waitExit (pid : Nat)
  | goWait (pid : Nat)
  | wait
  | getRecord
  | saveRecord (rec : DnsRecord)
  | deleteRecord (rec : DnsRecord)
  | setRecord (rec : DnsRecord)
  | eraseRecord
  | happen
deriving DecidableEq

abbrev ProcOp.Answer : ProcOp → Type
  | .readState => StateRead
  | .start => Except Failure Nat
  | .processAlive _ => Bool
  | .waitExit _ => Bool
  | .wait => Nat
  | .getRecord => Option DnsRecord
  | .removeState | .writeState _ | .openLogFiles | .interrupt _ | .saveRecord _ | .deleteRecord _ => Check
  | .begin | .finish _ | .kill _ | .goWait _ | .setRecord _ | .eraseRecord | .happen => Unit

abbrev ProcSig : Signature := ⟨ProcOp, ProcOp.Answer⟩

abbrev ProcTask := Program ProcSig

abbrev ask (op : ProcOp) : ProcTask op.Answer := Program.perform (S := ProcSig) op

def processCommand (run : RunSpec) : Option (String × List String) :=
  match run.exec.command.getD [] with
  | exe :: args => if trimSpace exe = "" then none else some (trimSpace exe, args ++ run.exec.args.getD [])
  | [] => if trimSpace run.artifact.path = "" then none else some (trimSpace run.artifact.path, run.exec.args.getD [])

def rejectUnsupportedMounts (runtime : RuntimeKind) (w : Workload) : Check :=
  if w.mounts = [] then .pass else .fail "runtime %s does not support workload mounts yet" [.text runtime.text]

section Dns

/-- Publish or replace the record, in the steps in which other calls may come
between. -/
def upsertWorkloadA (lib : DnsLibrary) (zone nspace workloadName ipv4 : String) : ProcTask Check :=
  if trimSpace ipv4 = "" then return .fail "workload %q: empty ipv4" [.text workloadName]
  else
    match lib.normalizeRecord (workloadRecord zone nspace workloadName ipv4) with
    | .error err => return .error (.wrapf err "dns workload record")
    | .ok norm => do
      let prev ← ask .getRecord
      match ← ask (.saveRecord norm) with
      | .error err => return .error (.wrapf err "save workload record")
      | .ok _ =>
        match prev with
        | some prev => if lib.key prev ≠ lib.key norm then do let _ ← ask (.deleteRecord prev)
        | none => pure ()
        ask (.setRecord norm)
        return .pass

def removeWorkloadA : ProcTask Check := do
  match ← ask .getRecord with
  | none => return .pass
  | some prev =>
    match ← ask (.deleteRecord prev) with
    | .error err => return .error (.wrapf err "delete workload record")
    | .ok _ =>
      ask .eraseRecord
      return .pass

end Dns

/-- The provider for one workload, with the address it is published under. The
DNS service is there and enabled. -/
structure Provider where
  lib : DnsLibrary
  zone : String
  metadata : Metadata
  workloadName : String
  address : String

def ensureNoLiveState (workloadName : String) : ProcTask Check := do
  match ← ask .readState with
  | .missing => return .pass
  | .failed err => return .error err
  | .found pid =>
    if 0 < pid then
      match ← ask (.processAlive pid) with
      | true => return .fail "process workload %q already has live pid %d" [.text workloadName, .number pid]
      | false => ask .removeState
    else ask .removeState

def startProcess (p : Provider) (exe : String) : ProcTask Check := do
  match ← ask .start with
  | .error err => return .error (.wrapf err "process start %q" [.text exe])
  | .ok pid =>
    match ← ask (.writeState pid) with
    | .error err =>
      ask (.kill pid)
      return .error err
    | .ok _ =>
      match ← upsertWorkloadA p.lib p.zone p.metadata.nspace p.workloadName p.address with
      | .error err =>
        ask (.kill pid)
        let _ ← ask .removeState
        return .error (.wrapf err "upsert workload DNS")
      | .ok _ =>
        ask (.goWait pid)
        return .pass

def deployBody (p : Provider) (w : Workload) : ProcTask Check :=
  match processCommand w.run with
  | none => return .fail "workload %q: run.exec.command or run.artifact.path is required" [.text w.name]
  | some (exe, _) =>
    match rejectUnsupportedMounts .process w with
    | .error err => return .error (.wrapf err "validate workload mounts")
    | .ok _ => do
      match ← ensureNoLiveState w.name with
      | .error err => return .error err
      | .ok _ =>
        match ← ask .openLogFiles with
        | .error err => return .error err
        | .ok _ => startProcess p exe

def stopProcess (pid : Nat) : ProcTask Unit := do
  match ← ask (.interrupt pid) with
  | .error _ => ask (.kill pid)
  | .ok _ =>
    match ← ask (.waitExit pid) with
    | true => return ()
    | false => ask (.kill pid)

def stopBody : ProcTask Check := do
  match ← ask .readState with
  | .missing =>
    let _ ← removeWorkloadA
    return .pass
  | .failed err => return .error err
  | .found pid =>
    stopProcess pid
    match ← removeWorkloadA with
    | .error err => return .error (.wrapf err "remove workload DNS")
    | .ok _ => ask .removeState

def removeStateIfPID (pid : Nat) : ProcTask Check := do
  match ← ask .readState with
  | .missing => return .pass
  | .failed err => return .error err
  | .found held => if held ≠ pid then return .pass else ask .removeState

def waitProcess : ProcTask Check := do
  let pid ← ask .wait
  let _ ← removeStateIfPID pid
  let _ ← removeWorkloadA
  return .pass

def call (body : ProcTask Check) : ProcTask Check := do
  ask .begin
  let result ← body
  ask (.finish result)
  return result

/-- Who acts: a call, the waiter of the process that a `Deploy` has started, or
the operating system by itself. -/
inductive Actor where
  | deploy (d : Nat)
  | stop (k : Nat)
  | waiter (d : Nat)
  | os (n : Nat)
deriving DecidableEq

/-- The program of each actor, for the workloads that the calls of `Deploy` are
made with. -/
def program (p : Provider) (requests : Nat → Workload) : Actor → ProcTask Check
  | .deploy d => call (deployBody p (requests d))
  | .stop _ => call stopBody
  | .waiter _ => waitProcess
  | .os _ => do
    ask .happen
    return .pass

/-- What runs under a PID: the process of a `Deploy` or another one. A process that
has ended keeps its PID until it is waited for. -/
structure Proc where
  owner : Option Nat
  running : Bool
deriving DecidableEq

/-- The state file may hold what cannot be read. -/
inductive StateFile where
  | absent
  | unreadable
  | holds (pid : Nat)
deriving DecidableEq

structure ProcState (lib : DnsLibrary) where
  file : StateFile := .absent
  procs : Nat → Option Proc := fun _ => none
  waits : Nat → Option Nat := fun _ => none
  store : lib.Store
  record : Option DnsRecord := none

inductive OsEvent where
  | exit (pid : Nat)
  | appear (pid : Nat)
  | vanish (pid : Nat)

structure ProcChoice (lib : DnsLibrary) where
  ok : Bool := true
  torn : Bool := false
  pid : Nat := 0
  event : OsEvent := .exit 0
  storing : lib.Choice

namespace ProcState

variable {lib : DnsLibrary}

def setProc (s : ProcState lib) (pid : Nat) (proc : Option Proc) : ProcState lib :=
  { s with procs := fun other => if other = pid then proc else s.procs other }

def endProc (s : ProcState lib) (pid : Nat) : ProcState lib :=
  s.setProc pid ((s.procs pid).map fun proc => { proc with running := false })

def happen (s : ProcState lib) : OsEvent → Option (ProcState lib)
  | .exit pid => some (s.endProc pid)
  | .appear pid => if s.procs pid = none then some (s.setProc pid (some ⟨none, true⟩)) else none
  | .vanish pid =>
    match s.procs pid with
    | some ⟨none, _⟩ => some (s.setProc pid none)
    | _ => none

def perform (who : Actor) (s : ProcState lib) (op : ProcOp) (c : ProcChoice lib) : Option (ProcState lib × op.Answer) :=
  match op with
  | .begin => some (s, ())
  | .finish _ => some (s, ())
  | .readState =>
    some (s,
      if !c.ok then .failed (.wrapf (.errorf "input/output error") "read process state")
      else
        match s.file with
        | .absent => .missing
        | .unreadable => .failed (.wrapf (.errorf "unexpected end of JSON input") "decode process state")
        | .holds pid => .found pid)
  | .removeState =>
    if c.ok then some ({ s with file := .absent }, .pass)
    else some (s, .error (.wrapf (.errorf "permission denied") "remove process state"))
  | .writeState pid =>
    if c.ok then some ({ s with file := .holds pid }, .pass)
    else
      -- A write that fails may leave a part of the file.
      some (if c.torn then { s with file := .unreadable } else s,
        .error (.wrapf (.errorf "no space left on device") "write process state"))
  | .openLogFiles => some (s, if c.ok then .pass else .fail "open log file")
  | .start =>
    if !c.ok then some (s, .error (.errorf "no such file or directory"))
    else
      match who with
      | .deploy d =>
        if 0 < c.pid ∧ s.procs c.pid = none then some (s.setProc c.pid (some ⟨some d, true⟩), .ok c.pid) else none
      | _ => none
  | .processAlive pid => some (s, (s.procs pid).isSome)
  | .kill pid => some (s.endProc pid, ())
  | .interrupt pid => some (s, if (s.procs pid).isSome ∧ c.ok then .pass else .fail "os: process already finished")
  | .waitExit pid => some (s, (s.procs pid).isNone)
  | .goWait pid =>
    match who with
    | .deploy d => some ({ s with waits := fun other => if other = d then some pid else s.waits other }, ())
    | _ => none
  | .wait =>
    match who with
    | .waiter d =>
      match s.waits d with
      | none => none
      | some pid => if s.procs pid = some ⟨some d, false⟩ then some (s.setProc pid none, pid) else none
    | _ => none
  | .getRecord => some (s, s.record)
  | .saveRecord rec =>
    let (store, saved) := lib.saveRecord c.storing s.store rec
    some ({ s with store }, saved)
  | .deleteRecord rec =>
    let (store, deleted) := lib.deleteRecord c.storing s.store rec
    some ({ s with store }, deleted)
  | .setRecord rec => some ({ s with record := some rec }, ())
  | .eraseRecord => some ({ s with record := none }, ())
  | .happen => (s.happen c.event).map fun next => (next, ())

def machine (lib : DnsLibrary) (who : Actor) : Machine ProcSig (ProcState lib) where
  Choice := ProcChoice lib
  perform := perform who

end ProcState

end Orch.ProcessProvider
