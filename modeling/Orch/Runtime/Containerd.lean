import Orch.Effect.Program
import Orch.Meta

namespace Orch.Containerd

open Effect

/-- Labels and selectors are key and value pairs. -/
abbrev LabelSet := List (String × String)

/-- What the provider creates an object for. -/
structure Owner where
  metadata : Metadata
  workload : Workload
deriving DecidableEq

def criWorkloadLabels (metadata : Metadata) (w : Workload) : LabelSet := (labelMap metadata w).pairs

def criWorkloadLabelSelector (metadata : Metadata) (workloadName : String) : LabelSet :=
  [("orch.io/namespace", namespaceOrDefault metadata.nspace), ("orch.io/workload", trimSpace workloadName)]

def Owner.labels (o : Owner) : LabelSet := criWorkloadLabels o.metadata o.workload

def Owner.id (o : Owner) : WorkloadId := workloadId o.metadata o.workload.name

/-- An object is selected if its labels contain every pair asked for. -/
def selects (selector labels : LabelSet) : Bool := selector.all (· ∈ labels)

structure ContainerInfo where
  id : String
  sandboxID : String
deriving DecidableEq

structure Container extends ContainerInfo where
  owner : Owner
  running : Bool
deriving DecidableEq

structure Sandbox where
  id : String
  owner : Owner
deriving DecidableEq

structure CriState where
  containers : List Container := []
  sandboxes : List Sandbox := []
deriving DecidableEq

/-- The calls of the provider: to the CRI service, to the file system and to
the DNS service. -/
inductive CriOp where
  | dial
  | listContainers (selector : LabelSet)
  | listPodSandbox (selector : LabelSet)
  | containerStatus (id : String)
  | stopContainer (id : String)
  | removeContainer (id : String)
  | stopPodSandbox (id : String)
  | removePodSandbox (id : String)
  | podSandboxStatus (id : String)
  | makeLogDir
  | pullImage (ref : String)
  | runPodSandbox (owner : Owner)
  | containerConfig (owner : Owner)
  | createContainer (sandboxID : String) (owner : Owner)
  | startContainer (id : String)
  | upsertWorkloadA (nspace name ip : String)
  | removeWorkloadA (nspace name : String)

abbrev CriOp.Answer : CriOp → Type
  | .listContainers _ => Except Failure (List ContainerInfo)
  | .listPodSandbox _ => Except Failure (List String)
  | .containerStatus _ => Except Failure Bool
  | .podSandboxStatus _ => Except Failure String
  | .runPodSandbox _ => Except Failure String
  | .createContainer _ _ => Except Failure String
  | _ => Check

abbrev CriSig : Signature := ⟨CriOp, CriOp.Answer⟩

abbrev CriTask := Program CriSig

abbrev ask (op : CriOp) : CriTask op.Answer := Program.perform (S := CriSig) op

def criSandboxIPAttempts : Nat := 40

def sandboxIPPending : Failure := .errorf "sandbox ip pending"

def waitSandboxIP (sandboxID : String) (last : Failure) : Nat → CriTask (Except Failure String)
  | 0 =>
    return .error (if last = sandboxIPPending then .errorf "timeout waiting for sandbox ip"
      else .wrapf last "containerd CRI sandbox status")
  | tries + 1 => do
    match ← ask (.podSandboxStatus sandboxID) with
    | .error err => waitSandboxIP sandboxID err tries
    | .ok ip =>
      if trimSpace ip ≠ "" then return .ok (trimSpace ip) else waitSandboxIP sandboxID sandboxIPPending tries

def recordCRIWorkloadDNS (dns : Bool) (metadata : Metadata) (w : Workload) (sandboxID : String) : CriTask Check :=
  if !dns then return .ok ()
  else do
    match ← waitSandboxIP sandboxID sandboxIPPending criSandboxIPAttempts with
    | .error err => return .error err
    | .ok ip => ask (.upsertWorkloadA metadata.nspace w.name ip)

/-- A failed stop is passed over, a failed removal is not. -/
def removeCRIContainer (containerID : String) : CriTask Check :=
  if trimSpace containerID = "" then return .ok ()
  else do
    let _ ← ask (.stopContainer containerID)
    return (← ask (.removeContainer containerID)).wrap "containerd CRI remove container"

def firstError : Check → Option Failure → Option Failure
  | .error err, _ => some err
  | .ok _, later => later

def removeCRISandboxes : List String → CriTask (Option Failure)
  | [] => return none
  | sandboxID :: rest =>
    if trimSpace sandboxID = "" then removeCRISandboxes rest
    else do
      let _ ← ask (.stopPodSandbox sandboxID)
      let removed ← ask (.removePodSandbox sandboxID)
      return firstError (removed.wrap "containerd CRI remove sandbox") (← removeCRISandboxes rest)

def sandboxIDsFromList (ids : List String) : List String :=
  (ids.filter fun id => trimSpace id ≠ "").eraseDups

/-- Whether one of the containers runs, and the sandbox of the first that
does. The others are removed. -/
def scanExisting (running : Bool) (runningSandboxID : String) :
    List ContainerInfo → CriTask (Except Failure (Bool × String))
  | [] => return .ok (running, runningSandboxID)
  | ctr :: rest =>
    let id := trimSpace ctr.id
    if id = "" then scanExisting running runningSandboxID rest
    else do
      match ← ask (.containerStatus id) with
      | .error err => return .error (.wrapf err "containerd CRI container status")
      | .ok true =>
        scanExisting true (if runningSandboxID = "" then trimSpace ctr.sandboxID else runningSandboxID) rest
      | .ok false =>
        match ← removeCRIContainer id with
        | .error err => return .error err
        | .ok _ => scanExisting running runningSandboxID rest

/-- The sandbox reported as already running, if there is one. -/
def prepareExistingCRIContainers (dns : Bool) (metadata : Metadata) (w : Workload) (containers : List ContainerInfo) :
    CriTask (Except Failure (Option String)) := do
  match ← scanExisting false "" containers with
  | .error err => return .error err
  | .ok (false, _) => return .ok none
  | .ok (true, sandboxID) =>
    match ← recordCRIWorkloadDNS dns metadata w sandboxID with
    | .error err => return .error err
    | .ok _ => return .ok (some sandboxID)

def prepareExistingCRIWorkload (dns : Bool) (metadata : Metadata) (w : Workload) :
    CriTask (Except Failure (Option String)) := do
  match ← ask (.listContainers (criWorkloadLabelSelector metadata w.name)) with
  | .error err => return .error (.wrapf err "containerd CRI list containers")
  | .ok containers =>
    match ← prepareExistingCRIContainers dns metadata w containers with
    | .error err => return .error err
    | .ok (some sandboxID) => return .ok (some sandboxID)
    | .ok none =>
      match ← ask (.listPodSandbox (criWorkloadLabelSelector metadata w.name)) with
      | .error err => return .error (.wrapf err "containerd CRI list sandboxes")
      | .ok sandboxes =>
        match ← removeCRISandboxes (sandboxIDsFromList sandboxes) with
        | some err => return .error err
        | none => return .ok none

def cleanupContainer (containerID : String) : CriTask Unit :=
  if trimSpace containerID = "" then return ()
  else do
    let _ ← ask (.stopContainer containerID)
    let _ ← ask (.removeContainer containerID)

def cleanupSandbox (sandboxID : String) : CriTask Unit :=
  if trimSpace sandboxID = "" then return ()
  else do
    let _ ← ask (.stopPodSandbox sandboxID)
    let _ ← ask (.removePodSandbox sandboxID)

/-- Take back what was created, as far as that works. -/
def cleanupCRIWorkload (containerID sandboxID : String) : CriTask Unit := do
  cleanupContainer containerID
  cleanupSandbox sandboxID

structure Started where
  sandboxID : String
  containerID : String
  ip : String

inductive Report where
  | alreadyRunning (sandboxID : String)
  | started (container : Started)

/-- Run the container in a sandbox that is there. What was created is taken
away again after an error. -/
def startInSandbox (dns : Bool) (owner : Owner) (sandboxID : String) : CriTask (Except Failure Started) := do
  match ← ask (.containerConfig owner) with
  | .error err =>
    cleanupCRIWorkload "" sandboxID
    return .error (.wrapf err "containerd CRI container config")
  | .ok _ =>
    match ← ask (.createContainer sandboxID owner) with
    | .error err =>
      cleanupCRIWorkload "" sandboxID
      return .error (.wrapf err "containerd CRI create container")
    | .ok containerID =>
      match ← ask (.startContainer containerID) with
      | .error err =>
        cleanupCRIWorkload containerID sandboxID
        return .error (.wrapf err "containerd CRI start container")
      | .ok _ =>
        match ← waitSandboxIP sandboxID sandboxIPPending criSandboxIPAttempts with
        | .error err =>
          cleanupCRIWorkload containerID sandboxID
          return .error err
        | .ok ip =>
          if !dns then return .ok ⟨sandboxID, containerID, ip⟩
          else
            match ← ask (.upsertWorkloadA owner.metadata.nspace owner.workload.name ip) with
            | .error err =>
              cleanupCRIWorkload containerID sandboxID
              return .error err
            | .ok _ => return .ok ⟨sandboxID, containerID, ip⟩

def createWorkload (dns : Bool) (owner : Owner) (ref : String) : CriTask (Except Failure Started) := do
  match ← ask .makeLogDir with
  | .error err => return .error (.wrapf err "create containerd CRI log dir")
  | .ok _ =>
    match ← ask (.pullImage ref) with
    | .error err => return .error (.wrapf err "containerd CRI pull %q" [.text ref])
    | .ok _ =>
      match ← ask (.runPodSandbox owner) with
      | .error err => return .error (.wrapf err "containerd CRI run sandbox")
      | .ok sandboxID => startInSandbox dns owner sandboxID

def deploy (dns : Bool) (metadata : Metadata) (w : Workload) : CriTask (Except Failure Report) := do
  match ← ask .dial with
  | .error err => return .error err
  | .ok _ =>
    let ref := normalizeImageRef w.run.artifact.image
    if ref = "" then return .error (.errorf "workload %q: run.artifact.image is required" [.text w.name])
    else
      match ← prepareExistingCRIWorkload dns metadata w with
      | .error err => return .error err
      | .ok (some sandboxID) => return .ok (.alreadyRunning sandboxID)
      | .ok none => return (← createWorkload dns ⟨metadata, w⟩ ref).map .started

/-- Stop and remove each container. The sandboxes they were in, and the
first error. -/
def stopContainers : List ContainerInfo → CriTask (List String × Option Failure)
  | [] => return ([], none)
  | ctr :: rest =>
    let id := trimSpace ctr.id
    let sandbox := [trimSpace ctr.sandboxID].filter (· ≠ "")
    if id = "" then do
      let (sandboxIDs, later) ← stopContainers rest
      return (sandbox ++ sandboxIDs, later)
    else do
      let stopped ← ask (.stopContainer id)
      let removed ← ask (.removeContainer id)
      let (sandboxIDs, later) ← stopContainers rest
      return (sandbox ++ sandboxIDs,
        firstError (stopped.wrap "containerd CRI stop container")
          (firstError (removed.wrap "containerd CRI remove container") later))

def stopSandboxes : List String → CriTask (Option Failure)
  | [] => return none
  | sandboxID :: rest => do
    let stopped ← ask (.stopPodSandbox sandboxID)
    let removed ← ask (.removePodSandbox sandboxID)
    return firstError (stopped.wrap "containerd CRI stop sandbox")
      (firstError (removed.wrap "containerd CRI remove sandbox") (← stopSandboxes rest))

def stop (dns : Bool) (metadata : Metadata) (workloadName : String) : CriTask Check := do
  match ← ask .dial with
  | .error err => return .error err
  | .ok _ =>
    match ← ask (.listContainers (criWorkloadLabelSelector metadata workloadName)) with
    | .error err => return .error (.wrapf err "containerd CRI list containers")
    | .ok containers =>
      match ← stopContainers containers with
      | (_, some err) => return .error err
      | (sandboxIDs, none) =>
        match ← ask (.listPodSandbox (criWorkloadLabelSelector metadata workloadName)) with
        | .error err => return .error (.wrapf err "containerd CRI list sandboxes")
        | .ok sandboxes =>
          match ← stopSandboxes (sandboxIDs ++ sandboxIDsFromList sandboxes).eraseDups with
          | some err => return .error err
          | none => if dns then ask (.removeWorkloadA metadata.nspace workloadName) else return .ok ()

/-- What the environment decides for one call. A call that fails may have
been carried out all the same, and containers may exit by themselves. -/
structure CriChoice where
  ok : Bool := true
  landed : Bool := false
  exits : List String := []
  containers : Option (List ContainerInfo) := none
  sandboxes : Option (List String) := none
  fresh : String := ""
  ip : String := ""

def CriChoice.check (c : CriChoice) : Check := if c.ok then .ok () else .fail "rpc error"

def inOrder {α : Type} [DecidableEq α] (order : Option (List α)) (items : List α) : Option (List α) :=
  match order with
  | none => some items
  | some chosen => if chosen.isPerm items then some chosen else none

namespace CriState

def mark (s : CriState) (ids : List String) (running : Bool) : CriState :=
  { s with containers := s.containers.map fun ctr => if ctr.id ∈ ids then { ctr with running } else ctr }

def removeContainer (s : CriState) (id : String) : CriState :=
  { s with containers := s.containers.filter fun ctr => ctr.id ≠ id }

/-- A sandbox goes with the containers in it. -/
def removePodSandbox (s : CriState) (id : String) : CriState where
  containers := s.containers.filter fun ctr => ctr.sandboxID ≠ id
  sandboxes := s.sandboxes.filter fun sandbox => sandbox.id ≠ id

/-- A call that fails may have changed the state. -/
def change (s t : CriState) (c : CriChoice) : CriState × Check :=
  if c.ok then (t, .ok ()) else (if c.landed then t else s, .fail "rpc error")

/-- The ids that the service gives out are new and not blank. -/
def isFresh (s : CriState) (id : String) : Bool :=
  trimSpace id = id ∧ id ≠ "" ∧ id ∉ s.containers.map (·.id) ∧ id ∉ s.sandboxes.map (·.id)

def create (s t : CriState) (c : CriChoice) : Option (CriState × Except Failure String) :=
  if !c.ok ∧ !c.landed then some (s, .error (.errorf "rpc error"))
  else if !s.isFresh c.fresh then none
  else some (t, if c.ok then .ok c.fresh else .error (.errorf "rpc error"))

def perform (start : CriState) (op : CriOp) (c : CriChoice) : Option (CriState × op.Answer) :=
  let s := start.mark c.exits false
  match op with
  | .listContainers selector =>
    if !c.ok then some (s, .error (.errorf "rpc error"))
    else
      (inOrder c.containers ((s.containers.filter fun ctr => selects selector ctr.owner.labels).map
        Container.toContainerInfo)).map fun listed => (s, .ok listed)
  | .listPodSandbox selector =>
    if !c.ok then some (s, .error (.errorf "rpc error"))
    else
      (inOrder c.sandboxes ((s.sandboxes.filter fun sandbox => selects selector sandbox.owner.labels).map
        Sandbox.id)).map fun listed => (s, .ok listed)
  | .containerStatus id =>
    match s.containers.find? (·.id = id), c.ok with
    | some ctr, true => some (s, .ok ctr.running)
    | _, _ => some (s, .error (.errorf "rpc error"))
  | .stopContainer id => some (s.change (s.mark [id] false) c)
  | .removeContainer id => some (s.change (s.removeContainer id) c)
  | .stopPodSandbox id => some (s.change (s.mark ((s.containers.filter (·.sandboxID = id)).map (·.id)) false) c)
  | .removePodSandbox id => some (s.change (s.removePodSandbox id) c)
  | .podSandboxStatus _ => some (s, if c.ok then .ok c.ip else .error (.errorf "rpc error"))
  | .runPodSandbox owner => s.create { s with sandboxes := ⟨c.fresh, owner⟩ :: s.sandboxes } c
  | .createContainer sandboxID owner =>
    if sandboxID ∉ s.sandboxes.map (·.id) then some (s, .error (.errorf "sandbox not found"))
    else s.create { s with containers := ⟨⟨c.fresh, sandboxID⟩, owner, false⟩ :: s.containers } c
  | .startContainer id => some (s.change (s.mark [id] true) c)
  | .dial | .makeLogDir | .pullImage _ | .containerConfig _ | .upsertWorkloadA _ _ _ | .removeWorkloadA _ _ =>
    some (s, c.check)

def machine : Machine CriSig CriState where
  Choice := CriChoice
  perform := perform

end CriState

end Orch.Containerd
