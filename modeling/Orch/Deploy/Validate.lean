import Orch.Deploy.Dependency
import Orch.Std.Parse

namespace Orch

def isNameStart (c : Char) : Bool :=
  ('a' ≤ c && c ≤ 'z') || ('A' ≤ c && c ≤ 'Z')

def isNameRest (c : Char) : Bool :=
  isNameStart c || ('0' ≤ c && c ≤ '9') || c == '.' || c == '_' || c == '-'

/-- The expression `^[a-zA-Z][a-zA-Z0-9._-]{0,127}$`. -/
def nameRe (s : String) : Bool :=
  match s.toList with
  | [] => false
  | first :: rest => isNameStart first && rest.all isNameRest && rest.length ≤ 127

theorem isNameRest_of_nameRe {s : String} (valid : nameRe s = true) : ∀ c ∈ s.toList, isNameRest c = true := by
  unfold nameRe at valid
  split at valid
  · cases valid
  · rename_i first rest chars
    simp only [Bool.and_eq_true, List.all_eq_true] at valid
    rw [chars]
    intro c member
    rcases List.mem_cons.mp member with rfl | later
    · simp [isNameRest, valid.1.1]
    · exact valid.1.2 c later

def App.validateMetadata (a : App) : Check :=
  if trimSpace a.metadata.name = "" then .fail "metadata.name is required"
  else if !nameRe a.metadata.name then .fail "metadata.name is invalid: %q" [.text a.metadata.name]
  else if a.metadata.nspace ≠ "" ∧ !nameRe a.metadata.nspace then
    .fail "metadata.namespace is invalid: %q" [.text a.metadata.nspace]
  else .pass

namespace Workload

/-- The names seen so far, with this one added. -/
def validateName (w : Workload) (seen : List String) : Except Failure (List String) :=
  if trimSpace w.name = "" then .error (.errorf "name is required")
  else if !nameRe w.name then .error (.errorf "name is invalid: %q" [.text w.name])
  else if w.name ∈ seen then .error (.errorf "duplicate workload name %q" [.text w.name])
  else .ok (seen ++ [w.name])

def validateKind (w : Workload) : Check :=
  match w.kind with
  | .service | .worker | .job | .cron | .stateful => .pass
  | .other text => .fail "invalid kind %q" [.text text]

def validateRuntime (w : Workload) : Check :=
  match w.runtime with
  | .docker | .containerd | .podman | .firecracker | .process | .systemd | .windowsService => .pass
  | .other text => .fail "invalid runtime %q" [.text text]

def validateImageRuntime (w : Workload) : Check :=
  if trimSpace w.run.artifact.image = "" then
    .fail "run.artifact.image is required for runtime %q" [.text w.runtime.text]
  else .pass

def validateExecRuntime (w : Workload) : Check :=
  if (w.run.exec.command.getD []).isEmpty ∧ trimSpace w.run.artifact.path = "" then
    .fail "run.exec.command or run.artifact.path is required for runtime %q" [.text w.runtime.text]
  else .pass

end Workload

def requireText (s format : String) : Check :=
  if trimSpace s = "" then .fail format else .pass

def requireNonNegative (n : Int) (format : String) (args : List Arg := []) : Check :=
  if n < 0 then .fail format args else .pass

def validateFirecrackerKernel (opts : FirecrackerOptions) : Check :=
  requireText opts.kernelImagePath "run.runtimeOptions.firecracker.kernelImagePath is required"

def validateFirecrackerRootfs (opts : FirecrackerOptions) : Check :=
  requireText opts.rootfsPath "run.runtimeOptions.firecracker.rootfsPath is required"

def hasFirecrackerNetworkFields (opts : FirecrackerOptions) : Bool :=
  trimSpace opts.networkInterfaceID != "" || trimSpace opts.tapDeviceName != "" ||
    trimSpace opts.guestMAC != "" || opts.allowMMDSRequests

def validateFirecrackerGuestMAC (opts : FirecrackerOptions) : Check :=
  let mac := trimSpace opts.guestMAC
  if mac = "" then .pass
  else if (Parse.mac mac).isNone then
    .fail "run.runtimeOptions.firecracker.guestMAC is invalid: %q" [.text mac]
  else .pass

def validateFirecrackerNetwork (opts : FirecrackerOptions) : Check :=
  if !hasFirecrackerNetworkFields opts then .pass
  else if trimSpace opts.tapDeviceName = "" then
    .fail "run.runtimeOptions.firecracker.tapDeviceName is required when firecracker network is configured"
  else validateFirecrackerGuestMAC opts

def validateFirecrackerCapacity (opts : FirecrackerOptions) : Check := do
  requireNonNegative opts.vcpuCount "run.runtimeOptions.firecracker.vcpuCount must be >= 0"
  requireNonNegative opts.memSizeMiB "run.runtimeOptions.firecracker.memSizeMiB must be >= 0"

def validateProbeDuration (field raw : String) : Check :=
  if trimSpace raw = "" then .pass
  else
    match Parse.duration raw with
    | none => .error (.wrapf (.errorf "time: invalid duration %q" [.text raw]) "%s is invalid" [.text field])
    | some _ => .pass

def validateProbePort (field : String) (port : Int) : Check :=
  if port = 0 then .pass
  else if port < 0 ∨ port > 65535 then .fail "%s must be 1..65535 (got %d)" [.text field, .number port]
  else .pass

def validateProbeTiming (name : String) (probe : Probe) : Check := do
  requireNonNegative probe.retries "health.%s.retries must be >= 0" [.text name]
  validateProbeDuration ("health." ++ name ++ ".interval") probe.interval
  validateProbeDuration ("health." ++ name ++ ".timeout") probe.timeout
  validateProbeDuration ("health." ++ name ++ ".startPeriod") probe.startPeriod

def probeEndpointProtocolMatches (actual want : EndpointProto) : Bool :=
  if want = .tcp then actual = .tcp || actual = .http else actual = want

namespace Workload

def validateFirecrackerRuntime (w : Workload) : Check :=
  match w.run.options.firecracker with
  | none => .fail "run.runtimeOptions.firecracker is required for runtime %q" [.text w.runtime.text]
  | some opts => do
    validateFirecrackerKernel opts
    validateFirecrackerRootfs opts
    validateFirecrackerNetwork opts
    validateFirecrackerCapacity opts

def validateRunForRuntime (w : Workload) : Check :=
  match w.runtime with
  | .docker | .containerd | .podman => w.validateImageRuntime
  | .firecracker => w.validateFirecrackerRuntime
  | .process | .systemd | .windowsService => w.validateExecRuntime
  | .other _ => .pass

def validateEnv (w : Workload) : Check :=
  checkEach w.run.env fun i env =>
    if trimSpace env.name = "" then .fail "run.env[%d].name is required" [.number i] else .pass

def validateReplicaCount (w : Workload) : Check :=
  requireNonNegative w.replicas "replicas must be >= 0"

def validateResources (w : Workload) : Check :=
  match w.resources with
  | none => .pass
  | some resources => do
    requireNonNegative resources.cpuMillis "resources.cpuMillis must be >= 0"
    requireNonNegative resources.memoryBytes "resources.memoryBytes must be >= 0"

def firstProbeEndpoint (w : Workload) (want : EndpointProto) : Option Endpoint :=
  w.endpoints.find? fun endpoint => probeEndpointProtocolMatches endpoint.protocol want

def endpointByName (w : Workload) (name : String) : Option Endpoint :=
  w.endpoints.find? fun endpoint => trimSpace endpoint.name == name

def validateDefaultProbeEndpoint (w : Workload) (field : String) (want : EndpointProto) (explicitPort : Int) : Check :=
  if explicitPort > 0 ∨ (w.firstProbeEndpoint want).isSome then .pass
  else .fail "%s or port is required" [.text field]

def validateProbeEndpoint (w : Workload) (field : String) (ref : EndpointRef) (want : EndpointProto)
    (explicitPort : Int) : Check :=
  let workload := trimSpace ref.workload
  let endpointName := trimSpace ref.endpoint
  if workload ≠ "" ∧ workload ≠ w.name then .fail "%s.workload must be empty or %q" [.text field, .text w.name]
  else if endpointName = "" then w.validateDefaultProbeEndpoint field want explicitPort
  else
    match w.endpointByName endpointName with
    | none => .fail "%s references unknown endpoint %q" [.text field, .text endpointName]
    | some endpoint =>
      if probeEndpointProtocolMatches endpoint.protocol want then .pass
      else .fail "%s references %s endpoint %q" [.text field, .text endpoint.protocol.text, .text endpointName]

def validateHTTPProbe (w : Workload) (name : String) (probe : HTTPProbe) : Check := do
  validateProbePort ("health." ++ name ++ ".http.port") probe.port
  w.validateProbeEndpoint ("health." ++ name ++ ".http.endpoint") probe.endpoint .http probe.port

def validateTCPProbe (w : Workload) (name : String) (probe : TCPProbe) : Check := do
  validateProbePort ("health." ++ name ++ ".tcp.port") probe.port
  w.validateProbeEndpoint ("health." ++ name ++ ".tcp.endpoint") probe.endpoint .tcp probe.port

def validateProbeKind (w : Workload) (name : String) (probe : Probe) : Check :=
  match probe.http, probe.tcp with
  | none, none => .fail "health.%s probe kind is required" [.text name]
  | some _, some _ => .fail "health.%s must specify exactly one probe kind" [.text name]
  | some http, none => w.validateHTTPProbe name http
  | none, some tcp => w.validateTCPProbe name tcp

def validateProbe (w : Workload) (name : String) (probe : Option Probe) : Check :=
  match probe with
  | none => .pass
  | some probe => do
    validateProbeTiming name probe
    w.validateProbeKind name probe

def validateHealth (w : Workload) : Check :=
  match w.health with
  | none => .pass
  | some health => do
    w.validateProbe "readiness" health.readiness
    w.validateProbe "liveness" health.liveness
    w.validateProbe "startup" health.startup

end Workload

def validateRestartPolicy (policy : String) : Check :=
  if trimSpace policy ∈ ["", "always", "on-failure", "never"] then .pass
  else .fail "lifecycle.restartPolicy must be one of always, on-failure, never"

def Workload.validateLifecycle (w : Workload) : Check :=
  match w.lifecycle with
  | none => .pass
  | some lifecycle => do
    validateRestartPolicy lifecycle.restartPolicy
    requireNonNegative lifecycle.maxRestarts "lifecycle.maxRestarts must be >= 0"
    if trimSpace lifecycle.restartDelay = "" then Check.pass
    else
      match Parse.duration lifecycle.restartDelay with
      | none =>
        .error (.wrapf (.errorf "time: invalid duration %q" [.text lifecycle.restartDelay])
          "lifecycle.restartDelay is invalid")
      | some _ => Check.pass

def isRolloutStrategy (strategy : String) : Bool :=
  trimSpace strategy ∈ ["", "recreate", "stop-before-start", "rolling"]

def Rollout.progressDeadlineDuration (r : Rollout) : Except Failure Int :=
  if trimSpace r.progressDeadline = "" then .ok 0
  else
    match Parse.duration r.progressDeadline with
    | none =>
      .error (.wrapf (.errorf "time: invalid duration %q" [.text r.progressDeadline]) "parse rollout progress deadline")
    | some deadline => .ok deadline

def Workload.validateRollout (w : Workload) : Check :=
  match w.rollout with
  | none => .pass
  | some rollout => do
    if !isRolloutStrategy rollout.strategy then
      Check.fail "rollout.strategy is invalid: %q" [.text (trimSpace rollout.strategy)]
    requireNonNegative rollout.maxUnavailable "rollout.maxUnavailable must be >= 0"
    requireNonNegative rollout.maxSurge "rollout.maxSurge must be >= 0"
    if trimSpace rollout.progressDeadline = "" then Check.pass
    else
      match rollout.progressDeadlineDuration with
      | .error err => .error (.wrapf err "rollout.progressDeadline is invalid")
      | .ok deadline => if deadline ≤ 0 then Check.fail "rollout.progressDeadline must be > 0" else Check.pass

/-- All checks of one workload. The result is the set of names seen so far. -/
def Workload.validate (w : Workload) (seen : List String) : Except Failure (List String) := do
  let seen ← w.validateName seen
  w.validateKind
  w.validateRuntime
  w.validateRunForRuntime
  w.validateEnv
  w.validateReplicaCount
  w.validateResources
  w.validateHealth
  w.validateLifecycle
  w.validateRollout
  return seen

def validateWorkloads (seen : List String) : Nat → List Workload → Except Failure (List String)
  | _, [] => .ok seen
  | i, workload :: rest =>
    match workload.validate seen with
    | .error err => .error (.wrapf err "workloads[%d]" [.number i])
    | .ok seen => validateWorkloads seen (i + 1) rest

def normalizeDependencyCondition (condition : String) : String :=
  if trimSpace condition = "" then "ready" else trimSpace condition

def isDependencyCondition (condition : String) : Bool :=
  normalizeDependencyCondition condition ∈ ["started", "ready", "completed"]

def workloadKindCanComplete : WorkloadKind → Bool
  | .job | .cron => true
  | _ => false

/-- The last workload of that name, as in a map filled in document order. -/
def lastWorkloadNamed (workloads : List Workload) (name : String) : Option Workload :=
  workloadNamed workloads.reverse name

def validateWorkloadDependencyCondition (i j : Nat) (ref : WorkloadRef) (workloads : List Workload) : Check :=
  if !isDependencyCondition ref.condition then
    .fail "workloads[%d].dependsOn[%d].condition is invalid: %q"
      [.number i, .number j, .text (trimSpace ref.condition)]
  else if normalizeDependencyCondition ref.condition ≠ "completed" then .pass
  else
    match lastWorkloadNamed workloads (trimSpace ref.name) with
    | none => .pass
    | some dep =>
      if workloadKindCanComplete dep.kind then .pass
      else
        .fail "workloads[%d].dependsOn[%d].condition completed requires a job or cron dependency"
          [.number i, .number j]

def App.validateWorkloadDependencyConditions (a : App) : Check :=
  checkEach a.workloads fun i workload =>
    checkEach workload.dependsOn fun j ref => validateWorkloadDependencyCondition i j ref a.workloads

def App.validateWorkloadDepends (a : App) (sorter : GraphSorter) : Check := do
  let _ ← a.workloadsInDependencyOrder sorter
  a.validateWorkloadDependencyConditions

def App.validateWorkloadMounts (a : App) : Check :=
  checkEach a.workloads fun i workload =>
    checkEach workload.mounts fun j mount =>
      if trimSpace mount.volume = "" then
        .fail "workloads[%d].mounts[%d].volume: name is required" [.number i, .number j]
      else if trimSpace mount.target = "" then
        .fail "workloads[%d].mounts[%d].target: target is required" [.number i, .number j]
      else .pass

namespace Endpoint

def validateName (e : Endpoint) : Check :=
  if trimSpace e.name = "" then .fail "name is required"
  else if !nameRe e.name then .fail "name is invalid: %q" [.text e.name]
  else .pass

def validatePort (field : String) (port : Int) (required : Bool) : Check :=
  if !required ∧ port = 0 then .pass
  else if port ≤ 0 ∨ port > 65535 then
    if field = "hostPort" then .fail "hostPort must be 1..65535 when set (got %d)" [.number port]
    else .fail "%s must be 1..65535 (got %d)" [.text field, .number port]
  else .pass

def validateHostIP (hostIP : String) : Check :=
  if trimSpace hostIP = "" ∨ (Parse.ip (trimSpace hostIP)).isSome then .pass
  else .fail "hostIP is invalid: %q" [.text (trimSpace hostIP)]

def validateProtocol (e : Endpoint) : Check :=
  match e.protocol with
  | .tcp | .udp | .http => .pass
  | .other text => .fail "invalid protocol %q" [.text text]

def validate (e : Endpoint) : Check := do
  e.validateName
  validatePort "port" e.port true
  validatePort "hostPort" e.hostPort false
  validateHostIP e.hostIP
  e.validateProtocol

end Endpoint

variable {e : Endpoint}

theorem Endpoint.validate_port (valid : e.validate = .ok ()) : 1 ≤ e.port ∧ e.port ≤ 65535 := by
  obtain ⟨_, -, valid⟩ := Except.bind_ok valid
  obtain ⟨_, port, -⟩ := Except.bind_ok valid
  unfold Endpoint.validatePort at port
  rw [if_neg (by simp)] at port
  split at port
  · split at port <;> cases port
  · omega

theorem Endpoint.validate_protocol (valid : e.validate = .ok ()) : e.protocol ≠ .other "" := by
  obtain ⟨_, -, valid⟩ := Except.bind_ok valid
  obtain ⟨_, -, valid⟩ := Except.bind_ok valid
  obtain ⟨_, -, valid⟩ := Except.bind_ok valid
  obtain ⟨_, -, protocol⟩ := Except.bind_ok valid
  intro empty
  simp [Endpoint.validateProtocol, empty, Check.fail] at protocol

def App.validateWorkloadEndpointsAll (a : App) : Check :=
  checkEach a.workloads fun i workload =>
    checkEach workload.endpoints fun j endpoint =>
      endpoint.validate.wrap "workloads[%d].endpoints[%d]" [.number i, .number j]

def App.validateWorkloadCrossRefs (a : App) (sorter : GraphSorter) : Check := do
  a.validateWorkloadDepends sorter
  a.validateWorkloadMounts
  a.validateWorkloadEndpointsAll

def validateIngressRoute (ingIndex j : Nat) (r : IngressRoute) (seenWorkloads : List String) : Check :=
  if trimSpace r.path = "" then
    .fail "ingresses[%d].routes[%d].path is required" [.number ingIndex, .number j]
  else if trimSpace r.backend.workload = "" ∨ trimSpace r.backend.endpoint = "" then
    .fail "ingresses[%d].routes[%d].backend must specify workload + endpoint" [.number ingIndex, .number j]
  else if r.backend.workload ∉ seenWorkloads then
    .fail "ingresses[%d].routes[%d].backend: unknown workload %q"
      [.number ingIndex, .number j, .text r.backend.workload]
  else .pass

def validateIngressOne (ingIndex : Nat) (ing : Ingress) (seenWorkloads : List String) : Check :=
  if trimSpace ing.name = "" then .fail "ingresses[%d].name is required" [.number ingIndex]
  else checkEach ing.routes fun j r => validateIngressRoute ingIndex j r seenWorkloads

def App.validateIngresses (a : App) (seenWorkloads : List String) : Check :=
  checkEach a.ingresses fun i ing => validateIngressOne i ing seenWorkloads

def App.validate (a : App) (sorter : GraphSorter) : Check := do
  a.validateMetadata
  let seenWorkloads ← validateWorkloads [] 0 a.workloads
  a.validateWorkloadCrossRefs sorter
  a.validateIngresses seenWorkloads

variable {a : App} {sorter : GraphSorter}

theorem App.validate_ok (valid : a.validate sorter = .ok ()) :
    a.validateMetadata = .ok () ∧ ∃ seen, validateWorkloads [] 0 a.workloads = .ok seen ∧
      a.validateWorkloadCrossRefs sorter = .ok () ∧ a.validateIngresses seen = .ok () := by
  obtain ⟨_, metadata, valid⟩ := Except.bind_ok valid
  obtain ⟨seen, workloads, valid⟩ := Except.bind_ok valid
  obtain ⟨_, crossRefs, ingresses⟩ := Except.bind_ok valid
  exact ⟨metadata, seen, workloads, crossRefs, ingresses⟩

theorem App.validate_ordered (valid : a.validate sorter = .ok ()) :
    ∃ order, a.workloadsInDependencyOrder sorter = .ok order := by
  obtain ⟨-, _, -, crossRefs, -⟩ := App.validate_ok valid
  obtain ⟨_, depends, -⟩ := Except.bind_ok crossRefs
  obtain ⟨order, sorted, -⟩ := Except.bind_ok depends
  exact ⟨order, sorted⟩

theorem App.validate_name (valid : a.validate sorter = .ok ()) :
    trimSpace a.metadata.name ≠ "" := by
  obtain ⟨metadata, -⟩ := App.validate_ok valid
  intro blank
  simp [App.validateMetadata, blank, Check.fail] at metadata

variable {w : Workload}

theorem App.validate_present (valid : a.validate sorter = .ok ()) (member : w ∈ a.workloads) : w.key ≠ "" := by
  obtain ⟨order, ordered⟩ := App.validate_ordered valid
  exact (App.workloadsInDependencyOrder_ok ordered).2.2 w member

theorem App.validate_endpoint (valid : a.validate sorter = .ok ()) (member : w ∈ a.workloads)
    (inside : e ∈ w.endpoints) : e.validate = .ok () := by
  obtain ⟨-, _, -, crossRefs, -⟩ := App.validate_ok valid
  obtain ⟨_, -, crossRefs⟩ := Except.bind_ok crossRefs
  obtain ⟨_, -, endpoints⟩ := Except.bind_ok crossRefs
  obtain ⟨i, each⟩ := checkFrom_ok endpoints w member
  obtain ⟨j, passed⟩ := checkFrom_ok each e inside
  unfold Check.wrap at passed
  split at passed
  · assumption
  · cases passed

theorem App.validate_mount (valid : a.validate sorter = .ok ()) (member : w ∈ a.workloads) {mount : Mount}
    (inside : mount ∈ w.mounts) :
    trimSpace mount.volume ≠ "" ∧ trimSpace mount.target ≠ "" := by
  obtain ⟨-, _, -, crossRefs, -⟩ := App.validate_ok valid
  obtain ⟨_, -, crossRefs⟩ := Except.bind_ok crossRefs
  obtain ⟨_, mounts, -⟩ := Except.bind_ok crossRefs
  obtain ⟨i, each⟩ := checkFrom_ok mounts w member
  obtain ⟨j, passed⟩ := checkFrom_ok each mount inside
  split at passed
  · cases passed
  rename_i named
  split at passed
  · cases passed
  · rename_i targeted
    exact ⟨named, targeted⟩

/-- What the checks of a workload make sure of. -/
structure Workload.Checked (w : Workload) : Prop where
  named : nameRe w.name = true
  runtime : w.validateRuntime = .ok ()
  run : w.validateRunForRuntime = .ok ()
  resources : w.validateResources = .ok ()
  health : w.validateHealth = .ok ()

theorem Workload.validateName_ok {seen after : List String} (passed : w.validateName seen = .ok after) :
    nameRe w.name = true := by
  unfold Workload.validateName at passed
  split at passed
  · cases passed
  split at passed
  · cases passed
  · rename_i valid
    simpa using valid

theorem Workload.validate_checked {seen after : List String} (passed : w.validate seen = .ok after) :
    w.Checked := by
  obtain ⟨_, named, passed⟩ := Except.bind_ok passed
  obtain ⟨_, -, passed⟩ := Except.bind_ok passed
  obtain ⟨_, runtime, passed⟩ := Except.bind_ok passed
  obtain ⟨_, run, passed⟩ := Except.bind_ok passed
  obtain ⟨_, -, passed⟩ := Except.bind_ok passed
  obtain ⟨_, -, passed⟩ := Except.bind_ok passed
  obtain ⟨_, resources, passed⟩ := Except.bind_ok passed
  obtain ⟨_, health, -⟩ := Except.bind_ok passed
  exact ⟨Workload.validateName_ok named, runtime, run, resources, health⟩

theorem validateWorkloads_checked : ∀ {i : Nat} {workloads : List Workload} {seen after : List String},
    validateWorkloads seen i workloads = .ok after → ∀ w ∈ workloads, w.Checked
  | _, [], _, _, _, _, member => by cases member
  | i, first :: rest, seen, after, passed, w, member => by
    rw [validateWorkloads] at passed
    split at passed
    · cases passed
    · rename_i here
      rcases List.mem_cons.mp member with rfl | later
      · exact Workload.validate_checked here
      · exact validateWorkloads_checked passed w later

theorem App.validate_workload (valid : a.validate sorter = .ok ()) (member : w ∈ a.workloads) : w.Checked := by
  obtain ⟨-, _, workloads, -⟩ := App.validate_ok valid
  exact validateWorkloads_checked workloads w member

theorem App.validate_metadata (valid : a.validate sorter = .ok ()) :
    nameRe a.metadata.name = true ∧ (a.metadata.nspace = "" ∨ nameRe a.metadata.nspace = true) := by
  obtain ⟨metadata, -⟩ := App.validate_ok valid
  unfold App.validateMetadata at metadata
  split at metadata
  · cases metadata
  split at metadata
  · cases metadata
  split at metadata
  · cases metadata
  rename_i name nspace
  refine ⟨by simpa using name, ?_⟩
  by_cases given : a.metadata.nspace = ""
  · exact .inl given
  · exact .inr (by simpa [given] using nspace)

/-- The routes of a document that passes have a path, and a backend that names
a workload and an endpoint. -/
theorem App.validate_route (valid : a.validate sorter = .ok ()) {ing : Ingress} (member : ing ∈ a.ingresses)
    {r : IngressRoute} (inside : r ∈ ing.routes) :
    trimSpace r.path ≠ "" ∧ trimSpace r.backend.workload ≠ "" ∧ trimSpace r.backend.endpoint ≠ "" := by
  obtain ⟨-, _, -, -, ingresses⟩ := App.validate_ok valid
  obtain ⟨i, one⟩ := checkFrom_ok ingresses ing member
  unfold validateIngressOne at one
  split at one
  · cases one
  obtain ⟨j, passed⟩ := checkFrom_ok one r inside
  unfold validateIngressRoute at passed
  split at passed
  · cases passed
  rename_i path
  split at passed
  · cases passed
  rename_i backend
  exact ⟨path, not_or.mp backend⟩

attribute [irreducible] App.validate

example : (imageApp "web" "api" "nginx").validate (Topological.peeling String) = .ok () := by decide +kernel

end Orch
