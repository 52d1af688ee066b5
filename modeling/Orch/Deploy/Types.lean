import Mathlib.Data.List.Basic

namespace Orch

theorem sorted_nil : ([] : List (String × String)).Pairwise (fun x y => x.1 < y.1) := .nil

/-- A `map[string]string`: its entries by ascending key, so that equal maps
are equal values. -/
structure StringMap where
  entries : List (String × String) := []
  sorted : entries.Pairwise (fun x y => x.1 < y.1) := by first | exact sorted_nil | decide
deriving DecidableEq, Repr

instance : Inhabited StringMap := ⟨{}⟩

structure Metadata where
  name : String
  nspace : String := ""
  labels : StringMap := {}
  annotations : StringMap := {}
deriving DecidableEq, Repr

/-- The kinds a document may name. Any other text is kept as it was read and
is left for `validate` to refuse. -/
inductive WorkloadKind where
  | service
  | worker
  | job
  | cron
  | stateful
  | other (text : String)
deriving DecidableEq, Repr

inductive RuntimeKind where
  | docker
  | containerd
  | podman
  | firecracker
  | process
  | systemd
  | windowsService
  | other (text : String)
deriving DecidableEq, Repr

inductive EndpointProto where
  | tcp
  | udp
  | http
  | other (text : String)
deriving DecidableEq, Repr

def WorkloadKind.text : WorkloadKind → String
  | .service => "service"
  | .worker => "worker"
  | .job => "job"
  | .cron => "cron"
  | .stateful => "stateful"
  | .other text => text

def RuntimeKind.text : RuntimeKind → String
  | .docker => "docker"
  | .containerd => "containerd"
  | .podman => "podman"
  | .firecracker => "firecracker"
  | .process => "process"
  | .systemd => "systemd"
  | .windowsService => "windows-service"
  | .other text => text

def EndpointProto.text : EndpointProto → String
  | .tcp => "tcp"
  | .udp => "udp"
  | .http => "http"
  | .other text => text

structure ArtifactSpec where
  image : String := ""
  path : String := ""
  url : String := ""
deriving DecidableEq, Repr

/-- A nil slice and an empty one are kept apart, since `omitzero` drops only
the former. -/
structure ExecSpec where
  command : Option (List String) := none
  args : Option (List String) := none
deriving DecidableEq, Repr

structure EnvVar where
  name : String
  value : String := ""
deriving DecidableEq, Repr

structure DockerOptions where
  networkMode : String := ""
  privileged : Bool := false
  labels : StringMap := {}
deriving DecidableEq, Repr

structure ContainerdOptions where
  nspace : String := ""
deriving DecidableEq, Repr

structure FirecrackerOptions where
  kernelImagePath : String := ""
  rootfsPath : String := ""
  bootArgs : String := ""
  binaryPath : String := ""
  socketPath : String := ""
  rootfsReadOnly : Bool := false
  networkInterfaceID : String := ""
  tapDeviceName : String := ""
  guestMAC : String := ""
  allowMMDSRequests : Bool := false
  vcpuCount : Int := 0
  memSizeMiB : Int := 0
deriving DecidableEq, Repr

structure ProcessOptions where
  gracefulStopTimeout : String := ""
  stdoutPath : String := ""
  stderrPath : String := ""
deriving DecidableEq, Repr

structure SystemdOptions where
  unitName : String := ""
  user : String := ""
  group : String := ""
  restart : String := ""
  restartSec : String := ""
  wantedBy : String := ""
deriving DecidableEq, Repr

structure WindowsServiceOptions where
  serviceName : String := ""
  displayName : String := ""
  startType : String := ""
deriving DecidableEq, Repr

structure RunOptions where
  docker : Option DockerOptions := none
  containerd : Option ContainerdOptions := none
  firecracker : Option FirecrackerOptions := none
  process : Option ProcessOptions := none
  systemd : Option SystemdOptions := none
  windowsService : Option WindowsServiceOptions := none
deriving DecidableEq, Repr

structure RunSpec where
  artifact : ArtifactSpec := {}
  exec : ExecSpec := {}
  env : List EnvVar := []
  cwd : String := ""
  user : String := ""
  options : RunOptions := {}
deriving DecidableEq, Repr

structure Endpoint where
  name : String
  port : Int
  protocol : EndpointProto := .tcp
  hostPort : Int := 0
  hostIP : String := ""
deriving DecidableEq, Repr

structure Mount where
  volume : String
  target : String
  readOnly : Bool := false
deriving DecidableEq, Repr

structure Resources where
  cpuMillis : Int := 0
  memoryBytes : Int := 0
deriving DecidableEq, Repr

structure EndpointRef where
  workload : String := ""
  endpoint : String := ""
deriving DecidableEq, Repr

structure HTTPProbe where
  path : String := ""
  endpoint : EndpointRef := {}
  port : Int := 0
deriving DecidableEq, Repr

structure TCPProbe where
  endpoint : EndpointRef := {}
  port : Int := 0
deriving DecidableEq, Repr

structure Probe where
  http : Option HTTPProbe := none
  tcp : Option TCPProbe := none
  interval : String := ""
  timeout : String := ""
  retries : Int := 0
  startPeriod : String := ""
deriving DecidableEq, Repr

structure Health where
  readiness : Option Probe := none
  liveness : Option Probe := none
  startup : Option Probe := none
deriving DecidableEq, Repr

structure Lifecycle where
  restartPolicy : String := ""
  maxRestarts : Int := 0
  restartDelay : String := ""
deriving DecidableEq, Repr

structure Scheduling where
  stateful : Bool := false
  allowLeader : Bool := false
  preferredNodes : List String := []
deriving DecidableEq, Repr

structure Rollout where
  strategy : String := ""
  maxUnavailable : Int := 0
  maxSurge : Int := 0
  rollbackOnFailure : Bool := false
  progressDeadline : String := ""
deriving DecidableEq, Repr

structure WorkloadRef where
  name : String
  condition : String := ""
deriving DecidableEq, Repr

structure Workload where
  name : String
  kind : WorkloadKind := .service
  run : RunSpec := {}
  runtime : RuntimeKind := .docker
  replicas : Int := 0
  dependsOn : List WorkloadRef := []
  endpoints : List Endpoint := []
  mounts : List Mount := []
  resources : Option Resources := none
  health : Option Health := none
  lifecycle : Option Lifecycle := none
  scheduling : Option Scheduling := none
  rollout : Option Rollout := none
deriving DecidableEq, Repr

/-- A config or a secret: both are a name with data. -/
structure DataBlock where
  name : String
  data : StringMap := {}
deriving DecidableEq, Repr

structure Volume where
  name : String
  persistent : Bool := false
  sizeBytes : Int := 0
deriving DecidableEq, Repr

structure IngressRoute where
  path : String
  backend : EndpointRef
deriving DecidableEq, Repr

structure Ingress where
  name : String
  host : String := ""
  routes : List IngressRoute := []
deriving DecidableEq, Repr

structure App where
  apiVersion : String := ""
  kind : String := ""
  metadata : Metadata
  workloads : List Workload := []
  configs : List DataBlock := []
  secrets : List DataBlock := []
  volumes : List Volume := []
  ingresses : List Ingress := []
deriving DecidableEq, Repr

/-- A workload that runs an image, and an app of one such workload. -/
def imageWorkload (name image : String) : Workload := { name, run.artifact.image := image }

def imageApp (name workload image : String) : App where
  metadata := { name }
  workloads := [imageWorkload workload image]

end Orch
