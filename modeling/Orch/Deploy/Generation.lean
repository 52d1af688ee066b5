import Orch.Deploy.Types
import Orch.Deploy.Wire
import Mathlib.Data.List.GetD

namespace Orch

open GoJson
open GoJson.Text (ofString)

/-! ### The documents as they are written -/

def StringMap.row (m : StringMap) : stringMapType.Val :=
  if m.entries.isEmpty then none
  else some (Mapping.ofList (m.entries.map fun entry => (ofString entry.1, ofString entry.2)))

/-- A list of a document, in which nil and empty are not kept apart. -/
def rows {α : Type} {t : GoType} (row : α → t.Val) (xs : List α) : (GoType.slice t).Val :=
  if xs.isEmpty then none else some (xs.map row)

def Metadata.row (m : Metadata) : metadataLayout.Row :=
  (ofString m.name, ofString m.nspace, m.labels.row, m.annotations.row, ())

def ArtifactSpec.row (a : ArtifactSpec) : artifactLayout.Row :=
  (ofString a.image, ofString a.path, ofString a.url, ())

def ExecSpec.row (e : ExecSpec) : execLayout.Row :=
  (e.command.map (List.map ofString), e.args.map (List.map ofString), ())

def EnvVar.row (v : EnvVar) : envVarLayout.Row :=
  (ofString v.name, ofString v.value, ())

def DockerOptions.row (o : DockerOptions) : dockerLayout.Row :=
  (ofString o.networkMode, o.privileged, o.labels.row, ())

def ContainerdOptions.row (o : ContainerdOptions) : containerdLayout.Row :=
  (ofString o.nspace, ())

def FirecrackerOptions.row (o : FirecrackerOptions) : firecrackerLayout.Row :=
  (ofString o.kernelImagePath, ofString o.rootfsPath, ofString o.bootArgs, ofString o.binaryPath,
    ofString o.socketPath, o.rootfsReadOnly, ofString o.networkInterfaceID, ofString o.tapDeviceName,
    ofString o.guestMAC, o.allowMMDSRequests, o.vcpuCount, o.memSizeMiB, ())

def ProcessOptions.row (o : ProcessOptions) : processLayout.Row :=
  (ofString o.gracefulStopTimeout, ofString o.stdoutPath, ofString o.stderrPath, ())

def SystemdOptions.row (o : SystemdOptions) : systemdLayout.Row :=
  (ofString o.unitName, ofString o.user, ofString o.group, ofString o.restart,
    ofString o.restartSec, ofString o.wantedBy, ())

def WindowsServiceOptions.row (o : WindowsServiceOptions) : windowsServiceLayout.Row :=
  (ofString o.serviceName, ofString o.displayName, ofString o.startType, ())

def RunOptions.row (o : RunOptions) : runOptionsLayout.Row :=
  (o.docker.map DockerOptions.row, o.containerd.map ContainerdOptions.row, o.firecracker.map FirecrackerOptions.row,
    o.process.map ProcessOptions.row, o.systemd.map SystemdOptions.row, o.windowsService.map WindowsServiceOptions.row,
    ())

def RunSpec.row (r : RunSpec) : runLayout.Row :=
  (r.artifact.row, r.exec.row, rows EnvVar.row r.env, ofString r.cwd, ofString r.user, r.options.row, ())

def WorkloadRef.row (r : WorkloadRef) : workloadRefLayout.Row :=
  (ofString r.name, ofString r.condition, ())

def Endpoint.row (e : Endpoint) : endpointLayout.Row :=
  (ofString e.name, e.port, ofString e.protocol.text, e.hostPort, ofString e.hostIP, ())

def Mount.row (m : Mount) : mountLayout.Row :=
  ((ofString m.volume, ()), ofString m.target, m.readOnly, ())

def Resources.row (r : Resources) : resourcesLayout.Row :=
  (r.cpuMillis, r.memoryBytes, ())

def EndpointRef.row (r : EndpointRef) : endpointRefLayout.Row :=
  (ofString r.workload, ofString r.endpoint, ())

def HTTPProbe.row (p : HTTPProbe) : httpProbeLayout.Row :=
  (ofString p.path, p.endpoint.row, p.port, ())

def TCPProbe.row (p : TCPProbe) : tcpProbeLayout.Row :=
  (p.endpoint.row, p.port, ())

def Probe.row (p : Probe) : probeLayout.Row :=
  (p.http.map HTTPProbe.row, p.tcp.map TCPProbe.row, ofString p.interval, ofString p.timeout, p.retries,
    ofString p.startPeriod, ())

def Health.row (h : Health) : healthLayout.Row :=
  (h.readiness.map Probe.row, h.liveness.map Probe.row, h.startup.map Probe.row, ())

def Lifecycle.row (l : Lifecycle) : lifecycleLayout.Row :=
  (ofString l.restartPolicy, l.maxRestarts, ofString l.restartDelay, ())

def Scheduling.row (s : Scheduling) : schedulingLayout.Row :=
  (s.stateful, s.allowLeader, rows ofString s.preferredNodes, ())

def Rollout.row (r : Rollout) : rolloutLayout.Row :=
  (ofString r.strategy, r.maxUnavailable, r.maxSurge, r.rollbackOnFailure, ofString r.progressDeadline, ())

def Workload.row (w : Workload) : workloadLayout.Row :=
  (ofString w.name, ofString w.kind.text, w.run.row, ofString w.runtime.text, w.replicas,
    rows WorkloadRef.row w.dependsOn, rows Endpoint.row w.endpoints, rows Mount.row w.mounts,
    w.resources.map Resources.row, w.health.map Health.row, w.lifecycle.map Lifecycle.row,
    w.scheduling.map Scheduling.row, w.rollout.map Rollout.row, ())

def DataBlock.row (b : DataBlock) : dataBlockLayout.Row :=
  (ofString b.name, b.data.row, ())

def Volume.row (v : Volume) : volumeLayout.Row :=
  (ofString v.name, v.persistent, v.sizeBytes, ())

def IngressRoute.row (r : IngressRoute) : ingressRouteLayout.Row :=
  (ofString r.path, r.backend.row, ())

def Ingress.row (i : Ingress) : ingressLayout.Row :=
  (ofString i.name, ofString i.host, rows IngressRoute.row i.routes, ())

def App.document (a : App) : Document :=
  (ofString a.apiVersion, ofString a.kind, a.metadata.row, rows Workload.row a.workloads,
    rows DataBlock.row a.configs, rows DataBlock.row a.secrets, rows Volume.row a.volumes,
    rows Ingress.row a.ingresses, ())

def namespaceOrDefault (nspace : String) : String :=
  if trimSpace nspace = "" then "default" else trimSpace nspace

/-- The content hash that stands for a version of an app document. -/
def appGeneration (app : App) : String :=
  let copyApp := { app with metadata := { app.metadata with nspace := namespaceOrDefault app.metadata.nspace } }
  Document.shortDigest copyApp.document.marshal

theorem namespaceOrDefault_ne_empty (nspace : String) : namespaceOrDefault nspace ≠ "" := by
  unfold namespaceOrDefault
  split
  · decide
  · assumption

@[simp] theorem trimSpace_namespaceOrDefault (nspace : String) :
    trimSpace (namespaceOrDefault nspace) = namespaceOrDefault nspace := by
  unfold namespaceOrDefault
  split
  · decide +kernel
  · exact trimSpace_trimSpace nspace

@[simp] theorem namespaceOrDefault_trimSpace (nspace : String) :
    namespaceOrDefault (trimSpace nspace) = namespaceOrDefault nspace := by
  simp only [namespaceOrDefault, trimSpace_trimSpace]

theorem isSpace_hexDigit (n : Nat) : isSpace (Json.hexDigit n) = false := by
  rcases Nat.lt_or_ge n 16 with small | large
  · revert n
    decide
  · rw [Json.hexDigit, List.getD_eq_default _ _ (by simpa using large)]
    decide

@[simp] theorem trimSpace_hexText (bytes : List Nat) : trimSpace (hexText bytes) = hexText bytes := by
  refine trimSpace_of_all ?_
  simp only [hexText, String.toList_ofList, List.mem_flatMap]
  rintro c ⟨b, -, member⟩
  simp only [List.mem_cons, List.not_mem_nil, or_false] at member
  rcases member with rfl | rfl <;> exact isSpace_hexDigit _

@[simp] theorem trimSpace_appGeneration (app : App) : trimSpace (appGeneration app) = appGeneration app :=
  trimSpace_hexText _

theorem appGeneration_ne_empty (app : App) : appGeneration app ≠ "" := by
  intro empty
  have digits := congrArg String.toList empty
  simp [appGeneration, Document.shortDigest, hexText, Sha256.sum256, Sha256.bigEndian] at digits

/-! ### The generation of the document -/

theorem trimText_ofString (s : String) : Document.trimText (ofString s) = ofString (trimSpace s) := by
  have spaces : Document.isSpaceRune ∘ Rune.char = isSpace := rfl
  simp only [Document.trimText, ofString, List.rdropWhile, List.dropWhile_map, spaces, ← List.map_reverse, trimSpace,
    trimChars, String.toList_ofList]

theorem namespaceOrDefault_ofString (s : String) :
    Document.namespaceOrDefault (ofString s) = ofString (namespaceOrDefault s) := by
  have blank : ofString (trimSpace s) = [] ↔ trimSpace s = "" := by
    rw [ofString, List.map_eq_nil_iff, String.toList_eq_nil_iff]
  rw [Document.namespaceOrDefault, trimText_ofString, namespaceOrDefault]
  simp only [blank]
  split_ifs <;> rfl

/-- The generation of an app is the one of the document it stands for. -/
theorem App.generation_document (app : App) : app.document.generation = appGeneration app := by
  have filled : app.document.withDefaultNamespace =
      App.document { app with metadata.nspace := namespaceOrDefault app.metadata.nspace } :=
    congrArg (fun s : Text => ((ofString app.apiVersion, ofString app.kind,
      (ofString app.metadata.name, s, app.metadata.labels.row, app.metadata.annotations.row, ()),
      app.document.2.2.2) : Document)) (namespaceOrDefault_ofString app.metadata.nspace)
  rw [Document.generation, filled, appGeneration]

attribute [irreducible] appGeneration

end Orch
