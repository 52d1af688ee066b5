import Orch.Std.GoJson
import Orch.Std.Sha256
import Orch.Text

namespace Orch

open GoJson
open Json (Node)

/-- The fields of a struct: the name, the option and the type of each. -/
def layout : List (String × Tag × GoType) → Layout
  | [] => .nil
  | (name, tag, type) :: rest => .cons name tag type (layout rest)

/-- `map[string]string`. -/
def stringMapType : GoType := .mapping .text

/-- A field that is always written. -/
def req (name : String) (type : GoType) : String × Tag × GoType := (name, .always, type)

/-- A field with `omitempty`. -/
def opt (name : String) (type : GoType) : String × Tag × GoType := (name, .omitEmpty, type)

def metadataLayout : Layout :=
  layout [req "name" .text, opt "namespace" .text, opt "labels" stringMapType, opt "annotations" stringMapType]

def artifactLayout : Layout :=
  layout [opt "image" .text, opt "path" .text, opt "url" .text]

def execLayout : Layout :=
  layout [opt "command" (.slice .text), opt "args" (.slice .text)]

def envVarLayout : Layout :=
  layout [req "name" .text, req "value" .text]

def dockerLayout : Layout :=
  layout [opt "networkMode" .text, opt "privileged" .bool, opt "labels" stringMapType]

def containerdLayout : Layout :=
  layout [opt "namespace" .text]

def firecrackerLayout : Layout :=
  layout [opt "kernelImagePath" .text, opt "rootfsPath" .text, opt "bootArgs" .text, opt "binaryPath" .text,
    opt "socketPath" .text, opt "rootfsReadOnly" .bool, opt "networkInterfaceID" .text, opt "tapDeviceName" .text,
    opt "guestMAC" .text, opt "allowMMDSRequests" .bool, opt "vcpuCount" .int, opt "memSizeMiB" .int]

def processLayout : Layout :=
  layout [opt "gracefulStopTimeout" .text, opt "stdoutPath" .text, opt "stderrPath" .text]

def systemdLayout : Layout :=
  layout [opt "unitName" .text, opt "user" .text, opt "group" .text, opt "restart" .text, opt "restartSec" .text,
    opt "wantedBy" .text]

def windowsServiceLayout : Layout :=
  layout [opt "serviceName" .text, opt "displayName" .text, opt "startType" .text]

def runOptionsLayout : Layout :=
  layout [opt "docker" (.pointer dockerLayout), opt "containerd" (.pointer containerdLayout),
    opt "firecracker" (.pointer firecrackerLayout), opt "process" (.pointer processLayout),
    opt "systemd" (.pointer systemdLayout), opt "windowsService" (.pointer windowsServiceLayout)]

def runLayout : Layout :=
  layout [("artifact", .omitZero, .struct artifactLayout), ("exec", .omitZero, .struct execLayout),
    opt "env" (.slice (.struct envVarLayout)), opt "cwd" .text, opt "user" .text,
    req "runtimeOptions" (.struct runOptionsLayout)]

def workloadRefLayout : Layout :=
  layout [req "name" .text, opt "condition" .text]

def endpointLayout : Layout :=
  layout [req "name" .text, req "port" .int, req "protocol" .text, opt "hostPort" .int, opt "hostIP" .text]

def volumeRefLayout : Layout :=
  layout [req "name" .text]

def mountLayout : Layout :=
  layout [req "volume" (.struct volumeRefLayout), req "target" .text, opt "readOnly" .bool]

def resourcesLayout : Layout :=
  layout [opt "cpuMillis" .int, opt "memoryBytes" .int]

def endpointRefLayout : Layout :=
  layout [req "workload" .text, req "endpoint" .text]

def httpProbeLayout : Layout :=
  layout [opt "path" .text, ("endpoint", .omitZero, .struct endpointRefLayout), opt "port" .int]

def tcpProbeLayout : Layout :=
  layout [("endpoint", .omitZero, .struct endpointRefLayout), opt "port" .int]

def probeLayout : Layout :=
  layout [opt "http" (.pointer httpProbeLayout), opt "tcp" (.pointer tcpProbeLayout), opt "interval" .text,
    opt "timeout" .text, opt "retries" .int, opt "startPeriod" .text]

def healthLayout : Layout :=
  layout [opt "readiness" (.pointer probeLayout), opt "liveness" (.pointer probeLayout),
    opt "startup" (.pointer probeLayout)]

def lifecycleLayout : Layout :=
  layout [opt "restartPolicy" .text, opt "maxRestarts" .int, opt "restartDelay" .text]

def schedulingLayout : Layout :=
  layout [opt "stateful" .bool, opt "allowLeader" .bool, opt "preferredNodes" (.slice .text)]

def rolloutLayout : Layout :=
  layout [opt "strategy" .text, opt "maxUnavailable" .int, opt "maxSurge" .int, opt "rollbackOnFailure" .bool,
    opt "progressDeadline" .text]

def workloadLayout : Layout :=
  layout [req "name" .text, req "kind" .text, req "run" (.struct runLayout), req "runtime" .text, opt "replicas" .int,
    opt "dependsOn" (.slice (.struct workloadRefLayout)), opt "endpoints" (.slice (.struct endpointLayout)),
    opt "mounts" (.slice (.struct mountLayout)), opt "resources" (.pointer resourcesLayout),
    opt "health" (.pointer healthLayout), opt "lifecycle" (.pointer lifecycleLayout),
    opt "scheduling" (.pointer schedulingLayout), opt "rollout" (.pointer rolloutLayout)]

/-- `Config` and `Secret`. -/
def dataBlockLayout : Layout :=
  layout [req "name" .text, opt "data" stringMapType]

def volumeLayout : Layout :=
  layout [req "name" .text, opt "persistent" .bool, opt "sizeBytes" .int]

def ingressRouteLayout : Layout :=
  layout [req "path" .text, req "backend" (.struct endpointRefLayout)]

def ingressLayout : Layout :=
  layout [req "name" .text, opt "host" .text, opt "routes" (.slice (.struct ingressRouteLayout))]

def appLayout : Layout :=
  layout [opt "apiVersion" .text, opt "kind" .text, req "metadata" (.struct metadataLayout),
    opt "workloads" (.slice (.struct workloadLayout)), opt "configs" (.slice (.struct dataBlockLayout)),
    opt "secrets" (.slice (.struct dataBlockLayout)), opt "volumes" (.slice (.struct volumeLayout)),
    opt "ingresses" (.slice (.struct ingressLayout))]

def deployCommandLayout : Layout :=
  layout [req "type" .text, req "app" (.struct appLayout)]

/-- An app document with all that its Go type can hold: texts with stray bytes,
slices and maps that are nil or empty. -/
abbrev Document := appLayout.Row

/-- `hex.EncodeToString` of the leading bytes of a digest. -/
def hexText (bytes : List Nat) : String :=
  String.ofList (bytes.flatMap fun b => [Json.hexDigit (b / 16), Json.hexDigit (b % 16)])

variable (doc : Document)

namespace Document

def isSpaceRune : Rune → Bool
  | .char c => isSpace c
  | .stray _ => false

def trimText (s : Text) : Text :=
  (s.dropWhile isSpaceRune).rdropWhile isSpaceRune

def namespaceOrDefault (nspace : Text) : Text :=
  if trimText nspace = [] then Text.ofString "default" else trimText nspace

def withDefaultNamespace : Document → Document
  | (apiVersion, kind, (name, nspace, maps), rest) =>
    (apiVersion, kind, (name, namespaceOrDefault nspace, maps), rest)

/-- The digest of what was written, as far as a generation shows it. -/
def shortDigest (written : List Nat) : String :=
  hexText ((Sha256.sum256 written).take 8)

def marshal (doc : Document) : List Nat :=
  ((GoType.struct appLayout).encode doc).bytes

/-- `AppGeneration`. -/
def generation (doc : Document) : String :=
  shortDigest doc.withDefaultNamespace.marshal

/-- `ApplyDeployApp` writes the command that `applyDeployApp` reads. -/
def deployCommand (doc : Document) : Node :=
  (GoType.struct deployCommandLayout).encode (Text.ofString "upsert_deploy_app", doc, ())

def readDeployCommand (command : Node) : Option Document :=
  ((GoType.struct deployCommandLayout).decode command).map fun env => env.2.1

def replicated (doc : Document) : Option Document :=
  readDeployCommand doc.deployCommand

theorem replicated_eq : doc.replicated = some (appLayout.trip doc) := by
  have read := (GoType.struct deployCommandLayout).decode_encode (by decide)
    (Text.ofString "upsert_deploy_app", doc, ())
  rw [replicated, readDeployCommand, deployCommand, read]
  rfl

/-! ### The default namespace -/

theorem isSpaceRune_ofToken (r : Rune) : isSpaceRune (Rune.ofToken r.token) = isSpaceRune r := by
  cases r with
  | char c => rfl
  | stray byte => exact (by decide : isSpace replacement = false)

theorem isChar_of_isSpaceRune {r : Rune} (space : isSpaceRune r = true) : r.IsChar := by
  cases r with
  | char c => trivial
  | stray byte => cases space

theorem trimText_tokens (s : Text) : trimText (Text.ofTokens s.tokens) = Text.ofTokens (trimText s).tokens := by
  have read (s : Text) : Text.ofTokens s.tokens = s.map fun r => Rune.ofToken r.token := List.map_map
  have spaces : isSpaceRune ∘ (fun r => Rune.ofToken r.token) = isSpaceRune := funext isSpaceRune_ofToken
  rw [read, read]
  simp only [trimText, List.rdropWhile, List.dropWhile_map, spaces, ← List.map_reverse]

theorem valid_dropWhile {s : Text} : Text.Valid (s.dropWhile isSpaceRune) ↔ s.Valid := by
  constructor
  · intro valid r member
    rw [← List.takeWhile_append_dropWhile (p := isSpaceRune) (l := s), List.mem_append] at member
    rcases member with space | kept
    · exact isChar_of_isSpaceRune (List.mem_takeWhile_imp space)
    · exact valid r kept
  · intro valid r member
    exact valid r ((List.dropWhile_sublist _).mem member)

theorem valid_reverse {s : Text} : Text.Valid s.reverse ↔ s.Valid := by
  simp only [Text.Valid, List.mem_reverse]

theorem valid_trimText {s : Text} : (trimText s).Valid ↔ s.Valid := by
  rw [trimText, List.rdropWhile, valid_reverse, valid_dropWhile, valid_reverse, valid_dropWhile]

theorem namespaceOrDefault_tokens (s : Text) :
    namespaceOrDefault (Text.ofTokens s.tokens) = Text.ofTokens (namespaceOrDefault s).tokens := by
  have empty : trimText (Text.ofTokens s.tokens) = [] ↔ trimText s = [] := by
    rw [trimText_tokens, Text.ofTokens, Text.tokens, List.map_eq_nil_iff, List.map_eq_nil_iff]
  unfold namespaceOrDefault
  by_cases blank : trimText s = []
  · rw [if_pos blank, if_pos (empty.mpr blank)]
    rfl
  · rw [if_neg blank, if_neg (mt empty.mp blank), trimText_tokens]

theorem valid_namespaceOrDefault {s : Text} : (namespaceOrDefault s).Valid ↔ s.Valid := by
  rw [← valid_trimText (s := s), namespaceOrDefault]
  split_ifs with blank
  · rw [blank]
    exact ⟨fun _ => List.forall_mem_nil _, fun _ => by decide⟩
  · rfl

theorem withDefaultNamespace_trip :
    withDefaultNamespace (appLayout.trip doc) = appLayout.trip doc.withDefaultNamespace := by
  obtain ⟨apiVersion, kind, ⟨name, nspace, maps⟩, rest⟩ := doc
  obtain ⟨front, second, last, document⟩ : ∃ front second last, ∀ metadata : metadataLayout.Row,
      appLayout.trip (apiVersion, kind, metadata, rest) = (front, second, metadataLayout.trip metadata, last) :=
    ⟨_, _, _, fun _ => rfl⟩
  obtain ⟨title, tables, metadata⟩ : ∃ title tables, ∀ s : Text,
      metadataLayout.trip (name, s, maps) = (title, Text.ofTokens s.tokens, tables) :=
    ⟨_, _, fun s => congrArg (Prod.mk _) (Layout.trip_cons_text _ _ _ s _)⟩
  have read (s : Text) : appLayout.trip (apiVersion, kind, (name, s, maps), rest) =
      (front, second, (title, Text.ofTokens s.tokens, tables), last) :=
    (document _).trans (congrArg (fun m => (front, second, m, last)) (metadata s))
  have filled := congrArg (fun s : Text => ((front, second, (title, s, tables), last) : Document))
    (namespaceOrDefault_tokens nspace)
  exact (congrArg withDefaultNamespace (read nspace)).trans (filled.trans (read (namespaceOrDefault nspace)).symm)

theorem stable_withDefaultNamespace :
    appLayout.Stable doc.withDefaultNamespace ↔ appLayout.Stable doc := by
  obtain ⟨apiVersion, kind, ⟨name, nspace, maps⟩, rest⟩ := doc
  have metadata : metadataLayout.Stable (name, namespaceOrDefault nspace, maps) ↔
      metadataLayout.Stable (name, nspace, maps) := by
    refine and_congr_right fun _ => ?_
    refine (Layout.stable_cons_text _ _ _ _ _).trans (Iff.trans ?_ (Layout.stable_cons_text _ _ _ _ _).symm)
    exact and_congr_left fun _ => valid_namespaceOrDefault
  refine and_congr_right fun _ => and_congr_right fun _ => ?_
  refine (Layout.stable_cons_always _ _ _ _ _).trans (Iff.trans ?_ (Layout.stable_cons_always _ _ _ _ _).symm)
  exact and_congr_left fun _ => metadata

/-! ### The generation of the document that was read back -/

theorem marshal_trip_iff :
    marshal (appLayout.trip doc) = doc.marshal ↔ appLayout.Stable doc :=
  Node.bytes_injective.eq_iff.trans ((GoType.struct appLayout).encode_trip_iff (by decide) doc)

/-- Two texts that a generation does not tell apart. -/
def Collide (written other : List Nat) : Prop :=
  written ≠ other ∧ shortDigest written = shortDigest other

/-- A replica finds the generation that the document had when it was sent just
when each text written of it is valid and no field that is left out when zero
is written with nothing in it. Otherwise it hashes other bytes, and only a
collision of the short digest hides that. -/
theorem generation_replicated_iff (doc : Document) :
    doc.replicated.map generation = some doc.generation ↔
      appLayout.Stable doc ∨
        Collide (withDefaultNamespace (appLayout.trip doc)).marshal doc.withDefaultNamespace.marshal := by
  have written : (withDefaultNamespace (appLayout.trip doc)).marshal = doc.withDefaultNamespace.marshal ↔
      appLayout.Stable doc := by
    rw [withDefaultNamespace_trip, marshal_trip_iff, stable_withDefaultNamespace]
  rw [replicated_eq, Option.map_some, Option.some.injEq, ← written]
  constructor
  · intro same
    by_cases equal : (withDefaultNamespace (appLayout.trip doc)).marshal = doc.withDefaultNamespace.marshal
    · exact .inl equal
    · exact .inr ⟨equal, same⟩
  · rintro (equal | ⟨-, same⟩)
    · exact congrArg shortDigest equal
    · exact same

end Document

end Orch
