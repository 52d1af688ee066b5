import Orch.Http.Routing
import Orch.Text

namespace Orch.Http

open Routing (Comparable Matching Method Middleware Request Route Router Served)

/-- The handlers of the API, by their operation ids. -/
inductive Operation where
  | health | ready | diagnostics | hostinfo | runtimeProviders | orchVPNBootstrap
  | listApps | getApp | listWorkloads | getWorkloadRuntimeStatus | getWorkloadLogs
  | listWorkloadAssignments | listVolumeBindings
  | getRaftStatus | listRaftMembers | addRaftVoter | removeRaftMember
  | deployApp | startDeployApp | stopDeployApp | restartDeployApp | rollbackDeployApp | listDeployAppRevisions
  | migrateDeployApp | failoverDeployApp | rebalanceDeployApp | deleteDeployApp | deployAppSource
  | deployWorkerWorkload | stopWorkerWorkload | statusWorkerWorkload | logsWorkerWorkload
deriving DecidableEq

inductive Resource where
  | desiredApps
  | workerRuntime
  | raftMembership
deriving DecidableEq

/-- The handlers of the deploy group submit an operation on an app, those of
the worker group call a runtime of this node, and those of the members
endpoint add or remove a voter. The others only read. -/
def Operation.changes : Operation → Option Resource
  | .deployApp | .startDeployApp | .stopDeployApp | .restartDeployApp | .rollbackDeployApp | .migrateDeployApp
  | .failoverDeployApp | .rebalanceDeployApp | .deleteDeployApp | .deployAppSource => some .desiredApps
  | .deployWorkerWorkload | .stopWorkerWorkload => some .workerRuntime
  | .addRaftVoter | .removeRaftMember => some .raftMembership
  | _ => none

structure EndpointSpec where
  base : String
  security : List String := []

structure Endpoint where
  spec : EndpointSpec
  routes : List (Method × String × Operation)

def endpointAt (base : String) (method : Method) (operation : Operation) : Endpoint :=
  ⟨{ base }, [(method, "", operation)]⟩

/-- With auth enabled the endpoint declares the bearer requirement. -/
def Endpoint.applying (endpoint : Endpoint) (openAPIAuthApply : Bool) : Endpoint :=
  if openAPIAuthApply then { endpoint with spec.security := ["bearerAuth"] } else endpoint

def newHealthEndpoint : Endpoint := endpointAt "/health" .get .health
def newReadyEndpoint : Endpoint := endpointAt "/ready" .get .ready
def newDiagnosticsEndpoint : Endpoint := endpointAt "/v1/diagnostics" .get .diagnostics
def newHostinfoEndpoint : Endpoint := endpointAt "/v1/hostinfo" .get .hostinfo
def newRuntimeProvidersEndpoint : Endpoint := endpointAt "/v1/system/runtimes" .get .runtimeProviders
def newOrchVPNBootstrapEndpoint : Endpoint := endpointAt "/v1/orch-vpn/bootstrap" .get .orchVPNBootstrap

def newSystemEndpoints : List Endpoint :=
  [newHealthEndpoint, newReadyEndpoint, newDiagnosticsEndpoint, newHostinfoEndpoint, newRuntimeProvidersEndpoint,
    newOrchVPNBootstrapEndpoint]

def newAppsEndpoint : Endpoint where
  spec := { base := "/v1/apps" }
  routes := [(.get, "", .listApps), (.get, "/\x7bnamespace\x7d/\x7bname\x7d", .getApp)]

def newWorkloadsEndpoint : Endpoint := endpointAt "/v1/workloads" .get .listWorkloads

def newWorkloadRuntimeEndpoint : Endpoint where
  spec := { base := "/v1/workloads" }
  routes :=
    [(.get, "/\x7bnamespace\x7d/\x7bapp\x7d/\x7bworkload\x7d/status", .getWorkloadRuntimeStatus),
      (.get, "/\x7bnamespace\x7d/\x7bapp\x7d/\x7bworkload\x7d/logs", .getWorkloadLogs)]

def newAssignmentsEndpoint : Endpoint := endpointAt "/v1/assignments" .get .listWorkloadAssignments
def newVolumesEndpoint : Endpoint := endpointAt "/v1/volumes" .get .listVolumeBindings

def newWorkloadEndpoints : List Endpoint :=
  [newAppsEndpoint, newWorkloadsEndpoint, newWorkloadRuntimeEndpoint, newAssignmentsEndpoint, newVolumesEndpoint]

def newRaftStatusEndpoint (auth : Bool) : Endpoint :=
  (endpointAt "/v1/raft/status" .get .getRaftStatus).applying auth

def newRaftMembersEndpoint (auth : Bool) : Endpoint :=
  Endpoint.applying
    ⟨{ base := "/v1/raft/members" },
      [(.get, "", .listRaftMembers), (.post, "", .addRaftVoter), (.delete, "/\x7bid\x7d", .removeRaftMember)]⟩ auth

def newRaftEndpoints (auth : Bool) : List Endpoint := [newRaftStatusEndpoint auth, newRaftMembersEndpoint auth]

def newDeployEndpoint (auth : Bool) : Endpoint := (endpointAt "/v1/deploy" .post .deployApp).applying auth

/-- The endpoints that act on one app share their path up to the suffix. -/
def newDeployActionEndpoint (suffix : String) (operation : Operation) (auth : Bool) : Endpoint :=
  (endpointAt ("/v1/deploy/\x7bnamespace\x7d/\x7bname\x7d/" ++ suffix) .post operation).applying auth

def newStartDeployEndpoint (auth : Bool) : Endpoint := newDeployActionEndpoint "start" .startDeployApp auth
def newStopDeployEndpoint (auth : Bool) : Endpoint := newDeployActionEndpoint "stop" .stopDeployApp auth
def newRestartDeployEndpoint (auth : Bool) : Endpoint := newDeployActionEndpoint "restart" .restartDeployApp auth
def newRollbackDeployEndpoint (auth : Bool) : Endpoint := newDeployActionEndpoint "rollback" .rollbackDeployApp auth
def newMigrateDeployEndpoint (auth : Bool) : Endpoint := newDeployActionEndpoint "migrate" .migrateDeployApp auth
def newFailoverDeployEndpoint (auth : Bool) : Endpoint := newDeployActionEndpoint "failover" .failoverDeployApp auth
def newRebalanceDeployEndpoint (auth : Bool) : Endpoint := newDeployActionEndpoint "rebalance" .rebalanceDeployApp auth

/-- The revisions declare no requirement, with auth or without. -/
def newDeployRevisionsEndpoint : Endpoint :=
  endpointAt "/v1/deploy/\x7bnamespace\x7d/\x7bname\x7d/revisions" .get .listDeployAppRevisions

def newDeleteDeployEndpoint (auth : Bool) : Endpoint :=
  (endpointAt "/v1/deploy/\x7bnamespace\x7d/\x7bname\x7d" .delete .deleteDeployApp).applying auth

def newDeploySourceEndpoint (auth : Bool) : Endpoint :=
  (endpointAt "/v1/deploy/source" .post .deployAppSource).applying auth

def newDeployEndpoints (auth : Bool) : List Endpoint :=
  [newDeployEndpoint auth, newStartDeployEndpoint auth, newStopDeployEndpoint auth, newRestartDeployEndpoint auth,
    newRollbackDeployEndpoint auth, newDeployRevisionsEndpoint, newMigrateDeployEndpoint auth,
    newFailoverDeployEndpoint auth, newRebalanceDeployEndpoint auth, newDeleteDeployEndpoint auth,
    newDeploySourceEndpoint auth]

def newWorkerDeployEndpoint (auth : Bool) : Endpoint :=
  (endpointAt "/v1/worker/deploy" .post .deployWorkerWorkload).applying auth

def newWorkerStopEndpoint (auth : Bool) : Endpoint :=
  (endpointAt "/v1/worker/stop" .post .stopWorkerWorkload).applying auth

def newWorkerStatusEndpoint (auth : Bool) : Endpoint :=
  (endpointAt "/v1/worker/status" .post .statusWorkerWorkload).applying auth

def newWorkerLogsEndpoint (auth : Bool) : Endpoint :=
  (endpointAt "/v1/worker/logs" .post .logsWorkerWorkload).applying auth

def newWorkerEndpoints (auth : Bool) : List Endpoint :=
  [newWorkerDeployEndpoint auth, newWorkerStopEndpoint auth, newWorkerStatusEndpoint auth, newWorkerLogsEndpoint auth]

def newRouteEndpoints (auth : Bool) : List Endpoint :=
  newSystemEndpoints ++ newWorkloadEndpoints ++ newRaftEndpoints auth ++ newDeployEndpoints auth ++
    newWorkerEndpoints auth

/-- A handler with the requirements its endpoint declares. -/
structure Handler where
  operation : Operation
  security : List String
deriving DecidableEq

/-- A route is at the base path of the server, the path of its endpoint and
its own. The requirements are for the OpenAPI document: a handler that is
registered checks nothing. -/
def registerEndpoints (endpoints : List Endpoint) : List (Route Handler) :=
  endpoints.flatMap fun endpoint => endpoint.routes.map fun (method, path, operation) =>
    ⟨method, Routing.pattern "/api" ++ Routing.pattern endpoint.spec.base ++ Routing.pattern path, ⟨operation, endpoint.spec.security⟩⟩

abbrev Guard := Request → Bool

/-- The guard of a server with auth enabled. Whether a token is valid is
decided by the JWT provider. -/
def newGuard (authenticates : String → Bool) : Guard := fun req =>
  let raw := trimSpace (req.header "Authorization")
  raw ≠ "" && "Bearer ".toList.isPrefixOf raw.toList &&
    authenticates (trimSpace (String.ofList (raw.toList.drop "Bearer ".length)))

def newFiberAppAndRuntime (authEnabled : Bool) (guard : Option Guard) : Router Handler where
  middlewares :=
    match authEnabled, guard with
    | true, some guard => [⟨Routing.segments "/api/v1/deploy", guard⟩, ⟨Routing.segments "/api/v1/worker", guard⟩]
    | _, _ => []
  routes := registerEndpoints (newRouteEndpoints authEnabled)

def guardedServer (authenticates : String → Bool) : Router Handler :=
  newFiberAppAndRuntime true (some (newGuard authenticates))

/-- The handlers that the guard should stand before. -/
def Handler.sensitive (handler : Handler) : Bool :=
  "bearerAuth" ∈ handler.security || handler.operation.changes.isSome

/-- Whatever tokens are valid, a sensitive handler runs for the request only
if the guard lets it through. -/
def Guarded (m : Matching) (req : Request) : Prop :=
  ∀ authenticates handler, (guardedServer authenticates).serve m req = .handled handler → handler.sensitive = true →
    newGuard authenticates req = true

def raftRoutes : List (Route Handler) := registerEndpoints (newRaftEndpoints true)

abbrev deployPath : List String := ["api", "v1", "deploy"]
abbrev workerPath : List String := ["api", "v1", "worker"]
abbrev raftPath : List String := ["api", "v1", "raft"]

theorem guardedServer_middlewares (authenticates : String → Bool) :
    (guardedServer authenticates).middlewares =
      [⟨deployPath, newGuard authenticates⟩, ⟨workerPath, newGuard authenticates⟩] := by
  have deploy : Routing.segments "/api/v1/deploy" = deployPath := by decide +kernel
  have worker : Routing.segments "/api/v1/worker" = workerPath := by decide +kernel
  simp only [guardedServer, newFiberAppAndRuntime, deploy, worker]

/-- The table of routes against the paths of the guard: the raft routes are all
sensitive, and elsewhere what is sensitive is below a path of the guard. -/
theorem routes_table : ∀ route ∈ registerEndpoints (newRouteEndpoints true),
    if route ∈ raftRoutes then route.handler.sensitive = true
    else ¬ Comparable (Routing.stem route.pattern) raftPath ∧
      (route.handler.sensitive = true → ∃ base ∈ [deployPath, workerPath], base <+: Routing.stem route.pattern) := by
  decide +kernel

theorem raftRoutes_table : ∀ route ∈ raftRoutes, raftPath <+: Routing.stem route.pattern := by decide +kernel

theorem raftRoutes_registered {route : Route Handler} (member : route ∈ raftRoutes) :
    route ∈ registerEndpoints (newRouteEndpoints true) := by
  simp only [registerEndpoints, newRouteEndpoints, List.flatMap_append, List.mem_append]
  exact .inl (.inl (.inr member))

section Matched

variable {m : Matching} {req : Request} {route : Route Handler}

theorem not_guarded_of_raft (member : route ∈ raftRoutes) (serves : route.serves m req = true) : ¬ Guarded m req := by
  intro guarded
  have path : m.below raftPath req = true := m.below_upto (raftRoutes_table route member) (m.serves_below serves)
  -- The route that is taken may be another one, but it is a raft route too.
  have present : route ∈ (guardedServer fun _ => false).routes := raftRoutes_registered member
  obtain ⟨taken, found⟩ := Router.exists_route present serves
  obtain ⟨registered, takenServes⟩ := Router.route?_some found
  have facts := routes_table taken registered
  have sensitive : taken.handler.sensitive = true := by
    split at facts
    · exact facts
    · exact absurd (m.below_comparable (m.serves_below takenServes) path) facts.1
  have unguarded : (guardedServer fun _ => false).serve m req = .handled taken.handler := by
    refine Router.serve_eq_handled.mpr ⟨?_, taken, found, rfl⟩
    intro middleware member reaches
    have apart : ∀ base ∈ [deployPath, workerPath], ¬ Comparable base raftPath := by decide +kernel
    refine absurd (m.below_comparable reaches path) (apart middleware.base ?_)
    simp only [guardedServer_middlewares, List.mem_cons, List.not_mem_nil, or_false] at member
    rcases member with rfl | rfl <;> simp
  have refused := guarded _ _ unguarded sensitive
  simp [newGuard] at refused

end Matched

/-- However requests are matched, one for a sensitive handler passes the guard
exactly when it is not for one of the raft endpoints. -/
theorem guarded_iff_not_raft (m : Matching) (req : Request) :
    Guarded m req ↔ ∀ route ∈ raftRoutes, route.serves m req = false := by
  constructor
  · intro guarded route member
    rw [← Bool.not_eq_true]
    exact fun serves => not_guarded_of_raft member serves guarded
  · intro elsewhere authenticates handler served sensitive
    obtain ⟨passes, route, found, rfl⟩ := Router.serve_eq_handled.mp served
    obtain ⟨registered, serves⟩ := Router.route?_some found
    have facts := routes_table route registered
    split at facts
    · next raft =>
      rw [elsewhere route raft] at serves
      cases serves
    · obtain ⟨base, member, below⟩ := facts.2 sensitive
      refine passes ⟨base, newGuard authenticates⟩ ?_ (m.below_upto below (m.serves_below serves))
      rw [guardedServer_middlewares]
      simpa using member

/-- Anyone can add a voter, whatever the case of the path. -/
theorem addRaftVoter_unguarded : ¬ ∀ m req, Guarded m req := by
  intro guarded
  let route : Route Handler := ⟨.post, raftPath.map .literal ++ [.literal "members"], ⟨.addRaftVoter, ["bearerAuth"]⟩⟩
  have member : route ∈ raftRoutes := by decide +kernel
  have serves : route.serves Matching.folding ⟨"POST", "/api/v1/RAFT/members", fun _ => ""⟩ = true := by decide +kernel
  exact not_guarded_of_raft member serves (guarded _ _)

end Orch.Http
