import Orch.Dns.Workloads
import Orch.Deploy.Validate

namespace Orch

def deployAppSortKey (m : Metadata) : String := trimSpace m.nspace ++ "/" ++ trimSpace m.name

/-- Where the routes of the deploy documents get their targets from. A lookup
may be missing. The listener of another node is found in the configuration. -/
structure IngressCompileOptions where
  dns : Option (String → String → Option String)
  assignments : Option (String → Option Assignment)
  remoteIngressBaseURL : String → Option String
  localNodeID : String

structure CompiledRoute where
  pathPrefix : String
  upstream : String
  stripPrefix : String := ""
deriving DecidableEq

def addDeployAppSortKey (keyed : List String × Table App) (app : App) : List String × Table App :=
  let key := deployAppSortKey app.metadata
  (if (keyed.2.lookup key).isSome then keyed.1 else keyed.1 ++ [key], keyed.2.insert key app)

/-- Of two documents with one key the later one counts. -/
def deployAppsBySortKey (apps : List App) : List String × Table App :=
  (apps.filter fun app => trimSpace app.metadata.name ≠ "").foldl addDeployAppSortKey ([], ∅)

def orderedApps (apps : List App) : List App :=
  let (keys, byKey) := deployAppsBySortKey apps
  (keys.insertionSort (· ≤ ·)).filterMap byKey.lookup

def ingressPath (raw : String) : Option String :=
  let path := trimSpace raw
  if path = "" then none else if path.toList.head? = some '/' then some path else some ("/" ++ path)

def endpointHTTPPort (w : Workload) (endpointName : String) : Option Int :=
  match w.endpoints.find? fun ep => trimSpace ep.name = endpointName with
  | none => none
  | some ep =>
    if ep.protocol ≠ .other "" ∧ ep.protocol ≠ .http then none else if ep.port ≤ 0 then none else some ep.port

def upstreamURL (ip : String) (port : Int) : String :=
  "http://" ++ ip ++ ":" ++ String.ofList (Json.decimal port)

section Context

variable (opts : IngressCompileOptions) (app : App)

def runningAssignment (workloadName : String) : Option Assignment :=
  match opts.assignments with
  | none => none
  | some get =>
    match get (assignmentKey app.metadata workloadName) with
    | none => none
    | some assignment =>
      if assignment.status ≠ .running ∨ trimSpace assignment.node = "" then none
      else some { assignment with node := trimSpace assignment.node }

def remoteIngressUpstream (workloadName : String) : Option String :=
  match runningAssignment opts app workloadName with
  | none => none
  | some assignment =>
    if assignment.node = trimSpace opts.localNodeID then none else opts.remoteIngressBaseURL assignment.node

def localWorkloadUpstream (workloadName : String) (port : Int) : Option String :=
  match opts.dns with
  | none => none
  | some lookup => (lookup (trimSpace app.metadata.nspace) workloadName).map fun ip => upstreamURL ip port

/-- The upstream of a workload and the path to strip on the way. -/
def workloadTarget (workloadName : String) (port : Int) : Option (String × String) :=
  match remoteIngressUpstream opts app workloadName with
  | some upstream => some (upstream, "/")
  | none => (localWorkloadUpstream opts app workloadName port).map fun upstream => (upstream, "")

def compileRoute (route : IngressRoute) : Option CompiledRoute :=
  match ingressPath route.path with
  | none => none
  | some path =>
    let workloadName := trimSpace route.backend.workload
    match lastWorkloadNamed app.workloads workloadName with
    | none => none
    | some workload =>
      match endpointHTTPPort workload (trimSpace route.backend.endpoint) with
      | none => none
      | some port =>
        (workloadTarget opts app workloadName port).map fun (upstream, stripPrefix) =>
          { pathPrefix := path, upstream, stripPrefix }

def compileAppIngressRoutes : List CompiledRoute :=
  app.ingresses.flatMap fun ing => ing.routes.filterMap (compileRoute opts app)

end Context

/-- The routes of all apps. The first match wins. -/
def compileIngressRoutesFromDeploy (opts : IngressCompileOptions) (apps : List App) : List CompiledRoute :=
  (orderedApps apps).flatMap (compileAppIngressRoutes opts)

end Orch
