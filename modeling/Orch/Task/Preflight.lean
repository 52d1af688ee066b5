import Orch.Task.Records

namespace Orch

open Effect

structure HostPortClaim where
  nspace : String
  app : String
  workload : String
  endpoint : String
  protocol : String
  hostIP : String
  hostPort : Int
deriving DecidableEq

def normalizeHostPortProtocol (proto : EndpointProto) : String :=
  if proto = .udp then "udp" else "tcp"

def normalizeHostPortIP (hostIP : String) : String :=
  let hostIP := trimSpace hostIP
  if hostIP = "0.0.0.0" ∨ hostIP = "::" ∨ hostIP = "[::]" then "" else hostIP

def hostPortClaims (app : App) : List HostPortClaim :=
  app.workloads.flatMap fun workload =>
    workload.endpoints.filterMap fun endpoint =>
      if endpoint.hostPort ≤ 0 then none
      else
        some
          { nspace := namespaceOrDefault app.metadata.nspace, app := trimSpace app.metadata.name
            workload := trimSpace workload.name, endpoint := trimSpace endpoint.name
            protocol := normalizeHostPortProtocol endpoint.protocol, hostIP := normalizeHostPortIP endpoint.hostIP
            hostPort := endpoint.hostPort }

def sameAppMetadata (a b : Metadata) : Bool :=
  namespaceOrDefault a.nspace = namespaceOrDefault b.nspace ∧ trimSpace a.name = trimSpace b.name

def hostPortClaimsConflict (a b : HostPortClaim) : Bool :=
  a.hostPort = b.hostPort && a.protocol = b.protocol && (a.hostIP = "" || b.hostIP = "" || a.hostIP = b.hostIP)

def HostPortClaim.describe (c : HostPortClaim) : String :=
  c.nspace ++ "/" ++ c.app ++ " workload=" ++ c.workload ++ " endpoint=" ++ c.endpoint

def HostPortClaim.listenHost (c : HostPortClaim) : String :=
  if c.hostIP = "" then "0.0.0.0" else c.hostIP

def HostPortClaim.bindText (c : HostPortClaim) : String :=
  c.listenHost ++ "/" ++ c.protocol ++ ":" ++ String.ofList (Json.decimal c.hostPort)

def findHostPortConflict (incoming existing : List HostPortClaim) : Option (HostPortClaim × HostPortClaim) :=
  incoming.findSome? fun next =>
    (existing.find? (hostPortClaimsConflict next)).map fun current => (next, current)

def preflightDuplicates : List HostPortClaim → Check
  | [] => .pass
  | claim :: rest =>
    match rest.find? (hostPortClaimsConflict claim) with
    | some other =>
      .fail "host port conflict: %s and %s both claim %s"
        [.text claim.describe, .text other.describe, .text claim.bindText]
    | none => preflightDuplicates rest

def preflightDuplicateHostPorts (app : App) : Check :=
  preflightDuplicates (hostPortClaims app)

def preflightExisting (metadata : Metadata) (incoming : List HostPortClaim) : List App → Check
  | [] => .pass
  | existing :: rest =>
    if sameAppMetadata metadata existing.metadata then preflightExisting metadata incoming rest
    else
      match findHostPortConflict incoming (hostPortClaims existing) with
      | none => preflightExisting metadata incoming rest
      | some (next, current) =>
        .fail "host port conflict: %s wants %s already claimed by %s"
          [.text next.describe, .text next.bindText, .text current.describe]

def preflightExistingHostPorts (metadata : Metadata) (incoming : List HostPortClaim) : Task Check := do
  return preflightExisting metadata incoming (← ask .listDesiredDeployApps)

def HostPortClaim.checkLocalAvailable (claim : HostPortClaim) : Task Check := do
  match ← ask (.bindHostPort claim.protocol claim.listenHost claim.hostPort) with
  | .error err =>
    return .error (.wrapf err "host port unavailable: %s cannot bind %s" [.text claim.describe, .text claim.bindText])
  | .ok _ => return .ok ()

/-- Ports the app already holds are not tried again. -/
def preflightLocalHostPorts (metadata : Metadata) (incoming : List HostPortClaim) : Task Check := do
  let current := ((← ask (.getDesiredDeployApp metadata)).map hostPortClaims).getD []
  Program.eachUntil (fun claim =>
    if (findHostPortConflict [claim] current).isSome then return .ok () else claim.checkLocalAvailable) incoming

def preflightDeploy (app : App) : Task Check :=
  match preflightDuplicateHostPorts app with
  | .error err => return .error err
  | .ok _ =>
    let incoming := hostPortClaims app
    if incoming.isEmpty then return .ok ()
    else do
      match ← preflightExistingHostPorts app.metadata incoming with
      | .error err => return .error err
      | .ok _ => preflightLocalHostPorts app.metadata incoming

end Orch
