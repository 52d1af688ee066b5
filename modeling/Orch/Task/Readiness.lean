import Orch.Deploy.Validate
import Orch.Raft.Members
import Orch.Std.Addresses

namespace Orch

def defaultReadinessInterval : Int := 1000000000

def defaultReadinessTimeout : Int := 2 * 1000000000

def defaultReadinessAttempts : Int := 30

def defaultHTTPProbePath : String := "/"

def defaultProbeHost : String := "127.0.0.1"

structure ReadinessCheck where
  kind : String := ""
  host : String
  port : Int := 0
  path : String := ""
  interval : Int
  timeout : Int
  attempts : Int
  startPeriod : Int
deriving DecidableEq, Repr

def probeDurationOrDefault (raw : String) (fallback : Int) : Int :=
  if trimSpace raw = "" then fallback else (Parse.duration raw).getD fallback

def probeAttemptsOrDefault (retries : Int) : Int :=
  if retries ≤ 0 then defaultReadinessAttempts else retries

/-- `strconv.Atoi`. -/
def atoi (text : List Char) : Option Int :=
  let (negative, digits) :=
    match text with
    | '-' :: digits => (true, digits)
    | '+' :: digits => (false, digits)
    | digits => (false, digits)
  if digits = [] ∨ !digits.all Parse.isDigit then none
  else
    let n : Int := if negative then -(Parse.number digits : Int) else Parse.number digits
    if n < -2 ^ 63 ∨ n > 2 ^ 63 - 1 then none else some n

def afterScheme (url : List Char) : List Char :=
  match url.span fun c => isNameStart c || Parse.isDigit c || c == '+' || c == '-' || c == '.' with
  | (first :: _, ':' :: rest) => if isNameStart first then rest else url
  | _ => url

/-- The host of a URL, as `url.Parse` finds it: what stands between two slashes
and the next one, after the user. An escape in it stays as it is written. -/
def urlHost (url : List Char) : List Char :=
  match (afterScheme (url.takeWhile (· != '#'))).takeWhile (· != '?') with
  | '/' :: '/' :: rest => (rest.takeWhile (· != '/')).reverse.takeWhile (· != '@') |>.reverse
  | _ => []

section Check

-- whether a text is a URL at all
variable (parses : String → Bool)

/-- A host and, if the address has one, its port. -/
def splitProbeAddress (address : String) : String × Int :=
  let address := trimSpace address
  if address = "" then (defaultProbeHost, 0)
  else
    let host := urlHost address.toList
    let address := if parses address ∧ host ≠ [] then String.ofList host else address
    match splitHostPort address with
    | none => (address, 0)
    | some (host, portText) => (String.ofList host, (atoi portText).getD 0)

end Check

def probeEndpointMatches (actual want : EndpointProto) : Bool :=
  if want = .tcp then actual = .tcp || actual = .http else actual = want

def workloadEndpointByName (workload : Workload) (name : String) : Option Endpoint :=
  workload.endpoints.find? fun endpoint => trimSpace endpoint.name == name

def firstProbeEndpoint (workload : Workload) (want : EndpointProto) : Option Endpoint :=
  workload.endpoints.find? fun endpoint => probeEndpointMatches endpoint.protocol want

def namedProbePort (workload : Workload) (endpointName : String) (want : EndpointProto) : Except Failure Int :=
  match workloadEndpointByName workload endpointName with
  | none => .error (.errorf "unknown endpoint %q" [.text endpointName])
  | some endpoint =>
    if !probeEndpointMatches endpoint.protocol want then
      .error (.errorf "endpoint %q uses %s" [.text endpointName, .text endpoint.protocol.text])
    else .ok endpoint.port

/-- The explicit port, else that of the named endpoint, else that of the
address, else that of the first endpoint with the protocol. -/
def probePort (workload : Workload) (endpointName : String) (want : EndpointProto) (explicitPort fallbackPort : Int) :
    Except Failure Int :=
  if explicitPort > 0 then .ok explicitPort
  else
    let endpointName := trimSpace endpointName
    if endpointName ≠ "" then namedProbePort workload endpointName want
    else if fallbackPort > 0 then .ok fallbackPort
    else
      match firstProbeEndpoint workload want with
      | none => .error (.errorf "no %s endpoint or explicit port" [.text want.text])
      | some endpoint => .ok endpoint.port

def normalizeHTTPProbePath (path : String) : String :=
  let path := trimSpace path
  if path = "" then defaultHTTPProbePath else if rooted path then path else "/" ++ path

def readinessHTTPCheck (metadata : Metadata) (workload : Workload) (probe : HTTPProbe) (check : ReadinessCheck)
    (embeddedPort : Int) : Except Failure ReadinessCheck :=
  match probePort workload probe.endpoint.endpoint .http probe.port embeddedPort with
  | .error err =>
    .error (.wrapf err "resolve readiness http target for %s/%s" [.text metadata.name, .text workload.name])
  | .ok port => .ok { check with kind := "http", port, path := normalizeHTTPProbePath probe.path }

def readinessTCPCheck (metadata : Metadata) (workload : Workload) (probe : TCPProbe) (check : ReadinessCheck)
    (embeddedPort : Int) : Except Failure ReadinessCheck :=
  match probePort workload probe.endpoint.endpoint .tcp probe.port embeddedPort with
  | .error err =>
    .error (.wrapf err "resolve readiness tcp target for %s/%s" [.text metadata.name, .text workload.name])
  | .ok port => .ok { check with kind := "tcp", port }

def buildReadinessCheck (parses : String → Bool) (metadata : Metadata) (workload : Workload) (probe : Probe) (address : String) :
    Except Failure ReadinessCheck :=
  let (host, embeddedPort) := splitProbeAddress parses address
  let check : ReadinessCheck := {
    host
    interval := probeDurationOrDefault probe.interval defaultReadinessInterval
    timeout := probeDurationOrDefault probe.timeout defaultReadinessTimeout
    attempts := probeAttemptsOrDefault probe.retries
    startPeriod := probeDurationOrDefault probe.startPeriod 0 }
  match probe.http, probe.tcp with
  | some http, _ => readinessHTTPCheck metadata workload http check embeddedPort
  | none, some tcp => readinessTCPCheck metadata workload tcp check embeddedPort
  | none, none => .error (.errorf "workload %s readiness probe kind is required" [.text workload.name])

/-- An address that names a host and no port. -/
def PlainAddress (address : String) : Prop :=
  trimSpace address = "" ∨ (Parse.ipv4 (trimSpace address).toList).isSome = true

theorem mapM_octet_digits : ∀ {parts : List (List Char)} {bytes : List Nat}, parts.mapM Parse.octet = some bytes →
    ∀ part ∈ parts, ∀ c ∈ part, Parse.isDigit c = true
  | [], _, _, _, member => by cases member
  | first :: rest, bytes, parsed, part, member => by
    simp only [List.mapM_cons, Option.bind_eq_bind, Option.bind_eq_some_iff] at parsed
    obtain ⟨n, here, later, tail, -⟩ := parsed
    rcases List.mem_cons.mp member with rfl | inside
    · exact (Parse.octet_eq_some.mp here).2.1
    · exact mapM_octet_digits tail part inside

theorem mem_intercalate {α : Type} {x c : α} : ∀ {parts : List (List α)}, c ∈ [x].intercalate parts →
    c = x ∨ ∃ part ∈ parts, c ∈ part
  | [], member => by cases member
  | [part], member => .inr ⟨part, List.mem_singleton_self part, by simpa using member⟩
  | first :: second :: rest, member => by
    rw [List.intercalate_cons_cons, List.mem_append, List.mem_append, List.mem_singleton] at member
    rcases member with (here | same) | later
    · exact .inr ⟨first, List.mem_cons_self, here⟩
    · exact .inl same
    · rcases mem_intercalate later with same | ⟨part, inside, here⟩
      · exact .inl same
      · exact .inr ⟨part, List.mem_cons_of_mem _ inside, here⟩

theorem mem_ipv4 {text : List Char} {bytes : List Nat} (parsed : Parse.ipv4 text = some bytes) {c : Char}
    (member : c ∈ text) : Parse.isDigit c = true ∨ c = '.' := by
  have digits := mapM_octet_digits (Parse.ipv4_eq_some.mp parsed).1
  rw [Parse.splitOn_eq] at digits
  have joined : c ∈ ['.'].intercalate (text.splitOn '.') := by rwa [List.intercalate_splitOn]
  rcases mem_intercalate joined with same | ⟨part, inside, here⟩
  · exact .inr same
  · exact .inl (digits part inside c here)

theorem splitHostPort_of_no_colon {text : String} (free : ':' ∉ text.toList) : splitHostPort text = none := by
  have whole := List.splitOn_eq_singleton free
  unfold splitHostPort
  simp only [whole]

theorem urlHost_of_no_slash {url : List Char} (free : '/' ∉ url) : urlHost url = [] := by
  unfold urlHost
  split
  · rename_i rest host
    have inside : '/' ∈ (afterScheme (url.takeWhile (· != '#'))).takeWhile (· != '?') := host ▸ List.mem_cons_self
    have body : '/' ∈ url.takeWhile (· != '#') := by
      have after := (List.takeWhile_prefix _).subset inside
      unfold afterScheme at after
      split at after
      · rename_i cut
        split at after
        · rw [List.span_eq_takeWhile_dropWhile, Prod.mk.injEq] at cut
          have later := List.mem_cons_of_mem ':' after
          rw [← cut.2] at later
          exact (List.dropWhile_suffix _).subset later
        · exact after
      · exact after
    exact absurd ((List.takeWhile_prefix _).subset body) free
  · rfl

theorem splitProbeAddress_plain (parses : String → Bool) {address : String} (plain : PlainAddress address) :
    (splitProbeAddress parses address).2 = 0 := by
  unfold splitProbeAddress
  rcases plain with blank | dotted
  · simp only [if_pos blank]
  · obtain ⟨bytes, parsed⟩ := Option.isSome_iff_exists.mp dotted
    have free : ∀ c, Parse.isDigit c = false → c ≠ '.' → c ∉ (trimSpace address).toList := by
      intro c other dot member
      rcases mem_ipv4 parsed member with digit | same
      · rw [digit] at other
        cases other
      · exact dot same
    have unnamed := urlHost_of_no_slash (free '/' (by decide) (by decide))
    have alone := splitHostPort_of_no_colon (free ':' (by decide) (by decide))
    simp only [unnamed, ne_eq, not_true_eq_false, and_false, if_false, alone]
    split <;> rfl

theorem validateProbePort_ok {field : String} {port : Int} (valid : validateProbePort field port = .ok ()) :
    0 ≤ port ∧ port ≤ 65535 := by
  unfold validateProbePort at valid
  split at valid
  · omega
  split at valid
  · cases valid
  · omega

section Resolve

variable {w : Workload} (ports : ∀ e ∈ w.endpoints, e.validate = .ok ())
include ports

theorem probePort_resolves {field : String} {ref : EndpointRef} {want : EndpointProto} {explicitPort : Int}
    (range : 0 ≤ explicitPort ∧ explicitPort ≤ 65535)
    (valid : w.validateProbeEndpoint field ref want explicitPort = .ok ()) :
    ∃ port, probePort w ref.endpoint want explicitPort 0 = .ok port ∧ 1 ≤ port ∧ port ≤ 65535 := by
  unfold probePort
  by_cases explicit : explicitPort > 0
  · exact ⟨explicitPort, by rw [if_pos explicit], by omega, by omega⟩
  rw [if_neg explicit]
  unfold Workload.validateProbeEndpoint at valid
  dsimp only at valid ⊢
  split at valid
  · cases valid
  split at valid
  · rename_i unnamed
    rw [if_neg (by simpa using unnamed), if_neg (by decide)]
    unfold Workload.validateDefaultProbeEndpoint at valid
    split at valid
    · rename_i found
      obtain ⟨endpoint, first⟩ := Option.isSome_iff_exists.mp (found.resolve_left explicit)
      have same : firstProbeEndpoint w want = some endpoint := first
      rw [same]
      exact ⟨_, rfl, Endpoint.validate_port (ports endpoint (List.mem_of_find?_eq_some first))⟩
    · cases valid
  · rename_i named
    rw [if_pos named]
    unfold namedProbePort
    split at valid
    · cases valid
    · rename_i endpoint found
      have same : workloadEndpointByName w (trimSpace ref.endpoint) = some endpoint := found
      split at valid
      · rename_i matched
        have fits : probeEndpointMatches endpoint.protocol want = true := matched
        rw [same]
        simp only [fits, Bool.not_true, Bool.false_eq_true, if_false]
        exact ⟨_, rfl, Endpoint.validate_port (ports endpoint (List.mem_of_find?_eq_some found))⟩
      · cases valid

theorem buildReadinessCheck_resolves (parses : String → Bool) {metadata : Metadata} {name : String} {probe : Probe} {address : String}
    (plain : PlainAddress address) (valid : w.validateProbe name (some probe) = .ok ()) :
    ∃ check, buildReadinessCheck parses metadata w probe address = .ok check ∧ 1 ≤ check.port ∧ check.port ≤ 65535 ∧
      1 ≤ check.attempts := by
  have attempts : 1 ≤ probeAttemptsOrDefault probe.retries := by
    unfold probeAttemptsOrDefault defaultReadinessAttempts
    split <;> omega
  obtain ⟨_, -, kind⟩ := Except.bind_ok valid
  unfold Workload.validateProbeKind at kind
  unfold buildReadinessCheck
  simp only [splitProbeAddress_plain parses plain]
  split at kind
  · cases kind
  · cases kind
  · rename_i http given other
    obtain ⟨_, range, endpoint⟩ := Except.bind_ok kind
    obtain ⟨port, resolved, low, high⟩ := probePort_resolves ports (validateProbePort_ok range) endpoint
    rw [given, other]
    simp only [readinessHTTPCheck, resolved]
    exact ⟨_, rfl, low, high, attempts⟩
  · rename_i tcp other given
    obtain ⟨_, range, endpoint⟩ := Except.bind_ok kind
    obtain ⟨port, resolved, low, high⟩ := probePort_resolves ports (validateProbePort_ok range) endpoint
    rw [given, other]
    simp only [readinessTCPCheck, resolved]
    exact ⟨_, rfl, low, high, attempts⟩

end Resolve

theorem Workload.validateHealth_probe {w : Workload} (valid : w.validateHealth = .ok ()) {health : Health}
    (given : w.health = some health) {probe : Probe}
    (one : some probe ∈ [health.readiness, health.startup, health.liveness]) :
    ∃ name, w.validateProbe name (some probe) = .ok () := by
  unfold Workload.validateHealth at valid
  rw [given] at valid
  obtain ⟨_, readiness, valid⟩ := Except.bind_ok valid
  obtain ⟨_, liveness, startup⟩ := Except.bind_ok valid
  simp only [List.mem_cons, List.not_mem_nil, or_false] at one
  rcases one with same | same | same
  · exact ⟨_, same ▸ readiness⟩
  · exact ⟨_, same ▸ startup⟩
  · exact ⟨_, same ▸ liveness⟩

/-- Every probe of a validated app resolves. -/
theorem validated_probe_resolves {app : App} {sorter : GraphSorter} (valid : app.validate sorter = .ok ()) {x : Workload}
    (member : x ∈ app.workloads) {health : Health} (given : x.health = some health) {probe : Probe}
    (one : some probe ∈ [health.readiness, health.startup, health.liveness]) {address : String}
    (plain : PlainAddress address) (parses : String → Bool) :
    ∃ check, buildReadinessCheck parses app.metadata x probe address = .ok check ∧ 1 ≤ check.port ∧ check.port ≤ 65535 ∧
      1 ≤ check.attempts := by
  obtain ⟨name, passed⟩ := Workload.validateHealth_probe (App.validate_workload valid member).health given one
  exact buildReadinessCheck_resolves (fun e inside => App.validate_endpoint valid member inside) parses plain passed

def probedWorkload : Workload :=
  { imageWorkload "api" "nginx" with
    endpoints := [{ name := "main", port := 8080, protocol := .http }]
    health := some { readiness := some { http := some {} } } }

def healthyApp : App := { metadata := { name := "web" }, workloads := [probedWorkload] }

theorem validated_probe_resolves_main :
    ∃ check, buildReadinessCheck (fun _ => false) healthyApp.metadata probedWorkload { http := some {} } "10.0.0.1" = .ok check ∧
      1 ≤ check.port ∧ check.port ≤ 65535 ∧ 1 ≤ check.attempts :=
  have valid : healthyApp.validate (Topological.peeling String) = .ok () := by decide +kernel
  validated_probe_resolves valid List.mem_cons_self rfl List.mem_cons_self (.inr (by decide +kernel)) _

end Orch
