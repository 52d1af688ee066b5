import Orch.Std.Addresses
import Orch.Task.HostPorts

namespace Orch

def ClaimOf (app : App) (e : Endpoint) (c : HostPortClaim) : Prop :=
  ∃ w ∈ app.workloads, e ∈ w.endpoints ∧ 0 < e.hostPort ∧
    c = { nspace := namespaceOrDefault app.metadata.nspace, app := trimSpace app.metadata.name
          workload := trimSpace w.name, endpoint := trimSpace e.name
          protocol := normalizeHostPortProtocol e.protocol, hostIP := normalizeHostPortIP e.hostIP
          hostPort := e.hostPort }

def SameAddress (s t : String) : Prop :=
  ∃ bytes, Parse.ip (trimSpace s) = some bytes ∧ Parse.ip (trimSpace t) = some bytes

def UnspecifiedText (s : String) : Prop := ∃ bytes, Parse.ip (trimSpace s) = some bytes ∧ Parse.Unspecified bytes

def Anywhere (s : String) : Prop := trimSpace s = "" ∨ UnspecifiedText s

def Recognised (s : String) : Prop := trimSpace s = "" ∨ trimSpace s = "0.0.0.0" ∨ trimSpace s = "::"

def DecidedOnAddresses (e f : Endpoint) (a b : HostPortClaim) : Prop :=
  hostPortClaimsConflict a b = true ↔ SameAddress e.hostIP f.hostIP ∨ Anywhere e.hostIP ∨ Anywhere f.hostIP

/-- Of two texts that differ and are not recognised as meaning all of the host,
neither does, and they are not of one address. -/
def SpelledAlike (s t : String) : Prop :=
  trimSpace s ≠ trimSpace t → ¬ Recognised s → ¬ Recognised t →
    ¬ SameAddress s t ∧ ¬ UnspecifiedText s ∧ ¬ UnspecifiedText t

theorem Recognised.anywhere {s : String} (recognised : Recognised s) : Anywhere s := by
  rcases recognised with none | zeros | colons
  · exact .inl none
  · exact .inr ⟨List.replicate 10 0 ++ [255, 255] ++ [0, 0, 0, 0], by rw [zeros]; decide +kernel, .inr rfl⟩
  · exact .inr ⟨List.replicate 16 0, by rw [colons]; decide +kernel, .inl rfl⟩

section Validated

variable {app other : App} {sorter : GraphSorter} {e f : Endpoint} {a b : HostPortClaim}

theorem ClaimOf.parsed (valid : app.validate sorter = .ok ()) (claim : ClaimOf app e a) :
    trimSpace e.hostIP = "" ∨ ∃ bytes, Parse.ip (trimSpace e.hostIP) = some bytes := by
  obtain ⟨w, member, inside, -, -⟩ := claim
  have passed := App.validate_endpoint valid member inside
  obtain ⟨_, -, passed⟩ := Except.bind_ok passed
  obtain ⟨_, -, passed⟩ := Except.bind_ok passed
  obtain ⟨_, -, passed⟩ := Except.bind_ok passed
  obtain ⟨_, address, -⟩ := Except.bind_ok passed
  unfold Endpoint.validateHostIP at address
  split at address
  · rename_i fine
    exact fine.imp_right Option.isSome_iff_exists.mp
  · cases address

theorem ClaimOf.hostIP (valid : app.validate sorter = .ok ()) (claim : ClaimOf app e a) :
    (Recognised e.hostIP ∧ a.hostIP = "") ∨ (¬ Recognised e.hostIP ∧ a.hostIP = trimSpace e.hostIP ∧ a.hostIP ≠ "") := by
  have bracketed : trimSpace e.hostIP ≠ "[::]" := by
    intro same
    rcases claim.parsed valid with none | ⟨bytes, parsed⟩
    · rw [same] at none
      exact absurd none (by decide)
    · rw [same] at parsed
      exact nomatch parsed.symm.trans (by decide +kernel : Parse.ip "[::]" = none)
  obtain ⟨w, -, -, -, rfl⟩ := claim
  dsimp only [normalizeHostPortIP]
  by_cases recognised : Recognised e.hostIP
  · refine .inl ⟨recognised, ?_⟩
    rcases recognised with none | zeros | colons
    · rw [none]
      decide
    · rw [if_pos (.inl zeros)]
    · rw [if_pos (.inr (.inl colons))]
  · have plain : ¬ (trimSpace e.hostIP = "0.0.0.0" ∨ trimSpace e.hostIP = "::" ∨ trimSpace e.hostIP = "[::]") := by
      rintro (zeros | colons | brackets)
      · exact recognised (.inr (.inl zeros))
      · exact recognised (.inr (.inr colons))
      · exact bracketed brackets
    rw [if_neg plain]
    exact .inr ⟨recognised, rfl, fun none => recognised (.inl none)⟩

/-- The claims of two endpoints on one port conflict if one of them is
recognised as meaning all of the host or if their texts are the same. -/
theorem conflict_iff_texts (valid : app.validate sorter = .ok ()) (also : other.validate sorter = .ok ())
    (claim : ClaimOf app e a) (claim' : ClaimOf other f b) (port : a.hostPort = b.hostPort) (proto : a.protocol = b.protocol) :
    hostPortClaimsConflict a b = true ↔ Recognised e.hostIP ∨ Recognised f.hostIP ∨ trimSpace e.hostIP = trimSpace f.hostIP := by
  simp only [hostPortClaimsConflict, port, proto, decide_true, Bool.true_and, Bool.or_eq_true, decide_eq_true_eq]
  rcases claim.hostIP valid with ⟨left, none⟩ | ⟨left, same, some⟩
  · simp [none, left]
  rcases claim'.hostIP also with ⟨right, none⟩ | ⟨right, same', some'⟩
  · simp [none, right]
  · simp only [some, some', left, right, false_or]
    rw [same, same']

theorem decidedOnAddresses_iff (valid : app.validate sorter = .ok ()) (also : other.validate sorter = .ok ())
    (claim : ClaimOf app e a) (claim' : ClaimOf other f b) (port : a.hostPort = b.hostPort) (proto : a.protocol = b.protocol) :
    DecidedOnAddresses e f a b ↔ SpelledAlike e.hostIP f.hostIP := by
  rw [DecidedOnAddresses, conflict_iff_texts valid also claim claim' port proto]
  constructor
  · intro decided distinct left right
    have apart : ¬ (SameAddress e.hostIP f.hostIP ∨ Anywhere e.hostIP ∨ Anywhere f.hostIP) := by
      rw [← decided]
      tauto
    exact ⟨fun same => apart (.inl same), fun open_ => apart (.inr (.inl (.inr open_))),
      fun open_ => apart (.inr (.inr (.inr open_)))⟩
  · intro alike
    constructor
    · rintro (left | right | same)
      · exact .inr (.inl left.anywhere)
      · exact .inr (.inr right.anywhere)
      · rcases claim.parsed valid with none | ⟨bytes, parsed⟩
        · exact .inr (.inl (.inl none))
        · exact .inl ⟨bytes, parsed, same ▸ parsed⟩
    · intro meets
      by_contra apart
      push Not at apart
      obtain ⟨left, right, distinct⟩ := apart
      obtain ⟨differ, known, known'⟩ := alike distinct left right
      rcases meets with same | (none | open_) | (none | open_)
      · exact differ same
      · exact left (.inl none)
      · exact known open_
      · exact right (.inl none)
      · exact known' open_

theorem spelledAlike_of_dotted {s t : String} (left : ':' ∉ (trimSpace s).toList) (right : ':' ∉ (trimSpace t).toList) :
    SpelledAlike s t := by
  intro distinct unrecognised unrecognised'
  refine ⟨?_, ?_, ?_⟩
  · rintro ⟨bytes, parsed, parsed'⟩
    exact distinct (Parse.ip_inj_of_dotted left right parsed parsed')
  · rintro ⟨bytes, parsed, unspecified⟩
    exact unrecognised (.inr (.inl (Parse.eq_of_unspecified left parsed unspecified)))
  · rintro ⟨bytes, parsed, unspecified⟩
    exact unrecognised' (.inr (.inl (Parse.eq_of_unspecified right parsed unspecified)))

/-- Conflicts are decided on addresses where the texts agree with them, as
those of IPv4 addresses do. -/
theorem host_ports_decided_on_addresses_iff (valid : app.validate sorter = .ok ()) (also : other.validate sorter = .ok ())
    (claim : ClaimOf app e a) (claim' : ClaimOf other f b) (port : a.hostPort = b.hostPort) (proto : a.protocol = b.protocol) :
    (DecidedOnAddresses e f a b ↔ SpelledAlike e.hostIP f.hostIP) ∧
      (':' ∉ (trimSpace e.hostIP).toList → ':' ∉ (trimSpace f.hostIP).toList → DecidedOnAddresses e f a b) := by
  have decided := decidedOnAddresses_iff valid also claim claim' port proto
  exact ⟨decided, fun left right => decided.mpr (spelledAlike_of_dotted left right)⟩

end Validated

def portApp (name hostIP : String) : App :=
  { imageApp name "api" "nginx" with
    workloads := [{ imageWorkload "api" "nginx" with
      endpoints := [{ name := "http", port := 80, protocol := .http, hostPort := 8080, hostIP }] }] }

def portEndpoint (hostIP : String) : Endpoint := { name := "http", port := 80, protocol := .http, hostPort := 8080, hostIP }

def portClaim (name hostIP : String) : HostPortClaim :=
  { nspace := "default", app := name, workload := "api", endpoint := "http", protocol := "tcp", hostIP, hostPort := 8080 }

/-- The addresses of two hosts do not conflict. -/
theorem host_ports_decided_on_two_hosts :
    DecidedOnAddresses (portEndpoint "10.0.0.1") (portEndpoint "10.0.0.2") (portClaim "web" "10.0.0.1")
      (portClaim "shop" "10.0.0.2") := by
  have first : ClaimOf (portApp "web" "10.0.0.1") (portEndpoint "10.0.0.1") (portClaim "web" "10.0.0.1") :=
    ⟨_, List.mem_cons_self, List.mem_cons_self, by decide, by decide +kernel⟩
  have second : ClaimOf (portApp "shop" "10.0.0.2") (portEndpoint "10.0.0.2") (portClaim "shop" "10.0.0.2") :=
    ⟨_, List.mem_cons_self, List.mem_cons_self, by decide, by decide +kernel⟩
  have valid : (portApp "web" "10.0.0.1").validate (Topological.peeling String) = .ok () := by decide +kernel
  have also : (portApp "shop" "10.0.0.2").validate (Topological.peeling String) = .ok () := by decide +kernel
  exact (host_ports_decided_on_addresses_iff valid also first second rfl rfl).2 (by decide +kernel) (by decide +kernel)

/-- The loopback address of IPv6 in two spellings does not conflict with
itself. -/
theorem loopback_respelled_is_free :
    ¬ ∀ (app other : App) (sorter : GraphSorter) (e f : Endpoint) (a b : HostPortClaim), app.validate sorter = .ok () →
      other.validate sorter = .ok () → ClaimOf app e a → ClaimOf other f b → a.hostPort = b.hostPort →
      a.protocol = b.protocol → DecidedOnAddresses e f a b := by
  intro decided
  have first : ClaimOf (portApp "web" "::1") (portEndpoint "::1") (portClaim "web" "::1") :=
    ⟨_, List.mem_cons_self, List.mem_cons_self, by decide, by decide +kernel⟩
  have second : ClaimOf (portApp "shop" "0:0:0:0:0:0:0:1") (portEndpoint "0:0:0:0:0:0:0:1")
      (portClaim "shop" "0:0:0:0:0:0:0:1") :=
    ⟨_, List.mem_cons_self, List.mem_cons_self, by decide, by decide +kernel⟩
  have conflict := (decided _ _ (Topological.peeling String) _ _ _ _ (by decide +kernel) (by decide +kernel) first second rfl
    rfl).mpr (.inl ⟨List.replicate 15 0 ++ [1], by decide +kernel, by decide +kernel⟩)
  revert conflict
  decide +kernel

end Orch
