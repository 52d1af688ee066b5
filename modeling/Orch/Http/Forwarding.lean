import Orch.Http.Endpoints
import Orch.Raft.Members

namespace Orch

/-- Where a write goes from a node with this view of the leader: nowhere else
if the node leads or no leader is ready. -/
def leaderBaseURL (svc : Service) (status : Except Failure RaftNode.Status) : Except Failure (Option String) :=
  match status with
  | .error err => .error (.wrapf err "get raft status")
  | .ok status =>
    if !status.ready || status.isLeader then .ok none
    else
      let leaderID := trimSpace status.leaderID
      if leaderID = "" then .error (.errorf "not leader and raft leader is not known")
      else
        match svc.nodeURL leaderID with
        | none => .error (.errorf "not leader: configure cluster.nodes.%s or target the raft leader" [.text leaderID])
        | some baseURL => .ok (some baseURL)

theorem leaderBaseURL_some {svc : Service} {status : RaftNode.Status} {url : String} :
    leaderBaseURL svc (.ok status) = .ok (some url) ↔
      status.ready = true ∧ status.isLeader = false ∧ trimSpace status.leaderID ≠ "" ∧
        svc.nodeURL (trimSpace status.leaderID) = some url := by
  simp only [leaderBaseURL]
  cases status.ready <;> cases status.isLeader <;> simp
  split
  · simp [*]
  · next named =>
    split
    · simp [*]
    · next url' found => simp [named, found]

section Status

/-- Another replica than the leader goes by the leader's ID: one of the two is
not remembered by its replica ID, and the address or the placeholder that
stands in gives it the other's; or neither is, and the address has an ID. -/
def Identities.Mistakes (ids : Identities) (leader r : Nat) (address : String) : Prop :=
  let recorded := ids.addressToNode.lookup (trimSpace address)
  match ids.replicaToNode.lookup leader, ids.replicaToNode.lookup r with
  | some _, some _ => False
  | some leaderID, none => recorded.getD (placeholder r) = leaderID
  | none, some id => recorded.getD (placeholder leader) = id
  | none, none => recorded.isSome = true

theorem Identities.Clean.mistakes_iff {ids : Identities} (clean : ids.Clean) (sound : ids.Sound) {leader r : Nat}
    (other : r ≠ leader) (address : String) :
    ids.nodeIDForMember r address = ids.nodeIDForMember leader address ↔ ids.Mistakes leader r address := by
  simp only [clean.nodeIDForMember_eq, Mistakes]
  cases known : ids.replicaToNode.lookup leader with
  | some leaderID =>
    cases found : ids.replicaToNode.lookup r with
    | some id =>
      -- Both IDs stand for their replicas, so they are different.
      have apart : id ≠ leaderID := by
        rintro rfl
        exact other (Except.ok.inj ((sound r _ found).symm.trans (sound leader _ known)))
      simpa using apart
    | none => simp
  | none =>
    cases found : ids.replicaToNode.lookup r with
    | some id => simp [eq_comm]
    | none =>
      cases ids.addressToNode.lookup (trimSpace address) with
      | some id => simp
      | none => simpa using fun same => other (placeholder_injective same)

variable (node : RaftNode) (view : ShardView) (leader : Nat)

/-- The replica whose address is taken for the leader's: the first in the order
of the members that is the leader or is mistaken for it. -/
def RaftNode.Picks (r : Nat) : Prop :=
  (r = leader ∨ node.identities.Mistakes leader r (view.members.addressAndSuffrage r).1) ∧
    ∃ before after, node.sortedReplicas view.members = before ++ r :: after ∧
      ∀ s ∈ before, s ≠ leader ∧ ¬ node.identities.Mistakes leader s (view.members.addressAndSuffrage s).1

/-- The address that is reported, if there is one: that of the replica picked,
or for want of one the node's own when it leads. -/
inductive RaftNode.Reports : String → Prop
  | member {r : Nat} (picked : node.Picks view leader r) (addressed : (view.members.addressAndSuffrage r).1 ≠ "") :
      Reports (view.members.addressAndSuffrage r).1
  | own (leads : view.leader = .ok (leader, true)) (here : leader = node.localReplicaID)
      (nowhere : ∀ r, node.Picks view leader r → (view.members.addressAndSuffrage r).1 = "") : Reports node.localAddress

/-- The address belongs to the leader. -/
def RaftNode.LeaderAddress (address : String) : Prop :=
  leader ∈ view.members.replicaIDs ∧ address = (view.members.addressAndSuffrage leader).1 ∨
    leader = node.localReplicaID ∧ address = node.localAddress

/-- What Status says of the leader is true of the replica that leads, or says
nothing. -/
structure RaftNode.NamesLeader (status : RaftNode.Status) : Prop where
  address : status.leaderAddress = "" ∨ ∃ leader, view.leader = .ok (leader, true) ∧
    node.LeaderAddress view leader status.leaderAddress
  id : status.leaderID = "" ∨ ∃ leader, view.leader = .ok (leader, true) ∧
    (status.leaderID = placeholder leader ∨ replicaIDForNodeID status.leaderID = .ok leader)
  follower : (∀ leader, view.leader = .ok (leader, true) → leader ≠ node.localReplicaID) →
    status.isLeader = false ∧ (status.leaderID = "" ∨ trimSpace status.leaderID ≠ trimSpace node.localID)

/-- Dragonboat's answer for the leader and the maps of the node agree. No
address is reported but the leader's, and only when it is ready. A leader that
is not remembered by its replica ID has no foreign ID on record at that
address, and no placeholder that is the node's own ID. -/
structure RaftNode.AgreesOn (ready : Bool) : Prop where
  address : ∀ address, node.Reports view leader address → ready = true ∧ node.LeaderAddress view leader address
  id : ready = true → node.identities.replicaToNode.lookup leader = none →
    ∀ address id, node.Reports view leader address → node.identities.addressToNode.lookup (trimSpace address) = some id →
      id = placeholder leader ∨ replicaIDForNodeID id = .ok leader
  placeholder : ready = true → node.identities.replicaToNode.lookup leader = none → leader ≠ node.localReplicaID →
    trimSpace node.localID = placeholder leader → ∃ address id, node.Reports view leader address ∧
      node.identities.addressToNode.lookup (trimSpace address) = some id ∧ id ≠ Orch.placeholder leader

/-- The condition under which Status is right: no leader is asked for, or the
maps agree with the answer. -/
def RaftNode.LeaderTold : Prop :=
  node.started = true → ∀ leader ready, view.leader = .ok (leader, ready) → node.AgreesOn view leader ready

variable {node view leader} {cfg : RaftConfig}

/-- What every state that a service comes to keeps. -/
structure RaftNode.Kept (node : RaftNode) : Prop extends node.Sound where
  clean : node.identities.Clean

theorem RaftNode.Reached.kept (reached : node.Reached cfg) : node.Kept :=
  ⟨reached.sound, Identities.clean_invariant.reached reached⟩

/-- The replica of the member that the scan of the members stops at. -/
def RaftNode.scanned (node : RaftNode) (view : ShardView) (leader : Nat) : Option Nat :=
  (node.sortedReplicas view.members).find? fun r =>
    (node.memberFromReplicaID view.members r).id =
      node.identities.nodeIDForMember leader (node.memberFromReplicaID view.members r).address

theorem RaftNode.scanned_iff (kept : node.Kept) (r : Nat) : node.scanned view leader = some r ↔ node.Picks view leader r := by
  have same (s : Nat) : (node.memberFromReplicaID view.members s).id =
        node.identities.nodeIDForMember leader (node.memberFromReplicaID view.members s).address ↔
      s = leader ∨ node.identities.Mistakes leader s (view.members.addressAndSuffrage s).1 := by
    rcases eq_or_ne s leader with rfl | other
    · simp [RaftNode.memberFromReplicaID]
    · simpa [other, RaftNode.memberFromReplicaID] using kept.clean.mistakes_iff kept.identities other _
  simp only [scanned, List.find?_eq_some_iff_append, RaftNode.Picks, same, decide_eq_true_eq, Bool.not_eq_true',
    decide_eq_false_iff_not,
    not_or]

theorem RaftNode.leaderAddress_eq (node : RaftNode) (view : ShardView) (leader : Nat) (isLeader : Bool) :
    node.leaderAddress leader isLeader (node.membersOrNone view) =
      let address := ((node.scanned view leader).map fun r => (view.members.addressAndSuffrage r).1).getD ""
      if isLeader ∧ address = "" then node.localAddress else address := by
  simp only [RaftNode.leaderAddress, membersOrNone_eq, listMembers, List.find?_map, Option.map_map]
  rfl

/-- The source's scan computes the address reported. -/
theorem RaftNode.leaderAddress_spec (kept : node.Kept) {ready : Bool} (asked : view.leader = .ok (leader, ready)) :
    let address := node.leaderAddress leader (ready && decide (leader = node.localReplicaID)) (node.membersOrNone view)
    (∀ reported, node.Reports view leader reported → reported = address) ∧
      (address ≠ "" → node.Reports view leader address) := by
  have leads (own : leader = node.localReplicaID) (told : view.leader = .ok (leader, true)) :
      (ready && decide (leader = node.localReplicaID)) = true := by
    obtain rfl : ready = true := congrArg Prod.snd (Except.ok.inj (asked.symm.trans told))
    simpa using own
  have led (own : (ready && decide (leader = node.localReplicaID)) = true) :
      view.leader = .ok (leader, true) ∧ leader = node.localReplicaID := by
    simp only [Bool.and_eq_true, decide_eq_true_eq] at own
    exact ⟨own.1 ▸ asked, own.2⟩
  rw [leaderAddress_eq]
  cases found : node.scanned view leader with
  | none =>
    have nobody (r : Nat) : ¬ node.Picks view leader r := by simp [← scanned_iff kept, found]
    constructor
    · rintro _ (⟨picked, -⟩ | ⟨told, here, -⟩)
      · exact absurd picked (nobody _)
      · simp [leads here told]
    · simp only [Option.map_none, Option.getD_none, and_true]
      split
      · next own => exact fun _ => .own (led own).1 (led own).2 fun r picked => absurd picked (nobody r)
      · exact fun blank => absurd rfl blank
  | some r =>
    have picked : node.Picks view leader r := (scanned_iff kept r).mp found
    constructor
    · rintro _ (⟨other, addressed⟩ | ⟨told, here, nowhere⟩)
      · obtain rfl := Option.some.inj (found.symm.trans ((scanned_iff kept _).mpr other))
        simp [addressed]
      · simp [leads here told, nowhere r picked]
    · simp only [Option.map_some, Option.getD_some]
      split
      · next own =>
        refine fun _ => .own (led own.1).1 (led own.1).2 fun s other => ?_
        obtain rfl := Option.some.inj (found.symm.trans ((scanned_iff kept _).mpr other))
        exact own.2
      · exact .member picked

theorem trimSpace_ne_of_replica {a b : String} {r r' : Nat} (left : replicaIDForNodeID a = .ok r)
    (right : replicaIDForNodeID b = .ok r') (apart : r ≠ r') : trimSpace a ≠ trimSpace b := by
  intro same
  rw [← replicaIDForNodeID_trimSpace, same, replicaIDForNodeID_trimSpace, right] at left
  exact apart (Except.ok.inj left).symm

theorem Identities.Clean.addressed {ids : Identities} (clean : ids.Clean) {address id : String}
    (recorded : ids.addressToNode.lookup (trimSpace address) = some id) : address ≠ "" := by
  rintro rfl
  rw [show trimSpace "" = "" by decide +kernel, clean.unaddressed] at recorded
  cases recorded

section Asked

variable {ready : Bool} (kept : node.Kept) (started : node.started = true) (asked : view.leader = .ok (leader, ready))
include kept started asked

/-- Status, when Dragonboat gives an answer for the leader. -/
theorem RaftNode.status_asked :
    let status := node.status view
    status.ready = ready ∧ status.isLeader = (ready && decide (leader = node.localReplicaID)) ∧
      (∀ address, node.Reports view leader address → address = status.leaderAddress) ∧
      (status.leaderAddress ≠ "" → node.Reports view leader status.leaderAddress) ∧
      status.leaderID = if ready then (node.identities.replicaToNode.lookup leader).getD
        ((node.identities.addressToNode.lookup (trimSpace status.leaderAddress)).getD (Orch.placeholder leader)) else "" := by
  obtain ⟨only, reports⟩ := leaderAddress_spec kept asked
  simp only [RaftNode.status, started, asked, ← kept.clean.nodeIDForMember_eq]
  exact ⟨rfl, rfl, only, reports, rfl⟩

theorem RaftNode.agreesOn_of_namesLeader (names : node.NamesLeader view (node.status view)) : node.AgreesOn view leader ready := by
  obtain ⟨-, -, only, reports, named⟩ := node.status_asked kept started asked
  have own {other : Nat} (told : view.leader = .ok (other, true)) : other = leader ∧ ready = true := by
    cases asked.symm.trans told
    exact ⟨rfl, rfl⟩
  constructor
  case address =>
    intro address reported
    obtain same := only address reported
    rcases names.address with blank | ⟨other, told, belongs⟩
    · rcases reported with ⟨-, addressed⟩ | ⟨told, here, -⟩
      · exact absurd (same.trans blank) addressed
      · exact ⟨(own told).2, .inr ⟨here, rfl⟩⟩
    · obtain ⟨rfl, rfl⟩ := own told
      exact ⟨rfl, same ▸ belongs⟩
  case id =>
    rintro rfl unknown address id reported recorded
    rw [← only address reported, unknown, recorded] at named
    obtain rfl : (node.status view).leaderID = id := named
    rcases names.id with blank | ⟨other, told, stands⟩
    · exact absurd blank (kept.clean.addresses _ _ recorded).2
    · rwa [(own told).1] at stands
  case placeholder =>
    rintro rfl unknown apart mine
    by_contra nothing
    have standsIn : (node.status view).leaderID = Orch.placeholder leader := by
      rw [named, unknown]
      cases recorded : node.identities.addressToNode.lookup (trimSpace (node.status view).leaderAddress) with
      | none => rfl
      | some id =>
        have addressed := kept.clean.addressed recorded
        by_contra other
        exact nothing ⟨_, id, reports addressed, recorded, other⟩
    obtain ⟨trimmed, present⟩ := placeholder_clean leader
    rcases (names.follower fun other told => (own told).1 ▸ apart).2 with blank | other
    · exact present (standsIn ▸ blank)
    · exact other (by rw [standsIn, trimmed, mine])

theorem RaftNode.namesLeader_of_agreesOn (agrees : node.AgreesOn view leader ready) :
    node.NamesLeader view (node.status view) := by
  obtain ⟨-, leads, only, reports, named⟩ := node.status_asked kept started asked
  -- The ID stands for the leader, or is a placeholder that is nobody else's.
  have stands : ready = true → replicaIDForNodeID (node.status view).leaderID = .ok leader ∨
      (node.status view).leaderID = Orch.placeholder leader ∧
        (leader ≠ node.localReplicaID → trimSpace node.localID ≠ Orch.placeholder leader) := by
    rintro rfl
    rw [if_pos rfl] at named
    cases known : node.identities.replicaToNode.lookup leader with
    | some id =>
      rw [named, known]
      exact .inl (kept.identities leader id known)
    | none =>
      have others (standsIn : (node.status view).leaderID = Orch.placeholder leader) (apart : leader ≠ node.localReplicaID) :
          trimSpace node.localID ≠ Orch.placeholder leader := by
        intro mine
        obtain ⟨address, id, reported, recorded, other⟩ := agrees.placeholder rfl known apart mine
        rw [← only address reported, known, recorded] at named
        exact other (named.symm.trans standsIn)
      cases recorded : node.identities.addressToNode.lookup (trimSpace (node.status view).leaderAddress) with
      | none =>
        rw [known, recorded] at named
        exact .inr ⟨named, others named⟩
      | some id =>
        have addressed := kept.clean.addressed recorded
        rw [known, recorded] at named
        obtain rfl : (node.status view).leaderID = id := named
        rcases agrees.id rfl known _ _ (reports addressed) recorded with standsIn | hashed
        · exact .inr ⟨standsIn, others standsIn⟩
        · exact .inl hashed
  cases ready with
  | false =>
    have unnamed : (node.status view).leaderID = "" := named
    refine ⟨.inl ?_, .inl unnamed, fun _ => ⟨leads, .inl unnamed⟩⟩
    by_contra addressed
    cases (agrees.address _ (reports addressed)).1
  | true =>
    refine ⟨?_, .inr ⟨leader, asked, (stands rfl).symm.imp_left And.left⟩, fun elsewhere => ?_⟩
    · rw [or_iff_not_imp_left]
      exact fun addressed => ⟨leader, asked, (agrees.address _ (reports addressed)).2⟩
    · have apart := elsewhere leader asked
      refine ⟨by simpa [apart] using leads, .inr ?_⟩
      rcases stands rfl with hashed | ⟨standsIn, other⟩
      · exact trimSpace_ne_of_replica hashed (kept.own started) apart
      · rw [standsIn, (placeholder_clean leader).1]
        exact (other apart).symm

end Asked

/-- Status asks nobody, or Dragonboat fails to answer. -/
theorem RaftNode.status_unasked (unasked : node.started = true → ∃ message, view.leader = .error message) :
    (node.status view).ready = false ∧ node.NamesLeader view (node.status view) := by
  unfold RaftNode.status
  cases started : node.started with
  | false => exact ⟨rfl, .inl rfl, .inl rfl, fun _ => ⟨rfl, .inl rfl⟩⟩
  | true =>
    obtain ⟨message, failed⟩ := unasked started
    rw [failed]
    exact ⟨rfl, .inl rfl, .inl rfl, fun _ => ⟨rfl, .inl rfl⟩⟩

/-- No write is sent back to its own node. -/
def RaftNode.ForwardsElsewhere (node : RaftNode) (status : RaftNode.Status) : Prop :=
  ∀ (svc : Service) (url : String), svc.localNode = trimSpace node.localID →
    leaderBaseURL svc (.ok status) = .ok (some url) → ∃ id, trimSpace id ≠ svc.localNode ∧ svc.nodeURL id = some url

/-- In every state a service can come to, Status names the leader or nobody
exactly when the maps agree with what Dragonboat answers, and then no write is
sent back to its own node. -/
theorem status_names_leader_iff (reached : node.Reached cfg) (view : ShardView) :
    node.NamesLeader view (node.status view) ∧ node.ForwardsElsewhere (node.status view) ↔ node.LeaderTold view := by
  have kept := reached.kept
  by_cases unasked : node.started = true → ∃ message, view.leader = .error message
  · obtain ⟨silent, names⟩ := node.status_unasked unasked
    refine iff_of_true ⟨names, fun svc url _ forwards => ?_⟩ fun started leader ready asked => ?_
    · have ready := (leaderBaseURL_some.mp forwards).1
      exact absurd (silent.symm.trans ready) (by decide)
    · obtain ⟨message, failed⟩ := unasked started
      cases failed.symm.trans asked
  · rw [Classical.not_imp] at unasked
    obtain ⟨started, answered⟩ := unasked
    cases asked : view.leader with
    | error message => exact absurd ⟨message, asked⟩ answered
    | ok answer =>
      obtain ⟨leader, ready⟩ := answer
      constructor
      · rintro ⟨names, -⟩ _ other _ told
        cases asked.symm.trans told
        exact node.agreesOn_of_namesLeader kept started asked names
      · intro told
        have names := node.namesLeader_of_agreesOn kept started asked (told started leader ready asked)
        refine ⟨names, fun svc url here forwards => ?_⟩
        obtain ⟨isReady, follows, named, found⟩ := leaderBaseURL_some.mp forwards
        obtain ⟨sameReady, leads, -⟩ := node.status_asked kept started asked
        have apart : leader ≠ node.localReplicaID := by simpa [← sameReady, isReady, follows] using leads
        rcases (names.follower fun other told => by cases asked.symm.trans told; exact apart).2 with blank | other
        · exact absurd (by rw [blank]; decide +kernel) named
        · exact ⟨_, by rwa [trimSpace_trimSpace, here], found⟩

/-- One node of a pair, restarted with its shard on disk: the configured peers
are not looked at. -/
def restartedNode (localID : String) : RaftNode :=
  RaftNode.start { localID } {} { address := .ok "10.0.0.1:9000", hasNodeInfo := true }

theorem restartedNode_reached (localID : String) : (restartedNode localID).Reached {} := .start _ (.fresh localID)

def replicaOf (id : String) : Nat :=
  match replicaIDForNodeID id with
  | .ok replicaID => replicaID
  | .error _ => 0

/-- The other node of the pair leads. -/
def pairView (localID otherID : String) : ShardView where
  leader := .ok (replicaOf otherID, true)
  membership := .ok { nodes := (AList.singleton (replicaOf localID) "10.0.0.1:9000").insert (replicaOf otherID) "10.0.0.2:9000" }

/-- The placeholder of the leader sorts before the ID of the node. -/
theorem restarted_worker_names_leader :
    let node := restartedNode "worker-1"
    let view := pairView "worker-1" "worker-2"
    (node.status view).leaderAddress = "10.0.0.2:9000" ∧ (node.status view).leaderID = placeholder (replicaOf "worker-2") ∧
      node.NamesLeader view (node.status view) ∧ node.ForwardsElsewhere (node.status view) := by
  refine ⟨by decide +kernel, by decide +kernel, (status_names_leader_iff (restartedNode_reached _) _).mpr ?_⟩
  rintro _ leader ready ⟨⟩
  have only (address : String) (reported : (restartedNode "worker-1").Reports (pairView "worker-1" "worker-2")
      (replicaOf "worker-2") address) : address = "10.0.0.2:9000" :=
    ((RaftNode.leaderAddress_spec (restartedNode_reached _).kept rfl).1 address reported).trans (by decide +kernel)
  constructor
  · intro address reported
    exact ⟨rfl, .inl ⟨by decide +kernel, (only address reported).trans (by decide +kernel)⟩⟩
  · intro _ _ address id reported recorded
    rw [only address reported] at recorded
    exact absurd recorded (by rw [show (restartedNode "worker-1").identities.addressToNode.lookup
      (trimSpace "10.0.0.2:9000") = none by decide +kernel]; simp)
  · intro _ _ _ mine
    exact absurd mine (by decide +kernel)

/-- After a restart a follower whose ID sorts first goes by its own address and
names itself. -/
theorem restarted_follower_names_itself :
    ¬ ∀ (cfg : RaftConfig) (node : RaftNode) (view : ShardView), node.Reached cfg →
      node.NamesLeader view (node.status view) ∧ node.ForwardsElsewhere (node.status view) := by
  intro named
  have names := (named _ _ (pairView "a" "b") (restartedNode_reached "a")).1.follower fun leader leads => by
    obtain rfl : replicaOf "b" = leader := congrArg Prod.fst (Except.ok.inj leads)
    decide +kernel
  exact absurd names.2 (by decide +kernel)

end Status

/-- What the handler of a write says when it cannot ask for the leader. The
other handlers do not ask. -/
def Http.Operation.forwardMessage : Http.Operation → Option String
  | .deployApp => some "forward deploy app"
  | .startDeployApp => some "forward start app"
  | .stopDeployApp => some "forward stop app"
  | .restartDeployApp => some "forward restart app"
  | .rollbackDeployApp => some "forward rollback app"
  | .migrateDeployApp => some "forward migrate app"
  | .failoverDeployApp => some "forward failover app"
  | .rebalanceDeployApp => some "forward rebalance app"
  | .deleteDeployApp => some "forward delete app"
  | .deployAppSource => some "forward deploy source"
  | .addRaftVoter => some "forward add raft voter"
  | .removeRaftMember => some "forward remove raft member"
  | _ => none

/-- A request as far as the handlers look at it before they ask for the leader.
Only a source has a virtual path. -/
structure Write where
  operation : Http.Operation
  virtualPath : String := ""

def Write.Asks (write : Write) : Prop :=
  write.operation.forwardMessage.isSome = true ∧ (write.operation = .deployAppSource → trimSpace write.virtualPath ≠ "")

inductive Handling where
  | unauthorized
  | submit
  | reject (err : Failure)
  | forward (baseURL : String)
deriving DecidableEq, Repr

/-- The handlers of all writes begin alike. A request that another node has
forwarded looks like any other. -/
def handleWrite (svc : Service) (status : Except Failure RaftNode.Status) (write : Write) : Handling :=
  if write.operation = .deployAppSource ∧ trimSpace write.virtualPath = "" then .reject (.errorf "virtualPath is required")
  else
    match write.operation.forwardMessage with
    | none => .submit
    | some message =>
      match leaderBaseURL svc status with
      | .error err => .reject (.wrapf err message)
      | .ok none => .submit
      | .ok (some baseURL) => .forward baseURL

/-- The API servers of a cluster: what each one is configured with and believes
of the leader, and who answers at a URL. -/
structure ApiCluster (ν : Type) where
  service : ν → Service
  status : ν → Except Failure RaftNode.Status
  authEnabled : ν → Bool
  authenticates : ν → String → Bool
  workerToken : ν → String
  serves : String → Option ν

namespace ApiCluster

variable {ν : Type} (cluster : ApiCluster ν)

/-- The server of a node runs the guard before what is below a path of the
guard. -/
def admits (node : ν) (operation : Http.Operation) (authorization : String) : Bool :=
  let server := Http.newFiberAppAndRuntime (cluster.authEnabled node) (some (Http.newGuard (cluster.authenticates node)))
  let lets (guard : Routing.Middleware) := guard.lets ⟨"", "", fun name => if name = "Authorization" then authorization else ""⟩
  server.routes.all fun route => route.handler.operation ≠ operation ||
    server.middlewares.all fun guard => !guard.base.isPrefixOf (Routing.stem route.pattern) || lets guard

def handle (node : ν) (write : Write) (authorization : String) : Handling :=
  if cluster.admits node write.operation authorization then handleWrite (cluster.service node) (cluster.status node) write
  else .unauthorized

/-- The forwarder sends no credential but the worker token of its node. -/
def newLeaderClient (node : ν) : String :=
  let tok := trimSpace (cluster.workerToken node)
  if tok ≠ "" then "Bearer " ++ tok else ""

/-- The URLs that a write has been forwarded to so far, from the node and with
the credential that it was received with. -/
inductive Forwarded (write : Write) : ν → String → List String → Prop
  | received {node : ν} {authorization : String} : Forwarded write node authorization []
  | sent {node : ν} {authorization url : String} : cluster.handle node write authorization = .forward url →
      Forwarded write node authorization [url]
  | passed {node next : ν} {authorization url : String} {urls : List String} :
      cluster.handle node write authorization = .forward url → cluster.serves url = some next →
      Forwarded write next (cluster.newLeaderClient node) urls → Forwarded write node authorization (url :: urls)

/-- A node sees another leader and has its URL. -/
def RefersTo (node : ν) (url : String) : Prop :=
  ∃ status, cluster.status node = .ok status ∧ status.ready = true ∧ status.isLeader = false ∧
    trimSpace status.leaderID ≠ "" ∧ (cluster.service node).nodeURL (trimSpace status.leaderID) = some url

/-- The worker token of a node lets a write into another one: nothing is
guarded there, or not this write, or the token is valid. -/
def Trusts (next node : ν) (write : Write) : Prop :=
  cluster.authEnabled next = true → write.operation.changes = some .desiredApps →
    trimSpace (cluster.workerToken node) ≠ "" ∧ cluster.authenticates next (trimSpace (cluster.workerToken node)) = true

/-- The routes of the writes that ask for the leader, against the paths of the
guard. -/
theorem asking_routes : ∀ route ∈ Http.registerEndpoints (Http.newRouteEndpoints true),
    route.handler.operation.forwardMessage.isSome = true →
      (Http.deployPath.isPrefixOf (Routing.stem route.pattern) = true ↔
        route.handler.operation.changes = some .desiredApps) ∧
      Http.workerPath.isPrefixOf (Routing.stem route.pattern) = false := by
  decide +kernel

theorem deploy_registered {operation : Http.Operation} (changes : operation.changes = some .desiredApps) :
    ∃ route ∈ Http.registerEndpoints (Http.newRouteEndpoints true), route.handler.operation = operation := by
  cases operation <;> cases changes <;> decide +kernel

variable {cluster} {node next : ν} {write : Write} {authorization url : String}

/-- The guard lets a credential through. -/
def Passes (authenticates : String → Bool) (authorization : String) : Prop :=
  Http.newGuard authenticates ⟨"", "", fun name => if name = "Authorization" then authorization else ""⟩ = true

theorem admits_iff (asks : write.Asks) : cluster.admits node write.operation authorization = true ↔
    (cluster.authEnabled node = true → write.operation.changes = some .desiredApps →
      Passes (cluster.authenticates node) authorization) := by
  unfold admits
  cases enabled : cluster.authEnabled node with
  | false => simp [Http.newFiberAppAndRuntime]
  | true =>
    have guards := Http.guardedServer_middlewares (cluster.authenticates node)
    rw [Http.guardedServer] at guards
    simp only [guards, List.all_eq_true, List.all_cons, List.all_nil, Bool.and_true, Bool.or_eq_true, Bool.and_eq_true,
      decide_eq_true_eq, ne_eq, forall_const]
    constructor
    · intro admitted changes
      obtain ⟨route, member, same⟩ := deploy_registered changes
      rcases admitted route member with other | ⟨unguarded | passes, -⟩
      · exact absurd same other
      · have below := (asking_routes route member (same ▸ asks.1)).1.mpr (same ▸ changes)
        simp [below] at unguarded
      · exact passes
    · intro passes route member
      rw [or_iff_not_imp_left, not_not]
      intro same
      obtain ⟨deploys, works⟩ := asking_routes route member (same ▸ asks.1)
      refine ⟨?_, .inl (by simp [works])⟩
      rw [or_iff_not_imp_left, Bool.not_eq_true, Bool.not_eq_false', deploys, same]
      exact passes

theorem passes_newLeaderClient {authenticates : String → Bool} :
    Passes authenticates (cluster.newLeaderClient node) ↔
      trimSpace (cluster.workerToken node) ≠ "" ∧ authenticates (trimSpace (cluster.workerToken node)) = true := by
  simp only [Passes, Http.newGuard, newLeaderClient, if_true]
  generalize same : trimSpace (cluster.workerToken node) = token
  have trimmed : trimSpace token = token := by rw [← same, trimSpace_trimSpace]
  rcases eq_or_ne token "" with rfl | present
  · simp [trimmed]
  · -- The token ends the text, which starts with a letter: nothing is trimmed.
    have joined : trimSpace ("Bearer " ++ token) = "Bearer " ++ token := by
      have last := (trimChars_eq_self_iff.mp (by simpa [trimSpace] using congrArg String.toList trimmed)).2
      have whole : trimChars ("Bearer ".toList ++ token.toList) = "Bearer ".toList ++ token.toList := by
        rw [trimChars_eq_self_iff, List.getLast?_append_of_ne_nil _ (by simpa using present)]
        exact ⟨by rintro _ ⟨⟩; decide, last⟩
      rw [trimSpace, String.toList_append, whole, ← String.toList_append, String.ofList_toList]
    have rest : ("Bearer " ++ token).toList.drop "Bearer ".length = token.toList := by
      rw [String.toList_append]
      exact List.drop_left
    rw [if_pos present, joined, rest, String.ofList_toList, trimmed]
    simp [present]

theorem handle_eq_forward : cluster.handle node write authorization = .forward url ↔
    write.Asks ∧ cluster.admits node write.operation authorization = true ∧ cluster.RefersTo node url := by
  have refers : leaderBaseURL (cluster.service node) (cluster.status node) = .ok (some url) ↔ cluster.RefersTo node url := by
    unfold RefersTo
    cases cluster.status node with
    | error err => simp [leaderBaseURL]
    | ok status => simp [leaderBaseURL_some]
  rw [← refers, handle, handleWrite, Write.Asks]
  split
  · next admitted =>
    split
    · next pathless => simp [pathless]
    · next complete =>
      simp only [not_and] at complete
      cases write.operation.forwardMessage with
      | none => simp
      | some message =>
        dsimp only
        split <;> simp_all
  · next refused => simp [refused]

/-- A write that a node receives is forwarded at most once exactly when no node
that refers to another leader is reached from one that does, or the guard
there stops it. -/
theorem forwarded_once_iff (cluster : ApiCluster ν) (write : Write) (node : ν) (authorization : String) :
    (∀ urls, cluster.Forwarded write node authorization urls → urls.length ≤ 1) ↔
      (write.Asks → cluster.admits node write.operation authorization = true → ∀ url next onward, cluster.RefersTo node url →
        cluster.serves url = some next → cluster.RefersTo next onward → ¬ cluster.Trusts next node write) := by
  constructor
  · intro once asks admitted url next onward refers served again trusts
    have first := handle_eq_forward.mpr ⟨asks, admitted, refers⟩
    have second : cluster.handle next write (cluster.newLeaderClient node) = .forward onward :=
      handle_eq_forward.mpr ⟨asks, (admits_iff asks).mpr fun enabled guarded =>
        passes_newLeaderClient.mpr (trusts enabled guarded), again⟩
    have twice := once [url, onward] (.passed first served (.sent second))
    simp at twice
  · rintro keeps _ (_ | _ | @⟨_, next, _, url, urls, forwards, served, later⟩)
    · simp
    · simp
    · -- The next node keeps the write, so nothing has been added there.
      obtain ⟨asks, admitted, refers⟩ := handle_eq_forward.mp forwards
      have stays (onward : String) : cluster.handle next write (cluster.newLeaderClient node) ≠ .forward onward := by
        intro again
        obtain ⟨-, passes, refersOn⟩ := handle_eq_forward.mp again
        exact keeps asks admitted _ _ onward refers served refersOn fun enabled guarded =>
          passes_newLeaderClient.mp ((admits_iff asks).mp passes enabled guarded)
      cases later with
      | received => simp
      | sent again => exact absurd again (stays _)
      | passed again _ _ => exact absurd again (stays _)

end ApiCluster

/-- Two nodes, each of which takes the other one for the leader. Their guards
accept the token that they share. -/
def disagreeing : ApiCluster Bool where
  service node :=
    { sampleService with clusterNodes := (AList.singleton "a" "http://a").insert "b" "http://b"
                         localNode := if node then "a" else "b"
                         trimmed := by cases node <;> decide +kernel, named := by cases node <;> decide }
  status node := .ok { ready := true, nodeID := if node then "a" else "b", state := "Follower", leaderID := if node then "b" else "a" }
  authEnabled _ := true
  authenticates _ token := token = "secret"
  workerToken _ := "secret"
  serves url := if url = "http://a" then some true else if url = "http://b" then some false else none

/-- They send a write back and forth. -/
theorem disagreeing_forwards_twice :
    ¬ ∀ (ν : Type) (cluster : ApiCluster ν) (write : Write) (node : ν) (authorization : String) (urls : List String),
      cluster.Forwarded write node authorization urls → urls.length ≤ 1 := by
  intro once
  have there : disagreeing.handle true ⟨.deployApp, ""⟩ "Bearer secret" = .forward "http://b" := by decide +kernel
  have back : disagreeing.handle false ⟨.deployApp, ""⟩ (disagreeing.newLeaderClient true) = .forward "http://a" := by
    decide +kernel
  have twice := once Bool disagreeing ⟨.deployApp, ""⟩ true "Bearer secret" ["http://b", "http://a"] (.passed there rfl (.sent back))
  simp at twice

end Orch
