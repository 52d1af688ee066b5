import Mathlib.Algebra.Group.Nat.Defs
import Mathlib.Data.List.Sort
import Orch.Task.Signature

namespace Fnv

/-- The 64-bit FNV-1a hash. -/
def sum64a (bytes : List Nat) : Nat :=
  bytes.foldl (fun hash byte => ((hash ^^^ byte) * 1099511628211) % 2 ^ 64) 14695981039346656037

end Fnv

namespace Orch

def replicaIDForNodeID (id : String) : Except Failure Nat :=
  let id := trimSpace id
  if id = "" then .error (.errorf "raft node id is required")
  else
    let sum := Fnv.sum64a (id.toList.flatMap Json.utf8)
    .ok (if sum = 0 then 1 else sum)

abbrev ReplicaTable := AList fun _ : Nat => String

/-- What a node remembers of who the members are. -/
structure Identities where
  replicaToNode : ReplicaTable := ∅
  addressToNode : Table String := ∅

namespace Identities

def rememberMember (ids : Identities) (id : String) (replicaID : Nat) (address : String) : Identities :=
  let id := trimSpace id
  let address := trimSpace address
  if id = "" ∨ replicaID = 0 then ids
  else
    { replicaToNode := ids.replicaToNode.insert replicaID id
      addressToNode := if address ≠ "" then ids.addressToNode.insert address id else ids.addressToNode }

/-- The address stays on record. -/
def forgetMember (ids : Identities) (replicaID : Nat) : Identities :=
  { ids with replicaToNode := ids.replicaToNode.erase replicaID }

end Identities

def placeholder (replicaID : Nat) : String :=
  "replica-" ++ String.ofList (Json.decimal replicaID)

def Identities.nodeIDForMember (ids : Identities) (replicaID : Nat) (address : String) : String :=
  match (ids.replicaToNode.lookup replicaID).filter (trimSpace · ≠ "") with
  | some id => id
  | none => ((ids.addressToNode.lookup (trimSpace address)).filter (trimSpace · ≠ "")).getD (placeholder replicaID)

structure RaftConfig where
  bootstrap : Bool := false
  peers : Table String := ∅

/-- A host and a port, as `net.SplitHostPort` accepts them. -/
def splitHostPort (hostport : String) : Option (List Char × List Char) :=
  let text := hostport.toList
  match text.splitOn ':' with
  | [] => none
  | [_] => none
  | pieces =>
    let port := pieces.getLastD []
    let front := text.take (text.length - port.length - 1)
    match front with
    | '[' :: inner =>
      if inner.getLast? = some ']' ∧ ']' ∉ inner.dropLast ∧ '[' ∉ inner ∧ '[' ∉ port ∧ ']' ∉ port then
        some (inner.dropLast, port)
      else none
    | host => if ':' ∈ host ∨ '[' ∈ text ∨ ']' ∈ text then none else some (host, port)

def validateRaftPeerAddress (label raw : String) : Except Failure String :=
  let addr := trimSpace raw
  if addr = "" then .error (.errorf "%s is required" [.text label])
  else
    match splitHostPort addr with
    | none => .error (.errorf "%s must be host:port" [.text label])
    | some (host, port) =>
      if trimChars host = [] then .error (.errorf "%s must include a host" [.text label])
      else if trimChars port = [] then .error (.errorf "%s must include a port" [.text label])
      else .ok addr

/-- The Raft service of one process on a node. -/
structure RaftNode where
  localID : String
  localReplicaID : Nat := 0
  localAddress : String := ""
  identities : Identities := {}
  started : Bool := false

/-- The configured peers by trimmed ID, this node at its own address. -/
def bootstrapPeers (cfg : RaftConfig) (localID localAddr : String) : Except Failure (Table String) := do
  let peers ← cfg.peers.entries.foldlM (fun (peers : Table String) entry =>
    let id := trimSpace entry.1
    if id = "" then .ok peers
    else do
      let addr ← validateRaftPeerAddress ("raft.peers." ++ id) entry.2
      .ok (peers.insert id addr)) ∅
  return peers.insert localID localAddr

def sortedPeerIDs (peers : Table String) : List String :=
  peers.keys.insertionSort (· ≤ ·)

/-- The replicas of the peers, which are remembered one by one on the way. -/
def replicaTargetsFromPeers (peers : Table String) :
    List String → ReplicaTable → ReplicaTable → Identities → Identities × Except Failure ReplicaTable
  | [], _, targets, ids => (ids, .ok targets)
  | id :: rest, seenIDs, targets, ids =>
    match replicaIDForNodeID id with
    | .error err => (ids, .error err)
    | .ok replicaID =>
      match (seenIDs.lookup replicaID).filter (· ≠ id) with
      | some prev =>
        (ids, .error (.errorf "raft node ids %q and %q resolve to the same dragonboat replica id %d"
          [.text prev, .text id, .number replicaID]))
      | none =>
        let address := (peers.lookup id).getD ""
        replicaTargetsFromPeers peers rest (seenIDs.insert replicaID id) (targets.insert replicaID address)
          (ids.rememberMember id replicaID address)

def ensureLocalReplicaTarget (targets : ReplicaTable) (localReplicaID : Nat) (localAddr : String) : ReplicaTable :=
  if (targets.lookup localReplicaID).isSome then targets else targets.insert localReplicaID localAddr

def bootstrapReplicaTargets (cfg : RaftConfig) (localID : String) (localReplicaID : Nat) (localAddr : String)
    (ids : Identities) : Identities × Except Failure ReplicaTable :=
  let localID := trimSpace localID
  if localID = "" then (ids, .error (.errorf "raft local id is required"))
  else
    match bootstrapPeers cfg localID localAddr with
    | .error err => (ids, .error err)
    | .ok peers =>
      match replicaTargetsFromPeers peers (sortedPeerIDs peers) ∅ ∅ ids with
      | (ids, .error err) => (ids, .error err)
      | (ids, .ok targets) =>
        (ids.rememberMember localID localReplicaID localAddr, .ok (ensureLocalReplicaTarget targets localReplicaID localAddr))

/-- How the start of the node host goes: the address it gets, whether the shard
is on disk from an earlier process, and whether the replica starts. -/
structure StartOutcome where
  address : Except Failure String
  hasNodeInfo : Bool
  replicaStarted : Bool := true

def RaftNode.start (node : RaftNode) (cfg : RaftConfig) (outcome : StartOutcome) : RaftNode :=
  if node.started then node
  else
    match replicaIDForNodeID node.localID, outcome.address with
    | .ok replicaID, .ok raftAddr =>
      let ids := node.identities.rememberMember node.localID replicaID raftAddr
      let node := { node with localReplicaID := replicaID, localAddress := raftAddr }
      -- Known on disk, the shard starts from there; only a new one looks at the configured peers.
      match if !outcome.hasNodeInfo && cfg.bootstrap then bootstrapReplicaTargets cfg node.localID replicaID raftAddr ids
        else (ids, .ok ∅) with
      | (ids, .error _) => { node with identities := ids }
      | (ids, .ok _) => { node with identities := ids, started := outcome.replicaStarted }
    | _, _ => node

/-- What Dragonboat says of the shard: its leader, if one is ready, and its
members. -/
structure ShardMembership where
  nodes : ReplicaTable := ∅
  nonVotings : ReplicaTable := ∅
  witnesses : ReplicaTable := ∅

structure ShardView where
  leader : Except String (Nat × Bool)
  membership : Except Failure ShardMembership

def RaftNode.isLocalLeader (node : RaftNode) (view : ShardView) : Bool :=
  node.started && node.localReplicaID ≠ 0 &&
    match view.leader with
    | .ok (leaderID, ready) => ready && leaderID = node.localReplicaID
    | .error _ => false

/-- Only a change that goes through on the leader is remembered. -/
def RaftNode.addVoter (node : RaftNode) (view : ShardView) (id address : String) (accepted : Bool) : RaftNode :=
  if !node.isLocalLeader view ∨ trimSpace id = "" then node
  else
    match validateRaftPeerAddress "member.address" address, replicaIDForNodeID (trimSpace id) with
    | .ok addr, .ok replicaID =>
      if accepted then { node with identities := node.identities.rememberMember (trimSpace id) replicaID addr } else node
    | _, _ => node

def RaftNode.removeServer (node : RaftNode) (view : ShardView) (id : String) (accepted : Bool) : RaftNode :=
  if !node.isLocalLeader view ∨ trimSpace id = "" then node
  else
    match replicaIDForNodeID (trimSpace id) with
    | .ok replicaID => if accepted then { node with identities := node.identities.forgetMember replicaID } else node
    | .error _ => node

structure Member where
  id : String
  address : String
  suffrage : String
deriving DecidableEq, Repr

def ShardMembership.replicaIDs (m : ShardMembership) : List Nat :=
  m.nodes.keys ++ m.nonVotings.keys ++ m.witnesses.keys

def ShardMembership.addressAndSuffrage (m : ShardMembership) (replicaID : Nat) : String × String :=
  match m.nonVotings.lookup replicaID, m.witnesses.lookup replicaID with
  | some address, _ => (address, "NonVoter")
  | none, some address => (address, "Witness")
  | none, none => ((m.nodes.lookup replicaID).getD "", "Voter")

namespace RaftNode

def memberFromReplicaID (node : RaftNode) (m : ShardMembership) (replicaID : Nat) : Member :=
  let (address, suffrage) := m.addressAndSuffrage replicaID
  ⟨node.identities.nodeIDForMember replicaID address, address, suffrage⟩

/-- The replicas in the order of the IDs they have whatever their addresses. -/
def sortedReplicas (node : RaftNode) (m : ShardMembership) : List Nat :=
  m.replicaIDs.insertionSort fun a b =>
    node.identities.nodeIDForMember a "" ≤ node.identities.nodeIDForMember b ""

def listMembers (node : RaftNode) (m : ShardMembership) : List Member :=
  (node.sortedReplicas m).map (node.memberFromReplicaID m)

def membersOrNone (node : RaftNode) (view : ShardView) : List Member :=
  match view.membership with
  | .ok m => node.listMembers m
  | .error _ => []

/-- The address of the first member that goes by the ID the leader would have
at that address. -/
def leaderAddress (node : RaftNode) (leaderReplicaID : Nat) (isLeader : Bool) (members : List Member) : String :=
  let address := ((members.find? fun member =>
    member.id = node.identities.nodeIDForMember leaderReplicaID member.address).map Member.address).getD ""
  if isLeader ∧ address = "" then node.localAddress else address

structure Status where
  ready : Bool := false
  nodeID : String
  state : String
  isLeader : Bool := false
  leaderID : String := ""
  leaderAddress : String := ""
  localAddress : String := ""
  message : String := ""
  members : List Member := []

def raftStateName (leaderReady isLeader : Bool) : String :=
  if isLeader then "Leader" else if !leaderReady then "Unknown" else "Follower"

def status (node : RaftNode) (view : ShardView) : Status :=
  if !node.started then
    { nodeID := node.localID, state := "not_ready", message := "dragonboat nodehost is not started" }
  else
    match view.leader with
    | .error message => { nodeID := node.localID, state := "unknown", localAddress := node.localAddress, message }
    | .ok (leaderReplicaID, leaderReady) =>
      let isLeader := leaderReady && leaderReplicaID = node.localReplicaID
      let members := node.membersOrNone view
      let leaderAddress := node.leaderAddress leaderReplicaID isLeader members
      { ready := leaderReady, nodeID := node.localID, state := raftStateName leaderReady isLeader, isLeader
        leaderID := if leaderReady then node.identities.nodeIDForMember leaderReplicaID leaderAddress else ""
        leaderAddress, localAddress := node.localAddress
        message := if leaderReady then "" else "raft leader is not ready", members }

end RaftNode

/-- The services a process can come to: a new one, after starts, additions and
removals of members. A restart of the process is a new one. -/
inductive RaftNode.Reached (cfg : RaftConfig) : RaftNode → Prop
  | fresh (localID : String) : Reached cfg { localID }
  | start {node : RaftNode} (outcome : StartOutcome) : Reached cfg node → Reached cfg (node.start cfg outcome)
  | addVoter {node : RaftNode} (view : ShardView) (id address : String) (accepted : Bool) :
      Reached cfg node → Reached cfg (node.addVoter view id address accepted)
  | removeServer {node : RaftNode} (view : ShardView) (id : String) (accepted : Bool) :
      Reached cfg node → Reached cfg (node.removeServer view id accepted)

/-- A replica is remembered under an ID that stands for it. -/
def Identities.Sound (ids : Identities) : Prop :=
  ∀ replicaID id, ids.replicaToNode.lookup replicaID = some id → replicaIDForNodeID id = .ok replicaID

theorem replicaIDForNodeID_trimSpace (id : String) : replicaIDForNodeID (trimSpace id) = replicaIDForNodeID id := by
  simp only [replicaIDForNodeID, trimSpace_trimSpace]

theorem trimSpace_ne_of_replicaID {id : String} {replicaID : Nat} (hashed : replicaIDForNodeID id = .ok replicaID) :
    trimSpace id ≠ "" := by
  intro blank
  simp [replicaIDForNodeID, blank] at hashed

/-- What holds of the maps of a new service, is kept when a member is remembered
under an ID that stands for it, and is kept when one is forgotten. -/
structure Identities.Invariant (P : Identities → Prop) : Prop where
  fresh : P {}
  remember : ∀ {ids id replicaID} (address), P ids → replicaIDForNodeID id = .ok replicaID →
    P (ids.rememberMember id replicaID address)
  forget : ∀ {ids} (replicaID), P ids → P (ids.forgetMember replicaID)

namespace Identities.Invariant

variable {P : Identities → Prop} (invariant : Invariant P)
include invariant

theorem replicaTargets {peers : Table String} : ∀ {peerIDs : List String} {seen targets : ReplicaTable} {ids : Identities},
    P ids → P (replicaTargetsFromPeers peers peerIDs seen targets ids).1
  | [], _, _, _, held => held
  | id :: rest, seen, targets, ids, held => by
    rw [replicaTargetsFromPeers]
    split
    · exact held
    · next replicaID hashed =>
      split
      · exact held
      · exact replicaTargets (invariant.remember _ held hashed)

variable {cfg : RaftConfig}

theorem bootstrap {ids : Identities} {localID localAddr : String} {replicaID : Nat} (held : P ids)
    (hashed : replicaIDForNodeID localID = .ok replicaID) :
    P (bootstrapReplicaTargets cfg localID replicaID localAddr ids).1 := by
  unfold bootstrapReplicaTargets
  dsimp only
  split
  · exact held
  split
  · exact held
  · next peers _ =>
    have kept : P (replicaTargetsFromPeers peers (sortedPeerIDs peers) ∅ ∅ ids).1 := invariant.replicaTargets held
    split
    · next after _ same => rwa [same] at kept
    · next after _ same =>
      rw [same] at kept
      exact invariant.remember _ kept ((replicaIDForNodeID_trimSpace localID).trans hashed)

theorem start {node : RaftNode} {outcome : StartOutcome} (held : P node.identities) :
    P (node.start cfg outcome).identities := by
  unfold RaftNode.start
  split
  · exact held
  split
  · next replicaID raftAddr hashed _ =>
    have remembered := invariant.remember raftAddr held hashed
    have after : P (if !outcome.hasNodeInfo && cfg.bootstrap then bootstrapReplicaTargets cfg node.localID replicaID raftAddr
          (node.identities.rememberMember node.localID replicaID raftAddr)
        else (node.identities.rememberMember node.localID replicaID raftAddr, .ok ∅)).1 := by
      split
      · exact invariant.bootstrap remembered hashed
      · exact remembered
    dsimp only
    split
    · next ids _ same =>
      rw [same] at after
      exact after
    · next ids _ same =>
      rw [same] at after
      exact after
  · exact held

theorem reached {node : RaftNode} (reached : node.Reached cfg) : P node.identities := by
  induction reached with
  | fresh localID => exact invariant.fresh
  | start outcome _ ih => exact invariant.start ih
  | addVoter view id address accepted _ ih =>
    unfold RaftNode.addVoter
    split
    · exact ih
    split
    · next addr replicaID _ hashed =>
      split
      · exact invariant.remember _ ih hashed
      · exact ih
    · exact ih
  | removeServer view id accepted _ ih =>
    unfold RaftNode.removeServer
    split
    · exact ih
    split
    · split
      · exact invariant.forget _ ih
      · exact ih
    · exact ih

end Identities.Invariant

theorem Identities.sound_invariant : Identities.Invariant Identities.Sound where
  fresh _ _ found := by simp at found
  remember {ids id replicaID} address sound hashed := by
    intro r known found
    simp only [rememberMember] at found
    split at found
    · exact sound r known found
    · rcases eq_or_ne r replicaID with rfl | other
      · rw [AList.lookup_insert, Option.some.injEq] at found
        rw [← found, replicaIDForNodeID_trimSpace, hashed]
      · rw [AList.lookup_insert_ne other] at found
        exact sound r known found
  forget {ids} replicaID sound := by
    intro r known found
    rcases eq_or_ne r replicaID with rfl | other
    · simp [forgetMember] at found
    · rw [forgetMember, AList.lookup_erase_ne other] at found
      exact sound r known found

/-- The maps hold no blank or untrimmed ID, and none for the empty address. -/
structure Identities.Clean (ids : Identities) : Prop where
  replicas : ∀ replicaID, ∀ id ∈ ids.replicaToNode.lookup replicaID, trimSpace id = id ∧ id ≠ ""
  addresses : ∀ address, ∀ id ∈ ids.addressToNode.lookup address, trimSpace id = id ∧ id ≠ ""
  unaddressed : ids.addressToNode.lookup "" = none

/-- Every write to the identities keeps them clean. -/
theorem Identities.clean_invariant : Identities.Invariant Identities.Clean where
  fresh := ⟨fun _ _ found => by simp at found, fun _ _ found => by simp at found, rfl⟩
  remember {ids id replicaID} address clean hashed := by
    unfold rememberMember
    dsimp only
    split
    · exact clean
    next proper =>
    have named : trimSpace (trimSpace id) = trimSpace id ∧ trimSpace id ≠ "" :=
      ⟨trimSpace_trimSpace id, fun blank => proper (.inl blank)⟩
    refine ⟨?_, ?_, ?_⟩
    · intro r other found
      by_cases here : r = replicaID
      · subst here
        rw [AList.lookup_insert] at found
        cases found
        exact named
      · rw [AList.lookup_insert_ne here] at found
        exact clean.replicas r other found
    · intro a other found
      dsimp only at found
      split at found
      · by_cases here : a = trimSpace address
        · subst here
          rw [AList.lookup_insert] at found
          cases found
          exact named
        · rw [AList.lookup_insert_ne here] at found
          exact clean.addresses a other found
      · exact clean.addresses a other found
    · dsimp only
      split
      · next there => rw [AList.lookup_insert_ne there.symm, clean.unaddressed]
      · exact clean.unaddressed
  forget {ids} replicaID clean := by
    refine ⟨fun r id found => ?_, clean.addresses, clean.unaddressed⟩
    by_cases here : r = replicaID
    · subst here
      simp [forgetMember] at found
    · rw [forgetMember, AList.lookup_erase_ne here] at found
      exact clean.replicas r id found

theorem placeholder_clean (replicaID : Nat) :
    trimSpace (placeholder replicaID) = placeholder replicaID ∧ placeholder replicaID ≠ "" := by
  have letters : (placeholder replicaID).toList = "replica-".toList ++ Nat.toDigits 10 replicaID := by
    simp only [placeholder, String.toList_append, String.toList_ofList]
    rfl
  constructor
  · refine trimSpace_of_all fun c inside => ?_
    rw [letters] at inside
    rcases List.mem_append.mp inside with letter | digit
    · have plain : ("replica-".toList.all fun c => !isSpace c) = true := by decide
      simpa using List.all_eq_true.mp plain c letter
    · have ascii := Nat.isDigit_of_mem_toDigits (by decide) (by decide) digit
      simp only [Char.isDigit, Bool.and_eq_true, decide_eq_true_eq, UInt32.le_iff_toNat_le, ge_iff_le] at ascii
      have low : 48 ≤ c.toNat := ascii.1
      have high : c.toNat ≤ 57 := ascii.2
      simp only [isSpace, Bool.or_eq_false_iff, Bool.and_eq_false_iff, beq_eq_false_iff_ne, decide_eq_false_iff_not]
      omega
  · intro blank
    have : (placeholder replicaID).toList = [] := by rw [blank]; rfl
    rw [letters] at this
    cases this

theorem placeholder_injective : Function.Injective placeholder := by
  intro a b same
  have digits : Nat.toDigits 10 a = Nat.toDigits 10 b := by
    simpa [placeholder, ← String.toList_inj, Json.decimal] using same
  have values := congrArg (Nat.ofDigitChars 10 · 0) digits
  simpa only [Nat.ofDigitChars_toDigits (b := 10) (by decide) (by decide)] using values

theorem Identities.Clean.nodeIDForMember_eq {ids : Identities} (clean : ids.Clean) (replicaID : Nat) (address : String) :
    ids.nodeIDForMember replicaID address = (ids.replicaToNode.lookup replicaID).getD
      ((ids.addressToNode.lookup (trimSpace address)).getD (placeholder replicaID)) := by
  have whole {found : Option String} (proper : ∀ id ∈ found, trimSpace id = id ∧ id ≠ "") :
      found.filter (trimSpace · ≠ "") = found := by
    cases found with
    | none => rfl
    | some id => exact Option.filter_some_pos (by simpa [(proper id rfl).1] using (proper id rfl).2)
  simp only [Identities.nodeIDForMember, whole (clean.replicas replicaID), whole (clean.addresses _)]
  cases ids.replicaToNode.lookup replicaID <;> rfl

/-- What the maps of a service keep in every state it can come to. -/
structure RaftNode.Sound (node : RaftNode) : Prop where
  identities : node.identities.Sound
  own : node.started = true → replicaIDForNodeID node.localID = .ok node.localReplicaID

variable {node : RaftNode} {cfg : RaftConfig}

theorem RaftNode.start_own {outcome : StartOutcome}
    (own : node.started = true → replicaIDForNodeID node.localID = .ok node.localReplicaID) :
    (node.start cfg outcome).started = true →
      replicaIDForNodeID (node.start cfg outcome).localID = .ok (node.start cfg outcome).localReplicaID := by
  unfold RaftNode.start
  split
  · exact own
  split
  · next hashed _ =>
    dsimp only
    split <;> exact fun _ => hashed
  · exact own

theorem RaftNode.Reached.own (reached : node.Reached cfg) :
    node.started = true → replicaIDForNodeID node.localID = .ok node.localReplicaID := by
  induction reached with
  | fresh localID => exact nofun
  | start outcome _ ih => exact RaftNode.start_own ih
  | addVoter view id address accepted _ ih =>
    unfold RaftNode.addVoter
    split
    · exact ih
    split
    · split <;> exact ih
    · exact ih
  | removeServer view id accepted _ ih =>
    unfold RaftNode.removeServer
    split
    · exact ih
    split
    · split <;> exact ih
    · exact ih

theorem RaftNode.Reached.sound (reached : node.Reached cfg) : node.Sound :=
  ⟨Identities.sound_invariant.reached reached, reached.own⟩

/-- The members the service has been told of, none if the query fails. -/
def ShardView.members (view : ShardView) : ShardMembership :=
  match view.membership with
  | .ok m => m
  | .error _ => {}

theorem RaftNode.membersOrNone_eq (node : RaftNode) (view : ShardView) :
    node.membersOrNone view = node.listMembers view.members := by
  unfold RaftNode.membersOrNone ShardView.members
  cases view.membership <;> rfl

end Orch
