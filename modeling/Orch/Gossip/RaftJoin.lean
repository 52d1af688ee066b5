import Orch.Raft.Members

namespace Orch

/-- The letter that both cases of a letter fold to. Only the Kelvin sign and the
long s fold to ASCII from outside. -/
def foldCase (c : Char) : Char :=
  if 'A' ≤ c ∧ c ≤ 'Z' then Char.ofNat (c.toNat + 32)
  else if c.toNat = 0x212a then 'k'
  else if c.toNat = 0x17f then 's'
  else c

/-- `strings.EqualFold`, where one of the texts is in ASCII. -/
def equalFold (s ascii : String) : Bool := s.toList.map foldCase = ascii.toList.map foldCase

structure GossipNode where
  id : String
  raftAddress : String := ""
  state : String := ""
deriving DecidableEq

def raftMemberIDs (members : List Member) : List String :=
  (members.map fun member => trimSpace member.id).filter (· ≠ "")

/-- A node other than this one that is alive and says where its replica is. -/
def GossipNode.eligible (node : GossipNode) (localID : String) : Bool :=
  !(trimSpace node.id = "" ∨ trimSpace node.id = localID ∨ trimSpace node.raftAddress = "") &&
    equalFold (trimSpace node.state) "alive"

def isRaftJoinCandidate (node : GossipNode) (existing : List String) (localID : String) : Bool :=
  node.eligible localID && trimSpace node.id ∉ existing

def raftJoinCandidates (nodes : List GossipNode) (existing : List String) (localID : String) : List GossipNode :=
  (nodes.filter fun node => isRaftJoinCandidate node existing localID).insertionSort fun a b => a.id ≤ b.id

/-- What the leader asks Dragonboat for when a voter is added: a replica and its
address. -/
def RaftNode.voterRequest (node : RaftNode) (view : ShardView) (id address : String) : Except Failure (Nat × String) :=
  if !node.started then .error (.errorf "raft is not ready")
  else if !node.isLocalLeader view then
    .error (.errorf "not leader: send raft membership operation to the raft leader node")
  else if trimSpace id = "" then .error (.errorf "member id is required")
  else
    match validateRaftPeerAddress "member.address" address, replicaIDForNodeID (trimSpace id) with
    | .ok addr, .ok replicaID => .ok (replicaID, addr)
    | .error err, _ => .error (.wrapf err "validate member address")
    | _, .error err => .error err

theorem RaftNode.addVoter_eq (node : RaftNode) (view : ShardView) (id address : String) (accepted : Bool) :
    node.addVoter view id address accepted =
      match node.voterRequest view id address with
      | .ok (replicaID, addr) =>
        if accepted then { node with identities := node.identities.rememberMember (trimSpace id) replicaID addr } else node
      | .error _ => node := by
  unfold addVoter voterRequest
  cases started : node.started with
  | false => simp [isLocalLeader, started]
  | true =>
    cases leads : node.isLocalLeader view with
    | false => simp
    | true =>
      by_cases blank : trimSpace id = ""
      · simp [blank]
      · simp only [Bool.not_true, Bool.false_eq_true, blank, or_self, ↓reduceIte]
        cases validateRaftPeerAddress "member.address" address <;> cases replicaIDForNodeID (trimSpace id) <;> rfl

/-- How one addition goes: whether the pass is cancelled before it, what
Dragonboat says of the leader then, and whether the change goes through. -/
structure JoinChoice where
  cancelled : Bool := false
  leader : Except String (Nat × Bool)
  accepted : Bool := true

/-- A pass so far: the nodes it has called `AddVoter` for, each with the members
at that time, and how it ended. -/
structure JoinRun where
  calls : List (GossipNode × ShardMembership) := []
  result : Check := .ok ()

/-- The candidates are added one by one up to the first error. A pass that runs
out of choices has come no further yet. -/
def joinCandidates (node : RaftNode) (m : ShardMembership) : List GossipNode → List JoinChoice → JoinRun
  | [], _ | _, [] => {}
  | c :: rest, choice :: choices =>
    let view : ShardView := ⟨choice.leader, .ok m⟩
    if choice.cancelled then { result := .error (.wrapf .deadlineExceeded "auto join context") }
    else
      let failed (err : Failure) : JoinRun := ⟨[(c, m)], .error (.wrapf err "add discovered voter %s" [.text c.id])⟩
      match node.voterRequest view c.id c.raftAddress with
      | .error err => failed err
      | .ok (replicaID, addr) =>
        if choice.accepted then
          let run := joinCandidates (node.addVoter view c.id c.raftAddress true)
            { m with nodes := m.nodes.insert replicaID addr } rest choices
          { run with calls := (c, m) :: run.calls }
        else failed (.wrapf (.errorf "timeout") "add voter %q" [.text (trimSpace c.id)])

def reconcileRaftMembership (node : RaftNode) (view : ShardView) (nodes : List GossipNode) (choices : List JoinChoice) :
    JoinRun :=
  let status := node.status view
  if !status.ready || !status.isLeader then {}
  else
    match view.membership with
    | .error err => { result := .error (.wrapf err "list raft members") }
    | .ok m =>
      joinCandidates node m
        (raftJoinCandidates nodes (raftMemberIDs (node.listMembers m)) (trimSpace node.localID)) choices

def Stranger (node : GossipNode) (m : ShardMembership) : Prop :=
  ∀ replicaID, replicaIDForNodeID node.id = .ok replicaID → replicaID ∉ m.replicaIDs

variable {replicaID : Nat}

section Pass

variable {node : RaftNode} {m : ShardMembership}

theorem mem_replicaIDs_insert {replicaID r : Nat} {addr : String} :
    r ∈ ({ m with nodes := m.nodes.insert replicaID addr } : ShardMembership).replicaIDs ↔ r = replicaID ∨ r ∈ m.replicaIDs := by
  simp only [ShardMembership.replicaIDs, List.mem_append, ← AList.mem_keys, AList.mem_insert]
  tauto

theorem RaftNode.voterRequest_ok {view : ShardView} {id address : String} {addr : String}
    (asked : node.voterRequest view id address = .ok (replicaID, addr)) :
    replicaIDForNodeID id = .ok replicaID ∧ validateRaftPeerAddress "member.address" address = .ok addr := by
  unfold voterRequest at asked
  split at asked
  · cases asked
  split at asked
  · cases asked
  split at asked
  · cases asked
  split at asked
  · next valid hashed =>
    cases asked
    exact ⟨(replicaIDForNodeID_trimSpace id).symm.trans hashed, valid⟩
  · cases asked
  · cases asked

theorem joinCandidates_calls : ∀ {node : RaftNode} {m : ShardMembership} {candidates : List GossipNode} {choices : List JoinChoice}
    {call : GossipNode × ShardMembership}, call ∈ (joinCandidates node m candidates choices).calls →
      ∃ before after, candidates = before ++ call.1 :: after ∧
        (∀ b ∈ before, ∃ addr, validateRaftPeerAddress "member.address" b.raftAddress = .ok addr) ∧
        ∀ r, r ∈ call.2.replicaIDs ↔ (∃ b ∈ before, replicaIDForNodeID b.id = .ok r) ∨ r ∈ m.replicaIDs
  | _, _, [], _, call, made => by simp [joinCandidates] at made
  | _, _, c :: rest, [], call, made => by simp [joinCandidates] at made
  | node, m, c :: rest, choice :: choices, call, made => by
    have first : call = (c, m) → ∃ before after, c :: rest = before ++ call.1 :: after ∧
        (∀ b ∈ before, ∃ addr, validateRaftPeerAddress "member.address" b.raftAddress = .ok addr) ∧
        ∀ r, r ∈ call.2.replicaIDs ↔ (∃ b ∈ before, replicaIDForNodeID b.id = .ok r) ∨ r ∈ m.replicaIDs := by
      rintro rfl
      exact ⟨[], rest, rfl, by simp, by simp⟩
    simp only [joinCandidates] at made
    split at made
    · cases made
    split at made
    · exact first (List.mem_singleton.mp made)
    next replicaID addr asked =>
    split at made
    · rcases List.mem_cons.mp made with here | later
      · exact first here
      · obtain ⟨hashed, valid⟩ := RaftNode.voterRequest_ok asked
        obtain ⟨before, after, rfl, usable, members⟩ := joinCandidates_calls later
        refine ⟨c :: before, after, rfl, List.forall_mem_cons.mpr ⟨⟨addr, valid⟩, usable⟩, fun r => ?_⟩
        have here : replicaIDForNodeID c.id = .ok r ↔ r = replicaID := by rw [hashed, Except.ok.injEq, eq_comm]
        rw [members, mem_replicaIDs_insert]
        simp only [List.mem_cons, exists_eq_or_imp, here]
        exact or_left_comm.trans or_assoc.symm
    · exact first (List.mem_singleton.mp made)

theorem RaftNode.voterRequest_of_leads {view : ShardView} {id address addr : String}
    (leads : node.isLocalLeader view = true) (hashed : replicaIDForNodeID id = .ok replicaID)
    (valid : validateRaftPeerAddress "member.address" address = .ok addr) :
    node.voterRequest view id address = .ok (replicaID, addr) := by
  have started : node.started = true := by
    simp only [isLocalLeader, Bool.and_eq_true] at leads
    exact leads.1.1
  unfold voterRequest
  rw [if_neg (by simp [started]), if_neg (by simp [leads]), if_neg (trimSpace_ne_of_replicaID hashed), valid,
    replicaIDForNodeID_trimSpace, hashed]

theorem RaftNode.addVoter_frame (node : RaftNode) (view : ShardView) (id address : String) (accepted : Bool) :
    (node.addVoter view id address accepted).started = node.started ∧
      (node.addVoter view id address accepted).localReplicaID = node.localReplicaID := by
  rw [addVoter_eq]
  split
  · split <;> exact ⟨rfl, rfl⟩
  · exact ⟨rfl, rfl⟩

section Choices

variable {c : GossipNode} {rest : List GossipNode} {choice : JoinChoice} {choices : List JoinChoice}

theorem call_mem_joinCandidates (going : choice.cancelled = false) :
    (c, m) ∈ (joinCandidates node m (c :: rest) (choice :: choices)).calls := by
  simp only [joinCandidates, going, Bool.false_eq_true, if_false]
  split
  · exact List.mem_singleton.mpr rfl
  · split
    · exact List.mem_cons_self
    · exact List.mem_singleton.mpr rfl

theorem joinCandidates_calls_cons {addr : String} (going : choice.cancelled = false)
    (accepted : choice.accepted = true)
    (asked : node.voterRequest ⟨choice.leader, .ok m⟩ c.id c.raftAddress = .ok (replicaID, addr)) :
    (joinCandidates node m (c :: rest) (choice :: choices)).calls =
      (c, m) :: (joinCandidates (node.addVoter ⟨choice.leader, .ok m⟩ c.id c.raftAddress true)
        { m with nodes := m.nodes.insert replicaID addr } rest choices).calls := by
  simp only [joinCandidates, going, Bool.false_eq_true, if_false, asked, accepted, if_true]

end Choices

/-- What Dragonboat says while the node leads. -/
def RaftNode.smoothJoin (node : RaftNode) : JoinChoice := { leader := .ok (node.localReplicaID, true) }

theorem exists_call : ∀ {before : List GossipNode} {node : RaftNode} {m : ShardMembership} {c : GossipNode} {after : List GossipNode},
    node.started = true → node.localReplicaID ≠ 0 →
    (∀ b ∈ before, trimSpace b.id ≠ "" ∧ ∃ addr, validateRaftPeerAddress "member.address" b.raftAddress = .ok addr) →
      ∃ call ∈ (joinCandidates node m (before ++ c :: after) (List.replicate (before.length + 1) node.smoothJoin)).calls,
        call.1 = c ∧ ∀ r, (∃ b ∈ before, replicaIDForNodeID b.id = .ok r) ∨ r ∈ m.replicaIDs → r ∈ call.2.replicaIDs
  | [], node, m, c, after, _, _, _ => ⟨(c, m), call_mem_joinCandidates rfl, rfl, by simp⟩
  | b :: before, node, m, c, after, started, own, usable => by
    obtain ⟨⟨named, addr, valid⟩, usable⟩ := List.forall_mem_cons.mp usable
    have leads : node.isLocalLeader ⟨node.smoothJoin.leader, .ok m⟩ = true := by
      simp [RaftNode.isLocalLeader, RaftNode.smoothJoin, started, own]
    obtain ⟨replicaID, hashed⟩ : ∃ replicaID, replicaIDForNodeID b.id = .ok replicaID := by
      simp only [replicaIDForNodeID, if_neg named]
      exact ⟨_, rfl⟩
    obtain ⟨sameStarted, sameOwn⟩ := node.addVoter_frame ⟨node.smoothJoin.leader, .ok m⟩ b.id b.raftAddress true
    have smooth : (node.addVoter ⟨node.smoothJoin.leader, .ok m⟩ b.id b.raftAddress true).smoothJoin = node.smoothJoin := by
      rw [RaftNode.smoothJoin, sameOwn, RaftNode.smoothJoin]
    obtain ⟨call, made, same, members⟩ := exists_call (m := { m with nodes := m.nodes.insert replicaID addr }) (c := c)
      (sameStarted.trans started) (sameOwn.symm ▸ own) usable
    refine ⟨call, ?_, same, fun r inside => members r ?_⟩
    · rw [List.length_cons, List.replicate_succ, List.cons_append,
        joinCandidates_calls_cons rfl rfl (RaftNode.voterRequest_of_leads leads hashed valid)]
      refine List.mem_cons_of_mem _ ?_
      rwa [smooth] at made
    · rw [mem_replicaIDs_insert]
      rcases inside with ⟨other, listed, shared⟩ | old
      · rcases List.mem_cons.mp listed with rfl | later
        · cases hashed.symm.trans shared
          exact .inr (.inl rfl)
        · exact .inl ⟨other, later, shared⟩
      · exact .inr (.inr old)

end Pass

/-- The maps give a member this name: by its replica ID, or by its address, or
for want of both as a placeholder. -/
def Identities.GivesName (ids : Identities) (m : ShardMembership) (replicaID : Nat) (id : String) : Prop :=
  ids.replicaToNode.lookup replicaID = some id ∨
    ids.replicaToNode.lookup replicaID = none ∧
      (ids.addressToNode.lookup (trimSpace (m.addressAndSuffrage replicaID).1) = some id ∨
        ids.addressToNode.lookup (trimSpace (m.addressAndSuffrage replicaID).1) = none ∧ placeholder replicaID = id)

instance (ids : Identities) (m : ShardMembership) (replicaID : Nat) (id : String) :
    Decidable (ids.GivesName m replicaID id) :=
  inferInstanceAs (Decidable (_ ∨ _ ∧ (_ ∨ _ ∧ _)))

theorem Identities.Clean.nodeIDForMember {ids : Identities} (clean : ids.Clean) (m : ShardMembership) (replicaID : Nat) :
    let name := ids.nodeIDForMember replicaID (m.addressAndSuffrage replicaID).1
    (trimSpace name = name ∧ name ≠ "") ∧ ∀ id, name = id ↔ ids.GivesName m replicaID id := by
  intro name
  simp only [name, clean.nodeIDForMember_eq, GivesName]
  cases known : ids.replicaToNode.lookup replicaID with
  | some id => exact ⟨clean.replicas replicaID id known, by simp⟩
  | none =>
    cases there : ids.addressToNode.lookup (trimSpace (m.addressAndSuffrage replicaID).1) with
    | some id => exact ⟨clean.addresses _ id there, by simp⟩
    | none => exact ⟨placeholder_clean replicaID, by simp⟩

def RaftNode.Names (node : RaftNode) (m : ShardMembership) (id : String) : Prop :=
  ∃ replicaID ∈ m.replicaIDs, node.identities.GivesName m replicaID id

instance (node : RaftNode) (m : ShardMembership) (id : String) : Decidable (node.Names m id) :=
  inferInstanceAs (Decidable (∃ replicaID ∈ m.replicaIDs, _))

theorem mem_raftMemberIDs {node : RaftNode} (clean : node.identities.Clean) {m : ShardMembership} {id : String} :
    id ∈ raftMemberIDs (node.listMembers m) ↔ node.Names m id := by
  simp only [raftMemberIDs, RaftNode.listMembers, RaftNode.sortedReplicas, List.mem_filter, List.mem_map,
    decide_eq_true_eq, exists_exists_and_eq_and,
    List.mem_insertionSort, RaftNode.memberFromReplicaID, RaftNode.Names]
  constructor
  · rintro ⟨⟨r, member, rfl⟩, -⟩
    obtain ⟨⟨trimmed, -⟩, named⟩ := clean.nodeIDForMember m r
    exact ⟨r, member, (named _).mp trimmed.symm⟩
  · rintro ⟨r, member, given⟩
    obtain ⟨⟨trimmed, proper⟩, named⟩ := clean.nodeIDForMember m r
    obtain rfl := (named id).mpr given
    exact ⟨⟨r, member, trimmed⟩, proper⟩

/-- The alive nodes that no member goes by the name of, in the order they are
added. -/
def RaftNode.unnamed (node : RaftNode) (m : ShardMembership) (nodes : List GossipNode) : List GossipNode :=
  (nodes.filter fun n => n.eligible (trimSpace node.localID) && !decide (node.Names m (trimSpace n.id))).insertionSort
    fun a b => a.id ≤ b.id

/-- As far as they can be added, the nodes that no member goes by the name of
are no members, and no two of them stand for the same replica. -/
def RaftNode.KnowsMembers (node : RaftNode) (m : ShardMembership) (nodes : List GossipNode) : Prop :=
  ∀ before c after, node.unnamed m nodes = before ++ c :: after →
    (∀ b ∈ before, ∃ addr, validateRaftPeerAddress "member.address" b.raftAddress = .ok addr) →
      ∀ replicaID, replicaIDForNodeID c.id = .ok replicaID →
        replicaID ∉ m.replicaIDs ∧ ∀ b ∈ before, replicaIDForNodeID b.id ≠ .ok replicaID

theorem replicaIDForNodeID_ne_zero {id : String} (hashed : replicaIDForNodeID id = .ok replicaID) :
    replicaID ≠ 0 := by
  unfold replicaIDForNodeID at hashed
  dsimp only at hashed
  split at hashed
  · cases hashed
  · cases hashed
    split <;> simp_all

theorem RaftNode.status_leads {node : RaftNode} {view : ShardView} (sound : node.Sound) :
    ((node.status view).ready && (node.status view).isLeader) = node.isLocalLeader view := by
  unfold RaftNode.status RaftNode.isLocalLeader
  cases started : node.started with
  | false => rfl
  | true =>
    have own : node.localReplicaID ≠ 0 := replicaIDForNodeID_ne_zero (sound.own started)
    cases view.leader with
    | error message => simp
    | ok leader => simp [own]

/-- A pass calls only for strangers exactly if the leader knows the members: a
node that is one goes by its name, unless an unusable address before it ends
the pass. -/
theorem joins_strangers_iff {cfg : RaftConfig} {node : RaftNode} (reached : node.Reached cfg) (view : ShardView)
    (nodes : List GossipNode) :
    (∀ choices, ∀ call ∈ (reconcileRaftMembership node view nodes choices).calls, Stranger call.1 call.2) ↔
      (node.isLocalLeader view = true → ∀ m, view.membership = .ok m → node.KnowsMembers m nodes) := by
  have clean := Identities.clean_invariant.reached reached
  have candidates (m : ShardMembership) :
      raftJoinCandidates nodes (raftMemberIDs (node.listMembers m)) (trimSpace node.localID) = node.unnamed m nodes := by
    simp only [raftJoinCandidates, RaftNode.unnamed, isRaftJoinCandidate, mem_raftMemberIDs clean, decide_not]
  have pass (choices : List JoinChoice) : (reconcileRaftMembership node view nodes choices).calls =
      if node.isLocalLeader view then
        view.membership.toOption.elim [] fun m => (joinCandidates node m (node.unnamed m nodes) choices).calls
      else [] := by
    rw [← RaftNode.status_leads reached.sound]
    unfold reconcileRaftMembership
    dsimp only
    cases (node.status view).ready <;> cases (node.status view).isLeader <;> try rfl
    cases view.membership with
    | error err => rfl
    | ok m => simp [candidates, Except.toOption]
  simp only [pass]
  constructor
  · intro strangers leads m membership before c after listed usable replicaID hashed
    simp only [leads, if_true, membership, Except.toOption, Option.elim_some] at strangers
    have started : node.started = true := by
      simp only [RaftNode.isLocalLeader, Bool.and_eq_true] at leads
      exact leads.1.1
    have own := replicaIDForNodeID_ne_zero (reached.own started)
    have named : ∀ b ∈ before, trimSpace b.id ≠ "" := by
      intro b inside
      have member : b ∈ node.unnamed m nodes := listed ▸ List.mem_append_left _ inside
      have eligible := (List.mem_filter.mp ((List.mem_insertionSort _).mp member)).2
      simp only [GossipNode.eligible, Bool.and_eq_true, Bool.not_eq_true', decide_eq_false_iff_not, not_or] at eligible
      exact eligible.1.1.1
    obtain ⟨call, made, rfl, members⟩ := @exists_call before node m c after started own fun b inside =>
      ⟨named b inside, usable b inside⟩
    have stranger := strangers _ call (by rw [listed]; exact made) replicaID hashed
    exact ⟨fun member => stranger (members _ (.inr member)), fun b inside shared => stranger (members _ (.inl ⟨b, inside, shared⟩))⟩
  · intro knows choices call made replicaID hashed member
    split at made
    · next leads =>
      cases membership : view.membership with
      | error err =>
        rw [membership] at made
        cases made
      | ok m =>
        rw [membership] at made
        obtain ⟨before, after, listed, usable, members⟩ := joinCandidates_calls made
        obtain ⟨outside, apart⟩ := knows leads m membership before call.1 after listed usable replicaID hashed
        rcases (members replicaID).mp member with ⟨b, inside, shared⟩ | old
        · exact apart b inside shared
        · exact outside old
    · cases made

def joinMembers : ShardMembership where
  nodes := (AList.singleton 12638187200555641996 "10.0.0.1:7444").insert 12638190499090526629 "10.0.0.2:7444"

def joinConfig : RaftConfig where
  bootstrap := true
  peers := (AList.singleton "a" "10.0.0.1:7444").insert "b" "10.0.0.2:7444"

def joinView : ShardView := ⟨.ok (12638187200555641996, true), .ok joinMembers⟩

/-- Node a as a new process. If it finds the shard on disk, it does not look at
the configured peers. -/
def joinLeader (hasNodeInfo : Bool) : RaftNode :=
  ({ localID := "a" } : RaftNode).start joinConfig { address := .ok "10.0.0.1:7444", hasNodeInfo }

theorem joinLeader_reached (hasNodeInfo : Bool) : (joinLeader hasNodeInfo).Reached joinConfig :=
  .start _ (.fresh "a")

def aliveNode (id raftAddress : String) : GossipNode := { id, raftAddress, state := "alive" }

/-- The first leader knows b, and calls only for the new node c. -/
theorem joins_strangers_bootstrapped :
    (joinLeader false).isLocalLeader joinView = true ∧ ∀ choices, ∀ call ∈
      (reconcileRaftMembership (joinLeader false) joinView
        [aliveNode "b" "10.0.0.2:7444", aliveNode "c" "10.0.0.3:7444"] choices).calls, Stranger call.1 call.2 := by
  refine ⟨by decide +kernel, (joins_strangers_iff (joinLeader_reached false) _ _).mpr fun _ m membership => ?_⟩
  obtain rfl : joinMembers = m := Except.ok.inj membership
  have listed : (joinLeader false).unnamed joinMembers [aliveNode "b" "10.0.0.2:7444", aliveNode "c" "10.0.0.3:7444"] =
    [aliveNode "c" "10.0.0.3:7444"] := by decide +kernel
  intro before c after split usable replicaID hashed
  obtain ⟨rfl, rfl⟩ : before = [] ∧ c = aliveNode "c" "10.0.0.3:7444" := by
    cases before with
    | nil => exact ⟨rfl, (List.cons.inj (listed.symm.trans split)).1.symm⟩
    | cons b before => cases before <;> cases (List.cons.inj (listed.symm.trans split)).2
  have known : replicaIDForNodeID "c" = .ok 12638189399578898418 := by decide +kernel
  cases known.symm.trans hashed
  exact ⟨by decide +kernel, by simp⟩

/-- After a restart it takes b for a stranger. -/
theorem restarted_leader_adds_member :
    ¬ ∀ (cfg : RaftConfig) (node : RaftNode), node.Reached cfg → ∀ (view : ShardView) (nodes : List GossipNode)
      (choices : List JoinChoice), ∀ call ∈ (reconcileRaftMembership node view nodes choices).calls, Stranger call.1 call.2 := by
  intro strangers
  have called : (reconcileRaftMembership (joinLeader true) joinView [aliveNode "b" "10.0.0.2:7444"]
      [(joinLeader true).smoothJoin]).calls.any
        (fun call => call.1.id = "b" ∧ 12638190499090526629 ∈ call.2.replicaIDs) = true := by decide +kernel
  obtain ⟨call, made, member⟩ := List.any_eq_true.mp called
  obtain ⟨named, member⟩ := of_decide_eq_true member
  have known : replicaIDForNodeID call.1.id = .ok 12638190499090526629 := by rw [named]; decide +kernel
  exact strangers joinConfig (joinLeader true) (joinLeader_reached true) _ _ _ call made _ known member

def RaftNode.joiners (node : RaftNode) (m : ShardMembership) (nodes : List GossipNode) : List GossipNode :=
  raftJoinCandidates nodes (raftMemberIDs (node.listMembers m)) (trimSpace node.localID)

/-- The addition goes through: the node still leads, the address is one, and
Dragonboat accepts the change. -/
def RaftNode.Admits (node : RaftNode) (c : GossipNode) (choice : JoinChoice) : Prop :=
  choice.leader = .ok (node.localReplicaID, true) ∧
    (∃ addr, validateRaftPeerAddress "member.address" c.raftAddress = .ok addr) ∧ choice.accepted = true

section Attempts

variable {node : RaftNode} {m : ShardMembership}

theorem RaftNode.isLocalLeader_iff (started : node.started = true) (own : node.localReplicaID ≠ 0) {view : ShardView} :
    node.isLocalLeader view = true ↔ view.leader = .ok (node.localReplicaID, true) := by
  unfold isLocalLeader
  rcases view.leader with message | ⟨leader, ready⟩ <;> simp [started, own, and_comm]

theorem joinCandidates_step {c : GossipNode} {rest : List GossipNode} {choice : JoinChoice} {choices : List JoinChoice}
    (started : node.started = true) (own : node.localReplicaID ≠ 0) (named : trimSpace c.id ≠ "")
    (going : choice.cancelled = false) :
    let calls := (joinCandidates node m (c :: rest) (choice :: choices)).calls
    node.Admits c choice ∧ (∃ (later : RaftNode) (more : ShardMembership), later.started = true ∧
        later.localReplicaID = node.localReplicaID ∧ calls = (c, m) :: (joinCandidates later more rest choices).calls) ∨
      ¬ node.Admits c choice ∧ calls = [(c, m)] := by
  intro calls
  obtain ⟨replicaID, hashed⟩ : ∃ replicaID, replicaIDForNodeID c.id = .ok replicaID := by
    simp only [replicaIDForNodeID, if_neg named]
    exact ⟨_, rfl⟩
  by_cases admits : node.Admits c choice
  · obtain ⟨leader, ⟨addr, valid⟩, accepted⟩ := admits
    have leads : node.isLocalLeader ⟨choice.leader, .ok m⟩ = true := (RaftNode.isLocalLeader_iff started own).mpr leader
    obtain ⟨up, same⟩ := node.addVoter_frame ⟨choice.leader, .ok m⟩ c.id c.raftAddress true
    exact .inl ⟨⟨leader, ⟨addr, valid⟩, accepted⟩, _, _, up.trans started, same,
      joinCandidates_calls_cons going accepted (RaftNode.voterRequest_of_leads leads hashed valid)⟩
  · refine .inr ⟨admits, ?_⟩
    simp only [calls, joinCandidates, going, Bool.false_eq_true, if_false]
    split
    · rfl
    · next replicaID addr asked =>
      have valid := (RaftNode.voterRequest_ok asked).2
      have leads : node.isLocalLeader ⟨choice.leader, .ok m⟩ = true := by
        by_contra follows
        rw [Bool.not_eq_true] at follows
        simp [RaftNode.voterRequest, started, follows] at asked
      rw [if_neg fun accepted => admits ⟨(RaftNode.isLocalLeader_iff started own).mp leads, ⟨addr, valid⟩, accepted⟩]

theorem joinCandidates_all_iff : ∀ {candidates : List GossipNode} {choices : List JoinChoice} {node : RaftNode}
    {m : ShardMembership}, node.started = true → node.localReplicaID ≠ 0 → (∀ c ∈ candidates, trimSpace c.id ≠ "") →
    candidates.length ≤ choices.length → (∀ choice ∈ choices, choice.cancelled = false) →
      ((joinCandidates node m candidates choices).calls.map Prod.fst = candidates ↔
        ∀ p ∈ candidates.dropLast.zip choices, node.Admits p.1 p.2)
  | [], choices, node, m, _, _, _, _, _ => by simp [joinCandidates]
  | c :: rest, [], _, _, _, _, _, enough, _ => absurd enough (by simp)
  | c :: rest, choice :: choices, node, m, started, own, named, enough, going => by
    obtain ⟨first, others⟩ := List.forall_mem_cons.mp named
    obtain ⟨still, onward⟩ := List.forall_mem_cons.mp going
    have step := @joinCandidates_step node m c rest choice choices started own first still
    cases rest with
    | nil =>
      rcases step with ⟨-, later, more, -, -, calls⟩ | ⟨-, calls⟩ <;> rw [calls] <;> simp [joinCandidates]
    | cons d rest =>
      rw [List.dropLast_cons_cons, List.zip_cons_cons, List.forall_mem_cons]
      rcases step with ⟨admits, later, more, up, same, calls⟩ | ⟨refused, calls⟩
      · have ih := joinCandidates_all_iff (m := more) up (same.symm ▸ own) others (Nat.le_of_succ_le_succ enough) onward
        have admitted (c : GossipNode) (choice : JoinChoice) : later.Admits c choice ↔ node.Admits c choice := by
          rw [RaftNode.Admits, same, RaftNode.Admits]
        rw [calls, List.map_cons, List.cons_inj_right, ih]
        simp only [admitted, admits, true_and]
      · rw [calls]
        simp [refused]

end Attempts

/-- In a pass of the leader that is not cancelled, every candidate is called for
exactly when all but the last are admitted. -/
theorem joiners_all_called_iff {cfg : RaftConfig} {node : RaftNode} (reached : node.Reached cfg) {view : ShardView}
    (leads : node.isLocalLeader view = true) {m : ShardMembership} (members : view.membership = .ok m)
    (nodes : List GossipNode) {choices : List JoinChoice} (enough : (node.joiners m nodes).length ≤ choices.length)
    (going : ∀ choice ∈ choices, choice.cancelled = false) :
    (reconcileRaftMembership node view nodes choices).calls.map Prod.fst = node.joiners m nodes ↔
      ∀ p ∈ (node.joiners m nodes).dropLast.zip choices, node.Admits p.1 p.2 := by
  have ready := @RaftNode.status_leads node view reached.sound
  rw [leads, Bool.and_eq_true] at ready
  have pass : reconcileRaftMembership node view nodes choices = joinCandidates node m (node.joiners m nodes) choices := by
    simp [reconcileRaftMembership, ready, members, RaftNode.joiners]
  have started : node.started = true := by
    simp only [RaftNode.isLocalLeader, Bool.and_eq_true] at leads
    exact leads.1.1
  have named : ∀ c ∈ node.joiners m nodes, trimSpace c.id ≠ "" := by
    intro c member
    have candidate := (List.mem_filter.mp ((List.mem_insertionSort _).mp member)).2
    simp only [isRaftJoinCandidate, GossipNode.eligible, Bool.and_eq_true, Bool.not_eq_true', decide_eq_false_iff_not,
      not_or] at candidate
    exact candidate.1.1.1
  rw [pass]
  exact joinCandidates_all_iff started (replicaIDForNodeID_ne_zero (reached.own started)) named enough going

/-- Two new nodes, of which the first says where its replica is as told. -/
def newcomers (address : String) : List GossipNode := [aliveNode "c" address, aliveNode "d" "10.0.0.4:7444"]

def smoothJoins : List JoinChoice := [(joinLeader false).smoothJoin, (joinLeader false).smoothJoin]

theorem joiners_all_called_two :
    (reconcileRaftMembership (joinLeader false) joinView (newcomers "10.0.0.3:7444") smoothJoins).calls.map Prod.fst =
      (joinLeader false).joiners joinMembers (newcomers "10.0.0.3:7444") := by
  refine (joiners_all_called_iff (joinLeader_reached false) (by decide +kernel) rfl _ (by decide +kernel) (by decide)).mpr ?_
  have only : ((joinLeader false).joiners joinMembers (newcomers "10.0.0.3:7444")).dropLast =
    [aliveNode "c" "10.0.0.3:7444"] := by decide +kernel
  rw [only]
  intro p member
  obtain rfl : p = (aliveNode "c" "10.0.0.3:7444", (joinLeader false).smoothJoin) := by
    simpa [smoothJoins] using member
  exact ⟨rfl, ⟨"10.0.0.3:7444", by decide +kernel⟩, rfl⟩

/-- The node d is not called for, since the address of c is none. -/
theorem bad_joiner_blocks :
    ¬ ∀ (cfg : RaftConfig) (node : RaftNode), node.Reached cfg → ∀ view : ShardView, node.isLocalLeader view = true →
      ∀ m, view.membership = .ok m → ∀ (nodes : List GossipNode) (choices : List JoinChoice),
        (node.joiners m nodes).length ≤ choices.length → (∀ choice ∈ choices, choice.cancelled = false) →
          (reconcileRaftMembership node view nodes choices).calls.map Prod.fst = node.joiners m nodes := by
  intro called
  have all := called joinConfig (joinLeader false) (joinLeader_reached false) joinView (by decide +kernel) joinMembers rfl
    (newcomers "nowhere") smoothJoins (by decide +kernel) (by decide)
  exact absurd all (by decide +kernel)

end Orch
