import Orch.Raft.Members
import Orch.Std.Parse
import Mathlib.Data.String.Basic

namespace Orch

/-- `net.IP.IsUnspecified`. -/
def isUnspecifiedIP (bytes : List Nat) : Bool :=
  bytes = List.replicate 16 0 ∨ bytes = List.replicate 10 0 ++ [255, 255, 0, 0, 0, 0]

def trimBrackets (host : List Char) : List Char :=
  let bracket (c : Char) : Bool := c == '[' || c == ']'
  (host.dropWhile bracket).rdropWhile bracket

/-- The address a node is known under: not one that means all of its own. -/
def validateConcreteRaftAddress (label raw : String) : Except Failure String :=
  match validateRaftPeerAddress label raw with
  | .error err => .error (.wrapf err "validate raft peer address")
  | .ok addr =>
    match splitHostPort addr with
    | none => .error (.wrapf (.errorf "%s must be host:port" [.text label]) "parse raft address")
    | some (host, _) =>
      if (Parse.ip (String.ofList (trimBrackets host))).any isUnspecifiedIP then
        .error (.errorf "%s must be a concrete host:port, got %q" [.text label, .text raw])
      else .ok addr

theorem validateRaftPeerAddress_ok {label raw addr : String} (valid : validateRaftPeerAddress label raw = .ok addr) :
    addr = trimSpace raw := by
  unfold validateRaftPeerAddress at valid
  dsimp only at valid
  split at valid
  · cases valid
  split at valid
  · cases valid
  split at valid
  · cases valid
  split at valid
  · cases valid
  · exact (Except.ok.inj valid).symm

theorem validateConcreteRaftAddress_ok {label raw addr : String}
    (valid : validateConcreteRaftAddress label raw = .ok addr) : addr = trimSpace raw := by
  unfold validateConcreteRaftAddress at valid
  split at valid
  · cases valid
  · next accepted =>
    split at valid
    · cases valid
    · split at valid
      · cases valid
      · cases valid
        exact validateRaftPeerAddress_ok accepted

/-- One configured peer. A blank ID is passed over. -/
def addPeer (peers : Table String) (entry : (_ : String) × String) : Except Failure (Table String) :=
  let id := trimSpace entry.1
  if id = "" then .ok peers
  else do
    let addr ← validateRaftPeerAddress ("raft.peers." ++ id) entry.2
    .ok (peers.insert id addr)

theorem bootstrapPeers_eq (cfg : RaftConfig) (localID localAddr : String) :
    bootstrapPeers cfg localID localAddr =
      (cfg.peers.entries.foldlM addPeer ∅ >>= fun peers => .ok (peers.insert localID localAddr)) := rfl

def UsablePeer (entry : (_ : String) × String) : Prop :=
  trimSpace entry.1 ≠ "" →
    validateRaftPeerAddress ("raft.peers." ++ trimSpace entry.1) entry.2 = .ok (trimSpace entry.2)

variable {peers : Table String}

theorem addPeer_ok {after : Table String} {entry : (_ : String) × String} (added : addPeer peers entry = .ok after) :
    UsablePeer entry ∧ after = if trimSpace entry.1 = "" then peers else peers.insert (trimSpace entry.1) (trimSpace entry.2) := by
  unfold addPeer at added
  dsimp only at added
  split at added
  · next blank =>
    cases added
    exact ⟨fun named => absurd blank named, by rw [if_pos blank]⟩
  · next named =>
    obtain ⟨addr, valid, rest⟩ := Except.bind_ok added
    obtain rfl := validateRaftPeerAddress_ok valid
    cases rest
    exact ⟨fun _ => valid, by rw [if_neg named]⟩

theorem addPeer_of_usable {entry : (_ : String) × String} (usable : UsablePeer entry) :
    ∃ after, addPeer peers entry = .ok after := by
  unfold addPeer
  dsimp only
  split
  · exact ⟨_, rfl⟩
  · next named =>
    rw [usable named]
    exact ⟨_, rfl⟩

theorem foldlM_addPeer_of_usable : ∀ {entries : List ((_ : String) × String)} {peers : Table String},
    (∀ entry ∈ entries, UsablePeer entry) → ∃ after, entries.foldlM addPeer peers = .ok after
  | [], peers, _ => ⟨peers, rfl⟩
  | entry :: entries, peers, usable => by
    obtain ⟨here, rest⟩ := List.forall_mem_cons.mp usable
    obtain ⟨next, added⟩ := addPeer_of_usable here
    obtain ⟨after, later⟩ := foldlM_addPeer_of_usable rest
    exact ⟨after, by rw [List.foldlM_cons, added]; exact later⟩

theorem foldlM_addPeer_ok : ∀ {entries : List ((_ : String) × String)} {peers after : Table String},
    entries.foldlM addPeer peers = .ok after → (entries.map fun entry => trimSpace entry.1).Nodup →
      (∀ entry ∈ entries, UsablePeer entry) ∧
      (∀ entry ∈ entries, trimSpace entry.1 ≠ "" → after.lookup (trimSpace entry.1) = some (trimSpace entry.2)) ∧
      ∀ id, (∀ entry ∈ entries, trimSpace entry.1 ≠ "" → trimSpace entry.1 ≠ id) → after.lookup id = peers.lookup id
  | [], peers, after, walked, _ => by
    cases walked
    simp
  | entry :: entries, peers, after, walked, distinct => by
    obtain ⟨next, added, later⟩ := Except.bind_ok (by rwa [List.foldlM_cons] at walked)
    obtain ⟨usable, rfl⟩ := addPeer_ok added
    obtain ⟨fresh, distinct⟩ := List.nodup_cons.mp distinct
    obtain ⟨rest, collected, kept⟩ := foldlM_addPeer_ok later distinct
    refine ⟨List.forall_mem_cons.mpr ⟨usable, rest⟩, List.forall_mem_cons.mpr ⟨fun named => ?_, collected⟩, fun id apart => ?_⟩
    · have apart : ∀ other ∈ entries, trimSpace other.1 ≠ "" → trimSpace other.1 ≠ trimSpace entry.1 :=
        fun other inside _ same => fresh (List.mem_map.mpr ⟨other, inside, same⟩)
      rw [kept _ apart, if_neg named, AList.lookup_insert]
    · obtain ⟨here, others⟩ := List.forall_mem_cons.mp apart
      rw [kept id others]
      split
      · rfl
      · next named => exact AList.lookup_insert_ne (here named).symm

def RaftConfig.Configures (cfg : RaftConfig) (id addr : String) : Prop :=
  id ≠ "" ∧ ∃ entry ∈ cfg.peers.entries, trimSpace entry.1 = id ∧ trimSpace entry.2 = addr

section Peers

variable {cfg : RaftConfig} {localID localAddr : String}

/-- The peers are the configured ones, with the node itself. -/
theorem bootstrapPeers_keeps (distinct : (cfg.peers.entries.map fun entry => trimSpace entry.1).Nodup) {peers : Table String}
    (given : bootstrapPeers cfg localID localAddr = .ok peers) :
    (∀ entry ∈ cfg.peers.entries, UsablePeer entry) ∧ peers.lookup localID = some localAddr ∧
      ∀ id ≠ localID, ∀ addr, peers.lookup id = some addr ↔ cfg.Configures id addr := by
  rw [bootstrapPeers_eq] at given
  obtain ⟨collected, walked, rest⟩ := Except.bind_ok given
  cases rest
  obtain ⟨usable, present, others⟩ := foldlM_addPeer_ok walked distinct
  refine ⟨usable, AList.lookup_insert _, fun id other addr => ?_⟩
  rw [AList.lookup_insert_ne other]
  constructor
  · intro found
    by_contra absent
    rw [others id ?_] at found
    · simp at found
    · rintro entry inside named rfl
      rw [present entry inside named] at found
      exact absent ⟨named, entry, inside, rfl, Option.some.inj found⟩
  · rintro ⟨named, entry, inside, rfl, rfl⟩
    exact present entry inside named

theorem bootstrapPeers_isOk_iff (distinct : (cfg.peers.entries.map fun entry => trimSpace entry.1).Nodup) :
    (∃ peers, bootstrapPeers cfg localID localAddr = .ok peers) ↔ ∀ entry ∈ cfg.peers.entries, UsablePeer entry := by
  constructor
  · rintro ⟨peers, given⟩
    exact (bootstrapPeers_keeps distinct given).1
  · intro usable
    obtain ⟨collected, walked⟩ := @foldlM_addPeer_of_usable _ ∅ usable
    exact ⟨_, by rw [bootstrapPeers_eq, walked]; rfl⟩

theorem bootstrapPeers_own (distinct : (cfg.peers.entries.map fun entry => trimSpace entry.1).Nodup) {peers : Table String}
    (own : cfg.Configures localID localAddr) (given : bootstrapPeers cfg localID localAddr = .ok peers) (id addr : String) :
    peers.lookup id = some addr ↔ cfg.Configures id addr := by
  obtain ⟨-, here, others⟩ := bootstrapPeers_keeps distinct given
  by_cases mine : id = localID
  · subst mine
    rw [here]
    constructor
    · rintro ⟨⟩
      exact own
    · rintro ⟨-, entry, inside, named, rfl⟩
      obtain ⟨-, entry', inside', named', rfl⟩ := own
      rw [List.inj_on_of_nodup_map distinct inside inside' (named.trans named'.symm)]
  · exact others id mine addr

end Peers

variable {peers' : Table String}

section Targets

variable {peers : Table String}

theorem replicaTargetsFromPeers_congr (same : ∀ id, peers.lookup id = peers'.lookup id) :
    ∀ (peerIDs : List String) (seen targets : ReplicaTable) (ids ids' : Identities),
      (replicaTargetsFromPeers peers peerIDs seen targets ids).2 = (replicaTargetsFromPeers peers' peerIDs seen targets ids').2
  | [], _, _, _, _ => rfl
  | id :: rest, seen, targets, ids, ids' => by
    rw [replicaTargetsFromPeers, replicaTargetsFromPeers]
    split
    · rfl
    · split
      · rfl
      · rw [same id]
        exact replicaTargetsFromPeers_congr same rest _ _ _ _

theorem replicaTargetsFromPeers_ok : ∀ {peerIDs : List String} {seen targets after : ReplicaTable} {ids : Identities},
    (replicaTargetsFromPeers peers peerIDs seen targets ids).2 = .ok after →
      (∀ replicaID, (targets.lookup replicaID).isSome → (after.lookup replicaID).isSome) ∧
      (∀ id ∈ peerIDs, ∀ replicaID, replicaIDForNodeID id = .ok replicaID → (after.lookup replicaID).isSome) ∧
      (∀ id ∈ peerIDs, ∀ replicaID, replicaIDForNodeID id = .ok replicaID → ∀ other ∈ seen.lookup replicaID, other = id) ∧
      ∀ id ∈ peerIDs, ∀ other ∈ peerIDs, ∀ replicaID, replicaIDForNodeID id = .ok replicaID →
        replicaIDForNodeID other = .ok replicaID → id = other
  | [], seen, targets, after, ids, walked => by
    cases walked
    simp
  | id :: rest, seen, targets, after, ids, walked => by
    rw [replicaTargetsFromPeers] at walked
    split at walked
    · cases walked
    next replicaID hashed =>
    split at walked
    · cases walked
    next unseen =>
    obtain ⟨kept, present, known, apart⟩ := replicaTargetsFromPeers_ok walked
    have mine {other : String} (met : other ∈ seen.lookup replicaID) : other = id := by
      by_contra differs
      rw [Option.mem_def.mp met, Option.filter_some_pos (by simpa using differs)] at unseen
      cases unseen
    have theirs {other : String} (inside : other ∈ rest) (same : replicaIDForNodeID other = .ok replicaID) : id = other :=
      known other inside replicaID same id (AList.lookup_insert _)
    refine ⟨fun r there => kept r ?_, List.forall_mem_cons.mpr ⟨fun r same => ?_, present⟩,
      List.forall_mem_cons.mpr ⟨fun r same other met => ?_, fun x inside r same other met => ?_⟩, ?_⟩
    · by_cases here : r = replicaID
      · rw [here, AList.lookup_insert]
        rfl
      · rwa [AList.lookup_insert_ne here]
    · cases hashed.symm.trans same
      exact kept replicaID (by rw [AList.lookup_insert]; rfl)
    · cases hashed.symm.trans same
      exact mine met
    · by_cases here : r = replicaID
      · subst here
        exact (mine met).trans (theirs inside same)
      · exact known x inside r same other (by rwa [AList.lookup_insert_ne here])
    · intro x insideX y insideY r hashX hashY
      rcases List.mem_cons.mp insideX with rfl | laterX <;> rcases List.mem_cons.mp insideY with rfl | laterY
      · rfl
      · cases hashed.symm.trans hashX
        exact theirs laterY hashY
      · cases hashed.symm.trans hashY
        exact (theirs laterX hashX).symm
      · exact apart x laterX y laterY r hashX hashY

end Targets

theorem mem_sortedPeerIDs {id : String} : id ∈ sortedPeerIDs peers ↔ (peers.lookup id).isSome := by
  rw [sortedPeerIDs, (List.perm_insertionSort _ _).mem_iff, AList.lookup_isSome, AList.mem_keys]

theorem sortedPeerIDs_congr (same : ∀ id, peers.lookup id = peers'.lookup id) :
    sortedPeerIDs peers = sortedPeerIDs peers' := by
  have members (id : String) : id ∈ sortedPeerIDs peers ↔ id ∈ sortedPeerIDs peers' := by
    rw [mem_sortedPeerIDs, mem_sortedPeerIDs, same id]
  have nodup (m : Table String) : (sortedPeerIDs m).Nodup := (List.perm_insertionSort _ _).nodup_iff.mpr m.keys_nodup
  have perm : (sortedPeerIDs peers).Perm (sortedPeerIDs peers') := (List.perm_ext_iff_of_nodup (nodup _) (nodup _)).mpr members
  exact perm.eq_of_pairwise (fun _ _ _ _ => le_antisymm) (List.pairwise_insertionSort _ _) (List.pairwise_insertionSort _ _)

/-- The replicas that a set of peers comes to, if it can be used at all. -/
def peerTargets (peers : Table String) : Except Failure ReplicaTable :=
  (replicaTargetsFromPeers peers (sortedPeerIDs peers) ∅ ∅ {}).2

theorem peerTargets_congr (same : ∀ id, peers.lookup id = peers'.lookup id) :
    peerTargets peers = peerTargets peers' := by
  rw [peerTargets, peerTargets, sortedPeerIDs_congr same]
  exact replicaTargetsFromPeers_congr same _ _ _ _ _

variable {cfg : RaftConfig} {localID localAddr : String} {replicaID : Nat}

theorem bootstrapReplicaTargets_eq (hashed : replicaIDForNodeID localID = .ok replicaID)
    (given : bootstrapPeers cfg (trimSpace localID) localAddr = .ok peers) (ids : Identities) :
    (bootstrapReplicaTargets cfg localID replicaID localAddr ids).2 = peerTargets peers := by
  have named : trimSpace localID ≠ "" := trimSpace_ne_of_replicaID hashed
  have same := replicaTargetsFromPeers_congr (fun id => (rfl : peers.lookup id = peers.lookup id)) (sortedPeerIDs peers) ∅ ∅ ids {}
  unfold bootstrapReplicaTargets
  dsimp only
  rw [if_neg named, given, peerTargets, ← same]
  dsimp only
  cases walked : replicaTargetsFromPeers peers (sortedPeerIDs peers) ∅ ∅ ids with
  | mk after outcome =>
    cases outcome with
    | error err => rfl
    | ok targets =>
      obtain ⟨-, present, -, -⟩ := replicaTargetsFromPeers_ok (congrArg Prod.snd walked)
      have here : (peers.lookup (trimSpace localID)).isSome := by
        obtain ⟨collected, -, rest⟩ := Except.bind_ok given
        cases rest
        rw [AList.lookup_insert]
        rfl
      have ours := present _ (mem_sortedPeerIDs.mpr here) replicaID ((replicaIDForNodeID_trimSpace localID).trans hashed)
      simp only [ensureLocalReplicaTarget, if_pos ours]

/-- One of the configured peers, which advertises the address that its own
entry gives. -/
structure StaticPeer (cfg : RaftConfig) (localID : String) (replicaID : Nat) (localAddr : String) : Prop where
  hashed : replicaIDForNodeID localID = .ok replicaID
  advertised : ∃ label raw, validateConcreteRaftAddress label raw = .ok localAddr ∧
    ∃ entry ∈ cfg.peers.entries, trimSpace entry.1 = trimSpace localID ∧ trimSpace entry.2 = trimSpace raw

theorem StaticPeer.configures (peer : StaticPeer cfg localID replicaID localAddr) :
    cfg.Configures (trimSpace localID) localAddr := by
  obtain ⟨label, raw, valid, entry, inside, named, here⟩ := peer.advertised
  refine ⟨trimSpace_ne_of_replicaID peer.hashed, entry, inside, named, ?_⟩
  rw [here, validateConcreteRaftAddress_ok valid]

theorem bootstrapReplicaTargets_error
    (unusable : ¬ ∃ peers, bootstrapPeers cfg (trimSpace localID) localAddr = .ok peers) (ids : Identities) :
    ∃ err, (bootstrapReplicaTargets cfg localID replicaID localAddr ids).2 = .error err := by
  unfold bootstrapReplicaTargets
  dsimp only
  split
  · exact ⟨_, rfl⟩
  · split
    · exact ⟨_, rfl⟩
    · next peers given => exact absurd ⟨peers, given⟩ unusable

theorem bootstrapReplicaTargets_collision (distinct : (cfg.peers.entries.map fun entry => trimSpace entry.1).Nodup)
    {one two : String} {shared : Nat} (first : one ∈ cfg.peers.keys) (second : two ∈ cfg.peers.keys)
    (differ : trimSpace one ≠ trimSpace two) (hashOne : replicaIDForNodeID one = .ok shared)
    (hashTwo : replicaIDForNodeID two = .ok shared) (localID localAddr : String) (replicaID : Nat) (ids : Identities) :
    ∃ err, (bootstrapReplicaTargets cfg localID replicaID localAddr ids).2 = .error err := by
  unfold bootstrapReplicaTargets
  dsimp only
  split
  · exact ⟨_, rfl⟩
  split
  · exact ⟨_, rfl⟩
  next peers given =>
  obtain ⟨-, own, others⟩ := bootstrapPeers_keeps distinct given
  have listed {key : String} (member : key ∈ cfg.peers.keys) (hash : replicaIDForNodeID key = .ok shared) :
      trimSpace key ∈ sortedPeerIDs peers := by
    rw [mem_sortedPeerIDs]
    by_cases mine : trimSpace key = trimSpace localID
    · rw [mine, own]
      rfl
    · obtain ⟨entry, inside, rfl⟩ := List.mem_map.mp member
      rw [(others _ mine _).mpr ⟨trimSpace_ne_of_replicaID hash, entry, inside, rfl, rfl⟩]
      rfl
  cases walked : replicaTargetsFromPeers peers (sortedPeerIDs peers) ∅ ∅ ids with
  | mk after outcome =>
    cases outcome with
    | error err => exact ⟨err, rfl⟩
    | ok targets =>
      obtain ⟨-, -, -, apart⟩ := replicaTargetsFromPeers_ok (congrArg Prod.snd walked)
      exact absurd (apart _ (listed first hashOne) _ (listed second hashTwo) shared
        ((replicaIDForNodeID_trimSpace one).trans hashOne) ((replicaIDForNodeID_trimSpace two).trans hashTwo)) differ

/-- Two nodes with the same peer map, walked in any order, start from the same
replicas at the same addresses or both refuse to start. Where two peers hash to
the same replica, every node refuses. -/
theorem bootstrap_agreement {cfg cfg' : RaftConfig} (same : cfg.peers.entries.Perm cfg'.peers.entries)
    (distinct : (cfg.peers.keys.map trimSpace).Nodup) {localID localID' localAddr localAddr' : String} {replicaID replicaID' : Nat}
    (peer : StaticPeer cfg localID replicaID localAddr) (peer' : StaticPeer cfg' localID' replicaID' localAddr')
    (ids ids' : Identities) :
    ((∃ targets, (bootstrapReplicaTargets cfg localID replicaID localAddr ids).2 = .ok targets ∧
          (bootstrapReplicaTargets cfg' localID' replicaID' localAddr' ids').2 = .ok targets) ∨
      (∃ err, (bootstrapReplicaTargets cfg localID replicaID localAddr ids).2 = .error err) ∧
        ∃ err, (bootstrapReplicaTargets cfg' localID' replicaID' localAddr' ids').2 = .error err) ∧
    ∀ one ∈ cfg.peers.keys, ∀ two ∈ cfg.peers.keys, trimSpace one ≠ trimSpace two → ∀ shared,
      replicaIDForNodeID one = .ok shared → replicaIDForNodeID two = .ok shared →
        ∀ localID localAddr replicaID ids,
          ∃ err, (bootstrapReplicaTargets cfg localID replicaID localAddr ids).2 = .error err := by
  have distinct : (cfg.peers.entries.map fun entry => trimSpace entry.1).Nodup := by
    simpa [AList.keys, List.keys, Function.comp_def] using distinct
  have distinct' : (cfg'.peers.entries.map fun entry => trimSpace entry.1).Nodup := (same.map _).nodup_iff.mp distinct
  refine ⟨?_, fun one first two second differ shared hashOne hashTwo localID localAddr replicaID ids =>
    bootstrapReplicaTargets_collision distinct first second differ hashOne hashTwo localID localAddr replicaID ids⟩
  have usable : (∃ peers, bootstrapPeers cfg (trimSpace localID) localAddr = .ok peers) ↔
      ∃ peers, bootstrapPeers cfg' (trimSpace localID') localAddr' = .ok peers := by
    rw [bootstrapPeers_isOk_iff distinct, bootstrapPeers_isOk_iff distinct']
    simp only [same.mem_iff]
  by_cases accepted : ∃ peers, bootstrapPeers cfg (trimSpace localID) localAddr = .ok peers
  · obtain ⟨peers', given'⟩ := usable.mp accepted
    obtain ⟨peers, given⟩ := accepted
    have agree (id : String) : peers.lookup id = peers'.lookup id := by
      refine Option.ext fun addr => ?_
      rw [bootstrapPeers_own distinct peer.configures given, bootstrapPeers_own distinct' peer'.configures given']
      simp only [RaftConfig.Configures, same.mem_iff]
    rw [bootstrapReplicaTargets_eq peer.hashed given ids, bootstrapReplicaTargets_eq peer'.hashed given' ids',
      peerTargets_congr agree]
    cases peerTargets peers' with
    | ok targets => exact .inl ⟨targets, rfl, rfl⟩
    | error err => exact .inr ⟨⟨err, rfl⟩, err, rfl⟩
  · exact .inr ⟨bootstrapReplicaTargets_error accepted ids,
      bootstrapReplicaTargets_error (fun given => accepted (usable.mpr given)) ids'⟩

/-- Two peers, of which the one with blanks around it is the same to both. -/
def staticPeers : RaftConfig := { bootstrap := true, peers := (AList.singleton "b" "10.0.0.2:7444").insert " a " " 10.0.0.1:7444" }

theorem bootstrap_agreement_two :
    ∃ targets, (bootstrapReplicaTargets staticPeers "a" 12638187200555641996 "10.0.0.1:7444" {}).2 = .ok targets ∧
      (bootstrapReplicaTargets staticPeers "b" 12638190499090526629 "10.0.0.2:7444" {}).2 = .ok targets := by
  have peerA : StaticPeer staticPeers "a" 12638187200555641996 "10.0.0.1:7444" :=
    ⟨by decide +kernel, "raft.advertise", "10.0.0.1:7444", by decide +kernel, ⟨" a ", " 10.0.0.1:7444"⟩, by decide +kernel,
      by decide +kernel, by decide +kernel⟩
  have peerB : StaticPeer staticPeers "b" 12638190499090526629 "10.0.0.2:7444" :=
    ⟨by decide +kernel, "raft.bind", "10.0.0.2:7444", by decide +kernel, ⟨"b", "10.0.0.2:7444"⟩, by decide +kernel,
      by decide +kernel, by decide +kernel⟩
  rcases (bootstrap_agreement (List.Perm.refl _) (by decide +kernel) peerA peerB {} {}).1 with agreed | ⟨⟨err, refused⟩, -⟩
  · exact agreed
  · have accepted : (bootstrapReplicaTargets staticPeers "a" 12638187200555641996 "10.0.0.1:7444" {}).2.isOk = true := by
      decide +kernel
    rw [refused] at accepted
    cases accepted

end Orch
