import Orch.Gossip.RaftJoin

namespace Orch

/-- A change of the members, with what Dragonboat says of the shard then and
whether the leader is told that it went through. -/
inductive MemberOp where
  | addVoter (view : ShardView) (id address : String) (accepted : Bool)
  | removeServer (view : ShardView) (id : String) (accepted : Bool)

def MemberOp.view : MemberOp → ShardView
  | .addVoter view .. | .removeServer view .. => view

def MemberOp.Adds (id : String) : MemberOp → Prop
  | .addVoter _ other _ accepted => accepted = true ∧ trimSpace other = trimSpace id
  | .removeServer .. => False

def RaftNode.change (node : RaftNode) : MemberOp → RaftNode
  | .addVoter view id address accepted => node.addVoter view id address accepted
  | .removeServer view id accepted => node.removeServer view id accepted

def RaftNode.changes (node : RaftNode) (ops : List MemberOp) : RaftNode := ops.foldl RaftNode.change node

section Changes

variable {cfg : RaftConfig} {node : RaftNode} {id address : String} {ops : List MemberOp}

theorem RaftNode.Reached.changes (reached : node.Reached cfg) : (node.changes ops).Reached cfg := by
  induction ops generalizing node with
  | nil => exact reached
  | cons op ops ih =>
    refine ih ?_
    cases op with
    | addVoter view id address accepted => exact .addVoter view id address accepted reached
    | removeServer view id accepted => exact .removeServer view id accepted reached

theorem RaftNode.address_of_change {op : MemberOp} (spares : ¬ op.Adds id)
    (found : (node.change op).identities.addressToNode.lookup address = some (trimSpace id)) :
    node.identities.addressToNode.lookup address = some (trimSpace id) := by
  cases op with
  | addVoter view other place accepted =>
    rw [change, addVoter_eq] at found
    split at found
    · next replicaID addr asked =>
      split at found
      · next told =>
        unfold Identities.rememberMember at found
        dsimp only at found
        split at found
        · exact found
        dsimp only at found
        split at found
        · by_cases here : address = trimSpace addr
          · rw [here, AList.lookup_insert, trimSpace_trimSpace] at found
            exact absurd ⟨told, Option.some.inj found⟩ spares
          · rwa [AList.lookup_insert_ne here] at found
        · exact found
      · exact found
    · exact found
  | removeServer view other accepted =>
    unfold change removeServer at found
    dsimp only at found
    split at found
    · exact found
    split at found
    · split at found <;> exact found
    · exact found

theorem RaftNode.address_of_changes (spare : ∀ op ∈ ops, ¬ op.Adds id)
    (found : (node.changes ops).identities.addressToNode.lookup address = some (trimSpace id)) :
    node.identities.addressToNode.lookup address = some (trimSpace id) := by
  induction ops generalizing node with
  | nil => exact found
  | cons op ops ih =>
    obtain ⟨first, others⟩ := List.forall_mem_cons.mp spare
    exact address_of_change first (ih others found)

/-- The node has no record of the replica, and takes it for the member: by the
address, which was on record for the member before it was removed and still is,
or by its number. -/
def RaftNode.MistakenFor (before later : RaftNode) (m : ShardMembership) (id : String) (replicaID : Nat) : Prop :=
  later.identities.replicaToNode.lookup replicaID = none ∧
    (before.identities.addressToNode.lookup (trimSpace (m.addressAndSuffrage replicaID).1) = some id ∧
        later.identities.addressToNode.lookup (trimSpace (m.addressAndSuffrage replicaID).1) = some id ∨
      later.identities.addressToNode.lookup (trimSpace (m.addressAndSuffrage replicaID).1) = none ∧ placeholder replicaID = id)

instance (before later : RaftNode) (m : ShardMembership) (id : String) (replicaID : Nat) :
    Decidable (before.MistakenFor later m id replicaID) :=
  inferInstanceAs (Decidable (_ ∧ (_ ∧ _ ∨ _ ∧ _)))

/-- After a member is removed, and before it is added again, another member goes
by its name exactly when it is mistaken for it. -/
theorem removed_name_unused_iff (reached : node.Reached cfg) (view : ShardView) (spare : ∀ op ∈ ops, ¬ op.Adds id)
    (m : ShardMembership) :
    (∀ r ∈ m.replicaIDs, replicaIDForNodeID id ≠ .ok r →
        ((node.changes (.removeServer view id true :: ops)).memberFromReplicaID m r).id ≠ trimSpace id) ↔
      ∀ r ∈ m.replicaIDs, replicaIDForNodeID id ≠ .ok r →
        ¬ node.MistakenFor (node.changes (.removeServer view id true :: ops)) m (trimSpace id) r := by
  have arrived : (node.changes (.removeServer view id true :: ops)).Reached cfg := reached.changes
  have first (address : String) := @RaftNode.address_of_changes node id address (.removeServer view id true :: ops)
    (List.forall_mem_cons.mpr ⟨nofun, spare⟩)
  generalize node.changes (.removeServer view id true :: ops) = later at arrived first ⊢
  refine forall_congr' fun r => imp_congr_right fun _ => imp_congr_right fun other => not_congr ?_
  have unknown : later.identities.replicaToNode.lookup r ≠ some (trimSpace id) := fun known =>
    other ((replicaIDForNodeID_trimSpace id).symm.trans (arrived.sound.identities r _ known))
  refine (((Identities.clean_invariant.reached arrived).nodeIDForMember m r).2 _).trans ?_
  simp only [Identities.GivesName, RaftNode.MistakenFor, unknown, false_or]
  exact and_congr_right fun _ => or_congr_left ⟨fun found => ⟨first _ found, found⟩, And.right⟩

end Changes

def movedMembers : ShardMembership where
  nodes := (AList.singleton 12638187200555641996 "10.0.0.1:7444").insert 12638189399578898418 "10.0.0.2:7444"

def replacing (accepted : Bool) : List MemberOp :=
  [.removeServer joinView "b" true, .addVoter joinView "c" "10.0.0.2:7444" accepted]

/-- The leader is told that c was added, and knows it. -/
theorem removed_name_unused_told :
    (joinLeader false).isLocalLeader joinView = true ∧ ∀ r ∈ movedMembers.replicaIDs, replicaIDForNodeID "b" ≠ .ok r →
      (((joinLeader false).changes (replacing true)).memberFromReplicaID movedMembers r).id ≠ trimSpace "b" := by
  have spare : ¬ (MemberOp.addVoter joinView "c" "10.0.0.2:7444" true).Adds "b" := by
    rintro ⟨-, same⟩
    exact absurd same (by decide +kernel)
  exact ⟨by decide +kernel, (removed_name_unused_iff (joinLeader_reached false) joinView
    (List.forall_mem_singleton.mpr spare) movedMembers).mpr (by decide +kernel)⟩

/-- The addition of c times out although it goes through. The leader then finds c
at the address of b. -/
theorem removed_name_reused :
    ¬ ∀ (cfg : RaftConfig) (node : RaftNode), node.Reached cfg → ∀ (view : ShardView) (id : String) (ops : List MemberOp),
      (∀ op ∈ ops, ¬ op.Adds id) → (∀ op ∈ .removeServer view id true :: ops, node.isLocalLeader op.view = true) →
        ∀ m : ShardMembership, ∀ r ∈ m.replicaIDs, replicaIDForNodeID id ≠ .ok r →
          ((node.changes (.removeServer view id true :: ops)).memberFromReplicaID m r).id ≠ trimSpace id := by
  intro unused
  exact unused joinConfig (joinLeader false) (joinLeader_reached false) joinView "b" (replacing false).tail
    (by simp [replacing, MemberOp.Adds]) (by decide +kernel) movedMembers 12638189399578898418 (by decide +kernel)
    (by decide +kernel) (by decide +kernel)

end Orch
