import Orch.Effect.Ensures
import Orch.Runtime.Containerd
import Mathlib.Data.List.Nodup

namespace Orch.Containerd

open Effect

/-- The objects of the CRI service, apart from which containers run. -/
structure Inventory where
  containers : List (ContainerInfo × Owner)
  sandboxes : List Sandbox

namespace Inventory

def removeContainer (v : Inventory) (id : String) : Inventory :=
  { v with containers := v.containers.filter fun ctr => ctr.1.id ≠ id }

def removePodSandbox (v : Inventory) (id : String) : Inventory where
  containers := v.containers.filter fun ctr => ctr.1.sandboxID ≠ id
  sandboxes := v.sandboxes.filter fun sandbox => sandbox.id ≠ id

def isFresh (v : Inventory) (id : String) : Prop :=
  trimSpace id = id ∧ id ≠ "" ∧ id ∉ v.containers.map (·.1.id) ∧ id ∉ v.sandboxes.map (·.id)

def Step : Steps CriSig Inventory := fun v op answer u =>
  match op, answer with
  | .listContainers selector, result =>
    u = v ∧ ∀ listed, result = .ok listed →
      listed.Perm ((v.containers.filter fun ctr => selects selector ctr.2.labels).map Prod.fst)
  | .listPodSandbox selector, result =>
    u = v ∧ ∀ listed, result = .ok listed →
      listed.Perm ((v.sandboxes.filter fun sandbox => selects selector sandbox.owner.labels).map Sandbox.id)
  | .removeContainer id, result => u = v.removeContainer id ∨ u = v ∧ result ≠ .ok ()
  | .removePodSandbox id, result => u = v.removePodSandbox id ∨ u = v ∧ result ≠ .ok ()
  | .runPodSandbox owner, result =>
    (u = v ∧ ∀ id, result ≠ .ok id) ∨
      ∃ id, v.isFresh id ∧ u = { v with sandboxes := ⟨id, owner⟩ :: v.sandboxes } ∧ ∀ given, result = .ok given → given = id
  | .createContainer sandboxID owner, _ =>
    u = v ∨ ∃ id, v.isFresh id ∧ sandboxID ∈ v.sandboxes.map (·.id) ∧
      u = { v with containers := (⟨id, sandboxID⟩, owner) :: v.containers }
  | _, _ => u = v

end Inventory

namespace CriState

def inventory (s : CriState) : Inventory where
  containers := s.containers.map fun ctr => (ctr.toContainerInfo, ctr.owner)
  sandboxes := s.sandboxes

theorem inventory_mark (s : CriState) (ids : List String) (running : Bool) :
    (s.mark ids running).inventory = s.inventory := by
  have same : (fun ctr : Container => (ctr.toContainerInfo, ctr.owner)) ∘
      (fun ctr => if ctr.id ∈ ids then { ctr with running } else ctr) =
        fun ctr => (ctr.toContainerInfo, ctr.owner) := by
    funext ctr
    simp only [Function.comp_apply]
    split <;> rfl
  simp only [inventory, mark, List.map_map, same]

theorem change_cases {s t u : CriState} {c : CriChoice} {result : Check} (changed : s.change t c = (u, result)) :
    u = t ∨ u = s ∧ result ≠ .ok () := by
  unfold change at changed
  split at changed
  · cases changed
    exact .inl rfl
  · cases changed
    split
    · exact .inl rfl
    · exact .inr ⟨rfl, by simp [Check.fail]⟩

theorem create_cases {s t u : CriState} {c : CriChoice} {result : Except Failure String}
    (created : s.create t c = some (u, result)) :
    (u = s ∧ ∀ id, result ≠ .ok id) ∨
      (u = t ∧ s.isFresh c.fresh = true ∧ ∀ given, result = .ok given → given = c.fresh) := by
  unfold create at created
  split at created
  · cases created
    exact .inl ⟨rfl, by simp⟩
  split at created
  · cases created
  · rename_i fresh
    cases created
    refine .inr ⟨rfl, by simpa using fresh, ?_⟩
    intro given same
    split at same
    · cases same
      rfl
    · cases same

theorem inOrder_perm {α : Type} [DecidableEq α] {order : Option (List α)} {items chosen : List α}
    (given : inOrder order items = some chosen) : chosen.Perm items := by
  unfold inOrder at given
  split at given
  · cases given
    exact .refl _
  · split at given
    · rename_i permuted
      cases given
      exact List.isPerm_iff.mp permuted
    · cases given

theorem isFresh_inventory {s : CriState} {id : String} (fresh : s.isFresh id = true) : s.inventory.isFresh id := by
  simpa [isFresh, Inventory.isFresh, inventory, Function.comp_def] using fresh

theorem inventory_removeContainer (s : CriState) (id : String) :
    (s.removeContainer id).inventory = s.inventory.removeContainer id := by
  simp only [inventory, removeContainer, Inventory.removeContainer, List.filter_map]
  rfl

theorem inventory_removePodSandbox (s : CriState) (id : String) :
    (s.removePodSandbox id).inventory = s.inventory.removePodSandbox id := by
  simp only [inventory, removePodSandbox, Inventory.removePodSandbox, List.filter_map]
  rfl

/-- Every CRI call does to the inventory what its kind may do. -/
theorem inventory_step {s t : CriState} {op : CriOp} {answer : op.Answer} (taken : machine.Step s op answer t) :
    Inventory.Step s.inventory op answer t.inventory := by
  obtain ⟨c, taken⟩ := taken
  change perform s op c = some (t, answer) at taken
  rw [← inventory_mark s c.exits false]
  cases op with
  | listContainers selector =>
    simp only [perform] at taken
    split at taken
    · cases taken
      exact ⟨rfl, by simp⟩
    · obtain ⟨listed, given, same⟩ := Option.map_eq_some_iff.mp taken
      cases same
      refine ⟨rfl, fun _ same => ?_⟩
      cases same
      have permuted := inOrder_perm given
      simp only [inventory, List.filter_map, List.map_map]
      exact permuted
  | listPodSandbox selector =>
    simp only [perform] at taken
    split at taken
    · cases taken
      exact ⟨rfl, by simp⟩
    · obtain ⟨listed, given, same⟩ := Option.map_eq_some_iff.mp taken
      cases same
      refine ⟨rfl, fun _ same => ?_⟩
      cases same
      exact inOrder_perm given
  | containerStatus id =>
    simp only [perform] at taken
    split at taken <;> cases taken <;> rfl
  | stopContainer id =>
    rcases change_cases (Option.some.inj taken) with rfl | ⟨rfl, -⟩
    · exact inventory_mark ..
    · rfl
  | stopPodSandbox id =>
    rcases change_cases (Option.some.inj taken) with rfl | ⟨rfl, -⟩
    · exact inventory_mark ..
    · rfl
  | startContainer id =>
    rcases change_cases (Option.some.inj taken) with rfl | ⟨rfl, -⟩
    · exact inventory_mark ..
    · rfl
  | removeContainer id =>
    rcases change_cases (Option.some.inj taken) with rfl | ⟨rfl, failed⟩
    · exact .inl (inventory_removeContainer _ _)
    · exact .inr ⟨rfl, failed⟩
  | removePodSandbox id =>
    rcases change_cases (Option.some.inj taken) with rfl | ⟨rfl, failed⟩
    · exact .inl (inventory_removePodSandbox _ _)
    · exact .inr ⟨rfl, failed⟩
  | runPodSandbox owner =>
    rcases create_cases taken with ⟨rfl, failed⟩ | ⟨rfl, fresh, given⟩
    · exact .inl ⟨rfl, failed⟩
    · exact .inr ⟨c.fresh, isFresh_inventory fresh, rfl, given⟩
  | createContainer sandboxID owner =>
    simp only [perform] at taken
    split at taken
    · cases taken
      exact .inl rfl
    · rename_i there
      rcases create_cases taken with ⟨rfl, -⟩ | ⟨rfl, fresh, -⟩
      · exact .inl rfl
      · exact .inr ⟨c.fresh, isFresh_inventory fresh, not_not.mp there, rfl⟩
  | _ =>
    cases taken
    rfl

end CriState

/-- Ids are told apart, and every container is in a sandbox that was made
for the same workload. -/
structure Inventory.Housed (v : Inventory) : Prop where
  containerIDs : (v.containers.map (·.1.id)).Nodup
  sandboxIDs : (v.sandboxes.map (·.id)).Nodup
  containerID : ∀ ctr ∈ v.containers, trimSpace ctr.1.id = ctr.1.id ∧ ctr.1.id ≠ ""
  sandboxID : ∀ sandbox ∈ v.sandboxes, trimSpace sandbox.id = sandbox.id ∧ sandbox.id ≠ ""
  housed : ∀ ctr ∈ v.containers, ∃ sandbox ∈ v.sandboxes, sandbox.id = ctr.1.sandboxID ∧ sandbox.owner = ctr.2

/-- A container is created only in a sandbox of the same workload. -/
def Inventory.Proper (v : Inventory) : CriOp → Prop
  | .createContainer sandboxID owner => ∀ sandbox ∈ v.sandboxes, sandbox.id = sandboxID → sandbox.owner = owner
  | _ => True

variable {v : Inventory}

theorem Inventory.Housed.removeContainer (housed : v.Housed) (id : String) :
    (v.removeContainer id).Housed where
  containerIDs := housed.containerIDs.sublist (List.filter_sublist.map _)
  sandboxIDs := housed.sandboxIDs
  containerID ctr member := housed.containerID ctr (List.mem_of_mem_filter member)
  sandboxID := housed.sandboxID
  housed ctr member := housed.housed ctr (List.mem_of_mem_filter member)

theorem Inventory.Housed.removePodSandbox (housed : v.Housed) (id : String) :
    (v.removePodSandbox id).Housed where
  containerIDs := housed.containerIDs.sublist (List.filter_sublist.map _)
  sandboxIDs := housed.sandboxIDs.sublist (List.filter_sublist.map _)
  containerID ctr member := housed.containerID ctr (List.mem_of_mem_filter member)
  sandboxID sandbox member := housed.sandboxID sandbox (List.mem_of_mem_filter member)
  housed ctr member := by
    obtain ⟨there, other⟩ := List.mem_filter.mp member
    obtain ⟨sandbox, known, same, owner⟩ := housed.housed ctr there
    exact ⟨sandbox, List.mem_filter.mpr ⟨known, by simpa [same] using other⟩, same, owner⟩

variable {op : CriOp}

/-- Containers stay in sandboxes of their own workload. -/
theorem Inventory.Housed.step {u : Inventory} {answer : op.Answer} (housed : v.Housed) (proper : v.Proper op)
    (taken : Inventory.Step v op answer u) : u.Housed := by
  cases op with
  | listContainers | listPodSandbox =>
    obtain ⟨rfl, -⟩ := taken
    exact housed
  | removeContainer id =>
    rcases taken with rfl | ⟨rfl, -⟩
    · exact housed.removeContainer id
    · exact housed
  | removePodSandbox id =>
    rcases taken with rfl | ⟨rfl, -⟩
    · exact housed.removePodSandbox id
    · exact housed
  | runPodSandbox owner =>
    rcases taken with ⟨rfl, -⟩ | ⟨id, ⟨clean, named, -, unused⟩, rfl, -⟩
    · exact housed
    refine ⟨housed.containerIDs, List.nodup_cons.mpr ⟨unused, housed.sandboxIDs⟩, housed.containerID, ?_, ?_⟩
    · rintro sandbox (_ | ⟨_, member⟩)
      · exact ⟨clean, named⟩
      · exact housed.sandboxID sandbox member
    · intro ctr member
      obtain ⟨sandbox, known, same⟩ := housed.housed ctr member
      exact ⟨sandbox, List.mem_cons_of_mem _ known, same⟩
  | createContainer sandboxID owner =>
    rcases taken with rfl | ⟨id, ⟨clean, named, unused, -⟩, there, rfl⟩
    · exact housed
    refine ⟨List.nodup_cons.mpr ⟨unused, housed.containerIDs⟩, housed.sandboxIDs, ?_, housed.sandboxID, ?_⟩
    · rintro ctr (_ | ⟨_, member⟩)
      · exact ⟨clean, named⟩
      · exact housed.containerID ctr member
    · rintro ctr (_ | ⟨_, member⟩)
      · obtain ⟨sandbox, known, same⟩ := List.mem_map.mp there
        exact ⟨sandbox, known, same, proper sandbox known same⟩
      · exact housed.housed ctr member
  | _ =>
    obtain rfl := taken
    exact housed

def CriOp.creates : CriOp → Bool
  | .createContainer _ _ => true
  | _ => false

def CriOp.ends : CriOp → Bool
  | .dial | .listContainers _ | .listPodSandbox _ | .stopContainer _ | .removeContainer _ => true
  | .stopPodSandbox _ | .removePodSandbox _ | .removeWorkloadA _ _ => true
  | _ => false

theorem CriOp.creates_of_ends (ends : op.ends = true) : op.creates = false := by
  cases op with
  | createContainer => cases ends
  | _ => rfl

abbrev Ending {α : Type} (p : CriTask α) : Prop := Program.Asks (fun op : CriOp => op.ends = true) p

abbrev Sparing {α : Type} (p : CriTask α) : Prop := Program.Asks (fun op : CriOp => op.creates = false) p

section Asks

variable {dns : Bool} {metadata : Metadata} {w : Workload}

theorem stopContainers_asks : ∀ containers, Ending (stopContainers containers)
  | [] => trivial
  | ctr :: rest => by
    simp only [stopContainers]
    split
    · exact asks_bind (stopContainers_asks rest) fun _ => trivial
    · refine asks_then rfl fun _ => asks_then rfl fun _ => ?_
      exact asks_bind (stopContainers_asks rest) fun _ => trivial

theorem stopSandboxes_asks : ∀ ids, Ending (stopSandboxes ids)
  | [] => trivial
  | id :: rest => by
    refine asks_then rfl fun _ => asks_then rfl fun _ => ?_
    exact asks_bind (stopSandboxes_asks rest) fun _ => trivial

theorem stop_asks {name : String} : Ending (stop dns metadata name) := by
  refine asks_then rfl ?_
  rintro (_ | _)
  · trivial
  refine asks_then rfl ?_
  rintro (_ | containers)
  · trivial
  refine asks_bind (stopContainers_asks containers) ?_
  rintro ⟨sandboxIDs, _ | _⟩
  · refine asks_then rfl ?_
    rintro (_ | sandboxes)
    · trivial
    refine asks_bind (stopSandboxes_asks _) ?_
    rintro (_ | _)
    · dsimp only
      split
      · exact asks_perform rfl
      · trivial
    · trivial
  · trivial

theorem waitSandboxIP_sparing (sandboxID : String) : ∀ last tries, Sparing (waitSandboxIP sandboxID last tries)
  | _, 0 => trivial
  | last, tries + 1 => by
    refine asks_then rfl ?_
    rintro (err | ip)
    · exact waitSandboxIP_sparing sandboxID err tries
    · dsimp only
      split
      · trivial
      · exact waitSandboxIP_sparing sandboxID _ tries

theorem recordCRIWorkloadDNS_sparing (sandboxID : String) : Sparing (recordCRIWorkloadDNS dns metadata w sandboxID) := by
  unfold recordCRIWorkloadDNS
  split
  · trivial
  · refine asks_bind (waitSandboxIP_sparing ..) ?_
    rintro (_ | ip)
    · trivial
    · exact asks_perform rfl

theorem removeCRIContainer_sparing (id : String) : Sparing (removeCRIContainer id) := by
  unfold removeCRIContainer
  split
  · trivial
  · refine asks_then rfl fun _ => ?_
    exact asks_then rfl fun _ => trivial

theorem removeCRISandboxes_sparing : ∀ ids, Sparing (removeCRISandboxes ids)
  | [] => trivial
  | id :: rest => by
    unfold removeCRISandboxes
    split
    · exact removeCRISandboxes_sparing rest
    · refine asks_then rfl fun _ => asks_then rfl fun _ => ?_
      exact asks_bind (removeCRISandboxes_sparing rest) fun _ => trivial

theorem scanExisting_sparing : ∀ running sandboxID containers, Sparing (scanExisting running sandboxID containers)
  | _, _, [] => trivial
  | running, sandboxID, ctr :: rest => by
    simp only [scanExisting]
    split
    · exact scanExisting_sparing running sandboxID rest
    · refine asks_then rfl ?_
      rintro (_ | _ | _)
      · trivial
      · refine asks_bind (removeCRIContainer_sparing _) ?_
        rintro (_ | _)
        · trivial
        · exact scanExisting_sparing running sandboxID rest
      · exact scanExisting_sparing true _ rest

theorem prepareExistingCRIContainers_sparing (containers : List ContainerInfo) :
    Sparing (prepareExistingCRIContainers dns metadata w containers) := by
  refine asks_bind (scanExisting_sparing ..) ?_
  rintro (_ | ⟨_ | _, sandboxID⟩)
  · trivial
  · trivial
  · refine asks_bind (recordCRIWorkloadDNS_sparing _) ?_
    rintro (_ | _) <;> trivial

theorem prepareExistingCRIWorkload_sparing : Sparing (prepareExistingCRIWorkload dns metadata w) := by
  refine asks_then rfl ?_
  rintro (_ | containers)
  · trivial
  refine asks_bind (prepareExistingCRIContainers_sparing _) ?_
  rintro (_ | _ | _)
  · trivial
  · refine asks_then rfl ?_
    rintro (_ | sandboxes)
    · trivial
    refine asks_bind (removeCRISandboxes_sparing _) ?_
    rintro (_ | _) <;> trivial
  · trivial

theorem cleanupCRIWorkload_sparing (containerID sandboxID : String) :
    Sparing (cleanupCRIWorkload containerID sandboxID) := by
  refine asks_bind ?_ fun _ => ?_
  · unfold cleanupContainer
    split
    · trivial
    · refine asks_then rfl fun _ => ?_
      exact asks_then rfl fun _ => trivial
  · unfold cleanupSandbox
    split
    · trivial
    · refine asks_then rfl fun _ => ?_
      exact asks_then rfl fun _ => trivial

end Asks

theorem ensures_ask {step : Steps CriSig Inventory} {permit : Inventory → CriOp → Prop}
    {post : op.Answer → Inventory → Prop} (permitted : permit v op)
    (after : ∀ (answer : op.Answer) u, step v op answer u → post answer u) : Ensures step permit post (ask op) v :=
  ⟨permitted, after⟩

section Housing

variable {dns : Bool}

theorem Inventory.proper_of_sparing (v : Inventory) (op : CriOp) (sparing : op.creates = false) : v.Proper op := by
  cases op with
  | createContainer => cases sparing
  | _ => trivial

abbrev Inventory.HousedStep : Steps CriSig Inventory := fun v op answer u =>
  v.Housed ∧ Inventory.Step v op answer u ∧ u.Housed

variable {v : Inventory}

theorem Sparing.proper {α : Type} {p : CriTask α} {step : Steps CriSig Inventory} (sparing : Sparing p) :
    Ensures step Inventory.Proper anything p v :=
  Program.Asks.ensures sparing Inventory.proper_of_sparing

theorem startInSandbox_proper {owner : Owner} {sandboxID : String}
    (own : ∀ sandbox ∈ v.sandboxes, sandbox.id = sandboxID → sandbox.owner = owner) :
    Ensures Inventory.HousedStep Inventory.Proper anything (startInSandbox dns owner sandboxID) v := by
  have tidy {container : String} {v : Inventory} {err : Failure} :
      Ensures Inventory.HousedStep Inventory.Proper anything
        (do cleanupCRIWorkload container sandboxID; return (.error err : Except Failure Started)) v :=
    Sparing.proper (asks_bind (cleanupCRIWorkload_sparing ..) fun _ => trivial)
  refine ⟨trivial, ?_⟩
  rintro (err | _) u ⟨-, taken, -⟩
  · exact tidy
  obtain rfl : u = v := taken
  refine ⟨own, ?_⟩
  rintro (err | containerID) t -
  · exact tidy
  refine Sparing.proper (asks_then rfl ?_)
  rintro (err | _)
  · exact asks_bind (cleanupCRIWorkload_sparing ..) fun _ => trivial
  refine asks_bind (waitSandboxIP_sparing ..) ?_
  rintro (err | ip)
  · exact asks_bind (cleanupCRIWorkload_sparing ..) fun _ => trivial
  dsimp only
  split
  · trivial
  refine asks_then rfl ?_
  rintro (err | _)
  · exact asks_bind (cleanupCRIWorkload_sparing ..) fun _ => trivial
  · trivial

theorem deploy_proper {metadata : Metadata} {w : Workload} :
    Ensures Inventory.HousedStep Inventory.Proper anything (deploy dns metadata w) v := by
  refine ⟨trivial, ?_⟩
  rintro (err | _) u -
  · trivial
  dsimp only
  split
  · trivial
  refine (Sparing.proper prepareExistingCRIWorkload_sparing).bind ?_
  rintro (err | _ | sandboxID) t -
  · trivial
  swap
  · trivial
  rw [ensures_bind, createWorkload, ensures_bind]
  refine ensures_ask trivial ?_
  rintro (err | _) v -
  · trivial
  refine ⟨trivial, ?_⟩
  rintro (err | _) v -
  · trivial
  refine ⟨trivial, ?_⟩
  rintro (err | sandboxID) u ⟨-, taken, housed⟩
  · trivial
  refine (startInSandbox_proper ?_).mono fun _ _ _ => trivial
  rcases taken with ⟨-, bad⟩ | ⟨id, -, rfl, given⟩
  · exact absurd rfl (bad sandboxID)
  obtain rfl := given sandboxID rfl
  rintro sandbox (_ | ⟨_, member⟩) same
  · rfl
  · have unused := (List.nodup_cons.mp housed.sandboxIDs).1
    exact absurd (List.mem_map.mpr ⟨sandbox, member, same⟩) unused

end Housing

/-- What the CRI service may hold after calls of the provider, each of which
may break off anywhere. -/
inductive Created (dns : Bool) : CriState → Prop
  | nothing : Created dns {}
  | deploy {s t metadata w} : Created dns s → Visits CriState.machine.Step (deploy dns metadata w) s t → Created dns t
  | stop {s t metadata name} : Created dns s → Visits CriState.machine.Step (stop dns metadata name) s t → Created dns t

theorem housed_of_visits {α : Type} {p : CriTask α} {s t : CriState} (housed : s.inventory.Housed)
    (proper : Ensures Inventory.HousedStep Inventory.Proper anything p s.inventory)
    (run : Visits CriState.machine.Step p s t) : t.inventory.Housed := by
  have kept : Ensures Inventory.Step Inventory.Proper (fun _ v => True ∧ v.Housed) p s.inventory :=
    Ensures.invariant (fun housed proper taken => housed.step proper taken) housed proper
  have lifted : Ensures CriState.machine.Step (fun s => s.inventory.Proper) (fun _ s => True ∧ s.inventory.Housed) p s :=
    kept.simulate CriState.inventory_step
  exact lifted.visits (fun s => s.inventory.Housed)
    (fun housed proper taken => housed.step proper (CriState.inventory_step taken)) housed run

theorem Created.housed {dns : Bool} {s : CriState} (created : Created dns s) : s.inventory.Housed := by
  induction created with
  | nothing => exact ⟨by simp [CriState.inventory], by simp [CriState.inventory], by simp [CriState.inventory],
      by simp [CriState.inventory], by simp [CriState.inventory]⟩
  | deploy _ run ih => exact housed_of_visits ih deploy_proper run
  | stop _ run ih =>
    refine housed_of_visits ih ?_ run
    exact Program.Asks.ensures stop_asks fun v op ends => v.proper_of_sparing op (CriOp.creates_of_ends ends)

theorem selects_iff {metadata : Metadata} {name : String} {owner : Owner} :
    selects (criWorkloadLabelSelector metadata name) owner.labels = true ↔
      namespaceOrDefault owner.metadata.nspace = namespaceOrDefault metadata.nspace ∧
        owner.workload.name = trimSpace name := by
  have asked : selects (criWorkloadLabelSelector metadata name) owner.labels = true ↔
      namespaceOrDefault metadata.nspace = namespaceOrDefault owner.metadata.nspace ∧
        trimSpace name = owner.workload.name := by
    simp [selects, criWorkloadLabelSelector, Owner.labels, criWorkloadLabels, Labels.pairs, labelMap]
  rw [asked]
  exact ⟨fun both => ⟨both.1.symm, both.2.symm⟩, fun both => ⟨both.1.symm, both.2.symm⟩⟩

namespace Inventory

variable {v u : Inventory} {id : WorkloadId}

def OwnContainer (v : Inventory) (id : WorkloadId) (containerID : String) : Prop :=
  ∀ ctr ∈ v.containers, ctr.1.id = containerID → ctr.2.id = id

/-- The sandbox with that id and all that is in it were made for the workload. -/
def OwnSandbox (v : Inventory) (id : WorkloadId) (sandboxID : String) : Prop :=
  (∀ sandbox ∈ v.sandboxes, sandbox.id = sandboxID → sandbox.owner.id = id) ∧
    ∀ ctr ∈ v.containers, ctr.1.sandboxID = sandboxID → ctr.2.id = id

theorem Housed.ownContainer (housed : v.Housed) {ctr : ContainerInfo × Owner} (member : ctr ∈ v.containers)
    (own : ctr.2.id = id) : v.OwnContainer id ctr.1.id := by
  intro other there same
  rw [List.inj_on_of_nodup_map housed.containerIDs there member same]
  exact own

theorem Housed.ownSandbox (housed : v.Housed) {sandbox : Sandbox} (member : sandbox ∈ v.sandboxes)
    (own : sandbox.owner.id = id) : v.OwnSandbox id sandbox.id := by
  constructor
  · intro other there same
    rw [List.inj_on_of_nodup_map housed.sandboxIDs there member same]
    exact own
  · intro ctr there same
    obtain ⟨other, known, sameID, owner⟩ := housed.housed ctr there
    have equal := List.inj_on_of_nodup_map housed.sandboxIDs known member (sameID.trans same)
    rw [← owner, equal]
    exact own

theorem Housed.ownSandboxOf (housed : v.Housed) {ctr : ContainerInfo × Owner} (member : ctr ∈ v.containers)
    (own : ctr.2.id = id) : trimSpace ctr.1.sandboxID = ctr.1.sandboxID ∧ v.OwnSandbox id ctr.1.sandboxID := by
  obtain ⟨sandbox, known, same, owner⟩ := housed.housed ctr member
  rw [← same]
  exact ⟨(housed.sandboxID sandbox known).1, housed.ownSandbox known (by rw [owner]; exact own)⟩

/-- The calls that take away nothing but what was made for the workload. -/
def Own (v : Inventory) (id : WorkloadId) : CriOp → Prop
  | .removeContainer containerID => v.OwnContainer id containerID
  | .removePodSandbox sandboxID => v.OwnSandbox id sandboxID
  | .runPodSandbox _ | .createContainer _ _ => False
  | _ => True

/-- What was made for other workloads is still there, and nothing is new. -/
structure Spared (v : Inventory) (id : WorkloadId) (u : Inventory) : Prop where
  containers : u.containers ⊆ v.containers
  sandboxes : u.sandboxes ⊆ v.sandboxes
  otherContainers : ∀ ctr ∈ v.containers, ctr.2.id ≠ id → ctr ∈ u.containers
  otherSandboxes : ∀ sandbox ∈ v.sandboxes, sandbox.owner.id ≠ id → sandbox ∈ u.sandboxes

theorem Spared.refl : v.Spared id v := ⟨fun _ member => member, fun _ member => member, fun _ member _ => member,
  fun _ member _ => member⟩

/-- Calls about one workload spare what belongs to others. -/
theorem Spared.step {t : Inventory} {op : CriOp} {answer : op.Answer} (spared : v.Spared id u) (own : v.Own id op)
    (taken : Inventory.Step u op answer t) : v.Spared id t := by
  cases op with
  | listContainers | listPodSandbox =>
    obtain ⟨rfl, -⟩ := taken
    exact spared
  | removeContainer containerID =>
    rcases taken with rfl | ⟨rfl, -⟩
    · refine ⟨fun ctr member => spared.containers (List.mem_of_mem_filter member), spared.sandboxes, ?_,
        spared.otherSandboxes⟩
      intro ctr member foreign
      refine List.mem_filter.mpr ⟨spared.otherContainers ctr member foreign, ?_⟩
      simpa using fun same => foreign (own ctr member same)
    · exact spared
  | removePodSandbox sandboxID =>
    rcases taken with rfl | ⟨rfl, -⟩
    · refine ⟨fun ctr member => spared.containers (List.mem_of_mem_filter member),
        fun sandbox member => spared.sandboxes (List.mem_of_mem_filter member), ?_, ?_⟩
      · intro ctr member foreign
        refine List.mem_filter.mpr ⟨spared.otherContainers ctr member foreign, ?_⟩
        simpa using fun same => foreign (own.2 ctr member same)
      · intro sandbox member foreign
        refine List.mem_filter.mpr ⟨spared.otherSandboxes sandbox member foreign, ?_⟩
        simpa using fun same => foreign (own.1 sandbox member same)
    · exact spared
  | runPodSandbox | createContainer => exact own.elim
  | _ =>
    obtain rfl := taken
    exact spared

end Inventory

section Isolation

variable {dns : Bool} {metadata : Metadata} {w : Workload} {name : String} {v u : Inventory} {id : WorkloadId}

abbrev SparedStep (v : Inventory) (id : WorkloadId) : Steps CriSig Inventory := fun u op answer t =>
  v.Spared id u ∧ Inventory.Step u op answer t ∧ v.Spared id t

theorem stopContainers_own (housed : v.Housed) : ∀ {listed : List ContainerInfo} {u : Inventory},
    (∀ info ∈ listed, ∃ ctr ∈ v.containers, ctr.1 = info ∧ ctr.2.id = id) →
      Ensures (SparedStep v id) (fun _ => v.Own id) (fun result _ => ∀ sandboxID ∈ result.1, v.OwnSandbox id sandboxID)
        (stopContainers listed) u
  | [], u, _ => by simp [stopContainers]
  | info :: rest, u, own => by
    obtain ⟨ctr, member, rfl, owned⟩ := own info (by simp)
    obtain ⟨clean, named⟩ := housed.containerID ctr member
    obtain ⟨cleanSandbox, ownSandbox⟩ := housed.ownSandboxOf member owned
    have mine : v.Own id (.removeContainer (trimSpace ctr.1.id)) := by
      rw [clean]
      exact housed.ownContainer member owned
    simp only [stopContainers, clean, cleanSandbox, if_neg named]
    refine ⟨trivial, ?_⟩
    intro stopped t _
    refine ⟨mine, ?_⟩
    intro removed t' _
    refine (stopContainers_own housed fun info later => own info (List.mem_cons_of_mem _ later)).bind ?_
    rintro ⟨sandboxIDs, later⟩ t'' others sandboxID listed
    rcases List.mem_append.mp listed with here | there
    · rw [List.mem_singleton.mp (List.mem_of_mem_filter here)]
      exact ownSandbox
    · exact others sandboxID there

theorem stopSandboxes_own : ∀ {ids : List String} {u : Inventory}, (∀ sandboxID ∈ ids, v.OwnSandbox id sandboxID) →
    Ensures (SparedStep v id) (fun _ => v.Own id) anything (stopSandboxes ids) u
  | [], u, _ => trivial
  | sandboxID :: rest, u, own => by
    rw [stopSandboxes, ensures_bind]
    refine ensures_ask trivial ?_
    intro stopped t _
    rw [ensures_bind]
    refine ensures_ask (own sandboxID (by simp)) ?_
    intro removed t' _
    exact (stopSandboxes_own fun sandboxID later => own sandboxID (List.mem_cons_of_mem _ later)).bind fun _ _ _ => trivial

/-- All that the selector finds was made for the workload. -/
structure Clear (v : Inventory) (metadata : Metadata) (name : String) : Prop where
  containers : ∀ ctr ∈ v.containers, selects (criWorkloadLabelSelector metadata name) ctr.2.labels = true →
    ctr.2.id = workloadId metadata name
  sandboxes : ∀ sandbox ∈ v.sandboxes, selects (criWorkloadLabelSelector metadata name) sandbox.owner.labels = true →
    sandbox.owner.id = workloadId metadata name

theorem Clear.listed (clear : Clear v metadata name) {infos : List ContainerInfo}
    (spared : u.containers ⊆ v.containers)
    (permuted : infos.Perm ((u.containers.filter fun ctr =>
      selects (criWorkloadLabelSelector metadata name) ctr.2.labels).map Prod.fst)) :
    ∀ info ∈ infos, ∃ ctr ∈ v.containers, ctr.1 = info ∧ ctr.2.id = workloadId metadata name := by
  intro info member
  obtain ⟨ctr, found, same⟩ := List.mem_map.mp (permuted.mem_iff.mp member)
  obtain ⟨there, selected⟩ := List.mem_filter.mp found
  exact ⟨ctr, spared there, same, clear.containers ctr (spared there) selected⟩

theorem stop_own (housed : v.Housed) (clear : Clear v metadata name) :
    Ensures (SparedStep v (workloadId metadata name)) (fun _ => v.Own (workloadId metadata name)) anything
      (stop dns metadata name) v := by
  refine ⟨trivial, ?_⟩
  rintro (err | _) u -
  · trivial
  refine ⟨trivial, ?_⟩
  rintro (err | infos) u ⟨spared, ⟨rfl, listed⟩, -⟩
  · trivial
  refine (stopContainers_own housed (clear.listed spared.containers (listed infos rfl))).bind ?_
  rintro ⟨sandboxIDs, _ | err⟩ u own
  swap
  · trivial
  refine ⟨trivial, ?_⟩
  rintro (err | ids) u ⟨spared, ⟨rfl, listed⟩, -⟩
  · trivial
  refine (stopSandboxes_own ?_).bind ?_
  · intro sandboxID member
    rcases List.mem_append.mp (List.mem_eraseDups.mp member) with here | there
    · exact own sandboxID here
    · have found := List.mem_of_mem_filter (List.mem_eraseDups.mp there)
      obtain ⟨sandbox, selected, rfl⟩ := List.mem_map.mp ((listed ids rfl).mem_iff.mp found)
      obtain ⟨there, selected⟩ := List.mem_filter.mp selected
      exact housed.ownSandbox (spared.sandboxes there) (clear.sandboxes sandbox (spared.sandboxes there) selected)
  · rintro (_ | err) t -
    · dsimp only
      split
      · exact ⟨trivial, fun _ _ _ => trivial⟩
      · trivial
    · trivial

theorem scanExisting_own {step : Steps CriSig Inventory} (good : String → Prop) :
    ∀ {infos : List ContainerInfo} {running : Bool} {sandboxID : String} {u : Inventory},
      (∀ info ∈ infos, good (trimSpace info.sandboxID)) → (running = false ∧ sandboxID = "" ∨ good sandboxID) →
        Ensures step anything (fun result _ => ∀ found, result = .ok (true, found) → good found)
          (scanExisting running sandboxID infos) u
  | [], running, sandboxID, u, _, acc => by
    rintro found same
    cases same
    rcases acc with ⟨bad, -⟩ | right
    · cases bad
    · exact right
  | info :: rest, running, sandboxID, u, all, acc => by
    have later : ∀ info ∈ rest, good (trimSpace info.sandboxID) := fun info member =>
      all info (List.mem_cons_of_mem _ member)
    simp only [scanExisting]
    split
    · exact scanExisting_own good later acc
    rw [ensures_bind]
    refine ensures_ask trivial ?_
    rintro (err | _ | _) t -
    · simp
    · refine (Program.Asks.ensures (removeCRIContainer_sparing _) fun _ _ _ => trivial).bind ?_
      rintro (err | _) t' -
      · simp
      · exact scanExisting_own good later acc
    · refine scanExisting_own good later (.inr ?_)
      split
      · exact all info (by simp)
      · rename_i present
        rcases acc with ⟨-, blank⟩ | right
        · exact absurd blank present
        · exact right

theorem prepareExistingCRIWorkload_own (housed : v.Housed) (clear : Clear v metadata w.name) :
    Ensures Inventory.Step anything
      (fun result _ => ∀ sandboxID, result = .ok (some sandboxID) → v.OwnSandbox (workloadId metadata w.name) sandboxID)
      (prepareExistingCRIWorkload dns metadata w) v := by
  rw [prepareExistingCRIWorkload, ensures_bind]
  refine ensures_ask trivial ?_
  rintro (err | infos) u ⟨rfl, listed⟩
  · simp
  have owned (info) (member : info ∈ infos) : u.OwnSandbox (workloadId metadata w.name) (trimSpace info.sandboxID) := by
    obtain ⟨ctr, there, rfl, own⟩ := clear.listed (fun _ member => member) (listed infos rfl) info member
    obtain ⟨clean, sandbox⟩ := housed.ownSandboxOf there own
    rw [clean]
    exact sandbox
  rw [ensures_bind, prepareExistingCRIContainers, ensures_bind]
  refine (scanExisting_own (u.OwnSandbox (workloadId metadata w.name)) owned (.inl ⟨rfl, rfl⟩)).mono ?_
  rintro (err | ⟨_ | _, sandboxID⟩) t own
  · simp
  · dsimp only
    rw [ensures_pure, ensures_bind]
    refine ensures_ask trivial ?_
    rintro (err | ids) t -
    · simp
    refine (Program.Asks.ensures (removeCRISandboxes_sparing _) fun _ _ _ => trivial).bind ?_
    rintro (_ | err) t - <;> simp
  · dsimp only
    refine (Program.Asks.ensures (recordCRIWorkloadDNS_sparing _) fun _ _ _ => trivial).bind ?_
    rintro (err | _) t -
    · simp
    · rintro found same
      cases same
      exact own sandboxID rfl

theorem deploy_own (housed : v.Housed) (clear : Clear v metadata w.name) :
    Ensures Inventory.Step anything
      (fun result _ => ∀ sandboxID, result = .ok (.alreadyRunning sandboxID) →
        v.OwnSandbox (workloadId metadata w.name) sandboxID)
      (deploy dns metadata w) v := by
  rw [deploy, ensures_bind]
  refine ensures_ask trivial ?_
  rintro (err | _) u rfl
  · simp
  dsimp only
  split
  · simp
  refine (prepareExistingCRIWorkload_own housed clear).bind ?_
  rintro (err | _ | sandboxID) t own
  · simp
  · dsimp only
    refine (Ensures.trivially _).bind ?_
    rintro (err | started) t - <;> simp [Except.map]
  · rintro found same
    cases same
    exact own sandboxID rfl

end Isolation

def CriOp.answered : (op : CriOp) → op.Answer → Bool
  | .dial, result => result.isOk
  | .listContainers _, result => result.isOk
  | .listPodSandbox _, result => result.isOk
  | .stopContainer _, result => result.isOk
  | .removeContainer _, result => result.isOk
  | .stopPodSandbox _, result => result.isOk
  | .removePodSandbox _, result => result.isOk
  | _, _ => true

section Removal

variable {dns : Bool} {metadata : Metadata} {name : String}

abbrev AnsweredStep : Steps CriSig Inventory := Assuming Inventory.Step CriOp.answered

variable {v : Inventory}

theorem removed_container {u : Inventory} {id : String} {result : Check}
    (taken : AnsweredStep v (.removeContainer id) result u) : result = .ok () ∧ u = v.removeContainer id := by
  obtain ⟨taken, good⟩ := taken
  have ok := Check.isOk_iff.mp good
  rcases taken with same | ⟨-, failed⟩
  · exact ⟨ok, same⟩
  · exact absurd ok failed

theorem removed_sandbox {u : Inventory} {id : String} {result : Check}
    (taken : AnsweredStep v (.removePodSandbox id) result u) : result = .ok () ∧ u = v.removePodSandbox id := by
  obtain ⟨taken, good⟩ := taken
  have ok := Check.isOk_iff.mp good
  rcases taken with same | ⟨-, failed⟩
  · exact ⟨ok, same⟩
  · exact absurd ok failed

theorem stopContainers_removes : ∀ {infos : List ContainerInfo} {v : Inventory},
    (∀ info ∈ infos, trimSpace info.id = info.id ∧ info.id ≠ "") →
      Ensures AnsweredStep (fun _ op => op.ends = true)
        (fun result u => result.2 = none ∧ u.containers ⊆ v.containers ∧ u.sandboxes = v.sandboxes ∧
          ∀ info ∈ infos, ∀ ctr ∈ u.containers, ctr.1.id ≠ info.id)
        (stopContainers infos) v
  | [], v, _ => by simp [stopContainers]
  | info :: rest, v, clean => by
    obtain ⟨trimmed, named⟩ := clean info (by simp)
    simp only [stopContainers, trimmed, if_neg named]
    refine ⟨rfl, ?_⟩
    rintro stopped u ⟨taken, good⟩
    obtain rfl : u = v := taken
    obtain rfl := Check.isOk_iff.mp good
    refine ⟨rfl, ?_⟩
    intro removed t taken
    obtain ⟨rfl, rfl⟩ := removed_container taken
    refine (stopContainers_removes fun info later => clean info (List.mem_cons_of_mem _ later)).bind ?_
    rintro ⟨sandboxIDs, later⟩ t ⟨none, fewer, same, gone⟩
    refine ⟨none, fun ctr member => List.mem_of_mem_filter (fewer member), same, ?_⟩
    intro other member ctr there
    rcases List.mem_cons.mp member with rfl | further
    · have kept := (List.mem_filter.mp (fewer there)).2
      rw [trimmed] at kept
      simpa using kept
    · exact gone other further ctr there

theorem stopSandboxes_removes : ∀ {ids : List String} {v : Inventory},
    Ensures AnsweredStep (fun _ op => op.ends = true)
      (fun _ u => u.containers ⊆ v.containers ∧ u.sandboxes ⊆ v.sandboxes ∧
        ∀ id ∈ ids, ∀ sandbox ∈ u.sandboxes, sandbox.id ≠ id)
      (stopSandboxes ids) v
  | [], v => by simp [stopSandboxes]
  | id :: rest, v => by
    refine ⟨rfl, ?_⟩
    rintro stopped u ⟨taken, -⟩
    obtain rfl : u = v := taken
    refine ⟨rfl, ?_⟩
    intro removed t taken
    obtain ⟨-, rfl⟩ := removed_sandbox taken
    refine stopSandboxes_removes.bind ?_
    rintro later t ⟨fewer, fewerSandboxes, gone⟩
    refine ⟨fun ctr member => List.mem_of_mem_filter (fewer member),
      fun sandbox member => List.mem_of_mem_filter (fewerSandboxes member), ?_⟩
    intro other member sandbox there
    rcases List.mem_cons.mp member with rfl | further
    · simpa using (List.mem_filter.mp (fewerSandboxes there)).2
    · exact gone other further sandbox there

theorem stop_removes (housed : v.Housed) :
    Ensures AnsweredStep (fun _ op => op.ends = true)
      (fun _ u =>
        (∀ ctr ∈ v.containers, selects (criWorkloadLabelSelector metadata name) ctr.2.labels = true →
          ∀ other ∈ u.containers, other.1.id ≠ ctr.1.id) ∧
        ∀ sandbox ∈ v.sandboxes, selects (criWorkloadLabelSelector metadata name) sandbox.owner.labels = true →
          ∀ other ∈ u.sandboxes, other.id ≠ sandbox.id)
      (stop dns metadata name) v := by
  refine ⟨rfl, ?_⟩
  rintro (err | _) u ⟨taken, good⟩
  · cases good
  obtain rfl : u = v := taken
  refine ⟨rfl, ?_⟩
  rintro (err | infos) t ⟨⟨rfl, listed⟩, good⟩
  · cases good
  have shown {info : ContainerInfo} := (listed infos rfl).mem_iff (a := info)
  refine (stopContainers_removes ?_).bind ?_
  · intro info member
    obtain ⟨ctr, found, rfl⟩ := List.mem_map.mp (shown.mp member)
    exact housed.containerID ctr (List.mem_of_mem_filter found)
  rintro ⟨sandboxIDs, later⟩ u ⟨rfl, fewer, same, gone⟩
  refine ⟨rfl, ?_⟩
  rintro (err | ids) u ⟨⟨rfl, listed⟩, good⟩
  · cases good
  have shownSandboxes {id : String} := (listed ids rfl).mem_iff (a := id)
  refine stopSandboxes_removes.bind ?_
  rintro result last ⟨fewerStill, -, goneSandboxes⟩
  have both : (∀ ctr ∈ t.containers, selects (criWorkloadLabelSelector metadata name) ctr.2.labels = true →
        ∀ other ∈ last.containers, other.1.id ≠ ctr.1.id) ∧
      ∀ sandbox ∈ t.sandboxes, selects (criWorkloadLabelSelector metadata name) sandbox.owner.labels = true →
        ∀ other ∈ last.sandboxes, other.id ≠ sandbox.id := by
    constructor
    · intro ctr member selected other there
      refine gone ctr.1 (shown.mpr ?_) other (fewerStill there)
      exact List.mem_map.mpr ⟨ctr, List.mem_filter.mpr ⟨member, selected⟩, rfl⟩
    · intro sandbox member selected other there
      refine goneSandboxes sandbox.id (List.mem_eraseDups.mpr (List.mem_append_right _ ?_)) other there
      refine List.mem_eraseDups.mpr (List.mem_filter.mpr ⟨shownSandboxes.mpr ?_, ?_⟩)
      · rw [same]
        exact List.mem_map.mpr ⟨sandbox, List.mem_filter.mpr ⟨member, selected⟩, rfl⟩
      · obtain ⟨clean, named⟩ := housed.sandboxID sandbox member
        simpa [clean] using named
  cases result with
  | some err => exact both
  | none =>
    dsimp only
    split
    · exact ⟨rfl, fun answer u taken => by obtain rfl : u = last := taken.1; exact both⟩
    · exact both

end Removal

section Claims

variable {dns : Bool} {metadata : Metadata} {w : Workload} {s : CriState}

def StopIsolated (dns : Bool) (metadata : Metadata) (name : String) (s : CriState) : Prop :=
  ∀ result t, Finishes CriState.machine.Step (stop dns metadata name) s result t →
    (∀ ctr ∈ s.containers, ctr.id ∉ t.containers.map (·.id) → ctr.owner.id = workloadId metadata name) ∧
      ∀ sandbox ∈ s.sandboxes, sandbox.id ∉ t.sandboxes.map (·.id) → sandbox.owner.id = workloadId metadata name

/-- A deploy reports as already running only what was created for its
workload. -/
def DeployIsolated (dns : Bool) (metadata : Metadata) (w : Workload) (s : CriState) : Prop :=
  ∀ sandboxID t, Finishes CriState.machine.Step (deploy dns metadata w) s (.ok (.alreadyRunning sandboxID)) t →
    ∀ ctr ∈ s.containers, ctr.sandboxID = sandboxID → ctr.owner.id = workloadId metadata w.name

def CriState.owners (s : CriState) : List Owner := s.containers.map (·.owner) ++ s.sandboxes.map (·.owner)

/-- Another app of the namespace has a workload of that name here. -/
def Contended (metadata : Metadata) (name : String) (s : CriState) : Prop :=
  ∃ owner ∈ s.owners, namespaceOrDefault owner.metadata.nspace = namespaceOrDefault metadata.nspace ∧
    owner.workload.name = trimSpace name ∧ trimSpace owner.metadata.name ≠ trimSpace metadata.name

theorem Owner.id_of_selects {owner : Owner} {name : String}
    (selected : selects (criWorkloadLabelSelector metadata name) owner.labels = true) :
    owner.id = workloadId metadata name ↔ trimSpace owner.metadata.name = trimSpace metadata.name := by
  obtain ⟨nspace, workload⟩ := selects_iff.mp selected
  simp [Owner.id, workloadId, nspace, workload]

theorem clear_of_uncontended {name : String} (free : ¬ Contended metadata name s) : Clear s.inventory metadata name := by
  have owned (owner) (member : owner ∈ s.owners)
      (selected : selects (criWorkloadLabelSelector metadata name) owner.labels = true) :
      owner.id = workloadId metadata name := by
    rw [Owner.id_of_selects selected]
    by_contra other
    obtain ⟨nspace, workload⟩ := selects_iff.mp selected
    exact free ⟨owner, member, nspace, workload, other⟩
  constructor
  · intro ctr member selected
    obtain ⟨held, there, rfl⟩ := List.mem_map.mp member
    exact owned _ (List.mem_append_left _ (List.mem_map_of_mem there)) selected
  · intro sandbox member selected
    exact owned _ (List.mem_append_right _ (List.mem_map_of_mem member)) selected

theorem stopIsolated_of_clear {name : String} (housed : s.inventory.Housed) (clear : Clear s.inventory metadata name) :
    StopIsolated dns metadata name s := by
  intro result t run
  have ensured : Ensures Inventory.Step (fun _ => s.inventory.Own (workloadId metadata name))
      (fun _ u => True ∧ s.inventory.Spared (workloadId metadata name) u) (stop dns metadata name) s.inventory :=
    Ensures.invariant (fun spared own taken => spared.step own taken) .refl (stop_own housed clear)
  have lifted : Ensures CriState.machine.Step (fun _ => s.inventory.Own (workloadId metadata name))
      (fun _ t => True ∧ s.inventory.Spared (workloadId metadata name) t.inventory) (stop dns metadata name) s :=
    ensured.simulate CriState.inventory_step
  obtain ⟨-, spared⟩ := lifted.finishes run
  constructor
  · intro ctr member removed
    by_contra foreign
    have still := spared.otherContainers (ctr.toContainerInfo, ctr.owner) (List.mem_map_of_mem member) foreign
    obtain ⟨held, there, same⟩ := List.mem_map.mp still
    exact removed (List.mem_map.mpr ⟨held, there, congrArg (fun pair => pair.1.id) same⟩)
  · intro sandbox member removed
    by_contra foreign
    exact removed (List.mem_map_of_mem (spared.otherSandboxes sandbox member foreign))

theorem deployIsolated_of_clear (housed : s.inventory.Housed) (clear : Clear s.inventory metadata w.name) :
    DeployIsolated dns metadata w s := by
  intro sandboxID t run ctr member same
  have lifted : Ensures CriState.machine.Step anything
      (fun result _ => ∀ sandboxID, result = .ok (.alreadyRunning sandboxID) →
        s.inventory.OwnSandbox (workloadId metadata w.name) sandboxID) (deploy dns metadata w) s :=
    (deploy_own housed clear).simulate CriState.inventory_step
  exact (lifted.finishes run sandboxID rfl).2 (ctr.toContainerInfo, ctr.owner) (List.mem_map_of_mem member) same

variable (dns metadata) in
theorem exists_answered_stop (name : String) (housed : s.inventory.Housed) :
    ∃ result t, Finishes CriState.machine.Step (stop dns metadata name) s result t ∧
      (∀ ctr ∈ s.containers, selects (criWorkloadLabelSelector metadata name) ctr.owner.labels = true →
        ctr.id ∉ t.containers.map (·.id)) ∧
      ∀ sandbox ∈ s.sandboxes, selects (criWorkloadLabelSelector metadata name) sandbox.owner.labels = true →
        sandbox.id ∉ t.sandboxes.map (·.id) := by
  have lifted : Ensures (Assuming CriState.machine.Step CriOp.answered) (fun _ op => op.ends = true)
      (fun _ t => _) (stop dns metadata name) s :=
    (stop_removes housed).simulate fun taken => ⟨CriState.inventory_step taken.1, taken.2⟩
  have enabled (s : CriState) (op : CriOp) (ends : op.ends = true) :
      ∃ answer t, Assuming CriState.machine.Step CriOp.answered s op answer t := by
    cases op with
    | containerStatus | podSandboxStatus | makeLogDir | pullImage | runPodSandbox => cases ends
    | containerConfig | createContainer | startContainer | upsertWorkloadA => cases ends
    | _ => exact ⟨_, _, ⟨({} : CriChoice), rfl⟩, rfl⟩
  obtain ⟨result, t, run, containers, sandboxes⟩ := lifted.exists_end enabled
  refine ⟨result, t, run.mono fun taken => taken.1, ?_, ?_⟩
  · intro ctr member selected there
    obtain ⟨held, inside, same⟩ := List.mem_map.mp there
    exact containers (ctr.toContainerInfo, ctr.owner) (List.mem_map_of_mem member) selected
      (held.toContainerInfo, held.owner) (List.mem_map_of_mem inside) same
  · intro sandbox member selected there
    obtain ⟨held, inside, same⟩ := List.mem_map.mp there
    exact sandboxes sandbox member selected held inside same

/-- Stops and deploys of a workload keep to its own containers exactly when
no other app of its namespace has a workload of that name here. -/
theorem isolated_iff_uncontended (created : Created dns s) :
    StopIsolated dns metadata w.name s ∧ DeployIsolated dns metadata w s ↔ ¬ Contended metadata w.name s := by
  have housed := created.housed
  constructor
  · rintro ⟨isolated, -⟩ ⟨owner, member, nspace, workload, other⟩
    have selected : selects (criWorkloadLabelSelector metadata w.name) owner.labels = true :=
      selects_iff.mpr ⟨nspace, workload⟩
    obtain ⟨result, t, run, containers, sandboxes⟩ := exists_answered_stop dns metadata w.name housed
    obtain ⟨ownContainers, ownSandboxes⟩ := isolated result t run
    refine other ((Owner.id_of_selects selected).mp ?_)
    rcases List.mem_append.mp member with inContainer | inSandbox
    · obtain ⟨ctr, there, rfl⟩ := List.mem_map.mp inContainer
      exact ownContainers ctr there (containers ctr there selected)
    · obtain ⟨sandbox, there, rfl⟩ := List.mem_map.mp inSandbox
      exact ownSandboxes sandbox there (sandboxes sandbox there selected)
  · intro free
    have clear := clear_of_uncontended free
    exact ⟨stopIsolated_of_clear housed clear, deployIsolated_of_clear housed clear⟩

end Claims

/-- Every call succeeds; a new object gets this id and a sandbox has an
address. -/
def CriChoice.giving (id : String) : CriChoice := { fresh := id, ip := "10.0.0.7" }

/-- What has come of deploying a workload of an app. -/
def CriState.adding (s : CriState) (app name image : String) : CriState where
  containers := ⟨⟨image, name⟩, ⟨{ name := app }, imageWorkload name image⟩, true⟩ :: s.containers
  sandboxes := ⟨name, ⟨{ name := app }, imageWorkload name image⟩⟩ :: s.sandboxes

/-- The app a runs a workload api, and the app b a workload web. -/
def CriState.deployed : CriState := (CriState.adding {} "a" "api" "nginx").adding "b" "web" "caddy"

theorem created_adding {s : CriState} {app name image : String} (created : Created false s)
    (played : (Program.play CriState.machine (["", "", "", "", "", name, "", image, "", ""].map .giving)
      (deploy false { name := app } (imageWorkload name image)) s).map (fun last => decide (last.1 = s.adding app name image)) =
        some true) :
    Created false (s.adding app name image) := by
  obtain ⟨report, t, run, passed⟩ := exists_finishes_of_play played
  obtain rfl : t = s.adding app name image := of_decide_eq_true passed
  exact .deploy created run.visits

theorem created_deployed : Created false .deployed :=
  created_adding (created_adding .nothing (by decide +kernel)) (by decide +kernel)

theorem isolated_iff_uncontended_deployed :
    StopIsolated false { name := "b" } (imageWorkload "web" "caddy").name .deployed ∧
      DeployIsolated false { name := "b" } (imageWorkload "web" "caddy") .deployed := by
  refine (isolated_iff_uncontended created_deployed).mpr ?_
  rintro ⟨owner, member, -, named, other⟩
  have own : ∀ owner ∈ CriState.deployed.owners, owner.workload.name = trimSpace "web" →
      trimSpace owner.metadata.name = trimSpace "b" := by
    decide +kernel
  exact other (own owner member named)

/-- A stop of the workload api of app b removes the container of the
workload api of app a. -/
theorem stop_removes_other_app :
    ¬ ∀ (dns : Bool) (s : CriState) (metadata : Metadata) (w : Workload), Created dns s →
      StopIsolated dns metadata w.name s ∧ DeployIsolated dns metadata w s := by
  intro isolated
  have played : (Program.play CriState.machine (List.replicate 7 (.giving "")) (stop false { name := "b" } "api")
      .deployed).map (fun last => decide (last.1 = .adding {} "b" "web" "caddy")) = some true := by decide +kernel
  obtain ⟨result, t, run, passed⟩ := exists_finishes_of_play played
  obtain rfl : t = .adding {} "b" "web" "caddy" := of_decide_eq_true passed
  obtain ⟨containers, -⟩ := (isolated false _ { name := "b" } (imageWorkload "api" "nginx") created_deployed).1 result _ run
  have same := containers _ (List.mem_cons_of_mem _ List.mem_cons_self) (by decide +kernel)
  revert same
  decide +kernel

end Orch.Containerd
