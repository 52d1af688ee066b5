import Orch.Raft.Documents
import Orch.Std.Cells
import Mathlib.Data.List.DropRight

namespace Orch

def cmdUpsertNodeCapacity : String := "upsert_node_capacity"

def cmdUpsertDeployApp : String := "upsert_deploy_app"

def cmdDeleteDeployApp : String := "delete_deploy_app"

def cmdUpsertWorkloadAssignment : String := "upsert_workload_assignment"

def cmdUpsertVolumeBinding : String := "upsert_volume_binding"

def Command.type : Command → String
  | .upsertNodeCapacity _ => cmdUpsertNodeCapacity
  | .upsertDeployApp _ => cmdUpsertDeployApp
  | .deleteDeployApp _ => cmdDeleteDeployApp
  | .upsertWorkloadAssignment _ => cmdUpsertWorkloadAssignment
  | .upsertVolumeBinding _ => cmdUpsertVolumeBinding

def Command.decoded : Command → Command
  | .upsertDeployApp app => .upsertDeployApp app.decoded
  | command => command

/-- `encoding/json` as the state machine uses it: the envelopes that the
bytes of a log entry are read as, and the writing and reading of a snapshot. -/
structure Codec (Bytes : Type) where
  isEmpty : Bytes → Bool
  type : Bytes → Option String
  node : Bytes → Option Snapshot
  app : Bytes → Option App
  metadata : Bytes → Option Metadata
  assignment : Bytes → Option Assignment
  binding : Bytes → Option Binding
  snapshot : FsmState → Bytes
  state : Bytes → Option FsmState

namespace FsmState

def obey (f : FsmState) : Command → FsmState
  | .upsertNodeCapacity node => { f with toLedger := f.applyNodeCapacity node }
  | .upsertDeployApp app => { f with toLedger := f.applyDeployApp app }
  | .deleteDeployApp metadata => { f with toLedger := f.applyDeleteDeployApp metadata }
  | .upsertWorkloadAssignment assignment => { f with toLedger := f.applyWorkloadAssignment assignment }
  | .upsertVolumeBinding binding => { f with volumeBindings := f.applyVolumeBinding binding }

def counted (f : FsmState) : FsmState := { f with appliedCommands := f.appliedCommands + 1 }

theorem update_eq_obey (f : FsmState) (command : Command) : f.update command = f.counted.obey command.decoded := by
  cases command <;> rfl

end FsmState

section Payloads

variable {Bytes : Type} (json : Codec Bytes)

/-- The type is read first, then the envelope that belongs to it. -/
def decodeCommand (data : Bytes) : Option Command :=
  match json.type data with
  | none => none
  | some type =>
    if type = cmdUpsertNodeCapacity then (json.node data).map .upsertNodeCapacity
    else if type = cmdUpsertDeployApp then (json.app data).map .upsertDeployApp
    else if type = cmdDeleteDeployApp then (json.metadata data).map .deleteDeployApp
    else if type = cmdUpsertWorkloadAssignment then (json.assignment data).map .upsertWorkloadAssignment
    else if type = cmdUpsertVolumeBinding then (json.binding data).map .upsertVolumeBinding
    else none

namespace FsmState

def applyPayloadLocked (f : FsmState) (data : Bytes) : FsmState :=
  match decodeCommand json data with
  | none => f
  | some command => f.obey command

/-- An entry of the Raft log, with the value that is returned for it. -/
def updateEntry (f : FsmState) (entry : Bytes) : FsmState × Nat :=
  if json.isEmpty entry then (f.counted, f.counted.appliedCommands)
  else
    let after := f.counted.applyPayloadLocked json entry
    (after, after.appliedCommands)

def applyCommandPayload (f : FsmState) (data : Bytes) : FsmState :=
  if json.isEmpty data then f.counted else f.counted.applyPayloadLocked json data

def replay (f : FsmState) (entries : List Bytes) : FsmState :=
  entries.foldl (fun f entry => (f.updateEntry json entry).1) f

def saveSnapshot (f : FsmState) : Bytes := json.snapshot f

/-- What a state machine becomes when a snapshot is read into it. -/
def recoverFromSnapshot (data : Bytes) : Except Failure FsmState :=
  if json.isEmpty data then .ok {}
  else
    match json.state data with
    | none => .error (.wrapf (.errorf "invalid json") "fsm restore unmarshal")
    | some state => .ok state

end FsmState

end Payloads

/-- The maps of the state. An app's document and its revisions go together. -/
inductive Region where
  | nodeCapacity
  | deployApps
  | assignments
  | volumeBindings
deriving DecidableEq

/-- What a map holds under a key. -/
inductive Cell where
  | node (snapshot : Option Snapshot)
  | app (desired : Option App) (revisions : List DeployAppRevision)
  | assignment (record : Option Assignment)
  | binding (record : Option Binding)

def FsmState.cell (f : FsmState) : Region × String → Cell
  | (.nodeCapacity, key) => .node (f.nodeCapacity.lookup key)
  | (.deployApps, key) => .app (f.deployApps.lookup key) ((f.deployAppRevisions.lookup key).getD [])
  | (.assignments, key) => .assignment (f.assignments.lookup key)
  | (.volumeBindings, key) => .binding (f.volumeBindings.lookup key)

/-- Maps have no order: two states are the same if they hold the same. -/
structure FsmState.Same (f g : FsmState) : Prop where
  counters : f.appliedCommands = g.appliedCommands
  cells : f.cell = g.cell

/-- The map and the key a command is about. A command without the names it
needs is about nothing. -/
def Command.address : Command → Option (Region × String)
  | .upsertNodeCapacity node =>
    if trimSpace node.nodeID = "" then none else some (.nodeCapacity, trimSpace node.nodeID)
  | .upsertDeployApp app =>
    if trimSpace app.metadata.name = "" then none else some (.deployApps, deployAppMapKey app.metadata)
  | .deleteDeployApp metadata =>
    if trimSpace metadata.name = "" then none else some (.deployApps, deployAppMapKey metadata)
  | .upsertWorkloadAssignment assignment => (normalizeAssignment assignment).map fun a => (.assignments, a.key)
  | .upsertVolumeBinding binding => (normalizeVolumeBinding binding).map fun b => (.volumeBindings, b.key)

def App.revision (app : App) : DeployAppRevision := ⟨appGeneration app, app⟩

/-- A document that is superseded joins the revisions, unless the last of
them has its generation. -/
def joinRevisions (revisions : List DeployAppRevision) (app : App) : List DeployAppRevision :=
  if revisions.getLast?.map DeployAppRevision.generation = some (appGeneration app) then revisions
  else (revisions ++ [app.revision]).rtake maxDeployAppRevisions

def Command.rewrite : Command → Cell → Cell
  | .upsertNodeCapacity node, _ => .node (some node)
  | .upsertDeployApp app, .app (some current) revisions =>
    .app (some app) (if appGeneration current ≠ appGeneration app then joinRevisions revisions current else revisions)
  | .upsertDeployApp app, .app none revisions => .app (some app) revisions
  | .upsertDeployApp _, cell => cell
  | .deleteDeployApp _, _ => .app none []
  | .upsertWorkloadAssignment assignment, _ => .assignment (some assignment.trimmed)
  | .upsertVolumeBinding binding, _ => .binding (some binding.trimmed)

theorem Table.lookup_insert {β : Type} (m : Table β) (key other : String) (value : β) :
    (m.insert key value).lookup other = if key = other then some value else m.lookup other := by
  split
  · rename_i same
    rw [same, AList.lookup_insert]
  · rename_i apart
    rw [AList.lookup_insert_ne (Ne.symm apart)]

theorem Table.lookup_erase {β : Type} (m : Table β) (key other : String) :
    (m.erase key).lookup other = if key = other then none else m.lookup other := by
  split
  · rename_i same
    rw [same, AList.lookup_erase]
  · rename_i apart
    rw [AList.lookup_erase_ne (Ne.symm apart)]

theorem normalizeAssignment_some {a b : Assignment} (kept : normalizeAssignment a = some b) : b = a.trimmed := by
  unfold normalizeAssignment at kept
  split at kept
  · cases kept
  · exact (Option.some.inj kept).symm

theorem normalizeVolumeBinding_some {a b : Binding} (kept : normalizeVolumeBinding a = some b) : b = a.trimmed := by
  unfold normalizeVolumeBinding at kept
  split at kept
  · cases kept
  · exact (Option.some.inj kept).symm

theorem Ledger.appendDeployAppRevision_lookup (f : Ledger) (key other : String) (app : App) :
    ((f.appendDeployAppRevision key app).deployAppRevisions.lookup other).getD [] =
      if key = other then joinRevisions ((f.deployAppRevisions.lookup key).getD []) app
      else (f.deployAppRevisions.lookup other).getD [] := by
  simp only [appendDeployAppRevision, joinRevisions, trimSpace_appGeneration, if_neg (appGeneration_ne_empty app)]
  split
  · split
    · rename_i same
      rw [same]
    · rfl
  · rw [Table.lookup_insert]
    split <;> rfl

namespace FsmState

variable {f g : FsmState}

theorem obey_cell (f : FsmState) (command : Command) :
    (f.obey command).cell = Cells.obey Command.address Command.rewrite f.cell command := by
  funext ⟨region, key⟩
  cases command with
  | upsertNodeCapacity node =>
    simp only [obey, Ledger.applyNodeCapacity, Cells.obey, Command.address, Command.rewrite]
    split
    · simp
    · cases region <;> simp [cell, Table.lookup_insert]
      split <;> rfl
  | upsertDeployApp app =>
    simp only [obey, Ledger.applyDeployApp, Cells.obey, Command.address]
    split
    · simp
    -- Only the revisions depend on what was desired before.
    cases region with
    | volumeBindings => simp [cell]
    | nodeCapacity | assignments =>
      simp only [cell, Option.some.injEq, Prod.mk.injEq, reduceCtorEq, false_and, if_false]
      cases f.deployApps.lookup (deployAppMapKey app.metadata) with
      | none => rfl
      | some current =>
        dsimp only
        split
        · obtain ⟨revisions, joined⟩ := Ledger.appendDeployAppRevision_eq f.toLedger (deployAppMapKey app.metadata) current
          rw [joined]
        · rfl
    | deployApps =>
      simp only [cell, Table.lookup_insert, Option.some.injEq, Prod.mk.injEq, true_and]
      by_cases same : deployAppMapKey app.metadata = key
      · subst same
        cases found : f.deployApps.lookup (deployAppMapKey app.metadata) with
        | none => simp [Command.rewrite]
        | some current =>
          simp only [if_true, Command.rewrite]
          split
          · rw [Ledger.appendDeployAppRevision_lookup, if_pos rfl]
          · rfl
      · simp only [if_neg same]
        cases found : f.deployApps.lookup (deployAppMapKey app.metadata) with
        | none => rfl
        | some current =>
          dsimp only
          split
          · rw [Ledger.appendDeployAppRevision_lookup, if_neg same]
            obtain ⟨revisions, joined⟩ := Ledger.appendDeployAppRevision_eq f.toLedger (deployAppMapKey app.metadata) current
            rw [joined]
          · rfl
  | deleteDeployApp metadata =>
    simp only [obey, Ledger.applyDeleteDeployApp, Cells.obey, Command.address, Command.rewrite]
    split
    · simp
    · cases region <;> simp [cell, Table.lookup_erase]
      split <;> rfl
  | upsertWorkloadAssignment assignment =>
    simp only [obey, Ledger.applyWorkloadAssignment, Cells.obey, Command.address, Command.rewrite]
    split
    · simp [*]
    · rename_i kept
      obtain rfl := normalizeAssignment_some kept
      cases region <;> simp [cell, Table.lookup_insert, kept]
      split <;> rfl
  | upsertVolumeBinding binding =>
    simp only [obey, applyVolumeBinding, Cells.obey, Command.address, Command.rewrite]
    split
    · simp [*]
    · rename_i kept
      obtain rfl := normalizeVolumeBinding_some kept
      cases region <;> simp [cell, Table.lookup_insert, kept]
      split <;> rfl

theorem obey_appliedCommands (f : FsmState) (command : Command) :
    (f.obey command).appliedCommands = f.appliedCommands := by
  cases command <;> rfl

theorem obey_unaddressed (f : FsmState) {command : Command} (nothing : command.address = none) : f.obey command = f := by
  cases command with
  | upsertNodeCapacity node =>
    simp only [Command.address, ite_eq_left_iff, reduceCtorEq, imp_false, not_not] at nothing
    simp [obey, Ledger.applyNodeCapacity, nothing]
  | upsertDeployApp app =>
    simp only [Command.address, ite_eq_left_iff, reduceCtorEq, imp_false, not_not] at nothing
    simp [obey, Ledger.applyDeployApp, nothing]
  | deleteDeployApp metadata =>
    simp only [Command.address, ite_eq_left_iff, reduceCtorEq, imp_false, not_not] at nothing
    simp [obey, Ledger.applyDeleteDeployApp, nothing]
  | upsertWorkloadAssignment assignment =>
    simp only [Command.address, Option.map_eq_none_iff] at nothing
    simp [obey, Ledger.applyWorkloadAssignment, nothing]
  | upsertVolumeBinding binding =>
    simp only [Command.address, Option.map_eq_none_iff] at nothing
    simp [obey, applyVolumeBinding, nothing]

end FsmState

section Payloads

variable {Bytes : Type} (json : Codec Bytes)

/-- The map and the key that an entry is about, if it can be read. -/
def entryAddress (data : Bytes) : Option (Region × String) :=
  if json.isEmpty data then none else (decodeCommand json data).bind Command.address

def entryRewrite (data : Bytes) (cell : Cell) : Cell :=
  match decodeCommand json data with
  | none => cell
  | some command => command.rewrite cell

namespace FsmState

theorem applyCommandPayload_cell (f : FsmState) (data : Bytes) :
    (f.applyCommandPayload json data).cell = Cells.obey (entryAddress json) (entryRewrite json) f.cell data := by
  have counting (g : FsmState) : g.counted.cell = g.cell := rfl
  by_cases empty : json.isEmpty data = true
  · rw [applyCommandPayload, if_pos empty, Cells.obey_none (by simp [entryAddress, empty]), counting]
  rw [applyCommandPayload, if_neg empty, applyPayloadLocked]
  cases read : decodeCommand json data with
  | none =>
    rw [Cells.obey_none (by simp [entryAddress, read])]
    exact counting f
  | some command =>
    rw [obey_cell, counting]
    funext place
    simp only [Cells.obey, entryAddress, entryRewrite, if_neg empty, read, Option.bind_some]

theorem applyCommandPayload_appliedCommands (f : FsmState) (data : Bytes) :
    (f.applyCommandPayload json data).appliedCommands = f.appliedCommands + 1 := by
  unfold applyCommandPayload applyPayloadLocked
  split
  · rfl
  cases decodeCommand json data with
  | none => rfl
  | some command => exact obey_appliedCommands f.counted command

variable {json}

theorem applyCommandPayload_unaddressed {f : FsmState} {data : Bytes} (nothing : entryAddress json data = none) :
    f.applyCommandPayload json data = f.counted := by
  unfold applyCommandPayload applyPayloadLocked
  split
  · rfl
  rename_i filled
  cases read : decodeCommand json data with
  | none => rfl
  | some command =>
    simp only [entryAddress, if_neg filled, read, Option.bind_some] at nothing
    exact obey_unaddressed f.counted nothing

theorem applyCommandPayload_comm {f : FsmState} {a b : Bytes}
    (apart : entryAddress json a = entryAddress json b → entryAddress json a = none) :
    ((f.applyCommandPayload json a).applyCommandPayload json b).Same
      ((f.applyCommandPayload json b).applyCommandPayload json a) := by
  constructor
  · simp only [applyCommandPayload_appliedCommands]
  · simp only [applyCommandPayload_cell]
    exact Cells.obey_comm apart

theorem updateEntry_fst (f : FsmState) (entry : Bytes) :
    (f.updateEntry json entry).1 = f.applyCommandPayload json entry := by
  unfold updateEntry applyCommandPayload
  split <;> rfl

theorem Same.replay {f g : FsmState} (same : f.Same g) (entries : List Bytes) :
    (f.replay json entries).Same (g.replay json entries) := by
  induction entries generalizing f g with
  | nil => exact same
  | cons entry rest ih =>
    refine ih ⟨?_, ?_⟩
    · simp only [updateEntry_fst, applyCommandPayload_appliedCommands, same.counters]
    · simp only [updateEntry_fst, applyCommandPayload_cell, same.cells]

theorem replay_append (f : FsmState) (before after : List Bytes) :
    f.replay json (before ++ after) = (f.replay json before).replay json after := by
  simp only [FsmState.replay, List.foldl_append]

theorem replay_cell (f : FsmState) (entries : List Bytes) :
    (f.replay json entries).cell = entries.foldl (Cells.obey (entryAddress json) (entryRewrite json)) f.cell := by
  induction entries generalizing f with
  | nil => rfl
  | cons entry rest ih =>
    refine (ih _).trans ?_
    simp only [updateEntry_fst, applyCommandPayload_cell, List.foldl_cons]

end FsmState

/-- What has become of a record depends on the entries about it only, in their
order. No other entry has a part in it, be it of another app or unreadable. -/
theorem record_follows_own_entries (f : FsmState) (entries : List Bytes) (place : Region × String) :
    (f.replay json entries).cell place =
      (f.replay json (entries.filter fun entry => entryAddress json entry = some place)).cell place := by
  rw [FsmState.replay_cell, FsmState.replay_cell]
  exact Cells.foldl_obey entries rfl

/-- What is in a map was read out of an entry, and trimmed. -/
def Codec.HasRead : Cell → Prop
  | .node snapshot => ∀ node ∈ snapshot, ∃ data, json.node data = some node
  | .app desired revisions => (∀ app ∈ desired, ∃ data, json.app data = some app) ∧
    ∀ revision ∈ revisions, ∃ data app, json.app data = some app ∧ revision = app.revision
  | .assignment record => ∀ a ∈ record, ∃ data read, json.assignment data = some read ∧ a = read.trimmed
  | .binding record => ∀ b ∈ record, ∃ data read, json.binding data = some read ∧ b = read.trimmed

/-- What is asked of `encoding/json`: a state of records that it has decoded
itself is read back as it was written. -/
structure Codec.RoundTrips : Prop where
  written : ∀ f, json.isEmpty (json.snapshot f) = false
  snapshot : ∀ f : FsmState, (∀ place, json.HasRead (f.cell place)) → ∃ g, json.state (json.snapshot f) = some g ∧ g.Same f

/-- The record of a command is what its envelope is read as. -/
def Codec.Carries (data : Bytes) : Command → Prop
  | .upsertNodeCapacity node => json.node data = some node
  | .upsertDeployApp app => json.app data = some app
  | .deleteDeployApp metadata => json.metadata data = some metadata
  | .upsertWorkloadAssignment assignment => json.assignment data = some assignment
  | .upsertVolumeBinding binding => json.binding data = some binding

variable {json}

theorem decodeCommand_carries {data : Bytes} {command : Command} (read : decodeCommand json data = some command) :
    json.Carries data command := by
  unfold decodeCommand at read
  split at read
  · cases read
  repeat' split at read
  all_goals first
    | cases read
    | obtain ⟨record, found, rfl⟩ := Option.map_eq_some_iff.mp read
      exact found

theorem Codec.HasRead.joinRevisions {desired : Option App} {revisions : List DeployAppRevision} {current : App}
    (before : json.HasRead (.app desired revisions)) {data : Bytes} (read : json.app data = some current) :
    ∀ revision ∈ joinRevisions revisions current, ∃ data app, json.app data = some app ∧ revision = app.revision := by
  intro revision member
  unfold Orch.joinRevisions at member
  split at member
  · exact before.2 revision member
  · rcases List.mem_append.mp (List.mem_of_mem_drop member) with old | new
    · exact before.2 revision old
    · exact ⟨data, current, read, List.mem_singleton.mp new⟩

theorem entryRewrite_hasRead {data : Bytes} {cell : Cell} (before : json.HasRead cell) :
    json.HasRead (entryRewrite json data cell) := by
  unfold entryRewrite
  split
  · exact before
  rename_i command read
  have found := decodeCommand_carries read
  cases command with
  | upsertNodeCapacity node =>
    rintro _ ⟨⟩
    exact ⟨data, found⟩
  | upsertDeployApp app =>
    cases cell with
    | app desired revisions =>
      cases desired with
      | none => exact ⟨by rintro _ ⟨⟩; exact ⟨data, found⟩, before.2⟩
      | some current =>
        refine ⟨by rintro _ ⟨⟩; exact ⟨data, found⟩, ?_⟩
        obtain ⟨earlier, known⟩ := before.1 current rfl
        split
        · exact before.joinRevisions known
        · exact before.2
    | _ => exact before
  | deleteDeployApp metadata => exact ⟨by simp, by simp⟩
  | upsertWorkloadAssignment assignment =>
    rintro _ ⟨⟩
    exact ⟨data, assignment, found, rfl⟩
  | upsertVolumeBinding binding =>
    rintro _ ⟨⟩
    exact ⟨data, binding, found, rfl⟩

/-- A replica holds only what it has read. -/
theorem FsmState.replay_hasRead (entries : List Bytes) (place : Region × String) :
    json.HasRead ((FsmState.replay json {} entries).cell place) := by
  have kept (data : Bytes) (cell : Cell) : json.HasRead cell → json.HasRead (entryRewrite json data cell) := entryRewrite_hasRead
  rw [replay_cell]
  refine Cells.foldl_keeps kept entries ?_ place
  rintro ⟨region, key⟩
  cases region <;> simp [cell, Codec.HasRead]

/-- An entry that is read as a command does what the command does. -/
theorem FsmState.updateEntry_command {f : FsmState} {data : Bytes} {command : Command} (filled : json.isEmpty data = false)
    (read : decodeCommand json data = some command.decoded) : (f.updateEntry json data).1 = f.update command := by
  simp only [updateEntry, filled, Bool.false_eq_true, if_false, applyPayloadLocked, read]
  exact (update_eq_obey f command).symm

variable (faithful : json.RoundTrips)
include faithful

theorem recoverFromSnapshot_replay (before after : List Bytes) :
    ∃ restored, FsmState.recoverFromSnapshot json (FsmState.saveSnapshot json (FsmState.replay json {} before)) = .ok restored ∧
      (restored.replay json after).Same (FsmState.replay json {} (before ++ after)) := by
  obtain ⟨restored, again, same⟩ := faithful.snapshot _ (FsmState.replay_hasRead before)
  refine ⟨restored, ?_, ?_⟩
  · simp only [FsmState.recoverFromSnapshot, FsmState.saveSnapshot, faithful.written, Bool.false_eq_true, if_false, again]
  · rw [FsmState.replay_append]
    exact same.replay _

/-- Replicas agree: a restored snapshot stands for the entries before it, an
entry does the same with and without the log, entries about different things
commute, and an entry that is empty, unreadable or without names only counts. -/
theorem snapshot_and_replay_agree :
    (∀ before after : List Bytes, ∃ restored,
      FsmState.recoverFromSnapshot json (FsmState.saveSnapshot json (FsmState.replay json {} before)) = .ok restored ∧
        (restored.replay json after).Same (FsmState.replay json {} (before ++ after))) ∧
    (∀ (f : FsmState) (data : Bytes), (f.updateEntry json data).1 = f.applyCommandPayload json data) ∧
    (∀ (f : FsmState) (a b : Bytes), (entryAddress json a = entryAddress json b → entryAddress json a = none) →
      (f.replay json [a, b]).Same (f.replay json [b, a])) ∧
    ∀ (f : FsmState) (data : Bytes), (json.isEmpty data = true ∨ decodeCommand json data = none ∨
        ∃ command, decodeCommand json data = some command ∧ command.address = none) →
      f.replay json [data] = f.counted := by
  refine ⟨recoverFromSnapshot_replay faithful, FsmState.updateEntry_fst, fun f a b apart => ?_, fun f data idle => ?_⟩
  · simp only [FsmState.replay, List.foldl_cons, List.foldl_nil, FsmState.updateEntry_fst]
    exact FsmState.applyCommandPayload_comm apart
  · simp only [FsmState.replay, List.foldl_cons, List.foldl_nil, FsmState.updateEntry_fst]
    refine FsmState.applyCommandPayload_unaddressed ?_
    rcases idle with empty | unread | ⟨command, read, nothing⟩
    · simp [entryAddress, empty]
    · simp [entryAddress, unread]
    · simp [entryAddress, read, nothing]

end Payloads

/-- Bytes that stand for what they were written from. -/
inductive Wire where
  | empty
  | garbage
  | command (command : Command)
  | state (f : FsmState)

def wireCodec : Codec Wire where
  isEmpty
    | .empty => true
    | _ => false
  type
    | .command command => some command.type
    | _ => none
  node
    | .command (.upsertNodeCapacity node) => some node
    | _ => none
  app
    | .command (.upsertDeployApp app) => some app.decoded
    | _ => none
  metadata
    | .command (.deleteDeployApp metadata) => some metadata
    | _ => none
  assignment
    | .command (.upsertWorkloadAssignment assignment) => some assignment
    | _ => none
  binding
    | .command (.upsertVolumeBinding binding) => some binding
    | _ => none
  snapshot := .state
  state
    | .state f => some f
    | _ => none

theorem wireCodec_roundTrips : wireCodec.RoundTrips where
  written _ := rfl
  snapshot f _ := ⟨f, rfl, rfl, rfl⟩

/-- A snapshot between two versions of an app keeps the one before it. -/
theorem snapshot_and_replay_agree_rollout :
    ∃ restored, FsmState.recoverFromSnapshot wireCodec
        (FsmState.saveSnapshot wireCodec (FsmState.replay wireCodec {} [.command (.upsertDeployApp (imageApp "web" "api" "nginx"))])) =
          .ok restored ∧
      (restored.replay wireCodec [.command (.upsertDeployApp (imageApp "web" "api" "caddy"))]).Same
        (FsmState.replay wireCodec {} [.command (.upsertDeployApp (imageApp "web" "api" "nginx")),
          .command (.upsertDeployApp (imageApp "web" "api" "caddy"))]) :=
  (snapshot_and_replay_agree wireCodec_roundTrips).1 [.command (.upsertDeployApp (imageApp "web" "api" "nginx"))]
    [.command (.upsertDeployApp (imageApp "web" "api" "caddy"))]

end Orch
