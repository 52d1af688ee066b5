import Orch.Raft.Payload

namespace Orch

/-- An assignment with all it is sent and stored with. The zero time is 0. -/
structure AssignmentEntry where
  key : String := ""
  metadata : Metadata
  workload : String
  node : String := ""
  address : String := ""
  runtime : String := ""
  artifact : String := ""
  status : String := ""
  generation : String := ""
  error : String := ""
  updatedAt : Nat := 0
deriving DecidableEq, Repr

/-- A volume binding with all it is sent and stored with. -/
structure BindingEntry where
  key : String := ""
  metadata : Metadata
  volume : String
  workload : String
  target : String := ""
  node : String := ""
  runtime : String := ""
  source : String := ""
  persistent : Bool := false
  sizeBytes : Int := 0
  status : String := ""
  generation : String := ""
  error : String := ""
  updatedAt : Nat := 0
deriving DecidableEq, Repr

def Metadata.trimmed (m : Metadata) : Metadata :=
  { m with name := trimSpace m.name, nspace := trimSpace m.nspace }

namespace AssignmentEntry

def trimmed (a : AssignmentEntry) : AssignmentEntry :=
  { a with
    key := trimSpace a.key, metadata := a.metadata.trimmed, workload := trimSpace a.workload
    node := trimSpace a.node, address := trimSpace a.address, status := trimSpace a.status }

def keyed (a : AssignmentEntry) : AssignmentEntry :=
  { a with key := if a.key = "" then assignmentKey a.metadata a.workload else a.key }

def normalize (a : AssignmentEntry) : Option AssignmentEntry :=
  if a.trimmed.metadata.name = "" ∨ a.trimmed.workload = "" then none
  else if a.trimmed.keyed.key = "" then none
  else some a.trimmed.keyed

end AssignmentEntry

namespace BindingEntry

def trimmed (b : BindingEntry) : BindingEntry :=
  { b with
    key := trimSpace b.key, metadata := b.metadata.trimmed, volume := trimSpace b.volume
    workload := trimSpace b.workload, target := trimSpace b.target, node := trimSpace b.node
    source := trimSpace b.source, status := trimSpace b.status }

def keyed (b : BindingEntry) : BindingEntry :=
  { b with key := if b.key = "" then bindingKey b.metadata b.workload b.volume else b.key }

def normalize (b : BindingEntry) : Option BindingEntry :=
  if b.trimmed.metadata.name = "" ∨ b.trimmed.workload = "" ∨ b.trimmed.volume = "" then none
  else if b.trimmed.keyed.key = "" then none
  else some b.trimmed.keyed

end BindingEntry

namespace RaftService

/-- The record that is proposed for an assignment, unless it is refused. -/
def applyWorkloadAssignment (now : Nat) (assignment : AssignmentEntry) : Except Failure AssignmentEntry :=
  let a := assignment.trimmed
  if a.metadata.name = "" then .error (.errorf "assignment metadata.name is required")
  else if a.workload = "" then .error (.errorf "assignment workload is required")
  else if a.keyed.key = "" then .error (.errorf "assignment key is required")
  else if a.updatedAt = 0 then .ok { a.keyed with updatedAt := now }
  else .ok a.keyed

def applyVolumeBinding (now : Nat) (binding : BindingEntry) : Except Failure BindingEntry :=
  let b := binding.trimmed
  if b.metadata.name = "" then .error (.errorf "volume binding metadata.name is required")
  else if b.workload = "" then .error (.errorf "volume binding workload is required")
  else if b.volume = "" then .error (.errorf "volume binding volume is required")
  else if b.keyed.key = "" then .error (.errorf "volume binding key is required")
  else if b.updatedAt = 0 then .ok { b.keyed with updatedAt := now }
  else .ok b.keyed

end RaftService

section Filing

variable {ρ : Type} {key : ρ → String} {m : Table ρ}

def Table.file (key : ρ → String) (m : Table ρ) : Option ρ → Table ρ
  | none => m
  | some record => m.insert (key record) record

def Table.Filed (key : ρ → String) (m : Table ρ) : Prop := ∀ k record, m.lookup k = some record → key record = k

theorem Table.Filed.file (filed : Table.Filed key m) (record : Option ρ) : Table.Filed key (Table.file key m record) := by
  cases record with
  | none => exact filed
  | some record =>
    intro k found there
    rw [Table.file, Table.lookup_insert] at there
    split at there
    · rename_i here
      cases there
      exact here
    · exact filed k found there

theorem Table.Filed.congr {n : Table ρ} (filed : Table.Filed key m) (same : ∀ k, n.lookup k = m.lookup k) :
    Table.Filed key n := by
  intro k record there
  rw [same] at there
  exact filed k record there

end Filing

/-- The records of the replicated state, in full. -/
structure RecordState where
  assignments : Table AssignmentEntry := ∅
  volumeBindings : Table BindingEntry := ∅

/-- `encoding/json` for the records: the envelopes that log entries are written
as and read as, and snapshots. -/
structure EntryCodec (Bytes : Type) where
  isEmpty : Bytes → Bool
  type : Bytes → Option String
  assignment : Bytes → Option AssignmentEntry
  binding : Bytes → Option BindingEntry
  marshalAssignment : AssignmentEntry → Bytes
  marshalBinding : BindingEntry → Bytes
  snapshot : RecordState → Bytes
  state : Bytes → Option RecordState

namespace RecordState

def applyWorkloadAssignment (s : RecordState) (assignment : AssignmentEntry) : RecordState :=
  { s with assignments := Table.file AssignmentEntry.key s.assignments assignment.normalize }

def applyVolumeBinding (s : RecordState) (binding : BindingEntry) : RecordState :=
  { s with volumeBindings := Table.file BindingEntry.key s.volumeBindings binding.normalize }

def getAssignment (s : RecordState) (key : String) : Option AssignmentEntry :=
  s.assignments.lookup (trimSpace key)

def getVolumeBinding (s : RecordState) (key : String) : Option BindingEntry :=
  s.volumeBindings.lookup (trimSpace key)

section Bytes

variable {Bytes : Type} (json : EntryCodec Bytes)

/-- One entry of the log. Entries of other types are about other maps. -/
def update (s : RecordState) (data : Bytes) : RecordState :=
  if json.isEmpty data then s
  else
    match json.type data with
    | none => s
    | some type =>
      if type = cmdUpsertWorkloadAssignment then
        match json.assignment data with
        | none => s
        | some assignment => s.applyWorkloadAssignment assignment
      else if type = cmdUpsertVolumeBinding then
        match json.binding data with
        | none => s
        | some binding => s.applyVolumeBinding binding
      else s

/-- The states of a replica: entries of any content are applied to it, and it
may be restored from a snapshot. -/
inductive Reachable : RecordState → Prop
  | start : Reachable {}
  | entry {s : RecordState} (data : Bytes) : Reachable s → Reachable (s.update json data)
  | restored {s t : RecordState} : Reachable s → json.state (json.snapshot s) = some t → Reachable t

end Bytes

end RecordState

/-- Records are read back as they were written. -/
structure EntryCodec.RoundTrips {Bytes : Type} (json : EntryCodec Bytes) : Prop where
  filledAssignment : ∀ a, json.isEmpty (json.marshalAssignment a) = false
  filledBinding : ∀ b, json.isEmpty (json.marshalBinding b) = false
  assignmentType : ∀ a, json.type (json.marshalAssignment a) = some cmdUpsertWorkloadAssignment
  bindingType : ∀ b, json.type (json.marshalBinding b) = some cmdUpsertVolumeBinding
  assignment : ∀ a, json.assignment (json.marshalAssignment a) = some a
  binding : ∀ b, json.binding (json.marshalBinding b) = some b
  snapshot : ∀ s t, json.state (json.snapshot s) = some t →
    (∀ key, t.assignments.lookup key = s.assignments.lookup key) ∧
      ∀ key, t.volumeBindings.lookup key = s.volumeBindings.lookup key

section Normal

@[simp] theorem Metadata.trimmed_trimmed (m : Metadata) : m.trimmed.trimmed = m.trimmed := by
  simp [trimmed]

theorem AssignmentEntry.trimSpace_key (a : AssignmentEntry) : trimSpace a.trimmed.keyed.key = a.trimmed.keyed.key := by
  simp only [keyed]
  split
  · exact trimSpace_assignmentKey ..
  · exact trimSpace_trimSpace a.key

theorem BindingEntry.trimSpace_key (b : BindingEntry) : trimSpace b.trimmed.keyed.key = b.trimmed.keyed.key := by
  simp only [keyed]
  split
  · exact trimSpace_bindingKey ..
  · exact trimSpace_trimSpace b.key

/-- A record as it is stored: trimmed, with all its names and a key. -/
structure AssignmentEntry.Normal (a : AssignmentEntry) : Prop where
  trimmed : a.trimmed = a
  named : a.metadata.name ≠ ""
  present : a.workload ≠ ""
  key : a.key ≠ ""

structure BindingEntry.Normal (b : BindingEntry) : Prop where
  trimmed : b.trimmed = b
  named : b.metadata.name ≠ ""
  attached : b.workload ≠ ""
  present : b.volume ≠ ""
  key : b.key ≠ ""

variable {a : AssignmentEntry}

theorem AssignmentEntry.Normal.trimSpace_key (normal : a.Normal) : trimSpace a.key = a.key :=
  congrArg AssignmentEntry.key normal.trimmed

variable {b : BindingEntry}

theorem BindingEntry.Normal.trimSpace_key (normal : b.Normal) : trimSpace b.key = b.key :=
  congrArg BindingEntry.key normal.trimmed

theorem AssignmentEntry.Normal.normalize (normal : a.Normal) : a.normalize = some a := by
  have same : a.keyed = a := by rw [keyed, if_neg normal.key]
  rw [AssignmentEntry.normalize, normal.trimmed, same, if_neg (by simp [normal.named, normal.present]), if_neg normal.key]

theorem BindingEntry.Normal.normalize (normal : b.Normal) : b.normalize = some b := by
  have same : b.keyed = b := by rw [keyed, if_neg normal.key]
  rw [BindingEntry.normalize, normal.trimmed, same, if_neg (by simp [normal.named, normal.attached, normal.present]),
    if_neg normal.key]

theorem AssignmentEntry.normal_keyed (time : Nat) (named : a.trimmed.metadata.name ≠ "")
    (present : a.trimmed.workload ≠ "") (key : a.trimmed.keyed.key ≠ "") :
    AssignmentEntry.Normal { a.trimmed.keyed with updatedAt := time } := by
  refine ⟨?_, named, present, key⟩
  have trims := a.trimSpace_key
  simp only [keyed, trimmed] at trims
  simp only [trimmed, keyed, Metadata.trimmed_trimmed, trimSpace_trimSpace, trims]

theorem BindingEntry.normal_keyed (time : Nat) (named : b.trimmed.metadata.name ≠ "")
    (attached : b.trimmed.workload ≠ "") (present : b.trimmed.volume ≠ "") (key : b.trimmed.keyed.key ≠ "") :
    BindingEntry.Normal { b.trimmed.keyed with updatedAt := time } := by
  refine ⟨?_, named, attached, present, key⟩
  have trims := b.trimSpace_key
  simp only [keyed, trimmed] at trims
  simp only [trimmed, keyed, Metadata.trimmed_trimmed, trimSpace_trimSpace, trims]

/-- What the service proposes is what the state machine would make of the
record itself, but for the time, and is in the form that is stored. -/
theorem RaftService.applyWorkloadAssignment_ok {now : Nat} {sent : AssignmentEntry}
    (accepted : applyWorkloadAssignment now a = .ok sent) :
    sent.Normal ∧ a.normalize = some { sent with updatedAt := a.updatedAt } := by
  simp only [applyWorkloadAssignment] at accepted
  split_ifs at accepted with unnamed absent keyless undated
  all_goals
    cases accepted
    refine ⟨AssignmentEntry.normal_keyed _ unnamed absent keyless, ?_⟩
    rw [AssignmentEntry.normalize, if_neg (by simp [unnamed, absent]), if_neg keyless]
    rfl

theorem RaftService.applyVolumeBinding_ok {now : Nat} {sent : BindingEntry}
    (accepted : applyVolumeBinding now b = .ok sent) :
    sent.Normal ∧ b.normalize = some { sent with updatedAt := b.updatedAt } := by
  simp only [applyVolumeBinding] at accepted
  split_ifs at accepted with unnamed detached absent keyless undated
  all_goals
    cases accepted
    refine ⟨BindingEntry.normal_keyed _ unnamed detached absent keyless, ?_⟩
    rw [BindingEntry.normalize, if_neg (by simp [unnamed, detached, absent]), if_neg keyless]
    rfl

end Normal

namespace RecordState

section Bytes

variable {Bytes : Type} {json : EntryCodec Bytes}

theorem update_assignment (faithful : json.RoundTrips) (s : RecordState) (a : AssignmentEntry) :
    s.update json (json.marshalAssignment a) = s.applyWorkloadAssignment a := by
  simp only [update, faithful.filledAssignment, faithful.assignmentType, faithful.assignment, Bool.false_eq_true, if_false,
    if_true]

theorem update_binding (faithful : json.RoundTrips) (s : RecordState) (b : BindingEntry) :
    s.update json (json.marshalBinding b) = s.applyVolumeBinding b := by
  have apart : cmdUpsertVolumeBinding ≠ cmdUpsertWorkloadAssignment := by decide
  simp only [update, faithful.filledBinding, faithful.bindingType, faithful.binding, Bool.false_eq_true, if_false, apart,
    if_true]

theorem Reachable.filed (faithful : json.RoundTrips) {s : RecordState} (reached : Reachable json s) :
    Table.Filed AssignmentEntry.key s.assignments ∧ Table.Filed BindingEntry.key s.volumeBindings := by
  induction reached with
  | start => exact ⟨nofun, nofun⟩
  | @entry s data _ ih =>
    unfold update
    split
    · exact ih
    split
    · exact ih
    split
    · split
      · exact ih
      · exact ⟨ih.1.file _, ih.2⟩
    split
    · split
      · exact ih
      · exact ⟨ih.1, ih.2.file _⟩
    · exact ih
  | restored _ read ih =>
    obtain ⟨assignments, bindings⟩ := faithful.snapshot _ _ read
    exact ⟨ih.1.congr assignments, ih.2.congr bindings⟩

end Bytes

end RecordState

/-- What the service accepts, the state machine stores under the key the
service has computed, where it is found again, and it touches nothing else.
In every state that a replica can be in, records are under their own keys. -/
theorem accepted_records_are_stored {Bytes : Type} {json : EntryCodec Bytes} (faithful : json.RoundTrips) :
    (∀ (s : RecordState) (now : Nat) (a sent : AssignmentEntry), RaftService.applyWorkloadAssignment now a = .ok sent →
      let after := s.update json (json.marshalAssignment sent)
      a.normalize = some { sent with updatedAt := a.updatedAt } ∧ sent.normalize = some sent ∧
        after.assignments.lookup sent.key = some sent ∧ after.getAssignment sent.key = some sent ∧
        (∀ key, key ≠ sent.key → after.assignments.lookup key = s.assignments.lookup key) ∧
        after.volumeBindings = s.volumeBindings) ∧
    (∀ (s : RecordState) (now : Nat) (b sent : BindingEntry), RaftService.applyVolumeBinding now b = .ok sent →
      let after := s.update json (json.marshalBinding sent)
      b.normalize = some { sent with updatedAt := b.updatedAt } ∧ sent.normalize = some sent ∧
        after.volumeBindings.lookup sent.key = some sent ∧ after.getVolumeBinding sent.key = some sent ∧
        (∀ key, key ≠ sent.key → after.volumeBindings.lookup key = s.volumeBindings.lookup key) ∧
        after.assignments = s.assignments) ∧
    ∀ s, RecordState.Reachable json s →
      (∀ key a, s.assignments.lookup key = some a → a.key = key) ∧
        ∀ key b, s.volumeBindings.lookup key = some b → b.key = key := by
  refine ⟨?_, ?_, fun s reached => reached.filed faithful⟩
  · intro s now a sent accepted
    obtain ⟨normal, made⟩ := RaftService.applyWorkloadAssignment_ok accepted
    have stored (key : String) : (s.update json (json.marshalAssignment sent)).assignments.lookup key =
        if sent.key = key then some sent else s.assignments.lookup key := by
      rw [RecordState.update_assignment faithful, RecordState.applyWorkloadAssignment, normal.normalize]
      exact Table.lookup_insert ..
    refine ⟨made, normal.normalize, ?_, ?_, ?_, by rw [RecordState.update_assignment faithful]; rfl⟩
    · rw [stored, if_pos rfl]
    · rw [RecordState.getAssignment, normal.trimSpace_key, stored, if_pos rfl]
    · intro key other
      rw [stored, if_neg (Ne.symm other)]
  · intro s now b sent accepted
    obtain ⟨normal, made⟩ := RaftService.applyVolumeBinding_ok accepted
    have stored (key : String) : (s.update json (json.marshalBinding sent)).volumeBindings.lookup key =
        if sent.key = key then some sent else s.volumeBindings.lookup key := by
      rw [RecordState.update_binding faithful, RecordState.applyVolumeBinding, normal.normalize]
      exact Table.lookup_insert ..
    refine ⟨made, normal.normalize, ?_, ?_, ?_, by rw [RecordState.update_binding faithful]; rfl⟩
    · rw [stored, if_pos rfl]
    · rw [RecordState.getVolumeBinding, normal.trimSpace_key, stored, if_pos rfl]
    · intro key other
      rw [stored, if_neg (Ne.symm other)]

/-- Bytes that stand for what they were written from. -/
inductive EntryWire where
  | assignment (a : AssignmentEntry)
  | binding (b : BindingEntry)
  | state (s : RecordState)

def entryCodec : EntryCodec EntryWire where
  isEmpty _ := false
  type
    | .assignment _ => some cmdUpsertWorkloadAssignment
    | .binding _ => some cmdUpsertVolumeBinding
    | .state _ => none
  assignment
    | .assignment a => some a
    | _ => none
  binding
    | .binding b => some b
    | _ => none
  marshalAssignment := .assignment
  marshalBinding := .binding
  snapshot := .state
  state
    | .state s => some s
    | _ => none

theorem entryCodec_roundTrips : entryCodec.RoundTrips where
  filledAssignment _ := rfl
  filledBinding _ := rfl
  assignmentType _ := rfl
  bindingType _ := rfl
  assignment _ := rfl
  binding _ := rfl
  snapshot s t read := by
    cases read
    exact ⟨fun _ => rfl, fun _ => rfl⟩

/-- A record without a key is stored under the one made from its names. -/
theorem accepted_records_are_stored_keyless :
    ∃ sent, RaftService.applyWorkloadAssignment 7 { metadata := { name := " web " }, workload := "api ", status := "running" } =
        .ok sent ∧ sent.key = "default/web/api" ∧
      (RecordState.update entryCodec {} (entryCodec.marshalAssignment sent)).getAssignment sent.key = some sent := by
  have accepted : RaftService.applyWorkloadAssignment 7
      { metadata := { name := " web " }, workload := "api ", status := "running" } =
        .ok { key := "default/web/api", metadata := { name := "web" }, workload := "api", status := "running", updatedAt := 7 } := by
    decide +kernel
  exact ⟨_, accepted, rfl, ((accepted_records_are_stored entryCodec_roundTrips).1 {} 7 _ _ accepted).2.2.2.1⟩

end Orch
