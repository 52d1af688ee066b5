import Orch.Deploy.Validate
import Orch.Raft.Fsm

namespace Orch

section Replicated

open GoJson
open GoJson.Text (ofString)

/-- A struct comes back as the other once it was written and read. -/
def Trips (fields : Layout) (row back : fields.Row) : Prop := fields.trip row = back

theorem trip_ofString (s : String) : GoType.text.trip (ofString s) = ofString s := by
  refine Text.ofTokens_tokens ?_
  intro r member
  obtain ⟨c, -, rfl⟩ := List.mem_map.mp member
  trivial

theorem rows_map {α β : Type} {t : GoType} (row : β → t.Val) (f : α → β) (xs : List α) :
    rows row (xs.map f) = rows (fun x => row (f x)) xs := by
  cases xs with
  | nil => rfl
  | cons x xs => exact congrArg some (List.map_map ..)

namespace Trips

variable {key : String} {tag : Tag} {fields inner : Layout} {row back : fields.Row}

theorem nil : Trips .nil () () := rfl

theorem cons {type : GoType} {v left : type.Val}
    (kept : tag = .omitEmpty → type.isEmpty v = true → type.trip v = type.zero) (value : type.trip v = left)
    (rest : Trips fields row back) : Trips (.cons key tag type fields) (v, row) (left, back) :=
  (Layout.trip_cons key row kept).trans (congrArg₂ Prod.mk value rest)

theorem text {s : String} (rest : Trips fields row back) :
    Trips (.cons key tag .text fields) (ofString s, row) (ofString s, back) :=
  cons (fun _ empty => GoType.trip_of_isZero .text _ empty) (trip_ofString s) rest

theorem int {n : Int} (rest : Trips fields row back) : Trips (.cons key tag .int fields) (n, row) (n, back) :=
  cons (fun _ empty => GoType.trip_of_isZero .int _ empty) rfl rest

theorem bool {b : Bool} (rest : Trips fields row back) : Trips (.cons key tag .bool fields) (b, row) (b, back) :=
  cons (fun _ empty => GoType.trip_of_isZero .bool _ empty) rfl rest

theorem struct {v left : inner.Row} (value : Trips inner v left) (rest : Trips fields row back) :
    Trips (.cons key tag (.struct inner) fields) (v, row) (left, back) :=
  cons (fun _ empty => by cases empty) value rest

theorem pointer {α : Type} {p : Option α} {held : α → inner.Row} (value : ∀ x, Trips inner (held x) (held x))
    (rest : Trips fields row back) :
    Trips (.cons key tag (.pointer inner) fields) (p.map held, row) (p.map held, back) := by
  refine cons (fun _ empty => GoType.trip_of_isZero (.pointer inner) _ empty) ?_ rest
  cases p with
  | none => rfl
  | some x => exact congrArg some (value x)

section Lists

variable {α : Type} {type : GoType} {held left : α → type.Val}

theorem filled (value : ∀ x, type.trip (held x) = left x) (x : α) (xs : List α) (rest : Trips fields row back) :
    Trips (.cons key tag (.slice type) fields) (some ((x :: xs).map held), row) (some ((x :: xs).map left), back) := by
  refine cons (fun _ empty => by cases empty) ?_ rest
  exact congrArg some ((List.map_map ..).trans (List.map_congr_left fun x _ => value x))

theorem slice {xs : List α} (value : ∀ x, type.trip (held x) = left x) (rest : Trips fields row back) :
    Trips (.cons key tag (.slice type) fields) (rows held xs, row) (rows left xs, back) := by
  cases xs with
  | nil => exact cons (fun _ _ => rfl) rfl rest
  | cons x xs => exact filled value x xs rest

end Lists

theorem mapping {m : StringMap} (rest : Trips fields row back) :
    Trips (.cons key tag stringMapType fields) (m.row, row) (m.row, back) := by
  obtain ⟨entries, sorted⟩ := m
  cases entries with
  | nil => exact cons (fun _ _ => rfl) rfl rest
  | cons entry entries =>
    refine cons (fun _ empty => ?_) (congrArg some ?_) rest
    · have filled := (Mapping.isEmpty_ofList _).symm.trans empty
      cases filled
    · -- The entries were made of characters, and stand in the order in which they are read.
      refine Mapping.ext ((congrArg (fun list => (Mapping.ofList list).entries) ?_).trans
        (Mapping.ofList_entries (Mapping.sorted _)))
      refine (List.map_congr_left fun entry member => ?_).trans (List.map_id _)
      obtain ⟨held, -, rfl⟩ := List.mem_map.mp (Mapping.mem_ofList member)
      exact congrArg₂ Prod.mk (trip_ofString held.1) (trip_ofString held.2)

/-- Of a list that is nil or not, only the nil one comes back when it is empty. -/
theorem list {xs : Option (List String)} (rest : Trips fields row back) :
    Trips (.cons key .omitEmpty (.slice .text) fields) (xs.map (List.map ofString), row)
      ((decodedList xs).map (List.map ofString), back) := by
  cases xs with
  | none => exact cons (fun _ _ => rfl) rfl rest
  | some items =>
    cases items with
    | nil => exact congrArg (Prod.mk none) rest
    | cons item items => exact filled trip_ofString item items rest

end Trips

theorem Metadata.trips (m : Metadata) : Trips metadataLayout m.row m.row :=
  .text <| .text <| .mapping <| .mapping .nil

theorem DockerOptions.trips (o : DockerOptions) : Trips dockerLayout o.row o.row :=
  .text <| .bool <| .mapping .nil

theorem FirecrackerOptions.trips (o : FirecrackerOptions) : Trips firecrackerLayout o.row o.row :=
  .text <| .text <| .text <| .text <| .text <| .bool <| .text <| .text <| .text <| .bool <| .int <| .int .nil

theorem SystemdOptions.trips (o : SystemdOptions) : Trips systemdLayout o.row o.row :=
  .text <| .text <| .text <| .text <| .text <| .text .nil

theorem RunOptions.trips (o : RunOptions) : Trips runOptionsLayout o.row o.row :=
  .pointer DockerOptions.trips <| .pointer (fun _ => .text .nil) <| .pointer FirecrackerOptions.trips <|
    .pointer (fun _ => .text <| .text <| .text .nil) <| .pointer SystemdOptions.trips <|
    .pointer (fun _ => .text <| .text <| .text .nil) .nil

theorem EndpointRef.trips (r : EndpointRef) : Trips endpointRefLayout r.row r.row :=
  .text <| .text .nil

theorem Probe.trips (p : Probe) : Trips probeLayout p.row p.row :=
  .pointer (fun p => .text <| .struct p.endpoint.trips <| .int .nil) <|
    .pointer (fun p => .struct p.endpoint.trips <| .int .nil) <| .text <| .text <| .int <| .text .nil

theorem DataBlock.trips (b : DataBlock) : Trips dataBlockLayout b.row b.row :=
  .text <| .mapping .nil

theorem Ingress.trips (i : Ingress) : Trips ingressLayout i.row i.row :=
  .text <| .text <| .slice (fun route => Trips.text <| .struct route.backend.trips .nil) .nil

/-- The lists of an exec block alone are kept apart by whether they are nil or
empty. -/
theorem RunSpec.trips (r : RunSpec) :
    Trips runLayout r.row
      (RunSpec.row { r with exec := ⟨decodedList r.exec.command, decodedList r.exec.args⟩ }) :=
  .struct (.text <| .text <| .text .nil) <| .struct (.list <| .list .nil) <|
    .slice (fun _ => Trips.text <| .text .nil) <| .text <| .text <| .struct r.options.trips .nil

theorem Workload.trips (w : Workload) : Trips workloadLayout w.row w.decoded.row :=
  .text <| .text <| .struct w.run.trips <| .text <| .int <| .slice (fun _ => Trips.text <| .text .nil) <|
    .slice (fun _ => Trips.text <| .int <| .text <| .int <| .text .nil) <|
    .slice (fun _ => Trips.struct (.text .nil) <| .text <| .bool .nil) <| .pointer (fun _ => .int <| .int .nil) <|
    .pointer (fun _ => .pointer Probe.trips <| .pointer Probe.trips <| .pointer Probe.trips .nil) <|
    .pointer (fun _ => .text <| .int <| .text .nil) <|
    .pointer (fun _ => .bool <| .bool <| .slice trip_ofString .nil) <|
    .pointer (fun _ => .text <| .int <| .int <| .bool <| .text .nil) .nil

/-- The command that carries a document carries what the state machine decodes. -/
theorem App.replicated_document (app : App) : app.document.replicated = some app.decoded.document := by
  have workloads : app.decoded.document.2.2.2.1 =
      rows (t := .struct workloadLayout) (fun w => w.decoded.row) app.workloads :=
    rows_map (t := .struct workloadLayout) Workload.row Workload.decoded app.workloads
  refine (Document.replicated_eq app.document).trans (congrArg some ?_)
  change Trips appLayout app.document (ofString app.apiVersion, ofString app.kind, app.metadata.row,
    app.decoded.document.2.2.2.1, app.document.2.2.2.2)
  rw [workloads]
  exact .text <| .text <| .struct app.metadata.trips <| .slice Workload.trips <| .slice DataBlock.trips <|
    .slice DataBlock.trips <| .slice (fun _ => Trips.text <| .bool <| .int .nil) <| .slice Ingress.trips .nil

end Replicated

section Decoded

theorem checkEach_map {α β : Type} {g : α → β} {xs : List α} {check : Nat → β → Check} {plain : Nat → α → Check}
    (blind : ∀ i x, check i (g x) = plain i x) : checkEach (xs.map g) check = checkEach xs plain := by
  have from_ : ∀ (xs : List α) (i : Nat), checkFrom check i (xs.map g) = checkFrom plain i xs := by
    intro xs
    induction xs with
    | nil => intro i; rfl
    | cons x rest ih => intro i; simp only [List.map_cons, checkFrom, blind, ih]
  exact from_ xs 0

theorem decodedList_decodedList (xs : Option (List String)) : decodedList (decodedList xs) = decodedList xs := by
  cases xs with
  | none => rfl
  | some items => cases items <;> rfl

@[simp] theorem App.decoded_decoded (app : App) : app.decoded.decoded = app.decoded := by
  simp [App.decoded, Workload.decoded, decodedList_decodedList]

theorem Workload.validate_decoded (w : Workload) (seen : List String) : w.decoded.validate seen = w.validate seen := by
  have exec : w.decoded.validateExecRuntime = w.validateExecRuntime := by
    have empty : ((decodedList w.run.exec.command).getD []).isEmpty = (w.run.exec.command.getD []).isEmpty := by
      rcases w.run.exec.command with _ | ⟨_ | ⟨_, _⟩⟩ <;> rfl
    simp only [validateExecRuntime, decoded, empty]
  have run : w.decoded.validateRunForRuntime = w.validateRunForRuntime := by
    unfold validateRunForRuntime
    rw [exec]
    rfl
  unfold validate
  rw [run]
  rfl

theorem validateWorkloads_decoded : ∀ (workloads : List Workload) (seen : List String) (i : Nat),
    validateWorkloads seen i (workloads.map Workload.decoded) = validateWorkloads seen i workloads
  | [], _, _ => rfl
  | workload :: rest, seen, i => by
    simp only [List.map_cons, validateWorkloads, Workload.validate_decoded, validateWorkloads_decoded rest]

theorem addWorkloadDependencyNodes_decoded : ∀ (workloads : List Workload) (seen : List String) (i : Nat),
    addWorkloadDependencyNodes seen i (workloads.map Workload.decoded) = addWorkloadDependencyNodes seen i workloads
  | [], _, _ => rfl
  | workload :: rest, seen, i => by
    simp only [List.map_cons, addWorkloadDependencyNodes, addWorkloadDependencyNodes_decoded rest]
    rfl

theorem addWorkloadDependencyEdges_decoded (nodes : List String) : ∀ (workloads : List Workload) (i : Nat),
    addWorkloadDependencyEdges nodes i (workloads.map Workload.decoded) = addWorkloadDependencyEdges nodes i workloads
  | [], _ => rfl
  | workload :: rest, i => by
    simp only [List.map_cons, addWorkloadDependencyEdges, addWorkloadDependencyEdges_decoded nodes rest]
    rfl

theorem workloadNamed_decoded (workloads : List Workload) (name : String) :
    workloadNamed (workloads.map Workload.decoded) name = (workloadNamed workloads name).map Workload.decoded := by
  simp only [workloadNamed, List.find?_map]
  rfl

theorem App.workloadsInDependencyOrder_decoded (app : App) (sorter : GraphSorter) :
    app.decoded.workloadsInDependencyOrder sorter =
      (app.workloadsInDependencyOrder sorter).map (List.map Workload.decoded) := by
  have named (ids : List String) : ids.filterMap (workloadNamed (app.workloads.map Workload.decoded)) =
      (ids.filterMap (workloadNamed app.workloads)).map Workload.decoded := by
    rw [List.map_filterMap]
    exact List.filterMap_congr fun id _ => workloadNamed_decoded app.workloads id
  have documents : app.decoded.workloads = app.workloads.map Workload.decoded := rfl
  unfold App.workloadsInDependencyOrder
  rw [documents, List.isEmpty_map, addWorkloadDependencyNodes_decoded]
  split
  · rfl
  cases addWorkloadDependencyNodes [] 0 app.workloads with
  | error err => rfl
  | ok nodes =>
    simp only [bind, Except.bind, addWorkloadDependencyEdges_decoded]
    cases addWorkloadDependencyEdges nodes 0 app.workloads with
    | error err => rfl
    | ok edges =>
      simp only [orderedWorkloads]
      cases sorter.sort nodes edges with
      | none => rfl
      | some ids => exact congrArg Except.ok (named ids)

theorem App.validateWorkloadDependencyConditions_decoded (app : App) :
    app.decoded.validateWorkloadDependencyConditions = app.validateWorkloadDependencyConditions := by
  refine checkEach_map fun i workload => ?_
  have same (j : Nat) (ref : WorkloadRef) : validateWorkloadDependencyCondition i j ref app.decoded.workloads =
      validateWorkloadDependencyCondition i j ref app.workloads := by
    have last : lastWorkloadNamed app.decoded.workloads (trimSpace ref.name) =
        (lastWorkloadNamed app.workloads (trimSpace ref.name)).map Workload.decoded := by
      simp only [lastWorkloadNamed, App.decoded, ← List.map_reverse]
      exact workloadNamed_decoded _ _
    simp only [validateWorkloadDependencyCondition, last]
    cases lastWorkloadNamed app.workloads (trimSpace ref.name) <;> rfl
  simp only [same]
  rfl

theorem App.validate_decoded (app : App) (sorter : GraphSorter) : app.decoded.validate sorter = app.validate sorter := by
  have mounts : app.decoded.validateWorkloadMounts = app.validateWorkloadMounts := checkEach_map fun _ _ => rfl
  have endpoints : app.decoded.validateWorkloadEndpointsAll = app.validateWorkloadEndpointsAll :=
    checkEach_map fun _ _ => rfl
  have depends : app.decoded.validateWorkloadDepends sorter = app.validateWorkloadDepends sorter := by
    simp only [validateWorkloadDepends, workloadsInDependencyOrder_decoded, validateWorkloadDependencyConditions_decoded]
    cases app.workloadsInDependencyOrder sorter <;> rfl
  have crossRefs : app.decoded.validateWorkloadCrossRefs sorter = app.validateWorkloadCrossRefs sorter := by
    simp only [validateWorkloadCrossRefs, mounts, endpoints, depends]
  have workloads : validateWorkloads [] 0 app.decoded.workloads = validateWorkloads [] 0 app.workloads :=
    validateWorkloads_decoded ..
  unfold App.validate
  rw [workloads, crossRefs]
  rfl

end Decoded

section Names

/-- A part of a key that holds no separator. -/
def SlashFree (s : String) : Prop := '/' ∉ s.toList

/-- The names of an app that passes the checks keep its keys apart from those
of other apps. -/
structure Metadata.Clean (m : Metadata) : Prop where
  nspace : SlashFree (namespaceOrDefault m.nspace)
  name : SlashFree (trimSpace m.name)

theorem slashFree_of_nameRe {s : String} (valid : nameRe s = true) : SlashFree s := by
  intro member
  have named := isNameRest_of_nameRe valid _ member
  exact absurd named (by decide)

theorem SlashFree.trimSpace {s : String} (free : SlashFree s) : SlashFree (trimSpace s) := by
  intro member
  rw [Orch.trimSpace, String.toList_ofList] at member
  have shorter : (trimChars s.toList).Sublist s.toList :=
    (List.rdropWhile_prefix _ _).sublist.trans (List.dropWhile_sublist _)
  exact free (shorter.subset member)

theorem App.validate_clean {a : App} {sorter : GraphSorter} (valid : a.validate sorter = .ok ()) : a.metadata.Clean := by
  obtain ⟨name, nspace⟩ := App.validate_metadata valid
  refine ⟨?_, (slashFree_of_nameRe name).trimSpace⟩
  unfold namespaceOrDefault
  split
  · exact slashFree_of_nameRe rfl
  · rename_i present
    rcases nspace with empty | given
    · rw [empty] at present
      exact absurd (by decide +kernel) present
    · exact (slashFree_of_nameRe given).trimSpace

theorem slash_inj : ∀ {a b c d : List Char}, '/' ∉ a → '/' ∉ c → a ++ '/' :: b = c ++ '/' :: d → a = c ∧ b = d
  | [], b, [], d, _, _, same => ⟨rfl, (List.cons.inj same).2⟩
  | [], b, x :: c, d, _, right, same => absurd (List.cons.inj same).1 fun here => right (here ▸ List.mem_cons_self)
  | x :: a, b, [], d, left, _, same => absurd (List.cons.inj same).1 fun here => left (here ▸ List.mem_cons_self)
  | x :: a, b, y :: c, d, left, right, same => by
    obtain ⟨heads, tails⟩ := List.cons.inj same
    obtain ⟨front, back⟩ := slash_inj (List.not_mem_of_not_mem_cons left) (List.not_mem_of_not_mem_cons right) tails
    exact ⟨by rw [heads, front], back⟩

theorem WorkloadId.toList_key {id : WorkloadId} (named : id.app ≠ "") (present : id.workload ≠ "") :
    id.key.toList = id.nspace.toList ++ '/' :: (id.app.toList ++ '/' :: id.workload.toList) := by
  simp [WorkloadId.key, named, present]

/-- An identity whose parts can be read off its key. -/
structure WorkloadId.Proper (id : WorkloadId) : Prop where
  nspace : SlashFree id.nspace
  app : SlashFree id.app
  named : id.app ≠ ""
  present : id.workload ≠ ""

theorem WorkloadId.Proper.key_inj {a b : WorkloadId} (left : a.Proper) (right : b.Proper) (same : a.key = b.key) : a = b := by
  have chars := congrArg String.toList same
  rw [toList_key left.named left.present, toList_key right.named right.present] at chars
  obtain ⟨nspaces, rest⟩ := slash_inj left.nspace right.nspace chars
  obtain ⟨apps, workloads⟩ := slash_inj left.app right.app rest
  rw [String.toList_inj] at nspaces apps workloads
  cases a
  cases b
  simp only at nspaces apps workloads
  rw [nspaces, apps, workloads]

theorem Metadata.Clean.proper {m : Metadata} {name : String} (clean : m.Clean) (named : trimSpace m.name ≠ "")
    (present : trimSpace name ≠ "") : (workloadId m name).Proper :=
  ⟨clean.nspace, clean.name, named, present⟩

theorem assignmentKey_ne_of_app {m other : Metadata} {name workload : String} (clean : m.Clean) (otherClean : other.Clean)
    (named : trimSpace m.name ≠ "") (otherNamed : trimSpace other.name ≠ "") (present : trimSpace workload ≠ "")
    (apart : deployAppMapKey other ≠ deployAppMapKey m) : assignmentKey m name ≠ assignmentKey other workload := by
  intro same
  by_cases blank : trimSpace name = ""
  · exact assignmentKey_ne_empty otherNamed present (same.symm.trans (assignmentKey_blank blank))
  have ids := (clean.proper named blank).key_inj (otherClean.proper otherNamed present) same
  have nspaces : namespaceOrDefault m.nspace = namespaceOrDefault other.nspace := congrArg WorkloadId.nspace ids
  have names : trimSpace m.name = trimSpace other.name := congrArg WorkloadId.app ids
  exact apart (by rw [deployAppMapKey, deployAppMapKey, nspaces, names])

end Names

/-- The documents of a ledger, without assignments and capacities. -/
def Ledger.papers (f : Ledger) : Ledger := { deployApps := f.deployApps, deployAppRevisions := f.deployAppRevisions }

def Command.files : Command → Bool
  | .upsertDeployApp _ => true
  | .deleteDeployApp _ => true
  | _ => false

variable {command : Command}

theorem Ledger.papers_unfiled (f : Ledger) (unfiled : command.files = false) :
    (f.update command).papers = f.papers := by
  cases command with
  | upsertDeployApp | deleteDeployApp => cases unfiled
  | upsertNodeCapacity | upsertWorkloadAssignment =>
    simp only [update, applyNodeCapacity, applyWorkloadAssignment]
    split <;> rfl
  | upsertVolumeBinding binding => rfl

namespace Ledger

/-- Every document that is kept, desired now or earlier, is as said for the
key it is kept under. -/
structure Holds (good : String → App → Prop) (f : Ledger) : Prop where
  desired : ∀ key app, f.deployApps.lookup key = some app → good key app
  revised : ∀ key revisions, f.deployAppRevisions.lookup key = some revisions → ∀ r ∈ revisions, good key r.app

/-- Documents are kept under their own keys. -/
abbrev Keyed (f : Ledger) : Prop := f.Holds fun key app => deployAppMapKey app.metadata = key

variable {good : String → App → Prop} {f : Ledger}

variable {app : App}

/-- Documents keep a property that each one sent has. -/
theorem Holds.update (holds : f.Holds good)
    (sent : ∀ app, command = .upsertDeployApp app → trimSpace app.metadata.name ≠ "" →
      good (deployAppMapKey app.metadata) app.decoded) :
    (f.update command).Holds good := by
  constructor
  · intro key app found
    rw [deployApps_update] at found
    cases command with
    | upsertDeployApp app =>
      simp only [Command.desires] at found
      split at found
      · exact holds.desired key _ found
      rename_i named
      rcases eq_or_ne key (deployAppMapKey app.metadata) with rfl | apart
      · rw [AList.lookup_insert] at found
        cases found
        exact sent app rfl named
      · rw [AList.lookup_insert_ne apart] at found
        exact holds.desired key _ found
    | deleteDeployApp metadata =>
      simp only [Command.desires] at found
      split at found
      · exact holds.desired key app found
      rcases eq_or_ne key (deployAppMapKey metadata) with rfl | other
      · simp at found
      · rw [AList.lookup_erase_ne other] at found
        exact holds.desired key app found
    | _ => exact holds.desired key app found
  · intro key revisions found r member
    rcases revision_of_update found member with ⟨earlier, kept, old⟩ | ⟨app, desired, rfl⟩
    · exact holds.revised key earlier kept r old
    · exact holds.desired key app desired

theorem Keyed.update (keyed : f.Keyed) : (f.update command).Keyed :=
  Holds.update keyed fun _ _ _ => rfl

variable {metadata : Metadata}

theorem Holds.previous {revision : DeployAppRevision} (holds : f.Holds good)
    (found : f.previousDeployApp metadata = some revision) : good (deployAppMapKey metadata) revision.app := by
  unfold previousDeployApp at found
  cases kept : f.deployAppRevisions.lookup (deployAppMapKey metadata) with
  | none => simp [kept] at found
  | some revisions =>
    rw [kept] at found
    exact holds.revised _ revisions kept revision (List.mem_of_mem_getLast? found)

theorem Holds.listed (holds : f.Holds good) (member : app ∈ f.listDeployApps) : ∃ key, good key app := by
  obtain ⟨⟨key, app⟩, entry, rfl⟩ := List.mem_map.mp member
  exact ⟨key, holds.desired key app (AList.mem_lookup_iff.mpr entry)⟩

theorem Holds.of_papers {g : Ledger} (same : g.papers = f.papers) (holds : f.Holds good) : g.Holds good := by
  have kept : g.papers.Holds good := same ▸ ⟨holds.desired, holds.revised⟩
  exact ⟨kept.desired, kept.revised⟩

theorem Keyed.listed (keyed : f.Keyed) (member : app ∈ f.listDeployApps)
    (same : deployAppMapKey app.metadata = deployAppMapKey metadata) : f.getDeployApp metadata = some app := by
  obtain ⟨⟨key, app⟩, entry, rfl⟩ := List.mem_map.mp member
  have found : f.deployApps.lookup key = some app := AList.mem_lookup_iff.mpr entry
  rw [← keyed.desired key app found, same] at found
  exact found

theorem getDeployApp_listed (found : f.getDeployApp metadata = some app) :
    app ∈ f.listDeployApps :=
  List.mem_map.mpr ⟨⟨_, app⟩, AList.mem_lookup_iff.mp found, rfl⟩

theorem Keyed.nodup (keyed : f.Keyed) : (f.listDeployApps.map fun app => deployAppMapKey app.metadata).Nodup := by
  have keys : (f.listDeployApps.map fun app => deployAppMapKey app.metadata) = f.deployApps.keys := by
    simp only [listDeployApps, Table.values, AList.keys, List.keys, List.map_map]
    refine List.map_congr_left fun entry member => ?_
    exact keyed.desired entry.1 entry.2 (AList.mem_lookup_iff.mpr member)
  rw [keys]
  exact f.deployApps.nodupKeys

end Ledger

theorem Ledger.assignments_upsert (f : Ledger) (app : App) : (f.update (.upsertDeployApp app)).assignments = f.assignments :=
  f.assignments_update _

theorem Ledger.getDeployApp_upsert {f : Ledger} {app : App} (named : trimSpace app.metadata.name ≠ "") :
    (f.update (.upsertDeployApp app)).getDeployApp app.metadata = some app.decoded := by
  simp only [update, applyDeployApp]
  rw [if_neg (by exact named)]
  exact AList.lookup_insert _

/-- All that is replicated about one app. -/
@[ext] structure AppRecords where
  desired : Option App
  revisions : List DeployAppRevision
  assigned : String → Option Assignment

namespace Ledger

variable {f : Ledger} {m : Metadata}

def recordsOf (f : Ledger) (m : Metadata) : AppRecords where
  desired := f.getDeployApp m
  revisions := (f.deployAppRevisions.lookup (deployAppMapKey m)).getD []
  assigned name := f.getAssignment (assignmentKey m name)

theorem recordsOf_congr {a b : Metadata} (nspaces : namespaceOrDefault a.nspace = namespaceOrDefault b.nspace)
    (names : trimSpace a.name = trimSpace b.name) : f.recordsOf a = f.recordsOf b := by
  have key : deployAppMapKey a = deployAppMapKey b := by rw [deployAppMapKey, deployAppMapKey, nspaces, names]
  refine AppRecords.ext (getDeployApp_congr key) ?_ (funext fun name => ?_)
  · simp only [recordsOf]
    rw [key]
  · simp only [recordsOf, assignmentKey, workloadId, nspaces, names]

theorem assigned_congr {a b : String} (same : trimSpace a = trimSpace b) :
    (f.recordsOf m).assigned a = (f.recordsOf m).assigned b := by
  simp only [recordsOf, assignmentKey, workloadId, same]

theorem recordsOf_upsert_other {app : App} (other : deployAppMapKey app.metadata ≠ deployAppMapKey m) :
    (f.update (.upsertDeployApp app)).recordsOf m = f.recordsOf m := by
  have apart : deployAppMapKey m ≠ deployAppMapKey app.decoded.metadata := other.symm
  simp only [update, applyDeployApp]
  split
  · rfl
  have stored {g : Ledger} (kept : g.recordsOf m = f.recordsOf m) :
      recordsOf { g with deployApps := g.deployApps.insert (deployAppMapKey app.decoded.metadata) app.decoded } m =
        f.recordsOf m := by
    rw [← kept]
    simp only [recordsOf, getDeployApp, getAssignment, AList.lookup_insert_ne apart]
  refine stored ?_
  split
  · split
    · simp only [appendDeployAppRevision]
      split
      · rfl
      split
      · rfl
      simp only [recordsOf, getDeployApp, getAssignment, AList.lookup_insert_ne apart]
    · rfl
  · rfl

end Ledger

/-- An app whose command is an empty list, which is not a missing one. -/
def hollowExecApp : App where
  metadata := { name := "shop" }
  workloads := [{ imageWorkload "web" "nginx" with run.exec.command := some [] }]

theorem generation_lost_in_command :
    ¬ ∀ (app : App) (sorter : GraphSorter), app.validate sorter = .ok () →
      appGeneration app.decoded = appGeneration app := by
  intro kept
  have accepted : hollowExecApp.validate (Topological.peeling String) = .ok () := by decide +kernel
  have differ : appGeneration hollowExecApp.decoded ≠ appGeneration hollowExecApp := by decide +kernel
  exact differ (kept hollowExecApp _ accepted)

end Orch
