import Orch.Deploy.Types
import Orch.Failure
import Orch.Graph.Topological
import Orch.Text
import Mathlib.Data.List.Nodup

namespace Orch

/-- The sort of the dependency graph, which comes with the graph library. -/
abbrev GraphSorter := Topological.Sorter String

/-- The names of the workloads, in document order, on top of those already
seen. -/
def addWorkloadDependencyNodes (seen : List String) : Nat → List Workload → Except Failure (List String)
  | _, [] => .ok seen
  | i, workload :: rest =>
    let name := trimSpace workload.name
    if name = "" then .error (.errorf "workloads[%d].name is required" [.number i])
    else if name ∈ seen then .error (.errorf "duplicate workload name %q" [.text name])
    else addWorkloadDependencyNodes (seen ++ [name]) (i + 1) rest

/-- The edges into one workload, from the reference with the given index on. -/
def addWorkloadDependencyEdgesForWorkload (nodes : List String) (i : Nat) (workloadName : String) :
    Nat → List WorkloadRef → Except Failure (List (String × String))
  | _, [] => .ok []
  | j, ref :: rest =>
    let depName := trimSpace ref.name
    if depName ∈ nodes then do
      return (depName, workloadName) :: (← addWorkloadDependencyEdgesForWorkload nodes i workloadName (j + 1) rest)
    else
      .error (.errorf "workloads[%d].dependsOn[%d]: unknown workload %q" [.number i, .number j, .text depName])

def addWorkloadDependencyEdges (nodes : List String) : Nat → List Workload → Except Failure (List (String × String))
  | _, [] => .ok []
  | i, workload :: rest => do
    let here ← addWorkloadDependencyEdgesForWorkload nodes i (trimSpace workload.name) 0 workload.dependsOn
    return here ++ (← addWorkloadDependencyEdges nodes (i + 1) rest)

def workloadNamed (workloads : List Workload) (id : String) : Option Workload :=
  workloads.find? fun workload => trimSpace workload.name == id

def orderedWorkloads (sorter : GraphSorter) (workloads : List Workload) (nodes : List String)
    (edges : List (String × String)) : Except Failure (List Workload) :=
  match sorter.sort nodes edges with
  | none => .error (.errorf "workloads dependsOn contains a cycle")
  | some ids => .ok (ids.filterMap (workloadNamed workloads))

/-- The workloads with every dependency before what depends on it. -/
def App.workloadsInDependencyOrder (sorter : GraphSorter) (a : App) : Except Failure (List Workload) :=
  if a.workloads.isEmpty then .ok []
  else do
    let nodes ← addWorkloadDependencyNodes [] 0 a.workloads
    let edges ← addWorkloadDependencyEdges nodes 0 a.workloads
    orderedWorkloads sorter a.workloads nodes edges

/-- The name a workload goes by everywhere but in its own document. -/
def Workload.key (w : Workload) : String := trimSpace w.name

theorem addWorkloadDependencyNodes_ok : ∀ {workloads : List Workload} {seen nodes : List String} {i : Nat},
    seen.Nodup → addWorkloadDependencyNodes seen i workloads = .ok nodes →
      nodes = seen ++ workloads.map Workload.key ∧ nodes.Nodup ∧ ∀ w ∈ workloads, w.key ≠ ""
  | [], seen, nodes, _, distinct, run => by
    cases run
    exact ⟨by simp, distinct, by simp⟩
  | workload :: rest, seen, nodes, i, distinct, run => by
    rw [addWorkloadDependencyNodes] at run
    split at run
    · cases run
    rename_i named
    split at run
    · cases run
    rename_i unseen
    have longer : (seen ++ [trimSpace workload.name]).Nodup := by
      rw [List.nodup_append]
      refine ⟨distinct, by simp, ?_⟩
      intro x inSeen y isName
      rw [List.mem_singleton.mp isName]
      rintro rfl
      exact unseen inSeen
    obtain ⟨shape, nodup, nonblank⟩ := addWorkloadDependencyNodes_ok longer run
    refine ⟨by simpa [Workload.key] using shape, nodup, ?_⟩
    intro w member
    rcases List.mem_cons.mp member with rfl | later
    · exact named
    · exact nonblank w later

variable {nodes : List String}

theorem addWorkloadDependencyEdgesForWorkload_ok {i : Nat} {name : String} :
    ∀ {refs : List WorkloadRef} {j : Nat} {edges : List (String × String)},
    addWorkloadDependencyEdgesForWorkload nodes i name j refs = .ok edges →
      ∀ ref ∈ refs, trimSpace ref.name ∈ nodes ∧ (trimSpace ref.name, name) ∈ edges
  | [], _, _, _, _, member => by cases member
  | first :: rest, j, edges, run, ref, member => by
    rw [addWorkloadDependencyEdgesForWorkload] at run
    split at run
    · rename_i known
      obtain ⟨others, later, ⟨⟩⟩ := Except.bind_ok run
      rcases List.mem_cons.mp member with rfl | member
      · exact ⟨known, List.mem_cons_self⟩
      · obtain ⟨inside, edge⟩ := addWorkloadDependencyEdgesForWorkload_ok later ref member
        exact ⟨inside, List.mem_cons_of_mem _ edge⟩
    · cases run

theorem addWorkloadDependencyEdges_ok : ∀ {workloads : List Workload} {i : Nat}
    {edges : List (String × String)}, addWorkloadDependencyEdges nodes i workloads = .ok edges →
      ∀ w ∈ workloads, ∀ ref ∈ w.dependsOn, trimSpace ref.name ∈ nodes ∧ (trimSpace ref.name, w.key) ∈ edges
  | [], _, _, _, _, member => by cases member
  | first :: rest, i, edges, run, w, member => by
    rw [addWorkloadDependencyEdges] at run
    obtain ⟨here, added, run⟩ := Except.bind_ok run
    obtain ⟨others, later, ⟨⟩⟩ := Except.bind_ok run
    intro ref depends
    rcases List.mem_cons.mp member with rfl | member
    · obtain ⟨inside, edge⟩ := addWorkloadDependencyEdgesForWorkload_ok added ref depends
      exact ⟨inside, List.mem_append_left _ edge⟩
    · obtain ⟨inside, edge⟩ := addWorkloadDependencyEdges_ok later w member ref depends
      exact ⟨inside, List.mem_append_right _ edge⟩

variable {w : Workload}

theorem workloadNamed_key {workloads : List Workload} (distinct : (workloads.map Workload.key).Nodup)
    (member : w ∈ workloads) : workloadNamed workloads w.key = some w := by
  unfold workloadNamed
  cases found : workloads.find? (fun workload => trimSpace workload.name == w.key) with
  | none => exact absurd (List.find?_eq_none.mp found w member) (by simp [Workload.key])
  | some other =>
    have same : other.key = w.key := by simpa [Workload.key] using List.find?_some found
    rw [List.inj_on_of_nodup_map distinct (List.mem_of_find?_eq_some found) member same]

variable {sorter : GraphSorter} {order : List Workload}

theorem orderedWorkloads_ok {workloads : List Workload} {edges : List (String × String)}
    (distinct : (workloads.map Workload.key).Nodup)
    (run : orderedWorkloads sorter workloads (workloads.map Workload.key) edges = .ok order) :
    order.Perm workloads := by
  unfold orderedWorkloads at run
  split at run
  · cases run
  · rename_i ids sorted
    cases run
    have all : (workloads.map Workload.key).filterMap (workloadNamed workloads) = workloads := by
      rw [List.filterMap_map]
      calc workloads.filterMap (workloadNamed workloads ∘ Workload.key)
          = workloads.filterMap some := List.filterMap_congr fun w member => workloadNamed_key distinct member
        _ = workloads := List.filterMap_some
    have moved := (sorter.perm sorted).filterMap (workloadNamed workloads)
    rwa [all] at moved

variable {a : App}

/-- What an order that was found says about the document: it is a
rearrangement of the workloads, whose names are distinct and not blank. -/
theorem App.workloadsInDependencyOrder_ok (run : a.workloadsInDependencyOrder sorter = .ok order) :
    order.Perm a.workloads ∧ (a.workloads.map Workload.key).Nodup ∧ ∀ w ∈ a.workloads, w.key ≠ "" := by
  unfold App.workloadsInDependencyOrder at run
  split at run
  · rename_i none
    cases run
    simp [List.isEmpty_iff.mp none]
  · obtain ⟨nodes, named, run⟩ := Except.bind_ok run
    obtain ⟨edges, -, run⟩ := Except.bind_ok run
    obtain ⟨shape, distinct, nonblank⟩ := addWorkloadDependencyNodes_ok List.nodup_nil named
    rw [List.nil_append] at shape
    subst shape
    exact ⟨orderedWorkloads_ok distinct run, distinct, nonblank⟩

theorem App.workloadsInDependencyOrder_sorted (run : a.workloadsInDependencyOrder sorter = .ok order)
    (member : w ∈ a.workloads) {ref : WorkloadRef} (depends : ref ∈ w.dependsOn) :
    ∃ dep ∈ a.workloads, dep.key = trimSpace ref.name ∧ [dep, w].Sublist order := by
  unfold App.workloadsInDependencyOrder at run
  rw [if_neg (by simpa using List.ne_nil_of_mem member)] at run
  obtain ⟨nodes, named, run⟩ := Except.bind_ok run
  obtain ⟨edges, linked, run⟩ := Except.bind_ok run
  obtain ⟨shape, distinct, -⟩ := addWorkloadDependencyNodes_ok List.nodup_nil named
  rw [List.nil_append] at shape
  subst shape
  obtain ⟨known, edge⟩ := addWorkloadDependencyEdges_ok linked w member ref depends
  obtain ⟨dep, inside, called⟩ := List.mem_map.mp known
  refine ⟨dep, inside, called, ?_⟩
  unfold orderedWorkloads at run
  split at run
  · cases run
  rename_i ids sorted
  cases run
  have before := sorter.ordered distinct sorted edge known (List.mem_map_of_mem member)
  have workloads := before.filterMap (workloadNamed a.workloads)
  rwa [← called, List.filterMap_cons_some (workloadNamed_key distinct inside),
    List.filterMap_cons_some (workloadNamed_key distinct member), List.filterMap_nil] at workloads

theorem App.dependency_before {before after : List Workload}
    (run : a.workloadsInDependencyOrder sorter = .ok (before ++ w :: after)) {ref : WorkloadRef}
    (depends : ref ∈ w.dependsOn) : ∃ dep ∈ before, dep.key = trimSpace ref.name := by
  obtain ⟨permuted, distinct, -⟩ := workloadsInDependencyOrder_ok run
  have member : w ∈ a.workloads := permuted.mem_iff.mp (by simp)
  obtain ⟨dep, -, called, ordered⟩ := workloadsInDependencyOrder_sorted run member depends
  have separate : (before ++ w :: after).Nodup := permuted.nodup_iff.mpr (List.Nodup.of_map _ distinct)
  exact ⟨dep, Topological.mem_of_sublist_pair separate ordered, called⟩

/-- The dependencies of a document, each from the workload that has to come
first. -/
def App.dependencyEdges (a : App) : List (String × String) :=
  a.workloads.flatMap fun w => w.dependsOn.map fun ref => (trimSpace ref.name, w.key)

theorem addWorkloadDependencyNodes_of : ∀ {workloads : List Workload} {seen : List String} {i : Nat},
    (∀ w ∈ workloads, w.key ≠ "") → (seen ++ workloads.map Workload.key).Nodup →
      addWorkloadDependencyNodes seen i workloads = .ok (seen ++ workloads.map Workload.key)
  | [], seen, _, _, _ => by rw [addWorkloadDependencyNodes, List.map_nil, List.append_nil]
  | workload :: rest, seen, i, named, distinct => by
    rw [List.map_cons, List.append_cons] at distinct
    have nonblank : trimSpace workload.name ≠ "" := named workload List.mem_cons_self
    have unseen : trimSpace workload.name ∉ seen := fun inside =>
      (List.nodup_append.mp (List.nodup_append.mp distinct).1).2.2 _ inside _ List.mem_cons_self rfl
    have later := addWorkloadDependencyNodes_of (i := i + 1) (fun w member => named w (List.mem_cons_of_mem _ member)) distinct
    simp only [addWorkloadDependencyNodes]
    rw [if_neg nonblank, if_neg unseen, show [trimSpace workload.name] = [workload.key] from rfl, later]
    simp

theorem addWorkloadDependencyEdgesForWorkload_iff {i : Nat} {name : String} :
    ∀ {refs : List WorkloadRef} {j : Nat} {edges : List (String × String)},
    addWorkloadDependencyEdgesForWorkload nodes i name j refs = .ok edges ↔
      (∀ ref ∈ refs, trimSpace ref.name ∈ nodes) ∧ edges = refs.map fun ref => (trimSpace ref.name, name)
  | [], j, edges => by simp [addWorkloadDependencyEdgesForWorkload, eq_comm]
  | first :: rest, j, edges => by
    rw [addWorkloadDependencyEdgesForWorkload]
    split
    · rename_i known
      constructor
      · intro run
        obtain ⟨others, later, ⟨⟩⟩ := Except.bind_ok run
        obtain ⟨inside, rfl⟩ := addWorkloadDependencyEdgesForWorkload_iff.mp later
        exact ⟨List.forall_mem_cons.mpr ⟨known, inside⟩, rfl⟩
      · rintro ⟨inside, rfl⟩
        rw [addWorkloadDependencyEdgesForWorkload_iff.mpr ⟨(List.forall_mem_cons.mp inside).2, rfl⟩]
        rfl
    · rename_i unknown
      exact ⟨nofun, fun all => absurd (all.1 first List.mem_cons_self) unknown⟩

theorem addWorkloadDependencyEdges_iff : ∀ {workloads : List Workload} {i : Nat}
    {edges : List (String × String)}, addWorkloadDependencyEdges nodes i workloads = .ok edges ↔
      (∀ w ∈ workloads, ∀ ref ∈ w.dependsOn, trimSpace ref.name ∈ nodes) ∧
        edges = workloads.flatMap fun w => w.dependsOn.map fun ref => (trimSpace ref.name, w.key)
  | [], i, edges => by simp [addWorkloadDependencyEdges, eq_comm]
  | first :: rest, i, edges => by
    rw [addWorkloadDependencyEdges]
    constructor
    · intro run
      obtain ⟨here, added, run⟩ := Except.bind_ok run
      obtain ⟨others, later, ⟨⟩⟩ := Except.bind_ok run
      obtain ⟨inside, rfl⟩ := addWorkloadDependencyEdgesForWorkload_iff.mp added
      obtain ⟨behind, rfl⟩ := addWorkloadDependencyEdges_iff.mp later
      exact ⟨List.forall_mem_cons.mpr ⟨inside, behind⟩, rfl⟩
    · rintro ⟨inside, rfl⟩
      obtain ⟨here, behind⟩ := List.forall_mem_cons.mp inside
      rw [addWorkloadDependencyEdgesForWorkload_iff.mpr ⟨here, rfl⟩, addWorkloadDependencyEdges_iff.mpr ⟨behind, rfl⟩]
      rfl

/-- An order is found exactly when the names are distinct and not blank, every
reference names a workload and no workload depends on itself through others. -/
theorem App.workloadsInDependencyOrder_isOk_iff :
    (∃ order, a.workloadsInDependencyOrder sorter = .ok order) ↔
      (∀ w ∈ a.workloads, w.key ≠ "") ∧ (a.workloads.map Workload.key).Nodup ∧
        (∀ w ∈ a.workloads, ∀ ref ∈ w.dependsOn, trimSpace ref.name ∈ a.workloads.map Workload.key) ∧
          Topological.Acyclic a.dependencyEdges := by
  have inside (known : ∀ w ∈ a.workloads, ∀ ref ∈ w.dependsOn, trimSpace ref.name ∈ a.workloads.map Workload.key)
      (x y : String) (edge : (x, y) ∈ a.dependencyEdges) : x ∈ a.workloads.map Workload.key ∧
        y ∈ a.workloads.map Workload.key := by
    obtain ⟨w, member, ref, depends, rfl, rfl⟩ : ∃ w ∈ a.workloads, ∃ ref ∈ w.dependsOn, trimSpace ref.name = x ∧ w.key = y := by
      simpa [dependencyEdges] using edge
    exact ⟨known w member ref depends, List.mem_map_of_mem member⟩
  unfold App.workloadsInDependencyOrder
  split
  · rename_i none
    have none : a.workloads = [] := List.isEmpty_iff.mp none
    refine ⟨fun _ => ⟨by simp [none], by simp [none], by simp [none], ?_⟩, fun _ => ⟨[], rfl⟩⟩
    intro x cycle
    obtain ⟨y, edge, -⟩ := Relation.TransGen.head'_iff.mp cycle
    simp [dependencyEdges, none] at edge
  constructor
  · rintro ⟨order, run⟩
    obtain ⟨nodes, named, run⟩ := Except.bind_ok run
    obtain ⟨edges, linked, run⟩ := Except.bind_ok run
    obtain ⟨shape, distinct, nonblank⟩ := addWorkloadDependencyNodes_ok List.nodup_nil named
    rw [List.nil_append] at shape
    subst shape
    obtain ⟨known, rfl⟩ := addWorkloadDependencyEdges_iff.mp linked
    refine ⟨nonblank, distinct, known, (sorter.isSome_sort_iff distinct (inside known)).mp ?_⟩
    unfold orderedWorkloads at run
    split at run
    · cases run
    · rename_i ids sorted
      exact Option.isSome_iff_exists.mpr ⟨ids, sorted⟩
  · rintro ⟨nonblank, distinct, known, acyclic⟩
    obtain ⟨ids, sorted⟩ := Option.isSome_iff_exists.mp ((sorter.isSome_sort_iff distinct (inside known)).mpr acyclic)
    have named : addWorkloadDependencyNodes [] 0 a.workloads = .ok (a.workloads.map Workload.key) :=
      addWorkloadDependencyNodes_of nonblank distinct
    have linked : addWorkloadDependencyEdges (a.workloads.map Workload.key) 0 a.workloads = .ok a.dependencyEdges :=
      addWorkloadDependencyEdges_iff.mpr ⟨known, rfl⟩
    refine ⟨ids.filterMap (workloadNamed a.workloads), ?_⟩
    rw [named]
    change (addWorkloadDependencyEdges (a.workloads.map Workload.key) 0 a.workloads >>= _) = _
    rw [linked]
    change orderedWorkloads sorter a.workloads (a.workloads.map Workload.key) a.dependencyEdges = _
    rw [orderedWorkloads, sorted]

attribute [irreducible] App.workloadsInDependencyOrder

end Orch
