import Orch.Task.Walks

namespace Orch

variable {names : List String}

theorem mem_requestedWorkloadNames {name : String} :
    name ∈ requestedWorkloadNames names ↔ name ≠ "" ∧ ∃ raw ∈ names, trimSpace raw = name := by
  simp [requestedWorkloadNames, List.mem_eraseDups, and_comm]

theorem requestedWorkloadNames_eq_nil :
    requestedWorkloadNames names = [] ↔ ∀ raw ∈ names, trimSpace raw = "" := by
  constructor
  · intro none raw member
    by_contra named
    have inside : trimSpace raw ∈ requestedWorkloadNames names := mem_requestedWorkloadNames.mpr ⟨named, raw, member, rfl⟩
    rw [none] at inside
    cases inside
  · intro blank
    refine List.eq_nil_iff_forall_not_mem.mpr fun name inside => ?_
    obtain ⟨named, raw, member, rfl⟩ := mem_requestedWorkloadNames.mp inside
    exact named (blank raw member)

private theorem nodup_eraseDups : ∀ names : List String, names.eraseDups.Nodup
  | [] => List.nodup_nil
  | name :: rest => by
    rw [List.eraseDups_cons, List.nodup_cons, List.mem_eraseDups]
    exact ⟨by simp, nodup_eraseDups _⟩
termination_by names => names.length
decreasing_by exact Nat.lt_succ_of_le (List.length_filter_le ..)

theorem requestedWorkloadNames_nodup (names : List String) : (requestedWorkloadNames names).Nodup := nodup_eraseDups _

theorem selectedOperationWorkloads_eq : ∀ {workloads : List Workload} {wanted : List String},
    (workloads.map Workload.key).Nodup → wanted.Nodup →
      selectedOperationWorkloads workloads wanted = (workloads.filter fun w => w.key ∈ wanted,
        wanted.filter fun name => name ∉ workloads.map Workload.key)
  | [], wanted, _, _ => by simp [selectedOperationWorkloads]
  | w :: rest, wanted, distinct, once => by
    rw [List.map_cons, List.nodup_cons] at distinct
    rw [selectedOperationWorkloads]
    split
    · rename_i asked
      rw [selectedOperationWorkloads_eq distinct.2 (once.erase w.key)]
      have others (v : Workload) (inside : v ∈ rest) : v.key ∈ wanted.erase w.key ↔ v.key ∈ wanted := by
        refine List.mem_erase_of_ne fun same => distinct.1 ?_
        rw [← same]
        exact List.mem_map_of_mem inside
      refine Prod.ext ?_ ?_
      · rw [List.filter_cons_of_pos (by simpa using asked)]
        refine congrArg (w :: ·) (List.filter_congr fun v inside => ?_)
        simp only [decide_eq_decide]
        exact others v inside
      · simp only [once.erase_eq_filter, List.filter_filter]
        refine List.filter_congr fun name _ => ?_
        by_cases same : name = w.key <;> simp [same]
    · rename_i unasked
      rw [selectedOperationWorkloads_eq distinct.2 once]
      refine Prod.ext ?_ ?_
      · rw [List.filter_cons_of_neg (by simpa using unasked)]
      · refine List.filter_congr fun name inside => ?_
        have other : name ≠ w.key := by
          rintro rfl
          exact unasked inside
        simp [other]

/-- A selection is everything, or exactly what was asked for in the order of
the dependencies, or an error if something asked for is missing. -/
theorem selectOperationWorkloads_eq {svc : Service} {app : App} {ordered : List Workload}
    (sorted : app.workloadsInDependencyOrder svc.sorter = .ok ordered) :
    selectOperationWorkloads svc app names =
      if requestedWorkloadNames names = [] then .ok ordered
      else if ∀ name ∈ requestedWorkloadNames names, name ∈ app.workloads.map Workload.key then
        .ok (ordered.filter fun w => w.key ∈ requestedWorkloadNames names)
      else .error (missingWorkloadError
        ((requestedWorkloadNames names).filter fun name => name ∉ app.workloads.map Workload.key)) := by
  obtain ⟨permuted, distinct, -⟩ := App.workloadsInDependencyOrder_ok sorted
  have keys : (ordered.map Workload.key).Perm (app.workloads.map Workload.key) := permuted.map _
  have missed : ((requestedWorkloadNames names).filter fun name => name ∉ ordered.map Workload.key) =
      (requestedWorkloadNames names).filter fun name => name ∉ app.workloads.map Workload.key := by
    refine List.filter_congr fun name _ => ?_
    simp only [keys.mem_iff]
  rw [selectOperationWorkloads, sorted]
  simp only [selectedOperationWorkloads_eq (keys.nodup_iff.mpr distinct)
    (requestedWorkloadNames_nodup names), missed, List.isEmpty_iff]
  split
  · rfl
  · simp only [List.filter_eq_nil_iff, decide_not, Bool.not_eq_true', decide_eq_false_iff_not, not_not]

end Orch
