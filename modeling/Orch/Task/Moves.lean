import Orch.Task.Calls
import Orch.Task.DeploySpecs
import Orch.Task.StopSpecs

namespace Orch

open Effect

/-- Where a placement decision sends the workload: to the chosen node, or else
to the first preferred one with a worker URL. -/
def Decision.lands (svc : Service) (d : Decision) : Option String :=
  match d.chosen with
  | .ok node => some node
  | .error _ => preferredConfiguredNode svc d.workload

def Decision.Sound (svc : Service) (d : Decision) : Prop :=
  d.chosen = choosePlacement d.workload d.catalog svc.localNode

section Outcomes

variable (svc : Service) (accepted : Prop) (f : Ledger) (app : App)

/-- Planning goes through the workloads in order. One that is recorded on its
target is left out, the others get a plan. -/
inductive Planning (Aims : Workload → String → List Decision → Prop) :
    List Workload → List Decision → List PlannedWorkloadMove → Prop
  | done : Planning Aims [] [] []
  | keep {w rest target own later plans} : Aims w target own →
      (f.getAssignment (assignmentKey app.metadata w.name)).isSome → stopTarget svc f app.metadata w.name = target →
        Planning Aims rest later plans → Planning Aims (w :: rest) (own ++ later) plans
  | move {w rest target own later plans} : Aims w target own → trimSpace target = target → target ≠ "" →
      ¬ ((f.getAssignment (assignmentKey app.metadata w.name)).isSome ∧ stopTarget svc f app.metadata w.name = target) →
        Planning Aims rest later plans → Planning Aims (w :: rest) (own ++ later)
          (⟨w, stopTarget svc f app.metadata w.name, target,
            (f.getAssignment (assignmentKey app.metadata w.name)).isSome⟩ :: plans)

def Spared (operation : Operation) (plan : PlannedWorkloadMove) (r : Records) : Prop :=
  operation = .failover ∧
    (r.getAssignment (assignmentKey app.metadata plan.workload.name)).map Assignment.status = some .failed

/-- The stop of one plan. A failover goes on after a stop that fails. -/
inductive Halt (operation : Operation) (generation : String) (plan : PlannedWorkloadMove) :
    Records → List Call → Bool → Records → Prop
  | skip {r} : plan.assigned = false ∨ Spared app operation plan r → Halt operation generation plan r [] true r
  | stop {r t} : plan.assigned = true → ¬ Spared app operation plan r →
      r.Recorded accepted (assignmentRecord app.metadata plan.workload plan.current .stopped generation none ""
        (artifactSummary plan.workload.run)) t →
        Halt operation generation plan r [.stop (workloadId app.metadata plan.workload.name) true] true t
  | refuse {r t calls err} : plan.assigned = true → ¬ Spared app operation plan r →
      calls = [.stop (workloadId app.metadata plan.workload.name) false] ∨ calls = [] →
      r.Recorded accepted (assignmentRecord app.metadata plan.workload plan.current .failed generation (some err) ""
        (artifactSummary plan.workload.run)) t →
        Halt operation generation plan r calls (decide (operation = .failover)) t

inductive Launch (generation : String) (plan : PlannedWorkloadMove) : Records → List Call → Bool → Records → Prop
  | start {r t address} :
      r.Recorded accepted (assignmentRecord app.metadata plan.workload plan.target .running generation none address
        (artifactSummary plan.workload.run)) t →
        Launch generation plan r [.start (workloadId app.metadata plan.workload.name) plan.target true] true t
  | refuse {r t calls err} : Broken (workloadId app.metadata plan.workload.name) plan.target calls →
      r.Recorded accepted (assignmentRecord app.metadata plan.workload plan.target .failed generation (some err) ""
        (artifactSummary plan.workload.run)) t →
        Launch generation plan r calls false t

/-- How a move may end: without a complete plan, with a stop that failed, or
after the starts up to the first that failed. -/
inductive MoveOutcome (operation : Operation) (Aims : Workload → String → List Decision → Prop) (workloads : List Workload) :
    List Call → List Decision → Bool → Records → Prop
  | unplanned {decisions} : MoveOutcome operation Aims workloads [] decisions false f.records
  | unstopped {decisions plans halts r} : Planning svc f app Aims workloads decisions plans →
      Rounds (Halt accepted app operation (appGeneration app)) plans.reverse f.records halts false r →
        MoveOutcome operation Aims workloads halts decisions false r
  | started {decisions plans halts r launches ok t} : Planning svc f app Aims workloads decisions plans →
      Rounds (Halt accepted app operation (appGeneration app)) plans.reverse f.records halts true r →
        Rounds (Launch accepted app (appGeneration app)) plans r launches ok t →
          MoveOutcome operation Aims workloads (halts ++ launches) decisions ok t

end Outcomes

section Reading

variable {svc : Service} {accepted : Prop} {f : Ledger} {app : App} {Aims : Workload → String → List Decision → Prop}
variable {operation : Operation} {workloads : List Workload} {decisions : List Decision} {plans : List PlannedWorkloadMove}
variable {calls : List Call} {ok : Bool} {t : Records}

theorem Planning.ready (planning : Planning svc f app Aims workloads decisions plans) :
    ∀ plan ∈ plans, plan.workload ∈ workloads ∧ trimSpace plan.target = plan.target ∧ plan.target ≠ "" := by
  induction planning with
  | done => simp
  | keep _ _ _ _ ih =>
    intro plan member
    exact ⟨List.mem_cons_of_mem _ (ih plan member).1, (ih plan member).2⟩
  | move _ clean placed _ _ ih =>
    intro plan member
    rcases List.mem_cons.mp member with rfl | later
    · exact ⟨List.mem_cons_self, clean, placed⟩
    · exact ⟨List.mem_cons_of_mem _ (ih plan later).1, (ih plan later).2⟩

theorem Planning.sublist (planning : Planning svc f app Aims workloads decisions plans) :
    (plans.map PlannedWorkloadMove.workload).Sublist workloads := by
  induction planning with
  | done => exact List.Sublist.refl _
  | keep _ _ _ _ ih => exact ih.cons _
  | move _ _ _ _ _ ih => exact ih.cons_cons _

/-- A plan has a target of its own, where the workload is not yet. -/
theorem Planning.of_plan (planning : Planning svc f app Aims workloads decisions plans) :
    ∀ plan ∈ plans, ∃ own, Aims plan.workload plan.target own ∧ own ⊆ decisions ∧
      ¬ ((f.getAssignment (assignmentKey app.metadata plan.workload.name)).isSome ∧
        stopTarget svc f app.metadata plan.workload.name = plan.target) := by
  induction planning with
  | done => simp
  | keep _ _ _ _ ih =>
    intro plan member
    obtain ⟨own, aimed, made, away⟩ := ih plan member
    exact ⟨own, aimed, List.subset_append_of_subset_right _ made, away⟩
  | move aimed _ _ away _ ih =>
    intro plan member
    rcases List.mem_cons.mp member with rfl | later
    · exact ⟨_, aimed, List.subset_append_left _ _, away⟩
    · obtain ⟨own, aimed, made, away⟩ := ih plan later
      exact ⟨own, aimed, List.subset_append_of_subset_right _ made, away⟩

section Targets

variable (owned : ∀ {w target own}, Aims w target own → ∀ d ∈ own, d.workload.key = w.key)
include owned

theorem Planning.decided (planning : Planning svc f app Aims workloads decisions plans) :
    ∀ d ∈ decisions, d.workload.key ∈ workloads.map Workload.key := by
  induction planning with
  | done => simp
  | keep aimed _ _ _ ih | move aimed _ _ _ _ ih =>
    intro d member
    rw [List.map_cons, List.mem_cons]
    rcases List.mem_append.mp member with own | later
    · exact .inl (owned aimed d own)
    · exact .inr (ih d later)

/-- Every workload has had a target: it is recorded there, or has a plan. The
decisions about it are those its target was taken from. -/
theorem Planning.of_workload (planning : Planning svc f app Aims workloads decisions plans)
    (distinct : (workloads.map Workload.key).Nodup) :
    ∀ w ∈ workloads, ∃ target own, Aims w target own ∧ (∀ d, d ∈ own ↔ d ∈ decisions ∧ d.workload.key = w.key) ∧
      (((f.getAssignment (assignmentKey app.metadata w.name)).isSome ∧ stopTarget svc f app.metadata w.name = target) ∨
        ∃ plan ∈ plans, plan.workload = w ∧ plan.target = target) := by
  -- Of the decisions about two parts, those about one of them are in its part.
  have first {w : Workload} {rest : List Workload} {target : String} {own later : List Decision}
      {plans : List PlannedWorkloadMove} (aimed : Aims w target own) (planning : Planning svc f app Aims rest later plans)
      (fresh : w.key ∉ rest.map Workload.key) (d : Decision) : d ∈ own ↔ d ∈ own ++ later ∧ d.workload.key = w.key := by
    refine ⟨fun here => ⟨List.mem_append_left _ here, owned aimed d here⟩, fun ⟨member, same⟩ => ?_⟩
    rcases List.mem_append.mp member with here | behind
    · exact here
    · exact absurd (same ▸ planning.decided owned d behind) fresh
  have second {w v : Workload} {rest : List Workload} {target : String} {own later kept : List Decision}
      (aimed : Aims w target own) (fresh : w.key ∉ rest.map Workload.key) (inside : v ∈ rest)
      (found : ∀ d, d ∈ kept ↔ d ∈ later ∧ d.workload.key = v.key) (d : Decision) :
      d ∈ kept ↔ d ∈ own ++ later ∧ d.workload.key = v.key := by
    rw [found]
    refine ⟨fun ⟨behind, same⟩ => ⟨List.mem_append_right _ behind, same⟩, fun ⟨member, same⟩ => ⟨?_, same⟩⟩
    rcases List.mem_append.mp member with here | behind
    · have shared : w.key = v.key := (owned aimed d here).symm.trans same
      exact absurd (shared ▸ List.mem_map_of_mem inside) fresh
    · exact behind
  induction planning with
  | done => simp
  | keep aimed assigned there planning ih =>
    rw [List.map_cons, List.nodup_cons] at distinct
    intro v member
    rcases List.mem_cons.mp member with rfl | inside
    · exact ⟨_, _, aimed, first aimed planning distinct.1, .inl ⟨assigned, there⟩⟩
    · obtain ⟨target, own, aimed', found, settled⟩ := ih distinct.2 v inside
      exact ⟨target, own, aimed', second aimed distinct.1 inside found, settled⟩
  | move aimed _ _ _ planning ih =>
    rw [List.map_cons, List.nodup_cons] at distinct
    intro v member
    rcases List.mem_cons.mp member with rfl | inside
    · exact ⟨_, _, aimed, first aimed planning distinct.1, .inr ⟨_, List.mem_cons_self, rfl, rfl⟩⟩
    · obtain ⟨target, own, aimed', found, settled⟩ := ih distinct.2 v inside
      refine ⟨target, own, aimed', second aimed distinct.1 inside found, settled.imp_right ?_⟩
      rintro ⟨plan, member, same⟩
      exact ⟨plan, List.mem_cons_of_mem _ member, same⟩

end Targets

theorem Halt.leaves {generation : String} {plan : PlannedWorkloadMove} {call : Call}
    (left : Leaves (Halt accepted app operation generation) plan call) :
    ∃ ok, call = .stop (workloadId app.metadata plan.workload.name) ok := by
  obtain ⟨r, own, ok, s, taken, member⟩ := left
  cases taken with
  | skip => simp at member
  | stop => exact ⟨true, by simpa using member⟩
  | refuse _ _ shape =>
    rcases shape with rfl | rfl
    · exact ⟨false, by simpa using member⟩
    · simp at member

theorem Launch.leaves {generation : String} {plan : PlannedWorkloadMove} {call : Call}
    (left : Leaves (Launch accepted app generation) plan call) :
    (∃ ok, call = .start (workloadId app.metadata plan.workload.name) plan.target ok) ∨
      ∃ ok, call = .stop (workloadId app.metadata plan.workload.name) ok := by
  obtain ⟨r, own, ok, s, taken, member⟩ := left
  cases taken with
  | start => exact .inl ⟨true, by simpa using member⟩
  | refuse broken =>
    rcases broken with rfl | rfl | ⟨ok, rfl⟩
    · simp at member
    · exact .inl ⟨false, by simpa using member⟩
    · simp only [List.mem_cons, List.not_mem_nil, or_false] at member
      exact member.imp (fun same => ⟨true, same⟩) fun same => ⟨ok, same⟩

theorem MoveOutcome.of_call (outcome : MoveOutcome svc accepted f app operation Aims workloads calls decisions ok t) :
    ∀ call ∈ calls, ∃ w ∈ workloads, call.id = workloadId app.metadata w.name := by
  intro call member
  have halted {plans halts} {ok : Bool} {r : Records} (planning : Planning svc f app Aims workloads decisions plans)
      (rounds : Rounds (Halt accepted app operation (appGeneration app)) plans.reverse f.records halts ok r)
      (member : call ∈ halts) : ∃ w ∈ workloads, call.id = workloadId app.metadata w.name := by
    obtain ⟨plan, inside, left⟩ := rounds.mem_mark member
    obtain ⟨ok, rfl⟩ := Halt.leaves left
    exact ⟨plan.workload, (planning.ready plan (List.mem_reverse.mp inside)).1, rfl⟩
  cases outcome with
  | unplanned => simp at member
  | unstopped planning rounds => exact halted planning rounds member
  | started planning halts launches =>
    rcases List.mem_append.mp member with early | late
    · exact halted planning halts early
    · obtain ⟨plan, inside, left⟩ := launches.mem_mark late
      refine ⟨plan.workload, (planning.ready plan inside).1, ?_⟩
      rcases Launch.leaves left with ⟨ok, rfl⟩ | ⟨ok, rfl⟩ <;> rfl

/-- Whatever a move starts was planned, for that node. -/
theorem MoveOutcome.of_start {id : WorkloadId} {node : String} {started : Bool}
    (outcome : MoveOutcome svc accepted f app operation Aims workloads calls decisions ok t)
    (member : .start id node started ∈ calls) :
    ∃ plans, Planning svc f app Aims workloads decisions plans ∧
      ∃ plan ∈ plans, workloadId app.metadata plan.workload.name = id ∧ plan.target = node := by
  have unstarted {plans halts} {ok : Bool} {r : Records}
      (rounds : Rounds (Halt accepted app operation (appGeneration app)) plans f.records halts ok r) :
      .start id node started ∉ halts := by
    intro member
    obtain ⟨plan, -, left⟩ := rounds.mem_mark member
    obtain ⟨ok, stop⟩ := Halt.leaves left
    cases stop
  cases outcome with
  | unplanned => simp at member
  | unstopped planning rounds => exact absurd member (unstarted rounds)
  | started planning halts launches =>
    rcases List.mem_append.mp member with early | late
    · exact absurd early (unstarted halts)
    · obtain ⟨plan, inside, left⟩ := launches.mem_mark late
      refine ⟨_, planning, plan, inside, ?_⟩
      rcases Launch.leaves left with ⟨ok, same⟩ | ⟨ok, same⟩
      · cases same
        exact ⟨rfl, rfl⟩
      · cases same

/-- A move that succeeds has started all that it planned. -/
theorem MoveOutcome.of_ok (outcome : MoveOutcome svc accepted f app operation Aims workloads calls decisions ok t)
    (passed : ok = true) : ∃ plans, Planning svc f app Aims workloads decisions plans ∧
      ∀ plan ∈ plans, .start (workloadId app.metadata plan.workload.name) plan.target true ∈ calls := by
  cases outcome with
  | unplanned | unstopped => cases passed
  | started planning halts launches =>
    refine ⟨_, planning, fun plan inside => List.mem_append_right _ ?_⟩
    obtain ⟨r, own, s, launched, made⟩ := launches.of_ok passed inside
    cases launched with
    | start => exact made List.mem_cons_self

end Reading

section Deciding

def TaskOp.undeciding : TaskOp → Bool
  | .choosePlacement _ => false
  | _ => true

abbrev Undeciding {α : Type} (p : Task α) : Prop := p.Asks fun op : TaskOp => op.undeciding = true

variable {svc : Service} {step : Steps TaskSig Scene} {s : Scene × Journal} {α : Type}
variable {metadata : Metadata} {app : App} {workload : Workload} {ctx : Ctx} {generation : String}

theorem Undeciding.logged {p : Task α} (undeciding : Undeciding p) :
    Ensures (Journaling svc step) anything (fun _ t => t.2.decisions = s.2.decisions) p s := by
  have kept {r op answer t} (held : r.2.decisions = s.2.decisions) (kind : op.undeciding = true)
      (taken : Journaling svc step r op answer t) : t.2.decisions = s.2.decisions := by
    have none : op.decision r.1.fsm.nodeCapacity answer = none := by
      cases op with
      | choosePlacement => cases kind
      | _ => rfl
    rw [taken.2]
    simp [Journal.jot, none, held]
  exact undeciding.keeps @kept rfl

private theorem undeciding_of_records {p : Task α} (records : p.Asks fun op : TaskOp => op.records = true) :
    Undeciding p := by
  refine records.mono fun op kind => ?_
  cases op with
  | choosePlacement => cases kind
  | _ => rfl

private theorem undeciding_of_handles {p : Task α} {id : WorkloadId} (handles : Handles id p) : Undeciding p := by
  refine handles.mono fun op kind => ?_
  cases op with
  | choosePlacement => exact kind.elim
  | _ => rfl

theorem stopWorkload_undeciding : Undeciding (stopWorkload svc ctx metadata workload) := by
  have target : Undeciding (stopTargetNode svc metadata workload.name) := by
    refine asks_then rfl ?_
    rintro (_ | assignment)
    · trivial
    · dsimp only
      split <;> trivial
  exact asks_bind target fun node => undeciding_of_handles stopWorkloadOnNode_handles

theorem runWorkloadOnNode_undeciding {node : String} : Undeciding (runWorkloadOnNode svc ctx metadata workload node) := by
  simp only [runWorkloadOnNode]
  split
  · trivial
  split
  · exact undeciding_of_handles runLocalWorkload_handles
  · refine asks_bind (undeciding_of_handles dispatchWorkload_handles) ?_
    rintro (err | _)
    · trivial
    · exact asks_then rfl fun _ => trivial

variable {operation : Operation} {plan : PlannedWorkloadMove}

theorem stopMovePlan_undeciding : Undeciding (stopMovePlan svc ctx app operation generation plan) := by
  have skipped : Undeciding (skipMoveStop app operation plan) := by
    unfold skipMoveStop
    split
    · trivial
    split
    · trivial
    · exact asks_then rfl fun _ => trivial
  refine asks_bind skipped ?_
  rintro (_ | _)
  · refine asks_bind stopWorkload_undeciding ?_
    rintro (err | _)
    · refine asks_bind (undeciding_of_records recordWorkload_records) fun _ => ?_
      split <;> trivial
    · exact asks_bind (undeciding_of_records recordWorkload_records) fun _ => trivial
  · trivial

theorem startMovePlan_undeciding : Undeciding (startMovePlan svc ctx app generation plan) := by
  refine asks_bind (undeciding_of_records applyWorkloadAssignment_records) fun _ => ?_
  refine asks_bind runWorkloadOnNode_undeciding ?_
  rintro (err | _) <;> exact asks_bind (undeciding_of_records recordWorkload_records) fun _ => trivial

theorem startMovePlans_undeciding : ∀ plans : List PlannedWorkloadMove,
    Undeciding (startMovePlans svc ctx app generation plans)
  | [] => trivial
  | plan :: rest => by
    refine asks_bind startMovePlan_undeciding ?_
    rintro (err | _)
    · trivial
    · exact asks_bind (startMovePlans_undeciding rest) fun _ => trivial

end Deciding

variable {targetFor : Workload → Task (Except Failure String)}

section Moving

variable {svc : Service} {step : Steps TaskSig Scene}
variable (within : step.Within (View.Step svc))
variable {f : Ledger} {app : App} {ctx : Ctx} {s : Scene × Journal}
include within

theorem ask_unnoted {op : TaskOp} (quiet : op.quiet = true) (undeciding : op.undeciding = true) :
    Ensures (Journaling svc step) anything (fun answer t => t = s ∧ step s.1 op answer s.1) (ask op) s := by
  refine ensures_ask trivial ?_
  rintro answer ⟨v, j⟩ ⟨taken, noted⟩
  obtain rfl : v = s.1 := (within taken).local.quiet quiet
  have silent : op.call svc.localNode answer = none := by
    cases op with
    | runtimeStop | runtimeDeploy | dispatchStop | dispatchWorkload => cases quiet
    | _ => rfl
  have unplaced : op.decision s.1.fsm.nodeCapacity answer = none := by
    cases op with
    | choosePlacement => cases undeciding
    | _ => rfl
  obtain rfl : j = s.2 := noted.trans (by simp [Journal.jot, silent, unplaced])
  exact ⟨rfl, taken⟩

theorem workloadAssignment_logged {metadata : Metadata} {name : String} :
    Ensures (Journaling svc step) anything
      (fun found t => found = s.1.fsm.getAssignment (assignmentKey metadata name) ∧ t = s)
      (workloadAssignment metadata name) s := by
  refine (ask_unnoted within rfl rfl).mono ?_
  rintro found t ⟨rfl, taken⟩
  exact ⟨(within taken).local.1, rfl⟩

theorem assignmentNodeOrEmpty_logged {metadata : Metadata} {name : String} :
    Ensures (Journaling svc step) anything
      (fun node t => node = s.1.fsm.recordedNode metadata name ∧ t = s) (assignmentNodeOrEmpty metadata name) s := by
  refine (workloadAssignment_logged within).bind ?_
  rintro found t ⟨rfl, rfl⟩
  unfold Ledger.recordedNode
  cases t.1.fsm.getAssignment (assignmentKey metadata name) <;> exact ⟨rfl, rfl⟩

theorem planWorkloadMoves_logged {Aims : Workload → String → List Decision → Prop}
    (targets : ∀ w s, s.1.fsm.records = f.records → Ensures (Journaling svc step) anything
      (fun result t => t.1.fsm.records = f.records ∧ t.2.calls = s.2.calls ∧ ∃ own, t.2.decisions = s.2.decisions ++ own ∧
        ∀ node, result = .ok node → Aims w (trimSpace node) own) (targetFor w) s) :
    ∀ {workloads : List Workload} {s : Scene × Journal}, s.1.fsm.records = f.records →
      Ensures (Journaling svc step) anything
        (fun result t => t.1.fsm.records = f.records ∧ t.2.calls = s.2.calls ∧ ∃ own, t.2.decisions = s.2.decisions ++ own ∧
          (result.2 = .ok () → Planning svc f app Aims workloads own result.1))
        (planWorkloadMoves svc app targetFor workloads) s
  | [], s, same => ⟨same, rfl, [], (List.append_nil _).symm, fun _ => .done⟩
  | w :: rest, s, same => by
    rw [planWorkloadMoves, normalizeMoveTarget, ensures_bind, ensures_bind]
    refine (targets w s same).mono ?_
    rintro (err | node) t ⟨same, calls, own, decisions, aimed⟩
    · exact ⟨same, calls, own, decisions, fun planned => by cases planned⟩
    dsimp only
    split
    · exact ⟨same, calls, own, decisions, fun planned => by cases planned⟩
    rename_i placed
    refine (workloadAssignment_logged within).bind ?_
    rintro found t ⟨rfl, rfl⟩
    refine (planWorkloadMoves_logged targets same).bind ?_
    rintro ⟨plans, result⟩ u ⟨same', calls', later, decisions', planned⟩
    have current : t.1.fsm.getAssignment (assignmentKey app.metadata w.name) =
        f.getAssignment (assignmentKey app.metadata w.name) :=
      congrArg (fun r : Records => r.getAssignment (assignmentKey app.metadata w.name)) same
    have notes : u.2.decisions = s.2.decisions ++ (own ++ later) := by rw [decisions', decisions, List.append_assoc]
    simp only [current, currentNode_eq]
    split
    · rename_i kept
      exact ⟨same', calls'.trans calls, _, notes, fun ok => .keep (aimed node rfl) kept.1 kept.2 (planned ok)⟩
    · rename_i moved
      exact ⟨same', calls'.trans calls, _, notes,
        fun ok => .move (aimed node rfl) (trimSpace_trimSpace _) placed moved (planned ok)⟩

variable {accepted : Prop}
variable (accepts : accepted → ∀ {v ctx command result u}, step v (.apply ctx command) result u → result = .ok ())
include accepts

variable {generation : String}

theorem stopMovePlan_logged {operation : Operation} {plan : PlannedWorkloadMove}
    (proper : Proper app.metadata plan.workload) :
    Ensures (Journaling svc step) anything
      (fun result t => ∃ own, Halt accepted app operation generation plan s.1.fsm.records own result.isOk t.1.fsm.records ∧
        t.2.calls = s.2.calls ++ own)
      (stopMovePlan svc ctx app operation generation plan) s := by
  have skipped : Ensures (Journaling svc step) anything
      (fun skip t => t = s ∧ (skip = true ↔ plan.assigned = false ∨ Spared app operation plan s.1.fsm.records))
      (skipMoveStop app operation plan) s := by
    unfold skipMoveStop
    split
    · rename_i unassigned
      exact ⟨rfl, fun _ => .inl (by simpa using unassigned), fun _ => rfl⟩
    rename_i assigned
    have assigned : plan.assigned = true := by simpa using assigned
    split
    · rename_i orderly
      exact ⟨rfl, by simp [assigned, Spared, orderly]⟩
    · rename_i failover
      refine (workloadAssignment_logged within).bind ?_
      rintro found t ⟨rfl, rfl⟩
      refine ⟨rfl, ?_⟩
      simp only [decide_eq_true_eq, assigned, Bool.true_eq_false, false_or, Spared, not_not.mp failover, true_and]
      rfl
  refine skipped.bind ?_
  rintro (_ | _) t ⟨rfl, skip⟩
  · have kept : ¬ (plan.assigned = false ∨ Spared app operation plan t.1.fsm.records) :=
      fun spared => Bool.false_ne_true (skip.mpr spared)
    rw [not_or, Bool.not_eq_false] at kept
    refine (stopWorkload_logged within proper).bind ?_
    rintro (err | _) u ⟨records, calls⟩
    · refine (recordWorkload_logged within accepts proper).bind ?_
      rintro _ last ⟨recorded, quiet⟩
      rw [records] at recorded
      have called : ∃ own, (own = [.stop (workloadId app.metadata plan.workload.name) false] ∨ own = []) ∧
          last.2.calls = t.2.calls ++ own := by
        rw [quiet]
        rcases calls with called | ⟨-, none⟩
        · exact ⟨_, .inl rfl, called⟩
        · exact ⟨[], .inr rfl, none.trans (List.append_nil _).symm⟩
      obtain ⟨own, shape, noted⟩ := called
      have refused : Halt accepted app operation generation plan t.1.fsm.records own (decide (operation = .failover))
          last.1.fsm.records := .refuse kept.1 kept.2 shape recorded
      by_cases failover : operation = .failover
      · rw [if_pos failover]
        rw [decide_eq_true failover] at refused
        exact ⟨own, refused, noted⟩
      · rw [if_neg failover]
        rw [decide_eq_false failover] at refused
        exact ⟨own, refused, noted⟩
    · refine (recordWorkload_logged within accepts proper).bind ?_
      rintro _ last ⟨recorded, quiet⟩
      rw [records] at recorded
      refine ⟨_, .stop kept.1 kept.2 recorded, quiet.trans ?_⟩
      rcases calls with called | ⟨refused, -⟩
      · exact called
      · cases refused
  · exact ⟨[], .skip (skip.mp rfl), (List.append_nil _).symm⟩

theorem startMovePlan_logged {plan : PlannedWorkloadMove} (proper : Proper app.metadata plan.workload)
    (clean : trimSpace plan.target = plan.target) (placed : plan.target ≠ "") :
    Ensures (Journaling svc step) anything
      (fun result t => ∃ own, Launch accepted app generation plan s.1.fsm.records own result.isOk t.1.fsm.records ∧
        t.2.calls = s.2.calls ++ own)
      (startMovePlan svc ctx app generation plan) s := by
  refine (applyWorkloadAssignment_walk proper (recording_logged within accepts proper)).bind ?_
  rintro _ t ⟨assigned, quiet⟩
  refine (runWorkloadOnNode_logged within proper clean placed).bind ?_
  rintro (err | ran) u ⟨records, ran⟩
  · obtain ⟨own, broken, calls⟩ := ran
    refine (recordWorkload_logged within accepts proper).bind ?_
    rintro _ last ⟨recorded, still⟩
    rw [records] at recorded
    exact ⟨own, .refuse broken (assigned.trans recorded rfl), by rw [still, calls, quiet]⟩
  · obtain ⟨status, calls⟩ := ran
    refine (recordWorkload_logged within accepts proper).bind ?_
    rintro _ last ⟨recorded, still⟩
    rw [records, status] at recorded
    exact ⟨_, .start (assigned.trans recorded rfl), by rw [still, calls, quiet]⟩

theorem startMovePlans_logged : ∀ {plans : List PlannedWorkloadMove} {s : Scene × Journal},
    (∀ plan ∈ plans, Proper app.metadata plan.workload ∧ trimSpace plan.target = plan.target ∧ plan.target ≠ "") →
    Ensures (Journaling svc step) anything
      (fun result t => ∃ own, Rounds (Launch accepted app generation) plans s.1.fsm.records own result.2.isOk t.1.fsm.records ∧
        t.2.calls = s.2.calls ++ own)
      (startMovePlans svc ctx app generation plans) s
  | [], s, _ => ⟨[], .done, (List.append_nil _).symm⟩
  | plan :: rest, s, ready => by
    obtain ⟨proper, clean, placed⟩ := ready plan List.mem_cons_self
    refine (startMovePlan_logged within accepts proper clean placed).bind ?_
    rintro (err | _) t ⟨own, launched, calls⟩
    · exact ⟨own, .fail launched, calls⟩
    refine (startMovePlans_logged fun plan member => ready plan (List.mem_cons_of_mem _ member)).bind ?_
    rintro ⟨moved, result⟩ u ⟨later, rounds, calls'⟩
    exact ⟨own ++ later, .next launched rounds, by rw [calls', calls, List.append_assoc]⟩

/-- The walk of a move, given what choosing a target comes to. -/
theorem moveAppWorkloads_logged {Aims : Workload → String → List Decision → Prop} {operation : Operation}
    {workloads : List Workload} (proper : ∀ w ∈ workloads, Proper app.metadata w)
    (targets : ∀ w s, s.1.fsm.records = f.records → Ensures (Journaling svc step) anything
      (fun result t => t.1.fsm.records = f.records ∧ t.2.calls = s.2.calls ∧ ∃ own, t.2.decisions = s.2.decisions ++ own ∧
        ∀ node, result = .ok node → Aims w (trimSpace node) own) (targetFor w) s)
    (same : s.1.fsm.records = f.records) :
    Ensures (Journaling svc step) anything
      (fun result t => ∃ calls decisions, t.2.calls = s.2.calls ++ calls ∧ t.2.decisions = s.2.decisions ++ decisions ∧
        MoveOutcome svc accepted f app operation Aims workloads calls decisions result.2.isOk t.1.fsm.records)
      (moveAppWorkloads svc ctx app operation workloads targetFor) s := by
  refine (planWorkloadMoves_logged within targets same).bind ?_
  rintro ⟨plans, result⟩ t ⟨same, calls, own, decisions, planned⟩
  cases result with
  | error err =>
    refine ⟨[], own, by rw [calls, List.append_nil], decisions, ?_⟩
    rw [same]
    exact .unplanned
  | ok =>
    have planned := planned rfl
    have ready (plan : PlannedWorkloadMove) (member : plan ∈ plans) : Proper app.metadata plan.workload ∧
        trimSpace plan.target = plan.target ∧ plan.target ≠ "" :=
      ⟨proper _ (planned.ready plan member).1, (planned.ready plan member).2⟩
    dsimp only
    split
    · rename_i none
      have none : plans = [] := List.isEmpty_iff.mp none
      subst none
      refine ⟨[], own, by rw [calls, List.append_nil], decisions, ?_⟩
      rw [same]
      exact .started planned .done .done
    rw [ensures_bind]
    have stops : Ensures (Journaling svc step) anything
        (fun result u => ∃ halts, Rounds (Halt accepted app operation (appGeneration app)) plans.reverse t.1.fsm.records halts
          result.isOk u.1.fsm.records ∧ u.2.calls = t.2.calls ++ halts)
        (stopMovePlans svc ctx app operation (appGeneration app) plans) t := by
      refine ensures_rounds (fun t : Scene × Journal => t.1.fsm.records)
        (fun t : Scene × Journal => t.2.calls) ?_
      intro plan member s
      exact stopMovePlan_logged within accepts (ready plan (List.mem_reverse.mp member)).1
    have unmoved : Undeciding (stopMovePlans svc ctx app operation (appGeneration app) plans) :=
      asks_eachUntil (fun plan => stopMovePlan_undeciding) _
    refine (stops.and unmoved.logged).mono ?_
    rintro result u ⟨⟨halts, rounds, halted⟩, silent⟩
    rw [same] at rounds
    cases result with
    | error err =>
      exact ⟨halts, own, by rw [halted, calls], by rw [silent, decisions], .unstopped planned rounds⟩
    | ok =>
      refine ((startMovePlans_logged within accepts ready).and (startMovePlans_undeciding plans).logged).bind ?_
      rintro ⟨moved, started⟩ last ⟨⟨launches, later, launched⟩, still⟩
      have outcome : MoveOutcome svc accepted f app operation Aims workloads (halts ++ launches) own started.isOk
          last.1.fsm.records := .started planned rounds later
      cases started <;>
        exact ⟨_, own, by rw [launched, halted, calls, List.append_assoc], by rw [still, silent, decisions], outcome⟩

end Moving

def Ledger.Failed (f : Ledger) (metadata : Metadata) (w : Workload) : Prop :=
  (f.getAssignment (assignmentKey metadata w.name)).map Assignment.status = some .failed

instance (f : Ledger) (metadata : Metadata) : DecidablePred (f.Failed metadata) := fun _ =>
  inferInstanceAs (Decidable (_ = _))

def failoverSelection (svc : Service) (f : Ledger) (app : App) (names : List String) : Except Failure (List Workload) :=
  match selectOperationWorkloads svc app names with
  | .error err => .error err
  | .ok workloads =>
    if !names.isEmpty then .ok workloads
    else if (workloads.filter (f.Failed app.metadata)).isEmpty then
      .error (.errorf "deploy app %s/%s has no failed workloads"
        [.text (namespaceOrDefault app.metadata.nspace), .text app.metadata.name])
    else .ok (workloads.filter (f.Failed app.metadata))

theorem failoverSelection_sublist {svc : Service} {f : Ledger} {app : App} {names : List String} {selected : List Workload}
    (picked : failoverSelection svc f app names = .ok selected) :
    ∃ workloads, selectOperationWorkloads svc app names = .ok workloads ∧ selected.Sublist workloads := by
  unfold failoverSelection at picked
  split at picked
  · cases picked
  rename_i workloads found
  refine ⟨workloads, found, ?_⟩
  split at picked
  · cases picked
    exact List.Sublist.refl _
  split at picked
  · cases picked
  · cases picked
    exact List.filter_sublist

namespace MoveOp

def metadata : MoveOp → Metadata
  | .migrate metadata _ | .failover metadata _ | .rebalance metadata _ => metadata

def opts : MoveOp → AppOperationOptions
  | .migrate _ opts | .failover _ opts | .rebalance _ opts => opts

def operation : MoveOp → Operation
  | .migrate _ _ => .migrate
  | .failover _ _ => .failover
  | .rebalance _ _ => .rebalance

def selection (svc : Service) (f : Ledger) (app : App) (move : MoveOp) : Except Failure (List Workload) :=
  if move.operation = .failover then failoverSelection svc f app move.opts.workloads
  else selectOperationWorkloads svc app move.opts.workloads

variable {svc : Service} {f : Ledger} {app : App} {move : MoveOp} {selected : List Workload}

theorem selection_sublist (picked : move.selection svc f app = .ok selected) :
    ∃ ordered, app.workloadsInDependencyOrder svc.sorter = .ok ordered ∧ selected.Sublist ordered := by
  unfold selection at picked
  split at picked
  · obtain ⟨workloads, asked, sublist⟩ := failoverSelection_sublist picked
    obtain ⟨ordered, sorted, within⟩ := selectOperationWorkloads_sublist asked
    exact ⟨ordered, sorted, sublist.trans within⟩
  · exact selectOperationWorkloads_sublist picked

theorem selection_distinct (picked : move.selection svc f app = .ok selected) : (selected.map Workload.key).Nodup := by
  obtain ⟨ordered, sorted, sublist⟩ := selection_sublist picked
  obtain ⟨perm, distinct, -⟩ := App.workloadsInDependencyOrder_ok sorted
  exact (sublist.map Workload.key).nodup ((perm.map Workload.key).nodup_iff.mpr distinct)

theorem selection_subset (picked : move.selection svc f app = .ok selected) : ∀ x ∈ selected, x ∈ app.workloads := by
  obtain ⟨ordered, sorted, sublist⟩ := selection_sublist picked
  intro x member
  exact (App.workloadsInDependencyOrder_ok sorted).1.mem_iff.mp (sublist.subset member)

theorem selection_present (picked : move.selection svc f app = .ok selected) : ∀ x ∈ selected, x.key ≠ "" := by
  obtain ⟨ordered, sorted, -⟩ := selection_sublist picked
  intro x member
  exact (App.workloadsInDependencyOrder_ok sorted).2.2 x (selection_subset picked x member)

theorem selection_unique {x y : Workload} (picked : move.selection svc f app = .ok selected)
    (left : x ∈ app.workloads) (right : y ∈ app.workloads)
    (same : workloadId app.metadata x.name = workloadId app.metadata y.name) : x = y := by
  obtain ⟨ordered, sorted, -⟩ := selection_sublist picked
  have keys : x.key = y.key := congrArg WorkloadId.workload same
  exact List.inj_on_of_nodup_map (App.workloadsInDependencyOrder_ok sorted).2.1 left right keys

/-- The workload as a failover submits it to placement: with the nodes it may
go to as its preferences. -/
def candidate (svc : Service) (f : Ledger) (app : App) (w : Workload) (ids : List String) : Workload :=
  failoverCandidate w (alternativeNodeCandidates svc (f.recordedNode app.metadata w.name) ids)

def Sent (svc : Service) (asked : Workload) (target : String) (decisions : List Decision) : Prop :=
  ∃ d node, decisions = [d] ∧ d.Sound svc ∧ d.workload = asked ∧ d.lands svc = some node ∧ trimSpace node = target

/-- The target of a workload, and the decision it was taken from. -/
def Aims (svc : Service) (f : Ledger) (app : App) (move : MoveOp) (w : Workload) (target : String)
    (decisions : List Decision) : Prop :=
  match move with
  | .migrate _ opts => target = trimSpace opts.targetNode ∧ decisions = []
  | .rebalance _ _ => Sent svc w target decisions
  | .failover _ opts =>
    if trimSpace opts.targetNode ≠ "" then target = trimSpace opts.targetNode ∧ decisions = []
    else ∃ ids, alternativeNodeCandidates svc (f.recordedNode app.metadata w.name) ids ≠ [] ∧
      Sent svc (candidate svc f app w ids) target decisions

theorem Aims.owned {w : Workload} {target : String} {own : List Decision} (aimed : move.Aims svc f app w target own) :
    ∀ d ∈ own, d.workload.key = w.key := by
  have sent {asked : Workload} (named : asked.key = w.key) (sent : Sent svc asked target own) :
      ∀ d ∈ own, d.workload.key = w.key := by
    obtain ⟨d, node, rfl, -, rfl, -⟩ := sent
    simpa using named
  cases move with
  | migrate =>
    obtain ⟨-, rfl⟩ := aimed
    simp
  | rebalance => exact sent rfl aimed
  | failover =>
    simp only [Aims] at aimed
    split at aimed
    · obtain ⟨-, rfl⟩ := aimed
      simp
    · obtain ⟨ids, -, chosen⟩ := aimed
      have named : (candidate svc f app w ids).key = w.key := rfl
      exact sent named chosen

end MoveOp

section Operations

variable {svc : Service} {step : Steps TaskSig Scene}
variable (within : step.Within (View.Step svc))
variable {f : Ledger} {app : App} {ctx : Ctx} {s : Scene × Journal}
include within

theorem operationApp_logged {metadata : Metadata} :
    Ensures (Journaling svc step) anything
      (fun found t => t = s ∧ ∀ app, found = .ok app → s.1.fsm.getDeployApp metadata = some app) (operationApp metadata) s := by
  have key := deployAppMapKey_normalizeOperationMetadata metadata
  simp only [operationApp]
  split
  · exact ⟨rfl, fun _ found => by cases found⟩
  refine (ask_unnoted within rfl rfl).bind ?_
  rintro (_ | app) t ⟨rfl, taken⟩
  · exact ⟨rfl, fun _ found => by cases found⟩
  · obtain ⟨desired, -⟩ := (within taken).local
    rw [Ledger.getDeployApp_congr key] at desired
    refine ⟨rfl, ?_⟩
    rintro _ ⟨⟩
    exact desired.symm

theorem failedWorkloads_logged {metadata : Metadata} : ∀ {workloads : List Workload},
    Ensures (Journaling svc step) anything (fun failed t => failed = workloads.filter (s.1.fsm.Failed metadata) ∧ t = s)
      (failedWorkloads metadata workloads) s
  | [] => ⟨rfl, rfl⟩
  | w :: rest => by
    refine (workloadAssignment_logged within).bind ?_
    rintro found t ⟨rfl, same⟩
    rw [same]
    refine Ensures.bind failedWorkloads_logged ?_
    rintro failed u ⟨rfl, still⟩
    split
    · rename_i failed
      have failed : s.1.fsm.Failed metadata w := failed
      rw [List.filter_cons_of_pos (by simpa using failed)]
      exact ⟨rfl, still⟩
    · rename_i other
      have other : ¬ s.1.fsm.Failed metadata w := other
      rw [List.filter_cons_of_neg (by simpa using other)]
      exact ⟨rfl, still⟩

theorem failoverWorkloads_logged {names : List String} :
    Ensures (Journaling svc step) anything
      (fun selected t => selected = failoverSelection svc s.1.fsm app names ∧ t = s) (failoverWorkloads svc app names) s := by
  unfold failoverWorkloads failoverSelection
  cases selectOperationWorkloads svc app names with
  | error err => exact ⟨rfl, rfl⟩
  | ok workloads =>
    dsimp only
    split
    · exact ⟨rfl, rfl⟩
    refine (failedWorkloads_logged within).bind ?_
    rintro failed t ⟨rfl, rfl⟩
    split
    · exact ⟨rfl, rfl⟩
    · exact ⟨rfl, rfl⟩

theorem chooseWorkloadNode_logged {w : Workload} :
    Ensures (Journaling svc step) anything
      (fun result t => t.1 = s.1 ∧ t.2.calls = s.2.calls ∧ ∃ own, t.2.decisions = s.2.decisions ++ own ∧
        ∀ node, result = .ok node → MoveOp.Sent svc w (trimSpace node) own)
      (chooseWorkloadNode svc w) s := by
  refine ⟨trivial, ?_⟩
  rintro chosen t ⟨taken, noted⟩
  obtain ⟨placed, same⟩ := (within taken).local
  have calls : t.2.calls = s.2.calls := by
    rw [noted]
    exact List.append_nil _
  have decisions : t.2.decisions = s.2.decisions ++ [⟨w, s.1.fsm.nodeCapacity, chosen⟩] := by rw [noted]; rfl
  rcases chosen with err | node
  · dsimp only
    split
    · exact ⟨same, calls, _, decisions, nofun⟩
    · rename_i fallback preferred
      refine ⟨same, calls, _, decisions, ?_⟩
      rintro _ ⟨⟩
      exact ⟨_, fallback, rfl, placed, rfl, preferred, rfl⟩
  · refine ⟨same, calls, _, decisions, ?_⟩
    rintro _ ⟨⟩
    exact ⟨_, node, rfl, placed, rfl, rfl, rfl⟩

theorem refreshLocal_logged (same : s.1.fsm.records = f.records) :
    Ensures (Journaling svc step) anything
      (fun _ t => t.1.fsm.records = f.records ∧ t.2.calls = s.2.calls ∧ t.2.decisions = s.2.decisions)
      (refreshLocal svc ctx) s := by
  have undeciding : Undeciding (refreshLocal svc ctx) := by
    refine asks_then rfl ?_
    rintro (err | report)
    · trivial
    refine asks_then rfl ?_
    rintro (_ | _)
    · trivial
    refine asks_then rfl ?_
    rintro (err | _) <;> trivial
  have idle : Idle (refreshLocal svc ctx) := refreshLocal_idle
  have kept := (lasting_logged within (P := fun r calls => r = f.records ∧ calls = s.2.calls)).ensures idle ⟨same, rfl⟩
  refine (kept.and undeciding.logged).mono ?_
  rintro _ t ⟨⟨records, calls⟩, decisions⟩
  exact ⟨records, calls, decisions⟩

theorem failoverTarget_logged {metadata : Metadata} {opts : AppOperationOptions} {w : Workload}
    (same : s.1.fsm.records = f.records) :
    Ensures (Journaling svc step) anything
      (fun result t => t.1.fsm.records = f.records ∧ t.2.calls = s.2.calls ∧ ∃ own, t.2.decisions = s.2.decisions ++ own ∧
        ∀ node, result = .ok node → (MoveOp.failover metadata opts).Aims svc f app w (trimSpace node) own)
      (if trimSpace opts.targetNode ≠ "" then return .ok (trimSpace opts.targetNode)
        else do chooseFailoverNode svc ctx w (← assignmentNodeOrEmpty app.metadata w.name)) s := by
  by_cases given : trimSpace opts.targetNode ≠ ""
  · rw [if_pos given]
    refine ⟨same, rfl, [], (List.append_nil _).symm, ?_⟩
    rintro _ ⟨⟩
    simp only [MoveOp.Aims, if_pos given, trimSpace_trimSpace, and_self]
  · rw [if_neg given]
    refine (assignmentNodeOrEmpty_logged within).bind ?_
    rintro node t ⟨rfl, rfl⟩
    have current : t.1.fsm.recordedNode app.metadata w.name = f.recordedNode app.metadata w.name :=
      Ledger.recordedNode_congr (congrArg Records.assignments same) _ _
    rw [current, chooseFailoverNode, ensures_bind]
    refine (refreshLocal_logged within same).mono ?_
    rintro _ u ⟨records, calls, decisions⟩
    rw [ensures_bind]
    refine (ask_unnoted within rfl rfl).mono ?_
    rintro ids u' ⟨rfl, -⟩
    dsimp only
    split
    · exact ⟨records, calls, [], by rw [decisions, List.append_nil], nofun⟩
    rename_i some
    refine (chooseWorkloadNode_logged within).mono ?_
    rintro result last ⟨still, calls', own, decisions', sent⟩
    refine ⟨by rw [still, records], calls'.trans calls, own, by rw [decisions', decisions], fun node found => ?_⟩
    simp only [MoveOp.Aims, if_neg given]
    exact ⟨ids, by simpa using some, sent node found⟩

variable {accepted : Prop}
variable (accepts : accepted → ∀ {v ctx command result u}, step v (.apply ctx command) result u → result = .ok ())
include accepts

omit accepts within in
/-- An operation that is not turned away at once is a move of the workloads it
selects from the desired app. -/
def MoveOp.Logged (svc : Service) (accepted : Prop) (move : MoveOp) (s : Scene × Journal)
    (result : OperationResult) (t : Scene × Journal) : Prop :=
  (t.1.fsm.records = s.1.fsm.records ∧ t.2.calls = s.2.calls ∧ result.2.isOk = false) ∨
    ∃ app workloads calls decisions, s.1.fsm.getDeployApp move.metadata = some app ∧
      move.selection svc s.1.fsm app = .ok workloads ∧ t.2.calls = s.2.calls ++ calls ∧
      t.2.decisions = s.2.decisions ++ decisions ∧
      MoveOutcome svc accepted s.1.fsm app move.operation (move.Aims svc s.1.fsm app) workloads calls decisions
        result.2.isOk t.1.fsm.records

/-- A move with the journal it keeps, whatever its calls answer. -/
theorem MoveOp.logged {move : MoveOp} (named : ∀ app, s.1.fsm.getDeployApp move.metadata = some app →
      trimSpace app.metadata.name ≠ "") :
    Ensures (Journaling svc step) anything (move.Logged svc accepted s) (move.program svc ctx) s := by
  have moves {app : App} {workloads : List Workload} {targetFor : Workload → Task (Except Failure String)}
      {t : Scene × Journal} (desired : s.1.fsm.getDeployApp move.metadata = some app)
      (selected : move.selection svc s.1.fsm app = .ok workloads)
      (targets : ∀ w s', s'.1.fsm.records = s.1.fsm.records → Ensures (Journaling svc step) anything
        (fun result t => t.1.fsm.records = s.1.fsm.records ∧ t.2.calls = s'.2.calls ∧ ∃ own,
          t.2.decisions = s'.2.decisions ++ own ∧ ∀ node, result = .ok node → move.Aims svc s.1.fsm app w (trimSpace node) own)
        (targetFor w) s')
      (records : t.1.fsm.records = s.1.fsm.records) (calls : t.2.calls = s.2.calls)
      (decisions : t.2.decisions = s.2.decisions) :
      Ensures (Journaling svc step) anything (move.Logged svc accepted s)
        (moveAppWorkloads svc ctx app move.operation workloads targetFor) t := by
    have proper (w : Workload) (member : w ∈ workloads) : Proper app.metadata w :=
      ⟨named app desired, MoveOp.selection_present selected w member⟩
    refine (moveAppWorkloads_logged within accepts proper targets records).mono ?_
    rintro result u ⟨own, made, calls', decisions', outcome⟩
    exact .inr ⟨app, workloads, own, made, desired, selected, by rw [calls', calls], by rw [decisions', decisions], outcome⟩
  cases move with
  | migrate metadata opts =>
    simp only [program, submitMigrate]
    split
    · exact .inl ⟨rfl, rfl, rfl⟩
    refine (operationApp_logged within).bind ?_
    rintro (err | app) t ⟨rfl, found⟩
    · exact .inl ⟨rfl, rfl, rfl⟩
    dsimp only
    split
    · exact .inl ⟨rfl, rfl, rfl⟩
    rename_i picked
    refine moves (found app rfl) picked (fun w u same => ?_) rfl rfl rfl
    refine ⟨same, rfl, [], (List.append_nil _).symm, ?_⟩
    rintro _ ⟨⟩
    exact ⟨trimSpace_trimSpace _, rfl⟩
  | failover metadata opts =>
    simp only [program, submitFailover]
    refine (operationApp_logged within).bind ?_
    rintro (err | app) t ⟨rfl, found⟩
    · exact .inl ⟨rfl, rfl, rfl⟩
    refine (failoverWorkloads_logged within).bind ?_
    rintro selected u ⟨selection, rfl⟩
    cases selected with
    | error err => exact .inl ⟨rfl, rfl, rfl⟩
    | ok workloads =>
      exact moves (found app rfl) selection.symm (fun w u same => failoverTarget_logged within same) rfl rfl rfl
  | rebalance metadata opts =>
    simp only [program, submitRebalance]
    refine (operationApp_logged within).bind ?_
    rintro (err | app) t ⟨rfl, found⟩
    · exact .inl ⟨rfl, rfl, rfl⟩
    dsimp only
    split
    · exact .inl ⟨rfl, rfl, rfl⟩
    rename_i picked
    refine (refreshLocal_logged within rfl).bind ?_
    rintro _ u ⟨records, calls, decisions⟩
    refine moves (found app rfl) picked (fun w u same => ?_) records calls decisions
    refine (chooseWorkloadNode_logged within).mono ?_
    rintro result last ⟨still, calls', own, decisions', sent⟩
    exact ⟨by rw [still, same], calls', own, decisions', sent⟩

end Operations

/-- A run of a move does nothing, or what its plans for the selected workloads say. -/
theorem MoveOp.outcome {svc : Service} {ctx : Ctx} {move : MoveOp} {app : App} {w u : World instanceRuntime}
    {trace : List (Event TaskSig (World instanceRuntime))} {result : OperationResult}
    (desired : w.fsm.getDeployApp move.metadata = some app) (named : trimSpace app.metadata.name ≠ "")
    (run : Run (World.machine instanceRuntime svc).Step (move.program svc ctx) w trace (pure result) u) :
    ((World.journal svc trace).calls = [] ∧ result.2.isOk = false) ∨
      ∃ workloads, move.selection svc w.fsm.toLedger app = .ok workloads ∧
        MoveOutcome svc False w.fsm.toLedger app move.operation (move.Aims svc w.fsm.toLedger app) workloads
          (World.journal svc trace).calls (World.journal svc trace).decisions result.2.isOk u.fsm.records := by
  have named (doc : App) (found : w.view.fsm.getDeployApp move.metadata = some doc) : trimSpace doc.metadata.name ≠ "" := by
    obtain rfl : app = doc := Option.some.inj (desired.symm.trans found)
    exact named
  have ensured : Ensures (Journaling svc (View.Step svc)) anything _ (move.program svc ctx) (w.view, {}) :=
    MoveOp.logged (fun taken => taken) (fun never : False => never.elim) named
  rcases World.logged World.view_step ensured run with ⟨-, silent, refused⟩ | ⟨doc, workloads, calls, decisions, found, rest⟩
  · exact .inl ⟨silent, refused⟩
  · obtain rfl : app = doc := Option.some.inj (desired.symm.trans found)
    obtain ⟨selected, called, decided, outcome⟩ := rest
    rw [List.nil_append] at called decided
    rw [← called, ← decided] at outcome
    exact .inr ⟨workloads, selected, outcome⟩

def World.reaching : Choice instanceRuntime :=
  { World.smoothly "a" with attempts := [List.replicate 8 (World.smooth "a")] }

/-- A cluster that has been told of an app and has one of its workloads on
record. -/
def World.having (app : App) (x : Workload) (node : String) (status : AssignmentStatus) : World instanceRuntime :=
  let w := World.told app
  { w with fsm := w.fsm.update (.upsertWorkloadAssignment
      (assignmentRecord app.metadata x node status (appGeneration app) none "" (artifactSummary x.run))) }

/-- The calls of a move that is played to its end, and whether it succeeds. -/
def MoveOp.played (move : MoveOp) (choices : List (Choice instanceRuntime)) (w : World instanceRuntime) :
    Option (List Call × Bool) :=
  let program := move.program sampleService {}
  (program.play (World.machine instanceRuntime sampleService) choices w).bind fun ended =>
    (program.trace (World.machine instanceRuntime sampleService) choices w).map fun trace =>
      ((World.journal sampleService trace).calls, ended.2.2.isOk)

theorem MoveOp.exists_run {move : MoveOp} {choices : List (Choice instanceRuntime)} {w : World instanceRuntime}
    {calls : List Call} {ok : Bool} (played : move.played choices w = some (calls, ok)) :
    ∃ u trace result, Run (World.machine instanceRuntime sampleService).Step (move.program sampleService {}) w trace
      (pure result) u ∧ (World.journal sampleService trace).calls = calls ∧ result.2.isOk = ok := by
  obtain ⟨⟨u, result⟩, ended, traced⟩ := Option.bind_eq_some_iff.mp played
  obtain ⟨trace, followed, same⟩ := Option.map_eq_some_iff.mp traced
  obtain ⟨called, passed⟩ := Prod.mk.inj same
  exact ⟨u, trace, result, run_of_play ended followed, called, passed⟩

end Orch
