import Orch.Effect.Parallel
import Orch.Task.DeploySpecs
import Orch.Task.Progress

namespace Orch

open Effect

variable {R : Runtime} {ι : Type}

def TaskOp.sample : (op : TaskOp) → op.Answer → Option HostReport
  | .collectHostInfo, .ok report => some report
  | _, _ => none

def SampledIn (trace : List (ι × Event TaskSig (World R))) (i : ι) (report : HostReport) : Prop :=
  ∃ event, (i, event) ∈ trace ∧ TaskOp.sample event.op event.answer = some report

/-- The catalog has a snapshot of the node that is no older than this. -/
def KnownSince (catalog : Table Snapshot) (node : String) (since : Nat) (good : Snapshot → Prop) : Prop :=
  ∃ snap, catalog.lookup node = some snap ∧ since ≤ snap.updatedAt ∧ good snap

/-- For every refresh that has returned without an error, the catalog has a
snapshot of its node that is at least as recent. -/
def CapacityKnown (svcs : ι → Service) (trace : List (ι × Event TaskSig (World R))) (rest : ι → Task Check) (w : World R)
    (good : Snapshot → Prop) : Prop :=
  ∀ i, rest i = .pure (.ok ()) → ∃ report, SampledIn trace i report ∧
    KnownSince w.fsm.nodeCapacity (svcs i).localNode report.sampledAt good

/-- The capacity of every node that was refreshed reaches placement: a workload
that may go anywhere is given no node, or one without room for it, only if none
of those nodes has room. -/
def CapacityReaches (svcs : ι → Service) (trace : List (ι × Event TaskSig (World R))) (rest : ι → Task Check)
    (w : World R) : Prop :=
  CapacityKnown svcs trace rest w (fun _ => True) ∧
    ∀ (x : Workload) (localNodeID : String), preferredNames x = none →
      (¬ ∃ chosen, choosePlacement x w.fsm.nodeCapacity localNodeID = .ok chosen ∧
        HasRoom x w.fsm.nodeCapacity (trimSpace chosen)) →
      CapacityKnown svcs trace rest w
        fun snap => feasible (x.resources.getD {}).cpuMillis (x.resources.getD {}).memoryBytes snap = false

/-- How far a refresh has come, with the sample it has taken. -/
inductive RefreshStage where
  | fresh
  | sampled (report : HostReport)
  | leading (report : HostReport)
  | ended (report : HostReport) (result : Check)
  | unsampled (err : Failure)

namespace RefreshStage

def report : RefreshStage → Option HostReport
  | .sampled report | .leading report | .ended report _ => some report
  | .fresh | .unsampled _ => none

/-- The sample is taken and not yet dealt with. -/
def underway : RefreshStage → Bool
  | .sampled _ | .leading _ => true
  | _ => false

inductive Rest (svc : Service) (ctx : Ctx) : RefreshStage → Task Check → Prop
  | fresh : Rest svc ctx .fresh (refreshLocal svc ctx)
  | sampled {report next} (follows : next false = .pure (.ok ())) (leads : Rest svc ctx (.leading report) (next true)) :
      Rest svc ctx (.sampled report) (.call .isLocalLeader next)
  | leading {report next} (stored : next (.ok ()) = .pure (.ok ()))
      (refused : ∀ err, ∃ cause, next (.error err) = .pure (.error cause)) :
      Rest svc ctx (.leading report) (.call (.apply ctx (.upsertNodeCapacity (snapshotFromReport svc.localNode report))) next)
  | ended {report result} : Rest svc ctx (.ended report result) (.pure result)
  | unsampled {err} : Rest svc ctx (.unsampled err) (.pure (.error err))

inductive Move (svc : Service) (s t : World R) : RefreshStage → RefreshStage → Prop
  | sampled {report} (dated : report.sampledAt = t.now) (same : t.fsm.nodeCapacity = s.fsm.nodeCapacity) :
      Move svc s t .fresh (.sampled report)
  | unsampled {err} (same : t.fsm.nodeCapacity = s.fsm.nodeCapacity) : Move svc s t .fresh (.unsampled err)
  | leads {report} (same : t.fsm.nodeCapacity = s.fsm.nodeCapacity) : Move svc s t (.sampled report) (.leading report)
  | stored {report} (inserted : t.fsm.nodeCapacity =
        s.fsm.nodeCapacity.insert svc.localNode (snapshotFromReport svc.localNode report)) :
      Move svc s t (.leading report) (.ended report (.ok ()))
  | refused {report err} (left : t.fsm.nodeCapacity = s.fsm.nodeCapacity ∨ t.fsm.nodeCapacity =
        s.fsm.nodeCapacity.insert svc.localNode (snapshotFromReport svc.localNode report)) :
      Move svc s t (.leading report) (.ended report (.error err))

end RefreshStage

/-- The steps of refreshes whose node leads when they look whether it does. -/
def World.LedStep (svc : Service) : Steps TaskSig (World R) := fun s op answer t =>
  (World.machine R svc).Step s op answer t ∧ (op = .isLocalLeader → t.leader = some svc.localNode)

variable {after : RefreshStage}

namespace RefreshStage

variable {svc : Service} {s t : World R} {stage : RefreshStage}

theorem Move.report (moved : Move svc s t stage after) {report : HostReport}
    (taken : after.report = some report) : report.sampledAt = t.now ∨ stage.report = some report := by
  cases moved with
  | sampled dated =>
    cases taken
    exact .inl dated
  | unsampled => cases taken
  | leads | stored | refused => exact .inr taken

theorem Move.catalog (moved : Move svc s t stage after) :
    t.fsm.nodeCapacity = s.fsm.nodeCapacity ∨ ∃ report, stage = .leading report ∧ t.fsm.nodeCapacity =
      s.fsm.nodeCapacity.insert svc.localNode (snapshotFromReport svc.localNode report) := by
  cases moved with
  | sampled _ same | unsampled same | leads same => exact .inl same
  | @stored report inserted => exact .inr ⟨report, rfl, inserted⟩
  | @refused report err left => exact left.imp_right fun inserted => ⟨report, rfl, inserted⟩

theorem Rest.move {ctx : Ctx} {p : Task Check} {op : TaskOp} {next : op.Answer → Task Check} {answer : op.Answer}
    (left : Rest svc ctx stage p) (asks : p = .call op next) (taken : World.LedStep svc s op answer t) :
    ∃ after, Rest svc ctx after (next answer) ∧ Move svc s t stage after ∧ s.now ≤ t.now ∧
      ∀ report, after.report = some report → stage.report = some report ∨ op.sample answer = some report := by
  obtain ⟨⟨c, performed⟩, led⟩ := taken
  cases left with
  | fresh =>
    obtain ⟨rfl, same⟩ : op = .collectHostInfo ∧ HEq next _ := by
      cases asks
      exact ⟨rfl, HEq.rfl⟩
    cases same
    simp only [World.machine, World.perform, World.performLocal, Option.some.injEq, Prod.mk.injEq] at performed
    obtain ⟨rfl, reported⟩ := performed
    split at reported
    · subst reported
      exact ⟨.sampled _, .sampled rfl (.leading rfl fun _ => ⟨_, rfl⟩), .sampled rfl rfl, Nat.le_add_right _ _,
        fun report taken => .inr taken⟩
    · subst reported
      exact ⟨.unsampled _, .unsampled, .unsampled rfl, Nat.le_add_right _ _, fun report taken => by cases taken⟩
  | @sampled report follow follows leads =>
    cases asks
    simp only [World.machine, World.perform, World.performLocal, Option.some.injEq, Prod.mk.injEq] at performed
    obtain ⟨rfl, looked⟩ := performed
    obtain rfl : answer = true := by
      rw [← looked]
      exact decide_eq_true (led rfl)
    exact ⟨.leading report, leads, .leads rfl, Nat.le_add_right _ _, fun report taken => .inl taken⟩
  | @leading report follow stored refused =>
    cases asks
    have inserted (f : FsmState) : (f.update (.upsertNodeCapacity (snapshotFromReport svc.localNode report))).nodeCapacity =
        f.nodeCapacity.insert svc.localNode (snapshotFromReport svc.localNode report) := by
      have named : trimSpace (snapshotFromReport svc.localNode report).nodeID = svc.localNode := svc.trimmed
      simp only [FsmState.update, Ledger.update, Ledger.applyNodeCapacity, named, if_neg svc.named]
    have same := Option.some.inj performed
    have now : s.now ≤ (s.drift c.toLocalChoice).now := Nat.le_add_right _ _
    rcases World.applyCommand_cases _ svc.localNode ctx _ c.toLocalChoice with ⟨err, outcome⟩ | ⟨err | _, outcome⟩ <;>
      rw [outcome] at same <;> cases same
    · obtain ⟨cause, ends⟩ := refused err
      exact ⟨.ended report (.error cause), ends ▸ .ended, .refused (.inl rfl), now, fun report taken => .inl taken⟩
    · obtain ⟨cause, ends⟩ := refused err
      exact ⟨.ended report (.error cause), ends ▸ .ended, .refused (.inr (inserted _)), now, fun report taken => .inl taken⟩
    · exact ⟨.ended report (.ok ()), stored ▸ .ended, .stored (inserted _), now, fun report taken => .inl taken⟩
  | ended | unsampled => cases asks

end RefreshStage

section Histories

variable [DecidableEq ι] {svcs : ι → Service} {ctxs : ι → Ctx}

open RefreshStage

/-- What holds between the steps of refreshes that do not overlap on a node,
given whose turns are still to come. -/
structure RefreshesKept (svcs : ι → Service) (stages : ι → RefreshStage) (w : World R) (schedule : List ι) : Prop where
  dated : ∀ i report, (stages i).report = some report → report.sampledAt ≤ w.now
  kept : ∀ i report, stages i = .ended report (.ok ()) →
    KnownSince w.fsm.nodeCapacity (svcs i).localNode report.sampledAt fun _ => True
  newer : ∀ i j earlier later, (svcs i).localNode = (svcs j).localNode → stages i = .ended earlier (.ok ()) →
    (stages j).underway = true → (stages j).report = some later → j ∈ schedule → earlier.sampledAt ≤ later.sampledAt
  alone : ∀ i j, i ≠ j → (svcs i).localNode = (svcs j).localNode → (stages i).underway = true →
    ¬ [j, i].Sublist schedule
  apart : ∀ i j, i ≠ j → (svcs i).localNode = (svcs j).localNode → ¬ [i, j, i].Sublist schedule

theorem RefreshesKept.move {stages : ι → RefreshStage} {s t : World R} {i : ι} {schedule : List ι}
    (before : RefreshesKept svcs stages s (i :: schedule)) (moved : Move (svcs i) s t (stages i) after)
    (later : s.now ≤ t.now) : RefreshesKept svcs (Function.update stages i after) t schedule := by
  have others {j : ι} (other : j ≠ i) : Function.update stages i after j = stages j := Function.update_of_ne other ..
  have own : Function.update stages i after i = after := Function.update_self ..
  refine ⟨?dated, ?kept, ?newer, ?alone, ?apart⟩
  case dated =>
    intro j report taken
    by_cases same : j = i
    · subst same
      rw [own] at taken
      rcases moved.report taken with now | earlier
      · exact now.le
      · exact (before.dated j report earlier).trans later
    · rw [others same] at taken
      exact (before.dated j report taken).trans later
  case kept =>
    intro j report ended
    by_cases same : j = i
    · subst same
      rw [own] at ended
      subst ended
      generalize stages j = stage at moved
      cases moved with
      | stored inserted => exact ⟨_, by rw [inserted, AList.lookup_insert], le_rfl, trivial⟩
    · rw [others same] at ended
      obtain ⟨snap, found, recent, -⟩ := before.kept j report ended
      rcases moved.catalog with unchanged | ⟨sample, leading, inserted⟩
      · exact ⟨snap, unchanged ▸ found, recent, trivial⟩
      · by_cases here : (svcs j).localNode = (svcs i).localNode
        · refine ⟨_, by rw [inserted, here, AList.lookup_insert], ?_, trivial⟩
          exact before.newer j i report sample here ended (by rw [leading]; rfl) (by rw [leading]; rfl) List.mem_cons_self
        · exact ⟨snap, by rw [inserted, AList.lookup_insert_ne here]; exact found, recent, trivial⟩
  case newer =>
    intro j k earlier sample here ended underway taken coming
    by_cases first : j = i
    · -- This refresh ends here, so no other of its node may go on.
      subst first
      have other : k ≠ j := by
        rintro rfl
        rw [ended] at underway
        cases underway
      rw [others other] at underway
      exact absurd (List.singleton_sublist.mpr coming |>.cons_cons j) (before.alone k j other here.symm underway)
    rw [others first] at ended
    by_cases second : k = i
    · subst second
      rw [own] at underway taken
      rcases moved.report taken with now | known
      · rw [now]
        exact (before.dated j earlier (by rw [ended]; rfl)).trans later
      · refine before.newer j k earlier sample here ended ?_ known List.mem_cons_self
        generalize stages k = stage at moved known
        cases moved with
        | sampled | unsampled => cases known
        | leads | stored | refused => rfl
    · rw [others second] at underway taken
      exact before.newer j k earlier sample here ended underway taken (List.mem_cons_of_mem _ coming)
  case alone =>
    intro j k other here underway between
    by_cases same : j = i
    · subst same
      exact before.apart j k other here (between.cons_cons j)
    · rw [others same] at underway
      exact before.alone j k other here underway (between.cons i)
  case apart => exact fun j k other here between => before.apart j k other here (between.cons i)

theorem RefreshesKept.weave {ps rest : ι → Task Check} {s u : World R} {trace : List (ι × Event TaskSig (World R))}
    (weave : Weave (fun i => World.LedStep (svcs i)) ps s trace rest u) :
    ∀ {stages : ι → RefreshStage}, (∀ i, Rest (svcs i) (ctxs i) (stages i) (ps i)) →
      RefreshesKept svcs stages s (trace.map Prod.fst) →
      ∃ final : ι → RefreshStage, (∀ i, Rest (svcs i) (ctxs i) (final i) (rest i)) ∧ RefreshesKept svcs final u [] ∧
        ∀ i report, (final i).report = some report → (stages i).report = some report ∨ SampledIn trace i report := by
  induction weave with
  | here =>
    intro stages left kept
    exact ⟨stages, left, kept, fun i report taken => .inl taken⟩
  | @next ps i op next s t answer trace rest u asks taken later ih =>
    intro stages left kept
    obtain ⟨after, onward, moved, forward, sampled⟩ := (left i).move asks taken
    have following (j : ι) : Rest (svcs j) (ctxs j) (Function.update stages i after j)
        (Function.update ps i (next answer) j) := by
      by_cases same : j = i
      · subst same
        rw [Function.update_self, Function.update_self]
        exact onward
      · rw [Function.update_of_ne same, Function.update_of_ne same]
        exact left j
    obtain ⟨final, ends, holds, known⟩ := ih following (kept.move moved forward)
    refine ⟨final, ends, holds, ?_⟩
    intro j report reported
    rcases known j report reported with earlier | ⟨event, member, sample⟩
    · by_cases same : j = i
      · subst same
        rw [Function.update_self] at earlier
        exact (sampled report earlier).imp_right fun sample => ⟨_, List.mem_cons_self, sample⟩
      · rw [Function.update_of_ne same] at earlier
        exact .inl earlier
    · exact .inr ⟨event, List.mem_cons_of_mem _ member, sample⟩

end Histories

/-- In a history of refreshes that are made by leaders and do not overlap on a
node, the capacity of every node that was refreshed reaches placement. -/
theorem capacity_reaches_placement [DecidableEq ι] {svcs : ι → Service} {ctxs : ι → Ctx} {rest : ι → Task Check}
    {w u : World R} {trace : List (ι × Event TaskSig (World R))}
    (weave : Weave (fun i => World.LedStep (svcs i)) (fun i => refreshLocal (svcs i) (ctxs i)) w trace rest u)
    (apart : ∀ i j, i ≠ j → (svcs i).localNode = (svcs j).localNode → ¬ [i, j, i].Sublist (trace.map Prod.fst)) :
    CapacityReaches svcs trace rest u := by
  have start : RefreshesKept svcs (fun _ => .fresh) w (trace.map Prod.fst) := ⟨nofun, nofun, nofun, nofun, apart⟩
  obtain ⟨final, ends, kept, taken⟩ := RefreshesKept.weave weave (fun _ => .fresh) start
  have known : CapacityKnown svcs trace rest u (fun _ => True) := by
    intro i returned
    have left := ends i
    rw [returned] at left
    generalize stage : final i = last at left
    cases left with
    | @ended report =>
      exact ⟨report, (taken i report (by rw [stage]; rfl)).resolve_left nofun, kept.kept i report stage⟩
  refine ⟨known, ?_⟩
  intro x localNodeID anywhere badly i returned
  obtain ⟨report, sampled, snap, found, recent, -⟩ := known i returned
  refine ⟨report, sampled, snap, found, recent, ?_⟩
  by_contra room
  exact badly (choosePlacement_room anywhere (svcs i).trimmed ⟨snap, found, by simpa using room⟩)

def refreshTurns {ι : Type} (i : ι) (leader : Option String) :
    List ((_ : ι) × (World.machine instanceRuntime sampleService).Choice) :=
  List.replicate 3 ⟨i, { World.smoothly "a" with elect := some leader }⟩

/-- A leader is refreshed twice, and its capacity is known. -/
theorem capacity_reaches_placement_leader :
    ∃ (trace : List (Bool × Event TaskSig (World instanceRuntime))) (rest : Bool → Task Check) (u : World instanceRuntime),
      (∀ i, rest i = .pure (.ok ())) ∧ CapacityReaches (fun _ => sampleService) trace rest u := by
  let led : Machine TaskSig (World instanceRuntime) := (World.machine instanceRuntime sampleService).limited
    fun op _ t => match op with
      | .isLocalLeader => decide (t.leader = some "a")
      | _ => true
  have woven : (weave (fun _ : Bool => led) (refreshTurns false (some "a") ++ refreshTurns true (some "a"))
      (fun _ => refreshLocal sampleService {}) World.idle).map
        (fun last => last.1.map Prod.fst = [false, false, false, true, true, true] && [false, true].all fun i =>
          match last.2.1 i with
          | .pure result => result.isOk
          | .call _ _ => false) = some true := by decide +kernel
  obtain ⟨trace, rest, u, weave, checked⟩ := exists_weave woven
  obtain ⟨turns, ended⟩ := Bool.and_eq_true_iff.mp checked
  have taken : Weave (fun _ : Bool => World.LedStep sampleService) (fun _ => refreshLocal sampleService {}) World.idle trace
      rest u := by
    refine weave.mono ?_
    intro i s op answer t taken
    obtain ⟨step, allowed⟩ := Machine.limited_step.mp taken
    refine ⟨step, ?_⟩
    rintro rfl
    exact of_decide_eq_true allowed
  refine ⟨trace, rest, u, fun i => ?_, capacity_reaches_placement taken fun i j other _ => ?_⟩
  · have returned := List.all_eq_true.mp ended i (by cases i <;> simp)
    dsimp only at returned
    split at returned
    · rename_i result last
      rw [last, Check.isOk_iff.mp returned]
    · cases returned
  · rw [show trace.map Prod.fst = _ from of_decide_eq_true turns]
    revert other
    cases i <;> cases j <;> decide

/-- The refresh of a follower returns without an error, and the catalog does not
know its node. -/
theorem follower_capacity_unknown :
    ¬ ∀ (ι : Type) (_ : DecidableEq ι) (svcs : ι → Service) (ctxs : ι → Ctx) (rest : ι → Task Check)
      (w u : World instanceRuntime) (trace : List (ι × Event TaskSig (World instanceRuntime))),
      Weave (fun i => (World.machine instanceRuntime (svcs i)).Step) (fun i => refreshLocal (svcs i) (ctxs i)) w trace rest u →
        CapacityReaches svcs trace rest u := by
  intro reaches
  have woven : (weave (fun _ : Unit => World.machine instanceRuntime sampleService) (refreshTurns () (some "b"))
      (fun _ => refreshLocal sampleService {}) World.idle).map (fun last => (match last.2.1 () with
        | .pure result => result.isOk
        | .call _ _ => false) && (last.2.2.fsm.nodeCapacity.lookup "a").isNone) = some true := by decide +kernel
  obtain ⟨trace, rest, u, weave, checked⟩ := exists_weave woven
  obtain ⟨returned, missing⟩ := Bool.and_eq_true_iff.mp checked
  have ended : rest () = .pure (.ok ()) := by
    dsimp only at returned
    split at returned
    · rename_i result ended
      rw [ended, Check.isOk_iff.mp returned]
    · cases returned
  obtain ⟨report, -, snap, found, -⟩ := (reaches _ inferInstance _ _ _ _ _ _ weave).1 () ended
  cases (Option.isNone_iff_eq_none.mp missing).symm.trans found

section Fallback

open Effect

/-- The node has no snapshot, or one that shows room for the workload. -/
def RoomOrUnknown (x : Workload) (catalog : Table Snapshot) (node : String) : Prop :=
  ∀ snap, catalog.lookup (trimSpace node) = some snap →
    feasible (x.resources.getD {}).cpuMillis (x.resources.getD {}).memoryBytes snap = true

theorem finishes_choosePlacement {svc : Service} {x : Workload} {w t : World R} {answer : Except Failure String} :
    Finishes (World.machine R svc).Step (ask (.choosePlacement x)) w answer t ↔
      (∃ c : Choice R, t = w.drift c.toLocalChoice) ∧ answer = choosePlacement x w.fsm.nodeCapacity svc.localNode := by
  refine finishes_call.trans ?_
  constructor
  · rintro ⟨_, _, ⟨c, taken⟩, ended⟩
    obtain ⟨rfl, rfl⟩ := finishes_pure.mp ended
    obtain ⟨rfl, rfl⟩ := Prod.mk.inj (Option.some.inj taken)
    exact ⟨⟨c, rfl⟩, rfl⟩
  · rintro ⟨⟨c, rfl⟩, rfl⟩
    exact ⟨_, _, ⟨c, rfl⟩, finishes_pure.mpr ⟨rfl, rfl⟩⟩

theorem finishes_chooseWorkloadNode {svc : Service} {x : Workload} {w u : World R} {node : String} :
    Finishes (World.machine R svc).Step (chooseWorkloadNode svc x) w (.ok node) u ↔
      (∃ c : Choice R, u = w.drift c.toLocalChoice) ∧ placedNode svc w.fsm.toLedger x = some node := by
  rw [chooseWorkloadNode, finishes_bind, placedNode]
  constructor
  · rintro ⟨answer, t, asked, later⟩
    obtain ⟨drifted, same⟩ := finishes_choosePlacement.mp asked
    rw [← same]
    cases answer with
    | ok chosen =>
      obtain ⟨same, rfl⟩ := finishes_pure.mp later
      exact ⟨drifted, congrArg some (Except.ok.inj same).symm⟩
    | error err =>
      cases preferred : preferredConfiguredNode svc x with
      | none =>
        simp only [preferred] at later
        cases (finishes_pure.mp later).1
      | some fallback =>
        simp only [preferred] at later
        obtain ⟨same, rfl⟩ := finishes_pure.mp later
        exact ⟨drifted, congrArg some (Except.ok.inj same).symm⟩
  · rintro ⟨drifted, placed⟩
    refine ⟨_, u, finishes_choosePlacement.mpr ⟨drifted, rfl⟩, ?_⟩
    cases outcome : choosePlacement x w.fsm.nodeCapacity svc.localNode with
    | ok chosen =>
      rw [outcome] at placed
      exact finishes_pure.mpr ⟨congrArg Except.ok (Option.some.inj placed).symm, rfl⟩
    | error err =>
      simp only [outcome] at placed
      simp only [placed]
      exact finishes_pure.mpr ⟨rfl, rfl⟩

/-- The deploy path goes by the catalog: a node that it chooses and that has a
snapshot has room, and where placement fails the node has no snapshot. -/
structure RefusalKept (svc : Service) (x : Workload) (w : World R) : Prop where
  room : ∀ node u, Finishes (World.machine R svc).Step (chooseWorkloadNode svc x) w (.ok node) u →
    RoomOrUnknown x w.fsm.nodeCapacity node
  fallback : ∀ err, choosePlacement x w.fsm.nodeCapacity svc.localNode = .error err →
    ∀ node u, Finishes (World.machine R svc).Step (chooseWorkloadNode svc x) w (.ok node) u →
      w.fsm.nodeCapacity.lookup (trimSpace node) = none

/-- Where the first preferred node with a worker URL has a snapshot, some node
of the catalog that the workload may go to must have room. -/
theorem refusal_kept_iff (svc : Service) (x : Workload) (w : World R) (c : Choice R) :
    RefusalKept svc x w ↔ w.fsm.nodeCapacity.keys = [] ∨ (∃ node, snapshotGauge.Suits x w.fsm.nodeCapacity node) ∨
      ∀ node, preferredConfiguredNode svc x = some node → w.fsm.nodeCapacity.lookup (trimSpace node) = none := by
  constructor
  · intro kept
    by_cases empty : w.fsm.nodeCapacity.keys = []
    · exact .inl empty
    cases outcome : choosePlacement x w.fsm.nodeCapacity svc.localNode with
    | ok chosen =>
      obtain ⟨node, -, suits⟩ := Gauge.suits_of_choosePlacement_ok empty outcome
      exact .inr (.inl ⟨node, suits⟩)
    | error err =>
      refine .inr (.inr fun node preferred => kept.fallback err outcome node _ (finishes_chooseWorkloadNode.mpr ⟨⟨c, rfl⟩, ?_⟩))
      rw [placedNode, outcome, preferred]
  · intro within
    -- Once placement has failed, only the last of the three can be the case.
    have unknown {err : Failure} {node : String} {u : World R}
        (failed : choosePlacement x w.fsm.nodeCapacity svc.localNode = .error err)
        (run : Finishes (World.machine R svc).Step (chooseWorkloadNode svc x) w (.ok node) u) :
        w.fsm.nodeCapacity.lookup (trimSpace node) = none := by
      obtain ⟨listed, full⟩ := Gauge.of_choosePlacement_error failed
      have placed := (finishes_chooseWorkloadNode.mp run).2
      rw [placedNode, failed] at placed
      rcases within with empty | ⟨other, suits⟩ | free
      · exact absurd empty listed
      · exact absurd suits (full other)
      · exact free node placed
    refine ⟨fun node u run snap found => ?_, fun err failed node u run => unknown failed run⟩
    cases outcome : choosePlacement x w.fsm.nodeCapacity svc.localNode with
    | error err => cases (unknown outcome run).symm.trans found
    | ok chosen =>
      have placed := (finishes_chooseWorkloadNode.mp run).2
      rw [placedNode, outcome] at placed
      obtain rfl := Option.some.inj placed
      have listed : w.fsm.nodeCapacity.keys ≠ [] :=
        List.ne_nil_of_mem (AList.mem_keys.mp (AList.lookup_isSome.mp (by rw [found]; rfl)))
      obtain ⟨node, rfl, -, scored, -⟩ := Gauge.suits_of_choosePlacement_ok listed outcome
      obtain ⟨-, there, room⟩ := Gauge.scored_eq_some.mp scored
      cases there.symm.trans found
      exact room

def fullWorld : World instanceRuntime :=
  { World.idle with fsm := { nodeCapacity := AList.singleton "b" ⟨"b", 0, 1, 100, 8⟩ } }

theorem refusal_overridden :
    ¬ ∀ (svc : Service) (x : Workload) (w : World instanceRuntime), RefusalKept svc x w := by
  intro kept
  let x : Workload := { name := "w", resources := some { cpuMillis := 500 }, scheduling := some { preferredNodes := ["b"] } }
  have run := (finishes_chooseWorkloadNode (u := fullWorld.drift (World.smoothly "a").toLocalChoice)).mpr
    ⟨⟨World.smoothly "a", rfl⟩, show placedNode sampleService fullWorld.fsm.toLedger x = some "b" by decide +kernel⟩
  have full := (kept sampleService x fullWorld).room "b" _ run ⟨"b", 0, 1, 100, 8⟩ (by decide +kernel)
  revert full
  decide +kernel

end Fallback

end Orch
