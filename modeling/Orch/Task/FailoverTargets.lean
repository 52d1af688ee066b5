import Orch.Task.Capacity
import Orch.Task.MoveScope

namespace Orch

open Effect

variable {current node : String}

theorem mem_addNodeCandidates {current node : String} : ∀ {out ids : List String},
    node ∈ addNodeCandidates current out ids ↔
      node ∈ out ∨ (node ≠ "" ∧ node ≠ current ∧ ∃ raw ∈ ids, trimSpace raw = node)
  | out, [] => by simp [addNodeCandidates]
  | out, raw :: rest => by
    rw [addNodeCandidates]
    by_cases same : trimSpace raw = node
    · subst same
      split
      · rw [mem_addNodeCandidates]
        grind
      · rw [mem_addNodeCandidates]
        grind
    · split
      · rw [mem_addNodeCandidates]
        simp [same]
      · rw [mem_addNodeCandidates]
        have other : node ≠ trimSpace raw := fun eq => same eq.symm
        simp [same, other]

variable {svc : Service} {ids : List String}

theorem mem_alternativeNodeCandidates :
    node ∈ alternativeNodeCandidates svc current ids ↔ node ≠ "" ∧ node ≠ trimSpace current ∧
      ((∃ raw ∈ ids, trimSpace raw = node) ∨ (∃ raw ∈ svc.clusterNodes.keys, trimSpace raw = node) ∨ node = svc.localNode) := by
  rw [alternativeNodeCandidates, mem_addNodeCandidates]
  simp only [List.not_mem_nil, false_or, List.mem_append, List.mem_singleton, (List.perm_insertionSort _ _).mem_iff]
  refine and_congr_right fun _ => and_congr_right fun _ => ?_
  constructor
  · rintro ⟨raw, (inside | inside) | rfl, same⟩
    · exact .inl ⟨raw, inside, same⟩
    · exact .inr (.inl ⟨raw, inside, same⟩)
    · exact .inr (.inr (same.symm.trans svc.trimmed))
  · rintro (⟨raw, inside, same⟩ | ⟨raw, inside, same⟩ | rfl)
    · exact ⟨raw, .inl (.inl inside), same⟩
    · exact ⟨raw, .inl (.inr inside), same⟩
    · exact ⟨_, .inr rfl, svc.trimmed⟩

theorem trimSpace_of_alternative (member : node ∈ alternativeNodeCandidates svc current ids) :
    trimSpace node = node := by
  obtain ⟨-, -, ⟨raw, -, rfl⟩ | ⟨raw, -, rfl⟩ | rfl⟩ := mem_alternativeNodeCandidates.mp member
  · exact trimSpace_trimSpace _
  · exact trimSpace_trimSpace _
  · exact svc.trimmed

/-- A decision about a workload that may go to the alternatives lands on one
of them, but on this node if nothing is known about any node. -/
theorem Decision.lands_alternative {d : Decision} {x : Workload} (sound : d.Sound svc)
    (asked : d.workload = failoverCandidate x (alternativeNodeCandidates svc current ids))
    (some : alternativeNodeCandidates svc current ids ≠ []) (lands : d.lands svc = .some node) :
    (d.catalog.keys = [] → node = svc.localNode) ∧
      (d.catalog.keys ≠ [] → trimSpace node ∈ alternativeNodeCandidates svc current ids ∧
        (node ∈ d.catalog.keys ∨ trimSpace node = node)) := by
  have preferences : d.workload.scheduling =
      .some { x.scheduling.getD {} with preferredNodes := alternativeNodeCandidates svc current ids } := by rw [asked]; rfl
  unfold Decision.Sound at sound
  unfold Decision.lands at lands
  constructor
  · intro empty
    have placed : choosePlacement d.workload d.catalog svc.localNode = .ok svc.localNode := by
      rw [choosePlacement, Gauge.choosePlacement, if_pos (by simpa using empty), fallbackNodeID, svc.trimmed, if_neg svc.named]
    rw [sound, placed] at lands
    exact (Option.some.inj lands).symm
  · intro listed
    cases chosen : d.chosen with
    | ok chosen' =>
      rw [chosen] at lands sound
      obtain rfl := Option.some.inj lands
      obtain ⟨best, rfl, member, -, admitted⟩ := Gauge.suits_of_choosePlacement_ok listed sound.symm
      obtain ⟨-, name, inside, same⟩ := admitted _ preferences some
      refine ⟨?_, .inl member⟩
      rwa [← same, trimSpace_of_alternative inside]
    | error err =>
      rw [chosen] at lands
      simp only [preferredConfiguredNode, preferences] at lands
      obtain ⟨name, inside, rfl⟩ := List.mem_map.mp (List.mem_of_find?_eq_some lands)
      rw [trimSpace_trimSpace]
      refine ⟨?_, .inr rfl⟩
      rwa [trimSpace_of_alternative inside]

section Choosing

variable {R : Runtime} {svc : Service} {ctx : Ctx} {x : Workload} {current : String} {w : World R}

def CleanCatalog (w : World R) : Prop := ∀ id ∈ w.fsm.nodeCapacity.keys, trimSpace id = id

theorem refreshLocal_clean (clean : CleanCatalog w) :
    Ensures (World.machine R svc).Step anything (fun _ t => CleanCatalog t) (refreshLocal svc ctx) w := by
  refine ⟨trivial, ?_⟩
  rintro report t ⟨c, taken⟩
  have clean : CleanCatalog t := by
    obtain ⟨rfl, -⟩ := Prod.mk.inj (Option.some.inj taken)
    exact clean
  rcases report with err | report
  · exact clean
  dsimp only
  refine ⟨trivial, ?_⟩
  rintro leads t ⟨c', taken⟩
  have clean : CleanCatalog t := by
    obtain ⟨rfl, -⟩ := Prod.mk.inj (Option.some.inj taken)
    exact clean
  cases leads with
  | false => exact clean
  | true =>
    have inserted {f : FsmState} (kept : ∀ id ∈ f.nodeCapacity.keys, trimSpace id = id) :
        ∀ id ∈ (f.update (.upsertNodeCapacity (snapshotFromReport svc.localNode report))).nodeCapacity.keys,
          trimSpace id = id := by
      have named : trimSpace (snapshotFromReport svc.localNode report).nodeID = svc.localNode := svc.trimmed
      simp only [FsmState.update, Ledger.update, Ledger.applyNodeCapacity, named, if_neg svc.named]
      intro id member
      rcases (AList.mem_insert _).mp (AList.mem_keys.mpr member) with rfl | before
      · exact svc.trimmed
      · exact kept id (AList.mem_keys.mp before)
    have stored {u : World R} {c : Choice R} {result : Check} (clean : CleanCatalog t)
        (taken : (World.machine R svc).perform t (.apply ctx (.upsertNodeCapacity (snapshotFromReport svc.localNode report))) c =
          some (u, result)) : CleanCatalog u := by
      have same := Option.some.inj taken
      rcases World.applyCommand_cases _ svc.localNode ctx _ c.toLocalChoice with ⟨err, outcome⟩ | ⟨result, outcome⟩ <;>
        rw [outcome] at same <;> cases same
      · exact clean
      · exact inserted clean
    dsimp only
    refine ⟨trivial, ?_⟩
    rintro (err | _) u ⟨c'', taken⟩
    · exact stored clean taken
    · exact stored clean taken

theorem chooseFailoverNode_ok (clean : CleanCatalog w) {u : World R} {node : String}
    (run : Finishes (World.machine R svc).Step (chooseFailoverNode svc ctx x current) w (.ok node) u) :
    CleanCatalog u ∧ alternativeNodeCandidates svc current (catalogNodeIDs u.fsm.nodeCapacity) ≠ [] ∧
      placedNode svc u.fsm.toLedger (failoverCandidate x
        (alternativeNodeCandidates svc current (catalogNodeIDs u.fsm.nodeCapacity))) = some node := by
  rw [chooseFailoverNode, finishes_bind] at run
  obtain ⟨refreshed, t, refresh, run⟩ := run
  have cleaned := (refreshLocal_clean clean).finishes refresh
  obtain ⟨ids, t', asked, run⟩ := finishes_bind.mp run
  obtain ⟨answer, t'', ⟨c, taken⟩, ended⟩ := finishes_call.mp asked
  obtain ⟨rfl, rfl⟩ := finishes_pure.mp ended
  obtain ⟨drifted, rfl⟩ : t'.fsm = t.fsm ∧ ids = catalogNodeIDs t.fsm.nodeCapacity := by
    obtain ⟨rfl, rfl⟩ := Prod.mk.inj (Option.some.inj taken)
    exact ⟨rfl, rfl⟩
  dsimp only at run
  split at run
  · cases (finishes_pure.mp run).1
  rename_i some
  obtain ⟨⟨c', rfl⟩, placed⟩ := finishes_chooseWorkloadNode.mp run
  have same : (t'.drift c'.toLocalChoice).fsm = t.fsm := drifted
  rw [same]
  rw [drifted] at placed
  refine ⟨fun id member => cleaned id (same ▸ member), by simpa using some, placed⟩

/-- The node chosen is an alternative, unless nothing is known about any node
and the workload is on this one. -/
theorem chooseFailoverNode_iff (clean : CleanCatalog w) {u : World R} {node : String}
    (run : Finishes (World.machine R svc).Step (chooseFailoverNode svc ctx x current) w (.ok node) u) :
    (node ∈ alternativeNodeCandidates svc current (catalogNodeIDs u.fsm.nodeCapacity) ∧ node ≠ trimSpace current) ↔
      (u.fsm.nodeCapacity.keys = [] → trimSpace current ≠ svc.localNode) := by
  obtain ⟨cleaned, some, placed⟩ := chooseFailoverNode_ok clean run
  let asked := failoverCandidate x (alternativeNodeCandidates svc current (catalogNodeIDs u.fsm.nodeCapacity))
  let d : Decision := ⟨asked, u.fsm.nodeCapacity, choosePlacement asked u.fsm.nodeCapacity svc.localNode⟩
  obtain ⟨unknown, known⟩ := Decision.lands_alternative (d := d) rfl rfl some placed
  by_cases empty : u.fsm.nodeCapacity.keys = []
  · obtain rfl := unknown empty
    simp only [empty, true_imp_iff, mem_alternativeNodeCandidates]
    exact ⟨fun chosen => chosen.2.symm, fun other => ⟨⟨svc.named, other.symm, .inr (.inr trivial)⟩, other.symm⟩⟩
  · obtain ⟨chosen, listed⟩ := known empty
    have trimmed : trimSpace node = node := listed.elim (cleaned node) id
    rw [trimmed] at chosen
    exact iff_of_true ⟨chosen, (mem_alternativeNodeCandidates.mp chosen).2.1⟩ fun none => absurd none empty

end Choosing

/-- The workload was started on another node than it is recorded on. -/
def MovedAway (f : Ledger) (app : App) (journal : Journal) (x : Workload) : Prop :=
  ∃ node, .start (workloadId app.metadata x.name) node true ∈ journal.calls ∧
    ∀ a, f.getAssignment (assignmentKey app.metadata x.name) = some a → node ≠ trimSpace a.node

/-- What a failover of a recorded workload depends on. On this node, something
must be known about the nodes. On no node, which counts as this one, placement
must not choose this one. -/
def CanLeave (svc : Service) (f : Ledger) (app : App) (journal : Journal) (x : Workload) : Prop :=
  ∀ a, f.getAssignment (assignmentKey app.metadata x.name) = some a →
    ∀ d ∈ journal.decisions, d.workload.key = x.key →
      (trimSpace a.node = svc.localNode → d.catalog.keys ≠ []) ∧
      (trimSpace a.node = "" → (d.lands svc).map trimSpace ≠ some svc.localNode)

section Leaving

variable {svc : Service} {ctx : Ctx} {app : App} {metadata : Metadata} {opts : AppOperationOptions}
variable {w u : World instanceRuntime} {trace : List (Event TaskSig (World instanceRuntime))} {result : OperationResult}

theorem MoveOp.Aims.leaves {f : Ledger} {x : Workload} {target : String} {own : List Decision} {journal : Journal}
    (untargeted : trimSpace opts.targetNode = "") (aimed : (MoveOp.failover metadata opts).Aims svc f app x target own)
    (exactly : ∀ d, d ∈ own ↔ d ∈ journal.decisions ∧ d.workload.key = x.key) {a : Assignment}
    (recorded : f.getAssignment (assignmentKey app.metadata x.name) = some a) :
    stopTarget svc f app.metadata x.name ≠ target ↔ ∀ d ∈ journal.decisions, d.workload.key = x.key →
      (trimSpace a.node = svc.localNode → d.catalog.keys ≠ []) ∧
      (trimSpace a.node = "" → (d.lands svc).map trimSpace ≠ some svc.localNode) := by
  simp only [MoveOp.Aims, untargeted, ne_eq, not_true_eq_false, if_false] at aimed
  obtain ⟨ids, some, d, node, rfl, sound, asked, lands, rfl⟩ := aimed
  have only (e : Decision) : e ∈ journal.decisions ∧ e.workload.key = x.key ↔ e = d := by rw [← exactly, List.mem_singleton]
  have current : f.recordedNode app.metadata x.name = a.node := by simp only [Ledger.recordedNode, recorded]
  obtain ⟨unknown, known⟩ := Decision.lands_alternative sound asked some lands
  rw [current] at known
  simp only [stopTarget, current]
  have about : (∀ e ∈ journal.decisions, e.workload.key = x.key →
      (trimSpace a.node = svc.localNode → e.catalog.keys ≠ []) ∧
      (trimSpace a.node = "" → (e.lands svc).map trimSpace ≠ Option.some svc.localNode)) ↔
      (trimSpace a.node = svc.localNode → d.catalog.keys ≠ []) ∧ (trimSpace a.node = "" → trimSpace node ≠ svc.localNode) := by
    simp only [← and_imp, only, forall_eq, lands, Option.map_some, ne_eq, Option.some.injEq]
  rw [about]
  by_cases blank : trimSpace a.node = ""
  · rw [if_neg (by simpa using blank)]
    have other : trimSpace a.node ≠ svc.localNode := by
      rw [blank]
      exact svc.named.symm
    exact ⟨fun away => ⟨fun same => absurd same other, fun _ same => away same.symm⟩, fun can same => can.2 blank same.symm⟩
  · rw [if_pos blank]
    by_cases empty : d.catalog.keys = []
    · obtain rfl := unknown empty
      rw [svc.trimmed]
      exact ⟨fun away => ⟨fun same => absurd same away, fun none => absurd none blank⟩,
        fun can same => can.1 same empty⟩
    · have apart := (mem_alternativeNodeCandidates.mp (known empty).1).2.1
      exact iff_of_true apart.symm ⟨fun _ => empty, fun none => absurd none blank⟩

theorem MoveOp.Aims.unique {f : Ledger} {x : Workload} {target target' : String} {own own' : List Decision}
    (untargeted : trimSpace opts.targetNode = "") (aimed : (MoveOp.failover metadata opts).Aims svc f app x target own)
    (aimed' : (MoveOp.failover metadata opts).Aims svc f app x target' own') (within : own' ⊆ own) : target' = target := by
  simp only [MoveOp.Aims, untargeted, ne_eq, not_true_eq_false, if_false] at aimed aimed'
  obtain ⟨-, -, d, node, rfl, -, -, lands, rfl⟩ := aimed
  obtain ⟨-, -, d', node', rfl, -, -, lands', rfl⟩ := aimed'
  obtain rfl : d' = d := List.mem_singleton.mp (within List.mem_cons_self)
  rw [Option.some.inj (lands'.symm.trans lands)]

/-- A failover moves away: the node chosen is an alternative unless nothing is
known about any node and the workload is on this one, and an operation that
succeeds has started all it selected elsewhere if each could leave. -/
theorem failover_moves_away_iff (svc : Service) :
    (∀ (ctx : Ctx) (x : Workload) (current node : String) (w u : World instanceRuntime), CleanCatalog w →
      Finishes (World.machine instanceRuntime svc).Step (chooseFailoverNode svc ctx x current) w (.ok node) u →
        ((node ∈ alternativeNodeCandidates svc current (catalogNodeIDs u.fsm.nodeCapacity) ∧ node ≠ trimSpace current) ↔
          (u.fsm.nodeCapacity.keys = [] → trimSpace current ≠ svc.localNode))) ∧
    (∀ (ctx : Ctx) (metadata : Metadata) (opts : AppOperationOptions) (app : App) (w u : World instanceRuntime)
      (trace : List (Event TaskSig (World instanceRuntime))) (result : OperationResult) (selected : List Workload),
      w.fsm.getDeployApp metadata = some app → trimSpace app.metadata.name ≠ "" → trimSpace opts.targetNode = "" →
      failoverSelection svc w.fsm.toLedger app opts.workloads = .ok selected →
      Run (World.machine instanceRuntime svc).Step ((MoveOp.failover metadata opts).program svc ctx) w trace (pure result) u →
      result.2.isOk = true →
        ((∀ x ∈ selected, MovedAway w.fsm.toLedger app (World.journal svc trace) x) ↔
          ∀ x ∈ selected, CanLeave svc w.fsm.toLedger app (World.journal svc trace) x)) := by
  refine ⟨fun ctx x current node w u clean run => chooseFailoverNode_iff clean run, ?_⟩
  intro ctx metadata opts app w u trace result selected desired named untargeted picked run passed
  have desired : w.fsm.getDeployApp (MoveOp.failover metadata opts).metadata = some app := desired
  have picked : (MoveOp.failover metadata opts).selection svc w.fsm.toLedger app = .ok selected := picked
  rcases MoveOp.outcome desired named run with ⟨-, refused⟩ | ⟨workloads, again, outcome⟩
  · rw [refused] at passed
    cases passed
  obtain rfl : workloads = selected := Except.ok.inj (again.symm.trans picked)
  obtain ⟨plans, planning, started⟩ := outcome.of_ok passed
  refine forall₂_congr fun x member => ?_
  obtain ⟨target, own, aimed, exactly, settled⟩ :=
    planning.of_workload MoveOp.Aims.owned (MoveOp.selection_distinct picked) x member
  constructor
  · rintro ⟨node, moved, -⟩ a recorded
    refine (aimed.leaves untargeted exactly recorded).mp fun there => ?_
    obtain ⟨plans', planning', plan, inside, same, -⟩ := outcome.of_start moved
    obtain ⟨own', aimed', made, away⟩ := planning'.of_plan plan inside
    obtain rfl : plan.workload = x := MoveOp.selection_unique picked
      (MoveOp.selection_subset picked _ (planning'.ready plan inside).1) (MoveOp.selection_subset picked _ member) same
    have same : plan.target = target := aimed.unique untargeted aimed'
      fun d here => (exactly d).mpr ⟨made here, aimed'.owned d here⟩
    refine away ⟨?_, there.trans same.symm⟩
    rw [recorded]
    rfl
  · intro can
    rcases settled with ⟨assigned, there⟩ | ⟨plan, inside, rfl, rfl⟩
    · obtain ⟨a, recorded⟩ := Option.isSome_iff_exists.mp assigned
      exact absurd there ((aimed.leaves untargeted exactly recorded).mpr (can a recorded))
    · refine ⟨plan.target, started plan inside, fun a recorded same => ?_⟩
      refine (aimed.leaves untargeted exactly recorded).mpr (can a recorded) ?_
      have placed := (planning.ready plan inside).2.2
      rw [same] at placed ⊢
      simp only [stopTarget, Ledger.recordedNode, recorded, if_pos placed]

end Leaving

def World.blind : Choice instanceRuntime := { World.smoothly "a" with ok := false }

/-- What failed on node b is started on node a. -/
theorem failover_leaves_other_node :
    (∃ (node : String) (u : World instanceRuntime), Finishes (World.machine instanceRuntime sampleService).Step
      (chooseFailoverNode sampleService {} (imageWorkload "api" "nginx") "b") World.idle (.ok node) u ∧
        node ∈ alternativeNodeCandidates sampleService "b" (catalogNodeIDs u.fsm.nodeCapacity) ∧ node ≠ "b") ∧
    ∃ (u : World instanceRuntime) (trace : List (Event TaskSig (World instanceRuntime))) (result : OperationResult),
      Run (World.machine instanceRuntime sampleService).Step ((MoveOp.failover webApp.metadata {}).program sampleService {})
        (World.having webApp (imageWorkload "api" "nginx") "b" .failed) trace (pure result) u ∧ result.2.isOk = true ∧
        MovedAway (World.having webApp (imageWorkload "api" "nginx") "b" .failed).fsm.toLedger webApp
          (World.journal sampleService trace) (imageWorkload "api" "nginx") := by
  obtain ⟨chooses, moves⟩ := failover_moves_away_iff sampleService
  have remote : trimSpace "b" = "b" := by decide +kernel
  constructor
  · have played : ((chooseFailoverNode sampleService {} (imageWorkload "api" "nginx") "b").play
        (World.machine instanceRuntime sampleService) (List.replicate 5 (World.smoothly "a")) World.idle).any
        (fun ended => ended.2.isOk) = true := by decide +kernel
    obtain ⟨⟨u, result⟩, ended, passed⟩ := (Option.any_eq_true _ _).mp played
    cases result with
    | error => cases passed
    | ok node =>
      have run := finishes_of_play ended
      have clean : CleanCatalog World.idle := by
        intro id member
        cases member
      have chosen := (chooses {} _ _ node _ u clean run).mpr fun _ => by decide +kernel
      rw [remote] at chosen
      exact ⟨node, u, run, chosen⟩
  · have played : (MoveOp.failover webApp.metadata {}).played (List.replicate 16 World.reaching)
        (World.having webApp (imageWorkload "api" "nginx") "b" .failed) = some
          ([.start (workloadId webApp.metadata "api") "a" true], true) := by decide +kernel
    have recorded : ((World.having webApp (imageWorkload "api" "nginx") "b" .failed).fsm.getAssignment
        (assignmentKey webApp.metadata (imageWorkload "api" "nginx").name)).all (fun a =>
          trimSpace a.node = "b") = true := by decide +kernel
    obtain ⟨u, trace, result, run, -, passed⟩ := MoveOp.exists_run played
    have away := (moves {} webApp.metadata {} webApp _ u trace result [imageWorkload "api" "nginx"] (by decide +kernel)
      (by decide +kernel) (by decide +kernel) (by decide +kernel) run passed).mpr ?_
    · exact ⟨u, trace, result, run, passed, away _ List.mem_cons_self⟩
    intro x member a found d _ _
    obtain rfl : x = imageWorkload "api" "nginx" := List.mem_singleton.mp member
    rw [found, Option.all_some, decide_eq_true_eq] at recorded
    rw [recorded]
    exact ⟨fun same => absurd same (by decide), fun same => absurd same (by decide)⟩

/-- Without a catalog a failover chooses the node the workload is on and
leaves it there. -/
theorem failover_without_catalog_stays :
    (¬ ∀ (svc : Service) (ctx : Ctx) (x : Workload) (current node : String) (w u : World instanceRuntime), CleanCatalog w →
      Finishes (World.machine instanceRuntime svc).Step (chooseFailoverNode svc ctx x current) w (.ok node) u →
        node ∈ alternativeNodeCandidates svc current (catalogNodeIDs u.fsm.nodeCapacity) ∧ node ≠ trimSpace current) ∧
    ¬ ∀ (svc : Service) (ctx : Ctx) (metadata : Metadata) (opts : AppOperationOptions) (app : App)
      (w u : World instanceRuntime) (trace : List (Event TaskSig (World instanceRuntime))) (result : OperationResult)
      (selected : List Workload), CleanCatalog w → w.fsm.getDeployApp metadata = some app →
      app.validate svc.sorter = .ok () → trimSpace opts.targetNode = "" →
      failoverSelection svc w.fsm.toLedger app opts.workloads = .ok selected →
      Run (World.machine instanceRuntime svc).Step ((MoveOp.failover metadata opts).program svc ctx) w trace (pure result) u →
      result.2.isOk = true → ∀ x ∈ selected, MovedAway w.fsm.toLedger app (World.journal svc trace) x := by
  constructor
  · intro chooses
    have played : ((chooseFailoverNode sampleService {} (imageWorkload "api" "nginx") "a").play
        (World.machine instanceRuntime sampleService) (List.replicate 3 World.blind) World.idle).map Prod.snd =
          some (.ok "a") := by decide +kernel
    obtain ⟨⟨u, result⟩, ended, rfl⟩ := Option.map_eq_some_iff.mp played
    have clean : CleanCatalog World.idle := by
      intro id member
      cases member
    refine (chooses sampleService {} _ "a" "a" _ u clean (finishes_of_play ended)).2 ?_
    decide +kernel
  · intro moves
    have played : (MoveOp.failover webApp.metadata {}).played (List.replicate 16 World.blind)
        (World.having webApp (imageWorkload "api" "nginx") "a" .failed) = some ([], true) := by decide +kernel
    obtain ⟨u, trace, result, run, silent, passed⟩ := MoveOp.exists_run played
    have clean : CleanCatalog (World.having webApp (imageWorkload "api" "nginx") "a" .failed) := by
      unfold CleanCatalog
      decide +kernel
    obtain ⟨node, started, -⟩ := moves sampleService {} webApp.metadata {} webApp _ u trace result
      [imageWorkload "api" "nginx"] clean (by decide +kernel) (by decide +kernel) (by decide +kernel) (by decide +kernel)
      run passed _ List.mem_cons_self
    rw [silent] at started
    cases started

end Orch
