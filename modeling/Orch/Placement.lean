import Orch.Raft.Fsm
import Orch.Std.Double
import Mathlib.Algebra.Order.Ring.Unbundled.Rat
import Mathlib.Data.List.MinMax
import Mathlib.Data.List.Sort
import Mathlib.Data.Prod.Lex
import Mathlib.Data.String.Basic

namespace Orch

/-- A feasible node with the snapshot it is compared by. -/
structure ScoredNode (S : Type) where
  id : String
  snap : S

def fallbackNodeID (localNodeID : String) : String :=
  if trimSpace localNodeID = "" then "local" else trimSpace localNodeID

/-- The catalog lists its nodes by ascending id. -/
def catalogNodeIDs {S : Type} (catalog : Table S) : List String :=
  catalog.keys.insertionSort (· ≤ ·)

/-- The preferred nodes in list order, or nothing when the workload may go
anywhere. -/
def preferredNames (w : Workload) : Option (List String) :=
  match w.scheduling with
  | none => none
  | some scheduling =>
    if scheduling.preferredNodes.isEmpty then none
    else some ((scheduling.preferredNodes.map trimSpace).filter (· ≠ "")).eraseDups

def placementCandidates {S : Type} (w : Workload) (catalog : Table S) : Except Failure (List String) :=
  match preferredNames w with
  | none => .ok (catalogNodeIDs catalog)
  | some want =>
    let filtered := (catalogNodeIDs catalog).filter fun id => trimSpace id ∈ want
    if want.isEmpty then .error (.errorf "placement: scheduling.preferredNodes has no valid names")
    else if filtered.isEmpty then .error (.errorf "placement: no catalog nodes match scheduling.preferredNodes")
    else .ok filtered

/-- The place of a node in the preferred list. Missing nodes come last. -/
def preferredRank (want : List String) (nodeID : String) : Nat :=
  match want.findIdx? (· == nodeID) with
  | some index => index
  | none => want.length + 1

/-- What a snapshot is read for: the CPU in use, on any linear scale, the
memory that is free and an estimate of the milli-cores that are left. -/
structure Gauge (S κ : Type) where
  cpuUsage : S → κ
  memoryAvail : S → Nat
  cpuMillisRemaining : S → Int

namespace Gauge

variable {S κ : Type} [LinearOrder κ] (g : Gauge S κ)

omit [LinearOrder κ] in
def feasible (reqCPUmillis reqMemBytes : Int) (s : S) : Bool :=
  if reqMemBytes > 0 ∧ (g.memoryAvail s : Int) < reqMemBytes then false
  else if reqCPUmillis ≤ 0 then true
  else reqCPUmillis ≤ g.cpuMillisRemaining s

def better (a b : S) : Bool :=
  if g.cpuUsage a ≠ g.cpuUsage b then g.cpuUsage a < g.cpuUsage b
  else g.memoryAvail a > g.memoryAvail b

def snapEqual (a b : S) : Bool :=
  g.cpuUsage a = g.cpuUsage b ∧ g.memoryAvail a = g.memoryAvail b

def shouldReplaceCandidate (preferences : Option (List String)) (cur prev : ScoredNode S) : Bool :=
  g.better cur.snap prev.snap ||
    match preferences with
    | none => false
    | some want => g.snapEqual cur.snap prev.snap && preferredRank want cur.id < preferredRank want prev.id

def chooseBetterCandidate (w : Workload) (catalog : Table S) (best : Option (ScoredNode S)) (id : String) :
    Option (ScoredNode S) :=
  let request := w.resources.getD {}
  match catalog.lookup (trimSpace id) with
  | none => best
  | some snap =>
    if !g.feasible request.cpuMillis request.memoryBytes snap then best
    else
      match best with
      | none => some ⟨id, snap⟩
      | some prev => if g.shouldReplaceCandidate (preferredNames w) ⟨id, snap⟩ prev then some ⟨id, snap⟩ else some prev

/-- Among the feasible nodes the one with the least CPU in use, then the most
memory, then the earliest preference. Without a catalog, this node. -/
def choosePlacement (w : Workload) (catalog : Table S) (localNodeID : String) : Except Failure String :=
  if catalog.keys.isEmpty then .ok (fallbackNodeID localNodeID)
  else
    match placementCandidates w catalog with
    | .error err => .error err
    | .ok candidates =>
      match candidates.foldl (g.chooseBetterCandidate w catalog) none with
      | none =>
        .error (.errorf "placement: no feasible node for workload %q (resources / stale catalog)" [.text w.name])
      | some node => .ok node.id

end Gauge

def estimatedCPUmillisRemaining (s : Snapshot) : Int :=
  if s.logicalCPUCores ≤ 0 then 0
  else
    let total := s.logicalCPUCores * 1000
    if s.cpuUsagePercent ≤ 0 then total
    else
      let p := if s.cpuUsagePercent > 100 then 100 else s.cpuUsagePercent
      let availFrac := Double.round (Double.round (100 - p) / 100)
      (Double.round (Double.round total * availFrac)).floor

-- In exact arithmetic it would be 1015.
example : estimatedCPUmillisRemaining ⟨"a", 0, 2, 197 / 4, 0⟩ = 1014 := by decide +kernel

/-- The snapshots of the replicated catalog. -/
def snapshotGauge : Gauge Snapshot Rat where
  cpuUsage := Snapshot.cpuUsagePercent
  memoryAvail := Snapshot.memoryAvailBytes
  cpuMillisRemaining := estimatedCPUmillisRemaining

def feasible (reqCPUmillis reqMemBytes : Int) (s : Snapshot) : Bool :=
  snapshotGauge.feasible reqCPUmillis reqMemBytes s

def choosePlacement (w : Workload) (catalog : Table Snapshot) (localNodeID : String) : Except Failure String :=
  snapshotGauge.choosePlacement w catalog localNodeID

def HasRoom (w : Workload) (catalog : Table Snapshot) (node : String) : Prop :=
  ∃ snap, catalog.lookup node = some snap ∧
    feasible (w.resources.getD {}).cpuMillis (w.resources.getD {}).memoryBytes snap = true

/-- The workload may go to a node of that name: any, or one of the preferred
ones that are not blank. -/
def Workload.Admits (w : Workload) (node : String) : Prop :=
  ∀ scheduling ∈ w.scheduling, scheduling.preferredNodes ≠ [] →
    node ≠ "" ∧ ∃ name ∈ scheduling.preferredNodes, trimSpace name = node

theorem Workload.admits_iff {w : Workload} {node : String} : w.Admits node ↔ ∀ want ∈ preferredNames w, node ∈ want := by
  unfold Workload.Admits preferredNames
  cases w.scheduling with
  | none => simp
  | some scheduling =>
    by_cases free : scheduling.preferredNodes = []
    · simp [free]
    · simp [free, List.mem_eraseDups, and_comm]

theorem mem_catalogNodeIDs {S : Type} {catalog : Table S} {id : String} : id ∈ catalogNodeIDs catalog ↔ id ∈ catalog.keys :=
  (List.perm_insertionSort _ _).mem_iff

theorem catalogNodeIDs_ascending {S : Type} (catalog : Table S) : (catalogNodeIDs catalog).Pairwise (· < ·) := by
  have sorted : (catalogNodeIDs catalog).Pairwise (· ≤ ·) := List.pairwise_insertionSort _ _
  have distinct : (catalogNodeIDs catalog).Nodup := (List.perm_insertionSort _ _).nodup_iff.mpr catalog.keys_nodup
  exact (sorted.and distinct).imp fun both => lt_of_le_of_ne both.1 both.2

theorem placementCandidates_spec {S : Type} (w : Workload) (catalog : Table S) :
    match placementCandidates w catalog with
    | .ok candidates => candidates.Pairwise (· < ·) ∧ ∀ id, id ∈ candidates ↔ id ∈ catalog.keys ∧ w.Admits (trimSpace id)
    | .error _ => ∀ id ∈ catalog.keys, ¬ w.Admits (trimSpace id) := by
  unfold placementCandidates
  simp only [Workload.admits_iff]
  cases preferredNames w with
  | none => exact ⟨catalogNodeIDs_ascending catalog, by simp [mem_catalogNodeIDs]⟩
  | some want =>
    dsimp only
    split_ifs with blank missing
    · simp [List.isEmpty_iff.mp blank]
    · intro id member wanted
      have kept : id ∈ (catalogNodeIDs catalog).filter fun id => trimSpace id ∈ want :=
        List.mem_filter.mpr ⟨mem_catalogNodeIDs.mpr member, decide_eq_true (wanted want rfl)⟩
      rw [List.isEmpty_iff.mp missing] at kept
      cases kept
    · refine ⟨(catalogNodeIDs_ascending catalog).filter _, ?_⟩
      simp [mem_catalogNodeIDs]

namespace Gauge

section Reading

variable {S κ : Type} {g : Gauge S κ} {w : Workload} {catalog : Table S}

theorem feasible_iff {cpu memory : Int} {s : S} :
    g.feasible cpu memory s = true ↔ (cpu ≤ 0 ∨ cpu ≤ g.cpuMillisRemaining s) ∧ memory ≤ g.memoryAvail s := by
  unfold feasible
  split
  · simp only [Bool.false_eq_true, false_iff]
    omega
  · split
    · simp only [true_iff]
      omega
    · rw [decide_eq_true_eq]
      omega

/-- A candidate with its snapshot, if that shows room for the workload. -/
def scored (g : Gauge S κ) (w : Workload) (catalog : Table S) (id : String) : Option (ScoredNode S) :=
  ((catalog.lookup (trimSpace id)).filter
    (g.feasible (w.resources.getD {}).cpuMillis (w.resources.getD {}).memoryBytes)).map (⟨id, ·⟩)

theorem scored_eq_some {id : String} {node : ScoredNode S} :
    g.scored w catalog id = some node ↔ node.id = id ∧ catalog.lookup (trimSpace id) = some node.snap ∧
      g.feasible (w.resources.getD {}).cpuMillis (w.resources.getD {}).memoryBytes node.snap = true := by
  rw [scored, Option.map_eq_some_iff]
  constructor
  · rintro ⟨snap, found, rfl⟩
    exact ⟨rfl, Option.filter_eq_some_iff.mp found⟩
  · rintro ⟨rfl, found⟩
    exact ⟨node.snap, Option.filter_eq_some_iff.mpr found, rfl⟩

/-- A node of the catalog that the workload may go to: it has what is asked
for, and it is preferred if any node is. -/
structure Qualifies (g : Gauge S κ) (w : Workload) (catalog : Table S) (node : ScoredNode S) : Prop where
  listed : catalog.lookup node.id = some node.snap
  cpu : (w.resources.getD {}).cpuMillis ≤ 0 ∨ (w.resources.getD {}).cpuMillis ≤ g.cpuMillisRemaining node.snap
  memory : (w.resources.getD {}).memoryBytes ≤ g.memoryAvail node.snap
  admitted : w.Admits node.id

def Suits (g : Gauge S κ) (w : Workload) (catalog : Table S) (node : ScoredNode S) : Prop :=
  node.id ∈ catalog.keys ∧ g.scored w catalog node.id = some node ∧ w.Admits (trimSpace node.id)

theorem qualifies_iff (trimmed : ∀ id ∈ catalog.keys, trimSpace id = id) {node : ScoredNode S} :
    g.Qualifies w catalog node ↔ g.Suits w catalog node := by
  simp only [Suits, scored_eq_some, feasible_iff]
  constructor
  · rintro ⟨listed, cpu, memory, admitted⟩
    have member : node.id ∈ catalog.keys := AList.mem_keys.mp (AList.lookup_isSome.mp (by rw [listed]; rfl))
    rw [trimmed node.id member]
    exact ⟨member, ⟨trivial, listed, cpu, memory⟩, admitted⟩
  · rintro ⟨member, ⟨-, listed, cpu, memory⟩, admitted⟩
    rw [trimmed node.id member] at listed admitted
    exact ⟨listed, cpu, memory, admitted⟩

end Reading

variable {S κ : Type} [LinearOrder κ] {g : Gauge S κ} {w : Workload} {catalog : Table S}

/-- Where a node stands before ties are broken by its id: by its CPU in use,
then by its free memory, the more the better, then by its preference. -/
def score (g : Gauge S κ) (w : Workload) (node : ScoredNode S) : κ ×ₗ ℕᵒᵈ ×ₗ ℕ :=
  toLex (g.cpuUsage node.snap, toLex (OrderDual.toDual (g.memoryAvail node.snap),
    (preferredNames w).elim 0 fun want => preferredRank want node.id))

theorem shouldReplaceCandidate_iff {cur prev : ScoredNode S} :
    g.shouldReplaceCandidate (preferredNames w) cur prev = true ↔ g.score w cur < g.score w prev := by
  simp only [shouldReplaceCandidate, better, snapEqual, score, Prod.Lex.toLex_lt_toLex, OrderDual.toDual_lt_toDual,
    Bool.or_eq_true, OrderDual.toDual_inj]
  rcases lt_trichotomy (g.cpuUsage cur.snap) (g.cpuUsage prev.snap) with below | same | above
  · simp [below, below.ne]
  · cases preferredNames w <;> simp [same]
  · cases preferredNames w <;> simp [above.not_gt, above.ne']

theorem chooseBetterCandidate_eq {best : Option (ScoredNode S)} {id : String} :
    g.chooseBetterCandidate w catalog best id =
      (g.scored w catalog id).elim best (List.argAux (fun cur prev => g.score w cur < g.score w prev) best) := by
  unfold chooseBetterCandidate scored
  cases catalog.lookup (trimSpace id) with
  | none => rfl
  | some snap =>
    cases room : g.feasible (w.resources.getD {}).cpuMillis (w.resources.getD {}).memoryBytes snap with
    | false =>
      rw [Option.filter_some_neg (by simp [room])]
      simp [room]
    | true =>
      rw [Option.filter_some_pos room]
      cases best with
      | none => simp [room, List.argAux]
      | some prev => simp [room, List.argAux, shouldReplaceCandidate_iff]

theorem foldl_chooseBetterCandidate {candidates : List String} :
    candidates.foldl (g.chooseBetterCandidate w catalog) none =
      (candidates.filterMap (g.scored w catalog)).argmin (g.score w) := by
  have steps : g.chooseBetterCandidate w catalog = fun best id =>
      (g.scored w catalog id).elim best (List.argAux (fun cur prev => g.score w cur < g.score w prev) best) := by
    funext best id
    exact chooseBetterCandidate_eq
  rw [List.argmin, List.foldl_filterMap, steps]
  congr
  funext best id
  cases g.scored w catalog id <;> rfl

/-- Where a node stands among all: equals are told apart by their ids. -/
def standing (g : Gauge S κ) (w : Workload) (node : ScoredNode S) : (κ ×ₗ ℕᵒᵈ ×ₗ ℕ) ×ₗ String :=
  toLex (g.score w node, node.id)

theorem standing_le_of_mem_argmin {nodes : List (ScoredNode S)} (ascending : nodes.Pairwise fun a b => a.id < b.id)
    {best : ScoredNode S} (first : best ∈ nodes.argmin (g.score w)) :
    best ∈ nodes ∧ ∀ node ∈ nodes, g.standing w best ≤ g.standing w node := by
  classical
  obtain ⟨member, least, earliest⟩ := List.mem_argmin_iff.mp first
  refine ⟨member, fun node inside => Prod.Lex.toLex_le_toLex.mpr ?_⟩
  rcases (least node inside).lt_or_eq with below | same
  · exact .inl below
  · refine .inr ⟨same, ?_⟩
    have before := earliest node inside same.ge
    rcases before.lt_or_eq with earlier | here
    · have ordered := List.pairwise_iff_getElem.mp ascending _ _ (List.idxOf_lt_length_of_mem member)
        (List.idxOf_lt_length_of_mem inside) earlier
      rw [List.getElem_idxOf, List.getElem_idxOf] at ordered
      exact ordered.le
    · rw [List.idxOf_inj member |>.mp here]

/-- The node chosen suits and stands first, and an error means that none suits. -/
theorem choosePlacement_spec (listed : catalog.keys ≠ []) (localNodeID : String) :
    match g.choosePlacement w catalog localNodeID with
    | .ok chosen => ∃ node, node.id = chosen ∧ g.Suits w catalog node ∧
        ∀ other, g.Suits w catalog other → g.standing w node ≤ g.standing w other
    | .error _ => ∀ node, ¬ g.Suits w catalog node := by
  have candidates := placementCandidates_spec w catalog
  unfold choosePlacement
  rw [if_neg (by simpa using listed)]
  cases given : placementCandidates w catalog with
  | error err =>
    rw [given] at candidates
    exact fun node suits => candidates node.id suits.1 suits.2.2
  | ok ids =>
    rw [given] at candidates
    obtain ⟨ascending, members⟩ := candidates
    have compared (node : ScoredNode S) : node ∈ ids.filterMap (g.scored w catalog) ↔ g.Suits w catalog node := by
      rw [List.mem_filterMap]
      constructor
      · rintro ⟨id, inside, found⟩
        obtain ⟨rfl, -⟩ := scored_eq_some.mp found
        obtain ⟨member, admitted⟩ := (members _).mp inside
        exact ⟨member, found, admitted⟩
      · rintro ⟨member, found, admitted⟩
        exact ⟨node.id, (members _).mpr ⟨member, admitted⟩, found⟩
    dsimp only
    rw [foldl_chooseBetterCandidate]
    cases best : (ids.filterMap (g.scored w catalog)).argmin (g.score w) with
    | none =>
      intro node suits
      have inside := (compared node).mpr suits
      rw [List.argmin_eq_none.mp best] at inside
      cases inside
    | some node =>
      have ordered : (ids.filterMap (g.scored w catalog)).Pairwise fun a b => a.id < b.id := by
        refine List.Pairwise.filterMap _ (fun x y below a foundA b foundB => ?_) ascending
        rw [(scored_eq_some.mp foundA).1, (scored_eq_some.mp foundB).1]
        exact below
      obtain ⟨inside, least⟩ := standing_le_of_mem_argmin ordered best
      exact ⟨node, rfl, (compared node).mp inside, fun other suits => least other ((compared other).mpr suits)⟩

theorem suits_of_choosePlacement_ok {localNodeID chosen : String} (listed : catalog.keys ≠ [])
    (given : g.choosePlacement w catalog localNodeID = .ok chosen) : ∃ node, node.id = chosen ∧ g.Suits w catalog node := by
  have spec := choosePlacement_spec (g := g) (w := w) listed localNodeID
  rw [given] at spec
  obtain ⟨node, same, suits, -⟩ := spec
  exact ⟨node, same, suits⟩

theorem of_choosePlacement_error {localNodeID : String} {err : Failure}
    (failed : g.choosePlacement w catalog localNodeID = .error err) :
    catalog.keys ≠ [] ∧ ∀ node, ¬ g.Suits w catalog node := by
  have listed : catalog.keys ≠ [] := by
    intro empty
    rw [choosePlacement, if_pos (by simpa using empty)] at failed
    cases failed
  have spec := choosePlacement_spec (g := g) (w := w) listed localNodeID
  rw [failed] at spec
  exact ⟨listed, spec⟩

/-- The chosen node is in the catalog, has what the workload asks for, is
preferred if any node is, and comes first of all such nodes by CPU in use, free
memory, preference and id. The choice fails if there is no such node and only
then, and without a catalog it falls on this node. -/
theorem placement_is_best (g : Gauge S κ) (w : Workload) (catalog : Table S) (localNodeID : String)
    (trimmed : ∀ id ∈ catalog.keys, trimSpace id = id) :
    (catalog.keys = [] → g.choosePlacement w catalog localNodeID = .ok (fallbackNodeID localNodeID)) ∧
      (catalog.keys ≠ [] →
        (∀ chosen, g.choosePlacement w catalog localNodeID = .ok chosen → ∃ node, node.id = chosen ∧
          g.Qualifies w catalog node ∧ ∀ other, g.Qualifies w catalog other → g.standing w node ≤ g.standing w other) ∧
        ((∃ err, g.choosePlacement w catalog localNodeID = .error err) ↔ ∀ node, ¬ g.Qualifies w catalog node)) := by
  refine ⟨fun empty => by rw [choosePlacement, if_pos (by simpa using empty)], fun listed => ?_⟩
  have spec := choosePlacement_spec (g := g) (w := w) listed localNodeID
  simp only [qualifies_iff trimmed]
  cases outcome : g.choosePlacement w catalog localNodeID with
  | error err =>
    rw [outcome] at spec
    exact ⟨nofun, fun _ => spec, fun _ => ⟨err, rfl⟩⟩
  | ok chosen =>
    rw [outcome] at spec
    refine ⟨fun other same => Except.ok.inj same ▸ spec, nofun, fun none => ?_⟩
    obtain ⟨node, -, suits, -⟩ := spec
    exact absurd suits (none node)

end Gauge

/-- Two nodes that differ in nothing but their ids. -/
def twinCatalog : Table Snapshot :=
  let snap (nodeID : String) : Snapshot := ⟨nodeID, 0, 4, 40, 8⟩
  (AList.singleton "x" (snap "x")).insert "y" (snap "y")

theorem placement_is_best_twins :
    let w : Workload := { name := "w", scheduling := some { preferredNodes := ["y", "x"] } }
    snapshotGauge.choosePlacement w twinCatalog "a" = .ok "y" ∧
      ∃ node, node.id = "y" ∧ snapshotGauge.Qualifies w twinCatalog node ∧
        ∀ other, snapshotGauge.Qualifies w twinCatalog other → snapshotGauge.standing w node ≤ snapshotGauge.standing w other :=
  ⟨by decide +kernel, ((Gauge.placement_is_best snapshotGauge _ twinCatalog "a" (by decide +kernel)).2 (by decide +kernel)).1
    "y" (by decide +kernel)⟩

theorem choosePlacement_room {w : Workload} {catalog : Table Snapshot} {localNodeID node : String}
    (anywhere : preferredNames w = none) (clean : trimSpace node = node) (room : HasRoom w catalog node) :
    ∃ chosen, choosePlacement w catalog localNodeID = .ok chosen ∧ HasRoom w catalog (trimSpace chosen) := by
  obtain ⟨snap, found, roomy⟩ := room
  have listed : node ∈ catalog.keys := AList.mem_keys.mp (AList.lookup_isSome.mp (by rw [found]; rfl))
  have suits : snapshotGauge.Suits w catalog ⟨node, snap⟩ := by
    refine ⟨listed, Gauge.scored_eq_some.mpr ⟨rfl, by rwa [clean], roomy⟩, Workload.admits_iff.mpr ?_⟩
    simp [anywhere]
  cases outcome : choosePlacement w catalog localNodeID with
  | error err => exact absurd suits ((Gauge.of_choosePlacement_error outcome).2 _)
  | ok chosen =>
    obtain ⟨best, rfl, -, scored, -⟩ := Gauge.suits_of_choosePlacement_ok (List.ne_nil_of_mem listed) outcome
    obtain ⟨-, there, room⟩ := Gauge.scored_eq_some.mp scored
    exact ⟨best.id, rfl, best.snap, there, room⟩

end Orch
