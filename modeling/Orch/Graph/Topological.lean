import Mathlib.Data.Finset.Card
import Mathlib.Data.Finset.Filter
import Mathlib.Data.List.Perm.Basic
import Mathlib.Data.Nat.Basic
import Mathlib.Logic.Relation

namespace Topological

variable {α : Type}

/-- What a topological sort promises about the nodes and edges it is given.
An edge goes from the node that has to come first. -/
structure Sorter (α : Type) where
  sort : List α → List (α × α) → Option (List α)
  perm : ∀ {nodes edges order}, sort nodes edges = some order → order.Perm nodes
  ordered : ∀ {nodes edges order a b}, nodes.Nodup → sort nodes edges = some order → (a, b) ∈ edges →
    a ∈ nodes → b ∈ nodes → [a, b].Sublist order
  complete : ∀ {nodes edges} (rank : α → Nat), (∀ a b, (a, b) ∈ edges → rank a < rank b) →
    (sort nodes edges).isSome

/-- In an order without repetitions, what comes before an element stands in
the part before it. -/
theorem mem_of_sublist_pair {a b : α} {before after : List α} (distinct : (before ++ b :: after).Nodup)
    (ordered : [a, b].Sublist (before ++ b :: after)) : a ∈ before := by
  obtain ⟨left, right, cut, early, late⟩ := List.sublist_append_iff.mp ordered
  match left, cut with
  | [], cut =>
    have fresh : b ∉ after := (List.nodup_cons.mp (List.nodup_append.mp distinct).2.1).1
    rw [← (show [a, b] = right from cut)] at late
    exact absurd (List.singleton_sublist.mp late.of_cons_cons) fresh
  | first :: _, cut =>
    obtain ⟨rfl, -⟩ := List.cons.inj cut
    exact early.subset List.mem_cons_self

theorem sublist_pair_trans {a b c : α} {order : List α} (distinct : order.Nodup) (first : [a, b].Sublist order)
    (second : [b, c].Sublist order) : [a, c].Sublist order := by
  obtain ⟨before, after, rfl⟩ := List.append_of_mem (second.subset (List.mem_cons_of_mem _ List.mem_cons_self))
  obtain ⟨early, late, rfl⟩ := List.append_of_mem (mem_of_sublist_pair distinct second)
  rw [List.append_assoc, List.cons_append] at distinct first
  have there := mem_of_sublist_pair distinct first
  rw [List.append_assoc]
  refine (List.singleton_sublist.mpr there).append (List.singleton_sublist.mpr ?_)
  simp

variable {edges : List (α × α)}

section Acyclic

/-- The edges lead back to no node. -/
def Acyclic (edges : List (α × α)) : Prop := ∀ a, ¬ Relation.TransGen (fun a b => (a, b) ∈ edges) a a

/-- Without cycles, the number of nodes on the way to a node grows along the
edges. -/
theorem exists_rank {nodes : List α} (inside : ∀ a b, (a, b) ∈ edges → a ∈ nodes)
    (acyclic : Acyclic edges) : ∃ rank : α → Nat, ∀ a b, (a, b) ∈ edges → rank a < rank b := by
  classical
  refine ⟨fun b => (nodes.toFinset.filter fun a => Relation.TransGen (fun a b => (a, b) ∈ edges) a b).card, ?_⟩
  intro a b edge
  refine Finset.card_lt_card (Finset.ssubset_iff_of_subset ?_ |>.mpr ⟨a, ?_, ?_⟩)
  · intro x member
    obtain ⟨known, leads⟩ := Finset.mem_filter.mp member
    exact Finset.mem_filter.mpr ⟨known, leads.tail edge⟩
  · exact Finset.mem_filter.mpr ⟨List.mem_toFinset.mpr (inside a b edge), .single edge⟩
  · intro member
    exact acyclic a (Finset.mem_filter.mp member).2

theorem idxOf_lt_of_sublist_pair [DecidableEq α] {a b : α} {order : List α} (distinct : order.Nodup)
    (ordered : [a, b].Sublist order) : order.idxOf a < order.idxOf b := by
  have member : b ∈ order := ordered.subset (by simp)
  obtain ⟨before, after, rfl⟩ := List.append_of_mem member
  have early := mem_of_sublist_pair distinct ordered
  have fresh : b ∉ before := fun inside => (List.nodup_append.mp distinct).2.2 b inside b List.mem_cons_self rfl
  rw [List.idxOf_append_of_mem early, List.idxOf_append_of_notMem fresh, List.idxOf_cons_self]
  exact List.idxOf_lt_length_of_mem early

theorem Sorter.isSome_sort_iff (sorter : Sorter α) {nodes : List α} (distinct : nodes.Nodup)
    (inside : ∀ a b, (a, b) ∈ edges → a ∈ nodes ∧ b ∈ nodes) :
    (sorter.sort nodes edges).isSome ↔ Acyclic edges := by
  classical
  constructor
  · intro some a cycle
    obtain ⟨order, sorted⟩ := Option.isSome_iff_exists.mp some
    have separate : order.Nodup := (sorter.perm sorted).nodup_iff.mpr distinct
    have up {a b : α} (edge : (a, b) ∈ edges) : order.idxOf a < order.idxOf b :=
      idxOf_lt_of_sublist_pair separate (sorter.ordered distinct sorted edge (inside a b edge).1 (inside a b edge).2)
    have rises {a b : α} (leads : Relation.TransGen (fun a b => (a, b) ∈ edges) a b) : order.idxOf a < order.idxOf b := by
      induction leads with
      | single edge => exact up edge
      | tail _ edge ih => exact ih.trans (up edge)
    exact Nat.lt_irrefl _ (rises cycle)
  · intro acyclic
    obtain ⟨rank, up⟩ := exists_rank (fun a b edge => (inside a b edge).1) acyclic
    exact sorter.complete rank up

end Acyclic

variable [DecidableEq α]

def ready (edges : List (α × α)) (remaining : List α) (x : α) : Bool :=
  remaining.all fun y => !edges.contains (y, x)

/-- Take out one node without predecessors at a time. -/
def peel (edges : List (α × α)) : Nat → List α → Option (List α)
  | _, [] => some []
  | 0, _ :: _ => none
  | fuel + 1, remaining =>
    match remaining.find? (ready edges remaining) with
    | none => none
    | some x => (peel edges fuel (remaining.erase x)).map (x :: ·)

theorem peel_cons {fuel : Nat} {remaining order : List α}
    (nonempty : remaining ≠ []) (run : peel edges (fuel + 1) remaining = some order) :
    ∃ x later, order = x :: later ∧ x ∈ remaining ∧ (∀ y ∈ remaining, (y, x) ∉ edges) ∧
      peel edges fuel (remaining.erase x) = some later := by
  cases remaining with
  | nil => exact absurd rfl nonempty
  | cons head tail =>
    rw [peel] at run
    swap
    · exact nonempty
    split at run
    · cases run
    · rename_i x found
      obtain ⟨later, rest, rfl⟩ := Option.map_eq_some_iff.mp run
      have clear := List.find?_some found
      simp only [ready, List.all_eq_true, Bool.not_eq_true', List.contains_iff_mem,
        ← Bool.not_eq_true] at clear
      exact ⟨x, later, rfl, List.mem_of_find?_eq_some found, clear, rest⟩

theorem peel_perm : ∀ {fuel : Nat} {remaining order : List α},
    peel edges fuel remaining = some order → order.Perm remaining
  | fuel, [], order, run => by
    cases fuel <;> simp only [peel, Option.some.injEq] at run <;> exact run ▸ .refl _
  | 0, _ :: _, _, run => by cases run
  | fuel + 1, head :: tail, order, run => by
    obtain ⟨x, later, rfl, member, -, rest⟩ := peel_cons (by simp) run
    exact ((peel_perm rest).cons x).trans (List.perm_cons_erase member).symm

theorem peel_ordered {a b : α} (edge : (a, b) ∈ edges) :
    ∀ {fuel : Nat} {remaining order : List α}, remaining.Nodup → peel edges fuel remaining = some order →
      a ∈ remaining → b ∈ remaining → [a, b].Sublist order
  | _, [], _, _, _, ina, _ => by cases ina
  | 0, _ :: _, _, _, run, _, _ => by cases run
  | fuel + 1, head :: tail, order, nodup, run, ina, inb => by
    obtain ⟨x, later, rfl, member, clear, rest⟩ := peel_cons (by simp) run
    have notb : x ≠ b := by
      rintro rfl
      exact clear a ina edge
    have laterb : b ∈ (head :: tail).erase x := (nodup.mem_erase_iff).mpr ⟨notb.symm, inb⟩
    rcases eq_or_ne x a with rfl | nota
    · exact (List.singleton_sublist.mpr ((peel_perm rest).mem_iff.mpr laterb)).cons_cons x
    · have latera : a ∈ (head :: tail).erase x := (nodup.mem_erase_iff).mpr ⟨nota.symm, ina⟩
      exact (peel_ordered edge (nodup.erase x) rest latera laterb).cons x

theorem exists_ready {rank : α → Nat}
    (up : ∀ a b, (a, b) ∈ edges → rank a < rank b) {remaining : List α} (nonempty : remaining ≠ []) :
    ∃ x ∈ remaining, ready edges remaining x = true := by
  obtain ⟨x, member, least⟩ : ∃ x ∈ remaining, ∀ y ∈ remaining, rank x ≤ rank y := by
    induction remaining with
    | nil => exact absurd rfl nonempty
    | cons head tail ih =>
      rcases eq_or_ne tail [] with rfl | more
      · exact ⟨head, by simp, by simp⟩
      · obtain ⟨x, member, least⟩ := ih more
        rcases Nat.le_total (rank head) (rank x) with low | high
        · refine ⟨head, by simp, ?_⟩
          simp only [List.mem_cons, forall_eq_or_imp, le_refl, true_and]
          exact fun y iny => Nat.le_trans low (least y iny)
        · refine ⟨x, by simp [member], ?_⟩
          simp only [List.mem_cons, forall_eq_or_imp]
          exact ⟨high, least⟩
  refine ⟨x, member, ?_⟩
  simp only [ready, List.all_eq_true, Bool.not_eq_true', ← Bool.not_eq_true, List.contains_iff_mem]
  exact fun y iny edge => absurd (up y x edge) (Nat.not_lt.mpr (least y iny))

theorem peel_complete {rank : α → Nat} (up : ∀ a b, (a, b) ∈ edges → rank a < rank b) :
    ∀ {fuel : Nat} {remaining : List α}, remaining.length ≤ fuel → (peel edges fuel remaining).isSome
  | fuel, [], _ => by cases fuel <;> rfl
  | 0, _ :: _, bound => by cases bound
  | fuel + 1, head :: tail, bound => by
    rw [peel]
    · split
      · rename_i missing
        obtain ⟨x, member, clear⟩ := exists_ready up (List.cons_ne_nil head tail)
        exact absurd clear (by simpa using List.find?_eq_none.mp missing x member)
      · rename_i x found
        rw [Option.isSome_map]
        refine peel_complete up ?_
        rw [List.length_erase_of_mem (List.mem_of_find?_eq_some found)]
        simpa using bound
    · simp

/-- A sorter that keeps the given order of the nodes where the edges allow it. -/
def peeling (α : Type) [DecidableEq α] : Sorter α where
  sort nodes edges := peel edges nodes.length nodes
  perm := peel_perm
  ordered nodup run edge := peel_ordered edge nodup run
  complete _ up := peel_complete up le_rfl

end Topological
