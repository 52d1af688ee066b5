import Orch.Effect.Ensures
import Mathlib.Data.List.Basic

namespace Effect

variable {β ρ χ : Type}

/-- Rounds over a list, up to the first that fails. Each leads from one state
to the next and leaves marks. -/
inductive Rounds (round : β → ρ → List χ → Bool → ρ → Prop) : List β → ρ → List χ → Bool → ρ → Prop
  | done {r : ρ} : Rounds round [] r [] true r
  | next {x xs r own s later ok t} : round x r own true s → Rounds round xs s later ok t →
      Rounds round (x :: xs) r (own ++ later) ok t
  | fail {x xs r own s} : round x r own false s → Rounds round (x :: xs) r own false s

/-- Some round for the element leaves the mark. -/
def Leaves (round : β → ρ → List χ → Bool → ρ → Prop) (x : β) (mark : χ) : Prop :=
  ∃ r own ok s, round x r own ok s ∧ mark ∈ own

variable {round : β → ρ → List χ → Bool → ρ → Prop} {xs : List β} {r t : ρ} {marks : List χ} {ok : Bool}

theorem Rounds.mem_mark (rounds : Rounds round xs r marks ok t) {mark : χ} (member : mark ∈ marks) :
    ∃ x ∈ xs, Leaves round x mark := by
  induction rounds with
  | done => simp at member
  | next first _ ih =>
    rcases List.mem_append.mp member with here | later
    · exact ⟨_, List.mem_cons_self, _, _, _, _, first, here⟩
    · obtain ⟨x, inside, left⟩ := ih later
      exact ⟨x, List.mem_cons_of_mem _ inside, left⟩
  | fail last => exact ⟨_, List.mem_cons_self, _, _, _, _, last, member⟩

/-- Where no round fails, each element has had its own. -/
theorem Rounds.of_ok (rounds : Rounds round xs r marks ok t) (passed : ok = true) {x : β} (member : x ∈ xs) :
    ∃ before own after, round x before own true after ∧ own ⊆ marks := by
  induction rounds with
  | done => simp at member
  | next first _ ih =>
    rcases List.mem_cons.mp member with rfl | later
    · exact ⟨_, _, _, first, List.subset_append_left _ _⟩
    · obtain ⟨before, own, after, taken, within⟩ := ih passed later
      exact ⟨before, own, after, taken, List.subset_append_of_subset_right _ within⟩
  | fail => cases passed

/-- Marks that are in order within each round and from one round to a later
one are in order. -/
theorem Rounds.pairwise {before : χ → χ → Prop} (rounds : Rounds round xs r marks ok t)
    (inside : ∀ x ∈ xs, ∀ {r own ok s}, round x r own ok s → own.Pairwise before)
    (across : xs.Pairwise fun x y => ∀ a b, Leaves round x a → Leaves round y b → before a b) :
    marks.Pairwise before := by
  induction rounds with
  | done => exact List.Pairwise.nil
  | next first rest ih =>
    obtain ⟨ahead, across⟩ := List.pairwise_cons.mp across
    refine List.pairwise_append.mpr ⟨inside _ List.mem_cons_self first,
      ih (fun x member => inside x (List.mem_cons_of_mem _ member)) across, ?_⟩
    intro a here b later
    obtain ⟨y, member, left⟩ := rest.mem_mark later
    exact ahead y member a b ⟨_, _, _, _, first, here⟩ left
  | fail last => exact inside _ List.mem_cons_self last

variable {S : Signature} {σ ε : Type} {step : Steps S σ} {permit : σ → S.Op → Prop}

/-- A loop that stops at the first error runs in rounds. -/
theorem ensures_rounds {body : β → Program S (Except ε Unit)} (state : σ → ρ) (noted : σ → List χ) :
    ∀ {xs : List β} {s : σ},
      (∀ x ∈ xs, ∀ s, Ensures step permit (fun result t => ∃ own, round x (state s) own result.isOk (state t) ∧
        noted t = noted s ++ own) (body x) s) →
      Ensures step permit (fun result t => ∃ marks, Rounds round xs (state s) marks result.isOk (state t) ∧
        noted t = noted s ++ marks) (Program.eachUntil body xs) s
  | [], s, _ => ⟨[], .done, (List.append_nil _).symm⟩
  | x :: xs, s, bodies => by
    refine (bodies x List.mem_cons_self s).bind ?_
    rintro (err | _) t ⟨own, taken, notes⟩
    · exact ⟨own, .fail taken, notes⟩
    · refine (ensures_rounds state noted fun y member => bodies y (List.mem_cons_of_mem _ member)).mono ?_
      rintro result u ⟨later, rest, after⟩
      exact ⟨own ++ later, .next taken rest, by rw [after, notes, List.append_assoc]⟩

end Effect
