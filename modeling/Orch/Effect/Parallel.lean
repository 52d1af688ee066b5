import Orch.Effect.Ensures
import Mathlib.Logic.Function.Basic

namespace Effect

variable {S : Signature} {σ τ ι : Type} {α : ι → Type} {β : Type} {ps qs : (i : ι) → Program S (α i)}

variable {trace : List (ι × Event S σ)}

section Weave

variable [DecidableEq ι]

/-- Programs that run at once: at every moment one of them takes its next
step. The trace says whose step it was. -/
inductive Weave (step : ι → Steps S σ) :
    ((i : ι) → Program S (α i)) → σ → List (ι × Event S σ) → ((i : ι) → Program S (α i)) → σ → Prop
  | here {ps s} : Weave step ps s [] ps s
  | next {ps i op rest s t answer trace qs u} : ps i = .call op rest → step i s op answer t →
      Weave step (Function.update ps i (rest answer)) t trace qs u →
      Weave step ps s ((i, ⟨s, op, answer, t⟩) :: trace) qs u

theorem Weave.mono {step wider : ι → Steps S σ} {s u : σ}
    (weave : Weave step ps s trace qs u) (within : ∀ {i s op answer t}, step i s op answer t → wider i s op answer t) :
    Weave wider ps s trace qs u := by
  induction weave with
  | here => exact .here
  | next asks taken later ih => exact .next asks (within taken) ih

/-- Run programs at once on a given schedule of turns and choices. A turn of a
program that has ended is passed over. -/
def weave (m : ι → Machine S σ) : List ((i : ι) × (m i).Choice) → ((i : ι) → Program S (α i)) → σ →
    Option (List (ι × Event S σ) × ((i : ι) → Program S (α i)) × σ)
  | [], ps, s => some ([], ps, s)
  | ⟨i, choice⟩ :: turns, ps, s =>
    match ps i with
    | .pure _ => weave m turns ps s
    | .call op rest =>
      match (m i).perform s op choice with
      | none => none
      | some (t, answer) =>
        (weave m turns (Function.update ps i (rest answer)) t).map fun (trace, last) => ((i, ⟨s, op, answer, t⟩) :: trace, last)

theorem weave_weaves {m : ι → Machine S σ} {turns : List ((i : ι) × (m i).Choice)}
    {s u : σ} (woven : weave m turns ps s = some (trace, qs, u)) :
    Weave (fun i => (m i).Step) ps s trace qs u := by
  induction turns generalizing ps s trace with
  | nil =>
    cases woven
    exact .here
  | cons turn turns ih =>
    obtain ⟨i, choice⟩ := turn
    rw [weave] at woven
    split at woven
    · exact ih woven
    · rename_i op rest asks
      split at woven
      · cases woven
      · rename_i t answer taken
        obtain ⟨⟨later, last⟩, following, same⟩ := Option.map_eq_some_iff.mp woven
        cases same
        exact .next asks ⟨choice, taken⟩ (ih following)

/-- A schedule whose outcome passes a check is a run with such an outcome. -/
theorem exists_weave {m : ι → Machine S σ} {turns : List ((i : ι) × (m i).Choice)} {ps : (i : ι) → Program S (α i)} {s : σ}
    {check : List (ι × Event S σ) × ((i : ι) → Program S (α i)) × σ → Bool}
    (woven : (weave m turns ps s).map check = some true) :
    ∃ trace qs u, Weave (fun i => (m i).Step) ps s trace qs u ∧ check (trace, qs, u) = true := by
  obtain ⟨⟨trace, qs, u⟩, ended, passed⟩ := Option.map_eq_some_iff.mp woven
  exact ⟨trace, qs, u, weave_weaves ended, passed⟩

end Weave

/-- The steps of one program among others: after each of them the others may
have acted, as far as they can be relied on. -/
def Amid (rely : σ → σ → Prop) (step : Steps S σ) : Steps S σ :=
  fun s op answer u => ∃ t, step s op answer t ∧ rely t u

/-- A program among others, at every point the others may have brought it to
before its first step. -/
def Withstands (rely : σ → σ → Prop) (step : Steps S σ) (permit : σ → S.Op → Prop) (post : β → σ → Prop) (p : Program S β)
    (s : σ) : Prop :=
  ∀ t, rely s t → Ensures (Amid rely step) permit post p t

section Rely

variable [DecidableEq ι] {step : ι → Steps S σ} {rely : ι → σ → σ → Prop} {permit : ι → σ → S.Op → Prop}
  {post : (i : ι) → α i → σ → Prop}

/-- Each program keeps its promise among the others, if what it is permitted to
do is what the others rely on. -/
theorem Weave.permitted {s u : σ} (weave : Weave step ps s trace qs u)
    (promised : ∀ i, Withstands (rely i) (step i) (permit i) (post i) (ps i) s) (still : ∀ i s, rely i s s)
    (join : ∀ i {s t u}, rely i s t → rely i t u → rely i s u)
    (reliable : ∀ {i j s op answer t}, j ≠ i → permit i s op → step i s op answer t → rely j s t) :
    (∀ i event, (i, event) ∈ trace → permit i event.before event.op) ∧
      ∀ i, Withstands (rely i) (step i) (permit i) (post i) (qs i) u := by
  induction weave with
  | here => exact ⟨by simp, promised⟩
  | @next ps i op rest s t answer trace qs u asks taken later ih =>
    have own := promised i s (still i s)
    rw [asks] at own
    have following (j : ι) : Withstands (rely j) (step j) (permit j) (post j) (Function.update ps i (rest answer) j) t := by
      by_cases same : j = i
      · subst same
        rw [Function.update_self]
        intro v moved
        exact own.2 answer v ⟨t, taken, moved⟩
      · rw [Function.update_of_ne same]
        intro v moved
        exact promised j v (join j (reliable same own.1 taken) moved)
    obtain ⟨permitted, kept⟩ := ih following
    refine ⟨?_, kept⟩
    intro j event member
    rcases List.mem_cons.mp member with first | member
    · cases first
      exact own.1
    · exact permitted j event member

end Rely

/-- What every permitted step keeps holds at the end. -/
theorem Weave.keeps [DecidableEq ι] {step : ι → Steps S σ} {permit : ι → σ → S.Op → Prop}
    {s u : σ} (weave : Weave step ps s trace qs u)
    (inv : σ → Prop) (permitted : ∀ i event, (i, event) ∈ trace → permit i event.before event.op)
    (kept : ∀ {i s op answer t}, inv s → permit i s op → step i s op answer t → inv t) (start : inv s) : inv u := by
  induction weave with
  | here => exact start
  | @next ps i op rest s t answer trace qs u asks taken later ih =>
    have first := permitted i _ List.mem_cons_self
    exact ih (fun j event member => permitted j event (List.mem_cons_of_mem _ member)) (kept start first taken)

theorem Weave.noting [DecidableEq ι] {γ : Type} {step : ι → Steps S σ} (note : γ → ι × Event S σ → γ)
    {s u : σ} (weave : Weave step ps s trace qs u) (g : γ) :
    ∃ noted, Weave (fun i => Noting (step i) fun g event => note g (i, event)) ps (s, g) noted qs (u, trace.foldl note g) ∧
      ∀ before i event after, trace = before ++ (i, event) :: after →
        (i, ⟨(event.before, before.foldl note g), event.op, event.answer,
          (event.after, note (before.foldl note g) (i, event))⟩) ∈ noted := by
  induction weave generalizing g with
  | here => exact ⟨[], .here, by simp⟩
  | @next ps i op rest s t answer trace qs u asks taken later ih =>
    obtain ⟨noted, following, found⟩ := ih (note g (i, ⟨s, op, answer, t⟩))
    refine ⟨_, .next asks ⟨taken, rfl⟩ following, ?_⟩
    intro before j event after cut
    cases before with
    | nil =>
      obtain ⟨first, -⟩ := List.cons.inj cut
      cases first
      exact List.mem_cons_self
    | cons first before =>
      obtain ⟨rfl, rest⟩ := List.cons.inj cut
      exact List.mem_cons_of_mem _ (found before j event after rest)

theorem Withstands.simulate {step : Steps S σ} {coarse : Steps S τ} {rely : τ → τ → Prop} {permit : τ → S.Op → Prop}
    {post : β → τ → Prop} {view : σ → τ}
    (simulated : ∀ {s op answer t}, step s op answer t → coarse (view s) op answer (view t)) {p : Program S β} {s : σ}
    (withstands : Withstands rely coarse permit post p (view s)) :
    Withstands (fun s t => rely (view s) (view t)) step (fun s => permit (view s)) (fun b t => post b (view t)) p s := by
  intro t moved
  refine (withstands (view t) moved).simulate ?_
  rintro s op answer u ⟨t, taken, moved⟩
  exact ⟨view t, simulated taken, moved⟩

theorem Program.Asks.withstands {kind : S.Op → Prop} {p : Program S β} {rely : σ → σ → Prop} {step : Steps S σ} {s : σ}
    (asks : p.Asks kind) : Withstands rely step (fun _ op => kind op) anything p s :=
  fun _ _ => asks.ensures fun _ _ right => right

end Effect
