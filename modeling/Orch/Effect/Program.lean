import Mathlib.Data.List.Basic

namespace Effect

/-- The operations a program may ask its surroundings for, each with the
type of its answers. -/
structure Signature where
  Op : Type
  Answer : Op → Type

/-- Sequential code as a finite tree of requests. A node asks for one
operation and goes on with whatever answer comes back. -/
inductive Program (S : Signature) (α : Type) : Type where
  | pure (value : α) : Program S α
  | call (op : S.Op) (next : S.Answer op → Program S α) : Program S α

namespace Program

variable {S : Signature} {α β γ ε : Type}

def bind : Program S α → (α → Program S β) → Program S β
  | .pure value, rest => rest value
  | .call op next, rest => .call op (fun answer => (next answer).bind rest)

instance : Monad (Program S) where
  pure := Program.pure
  bind := Program.bind

def perform (op : S.Op) : Program S (S.Answer op) :=
  .call op .pure

/-- Run the body on each element and stop at the first error, as a loop
whose body returns an `error` does. -/
def eachUntil (body : β → Program S (Except ε Unit)) : List β → Program S (Except ε Unit)
  | [] => .pure (.ok ())
  | x :: xs => do
    match ← body x with
    | .error err => return .error err
    | .ok _ => eachUntil body xs

/-- The same loop, with how the body ended for each element that it came to. -/
def eachUntilLogged (body : β → Program S (Except ε Unit)) :
    List β → Program S (List (β × Except ε Unit) × Except ε Unit)
  | [] => .pure ([], .ok ())
  | x :: xs => do
    match ← body x with
    | .error err => return ([(x, .error err)], .error err)
    | .ok _ =>
      let (log, result) ← eachUntilLogged body xs
      return ((x, .ok ()) :: log, result)

def each (body : β → Program S Unit) : List β → Program S Unit
  | [] => .pure ()
  | x :: xs => do
    body x
    each body xs

theorem bind_assoc (p : Program S α) (first : α → Program S β) (second : β → Program S γ) :
    (p >>= first) >>= second = p >>= fun a => first a >>= second := by
  change (p.bind first).bind second = p.bind fun a => (first a).bind second
  induction p with
  | pure value => rfl
  | call op next ih => exact congrArg (call op) (funext ih)

/-- Forgetting the log recovers the loop. -/
theorem forget_eachUntilLogged (body : β → Program S (Except ε Unit)) :
    ∀ xs, (do return (← eachUntilLogged body xs).2) = eachUntil body xs
  | [] => rfl
  | x :: xs => by
    rw [eachUntilLogged, eachUntil, bind_assoc]
    refine congrArg (bind (body x)) (funext ?_)
    rintro (err | _)
    · rfl
    · rw [← forget_eachUntilLogged body xs]
      exact bind_assoc _ _ _

end Program

/-- The surroundings of a program: what an operation answers and how it
changes the state, once the environment has made its choice. A choice the
environment cannot make in that state has no result. -/
structure Machine (S : Signature) (σ : Type) where
  Choice : Type
  perform : σ → (op : S.Op) → Choice → Option (σ × S.Answer op)

/-- All answers and successor states an operation may have. -/
abbrev Steps (S : Signature) (σ : Type) :=
  σ → (op : S.Op) → S.Answer op → σ → Prop

abbrev Steps.Within {S : Signature} {σ : Type} (step wider : Steps S σ) : Prop :=
  ∀ {s op answer t}, step s op answer t → wider s op answer t

def Assuming {S : Signature} {σ : Type} (step : Steps S σ) (good : (op : S.Op) → S.Answer op → Bool) : Steps S σ :=
  fun s op answer t => step s op answer t ∧ good op answer = true

namespace Machine

variable {S : Signature} {σ : Type}

def Step (m : Machine S σ) : Steps S σ :=
  fun s op answer t => ∃ choice, m.perform s op choice = some (t, answer)

/-- The same surroundings, where a step is taken only if its answer and the
state after it are allowed. -/
def limited (m : Machine S σ) (allows : (op : S.Op) → S.Answer op → σ → Bool) : Machine S σ where
  Choice := m.Choice
  perform s op choice :=
    match m.perform s op choice with
    | none => none
    | some (t, answer) => if allows op answer t then some (t, answer) else none

theorem limited_step {m : Machine S σ} {allows : (op : S.Op) → S.Answer op → σ → Bool} {s t : σ} {op : S.Op}
    {answer : S.Answer op} : (m.limited allows).Step s op answer t ↔ m.Step s op answer t ∧ allows op answer t = true := by
  constructor
  · rintro ⟨choice, taken⟩
    simp only [limited] at taken
    split at taken
    · cases taken
    · rename_i result
      split at taken
      · rename_i holds
        cases taken
        exact ⟨⟨choice, result⟩, holds⟩
      · cases taken
  · rintro ⟨⟨choice, taken⟩, holds⟩
    exact ⟨choice, by simp only [limited, taken, if_pos holds]⟩

/-- The same surroundings, where only the answers assumed can come. -/
def assuming (m : Machine S σ) (good : (op : S.Op) → S.Answer op → Bool) : Machine S σ :=
  m.limited fun op answer _ => good op answer

theorem assuming_step {m : Machine S σ} {good : (op : S.Op) → S.Answer op → Bool} {s t : σ} {op : S.Op}
    {answer : S.Answer op} (taken : (m.assuming good).Step s op answer t) : Assuming m.Step good s op answer t :=
  limited_step.mp taken

end Machine

/-- Run a program to its end on a given list of choices. There is no result
when a choice cannot be made or the list is too short. -/
def Program.play {S : Signature} {σ α : Type} (m : Machine S σ) : List m.Choice → Program S α → σ → Option (σ × α)
  | _, .pure value, s => some (s, value)
  | [], .call _ _, _ => none
  | choice :: choices, .call op next, s =>
    match m.perform s op choice with
    | none => none
    | some (t, answer) => play m choices (next answer) t

/-- Run a program in surroundings that leave nothing open. -/
def Program.handle {S : Signature} {σ α : Type} (reply : σ → (op : S.Op) → σ × S.Answer op) : Program S α → σ → σ × α
  | .pure value, s => (s, value)
  | .call op next, s => handle reply (next (reply s op).2) (reply s op).1

@[simp] theorem Program.handle_bind {S : Signature} {σ α β : Type} {reply : σ → (op : S.Op) → σ × S.Answer op}
    {p : Program S α} {rest : α → Program S β} {s : σ} :
    (p >>= rest).handle reply s = (rest (p.handle reply s).2).handle reply (p.handle reply s).1 := by
  change (p.bind rest).handle reply s = _
  induction p generalizing s with
  | pure value => rfl
  | call op next ih => exact ih _

/-- One operation of a run: the state it was asked in, its answer and the
state it left. -/
structure Event (S : Signature) (σ : Type) where
  before : σ
  op : S.Op
  answer : S.Answer op
  after : σ

section Runs

variable {S : Signature} {σ : Type} {α β ε : Type}

/-- A run of a program up to some point, with everything it asked for. -/
inductive Run (step : Steps S σ) : Program S α → σ → List (Event S σ) → Program S α → σ → Prop
  | here {p s} : Run step p s [] p s
  | next {op rest s t answer trace q u} : step s op answer t → Run step (rest answer) t trace q u →
      Run step (.call op rest) s (⟨s, op, answer, t⟩ :: trace) q u

def Finishes (step : Steps S σ) (p : Program S α) (s : σ) (a : α) (t : σ) : Prop :=
  ∃ trace, Run step p s trace (.pure a) t

/-- The states a program passes through, its first and last included. -/
def Visits (step : Steps S σ) (p : Program S α) (s t : σ) : Prop :=
  ∃ trace q, Run step p s trace q t

variable {step : Steps S σ}

/-- A run in which every event is good is a run of good steps. -/
theorem Run.within {good : Event S σ → Prop} {p q : Program S α} {s t : σ} {trace : List (Event S σ)}
    (run : Run step p s trace q t) (all : ∀ event ∈ trace, good event) :
    Run (fun s op answer t => step s op answer t ∧ good ⟨s, op, answer, t⟩) p s trace q t := by
  induction run with
  | here => exact .here
  | next taken later ih =>
    obtain ⟨first, rest⟩ := List.forall_mem_cons.mp all
    exact .next ⟨taken, first⟩ (ih rest)

theorem Run.mono {wider : Steps S σ} {p q : Program S α} {s t : σ} {trace : List (Event S σ)}
    (run : Run step p s trace q t) (within : ∀ {s op answer t}, step s op answer t → wider s op answer t) :
    Run wider p s trace q t := by
  induction run with
  | here => exact .here
  | next taken later ih => exact .next (within taken) ih

theorem Run.taken {p q : Program S α} {s t : σ} {trace : List (Event S σ)} (run : Run step p s trace q t) :
    ∀ event ∈ trace, step event.before event.op event.answer event.after := by
  induction run with
  | here => simp
  | next taken later ih => exact List.forall_mem_cons.mpr ⟨taken, ih⟩

variable {a : α}

theorem Finishes.visits {p : Program S α} {s t : σ} (run : Finishes step p s a t) : Visits step p s t := by
  obtain ⟨trace, run⟩ := run
  exact ⟨trace, _, run⟩

@[simp] theorem finishes_pure {b : α} {s t : σ} :
    Finishes step (.pure a) s b t ↔ b = a ∧ t = s := by
  constructor
  · rintro ⟨trace, run⟩
    cases run
    exact ⟨rfl, rfl⟩
  · rintro ⟨rfl, rfl⟩
    exact ⟨[], .here⟩

theorem finishes_call {op : S.Op} {rest : S.Answer op → Program S α} {s u : σ} :
    Finishes step (.call op rest) s a u ↔ ∃ answer t, step s op answer t ∧ Finishes step (rest answer) t a u := by
  constructor
  · rintro ⟨trace, run⟩
    cases run with
    | next taken later => exact ⟨_, _, taken, _, later⟩
  · rintro ⟨answer, t, taken, trace, later⟩
    exact ⟨_, .next taken later⟩

theorem Finishes.mono {wider : Steps S σ} {p : Program S α} {s t : σ} (run : Finishes step p s a t)
    (within : ∀ {s op answer t}, step s op answer t → wider s op answer t) : Finishes wider p s a t := by
  obtain ⟨trace, run⟩ := run
  exact ⟨trace, run.mono within⟩

theorem finishes_bind {p : Program S α} {rest : α → Program S β} {b : β} {s u : σ} :
    Finishes step (p >>= rest) s b u ↔ ∃ a t, Finishes step p s a t ∧ Finishes step (rest a) t b u := by
  change Finishes step (p.bind rest) s b u ↔ _
  induction p generalizing s with
  | pure value => simp [Program.bind]
  | call op next ih =>
    simp only [Program.bind, finishes_call, ih]
    constructor
    · rintro ⟨answer, t, taken, a, v, first, later⟩
      exact ⟨a, v, ⟨answer, t, taken, first⟩, later⟩
    · rintro ⟨a, v, ⟨answer, t, taken, first⟩, later⟩
      exact ⟨answer, t, taken, a, v, first, later⟩

section Logged

variable {body : β → Program S (Except ε Unit)}

/-- Either the loop has come to its end, or it has stopped at one element and
left out all behind it. -/
theorem eachUntilLogged_cut {out : List (β × Except ε Unit) × Except ε Unit} {t : σ} : ∀ {xs : List β} {s : σ},
    Finishes step (Program.eachUntilLogged body xs) s out t →
      out.1 = xs.map (·, .ok ()) ∨ ∃ before x after err, xs = before ++ x :: after ∧
        out.1 = before.map (·, .ok ()) ++ [(x, .error err)]
  | [], s, run => by
    obtain ⟨rfl, -⟩ := finishes_pure.mp run
    exact .inl rfl
  | x :: xs, s, run => by
    rw [Program.eachUntilLogged, finishes_bind] at run
    obtain ⟨err | _, u, -, later⟩ := run
    · obtain ⟨rfl, -⟩ := finishes_pure.mp later
      exact .inr ⟨[], x, xs, err, rfl, rfl⟩
    · obtain ⟨rest, v, run, last⟩ := finishes_bind.mp later
      obtain ⟨rfl, -⟩ := finishes_pure.mp last
      rcases eachUntilLogged_cut run with all | ⟨before, y, after, err, rfl, all⟩
      · exact .inl (by rw [all]; rfl)
      · exact .inr ⟨x :: before, y, after, err, rfl, by rw [all]; rfl⟩

theorem exists_eachUntilLogged {inv : σ → Prop} {f : β} {after : List β}
    (fails : ∀ s, inv s → ∃ err t, Finishes step (body f) s (.error err) t) :
    ∀ {before : List β} {s : σ}, (∀ x ∈ before, ∀ s, inv s → ∃ t, Finishes step (body x) s (.ok ()) t ∧ inv t) → inv s →
      ∃ err t, Finishes step (Program.eachUntilLogged body (before ++ f :: after)) s
        (before.map (·, .ok ()) ++ [(f, .error err)], .error err) t
  | [], s, _, start => by
    obtain ⟨err, t, here⟩ := fails s start
    exact ⟨err, t, finishes_bind.mpr ⟨_, t, here, finishes_pure.mpr ⟨rfl, rfl⟩⟩⟩
  | x :: before, s, succeeds, start => by
    obtain ⟨t, here, held⟩ := succeeds x List.mem_cons_self s start
    obtain ⟨err, u, later⟩ := exists_eachUntilLogged fails (fun y inside => succeeds y (List.mem_cons_of_mem _ inside)) held
    exact ⟨err, u, finishes_bind.mpr ⟨_, t, here, finishes_bind.mpr ⟨_, u, later, finishes_pure.mpr ⟨rfl, rfl⟩⟩⟩⟩

end Logged

variable {m : Machine S σ}

theorem finishes_of_play : ∀ {choices : List m.Choice} {p : Program S α} {s t : σ} {a : α},
    p.play m choices s = some (t, a) → Finishes m.Step p s a t
  | _, .pure value, s, t, a, played => by
    simp only [Program.play, Option.some.injEq, Prod.mk.injEq] at played
    exact finishes_pure.mpr ⟨played.2.symm, played.1.symm⟩
  | [], .call _ _, _, _, _, played => by cases played
  | choice :: choices, .call op next, s, t, a, played => by
    rw [Program.play] at played
    split at played
    · cases played
    · rename_i u answer taken
      exact finishes_call.mpr ⟨answer, u, ⟨choice, taken⟩, finishes_of_play played⟩

/-- What a program asks on a given list of choices, as far as they go. -/
def Program.trace {S : Signature} {σ α : Type} (m : Machine S σ) :
    List m.Choice → Program S α → σ → Option (List (Event S σ))
  | [], _, _ => some []
  | _, .pure _, _ => some []
  | choice :: choices, .call op next, s =>
    match m.perform s op choice with
    | none => none
    | some (t, answer) => (trace m choices (next answer) t).map (⟨s, op, answer, t⟩ :: ·)

theorem exists_run_of_trace : ∀ {choices : List m.Choice} {p : Program S α} {s : σ}
    {trace : List (Event S σ)}, p.trace m choices s = some trace → ∃ q t, Run m.Step p s trace q t
  | [], p, s, trace, traced => by
    have empty : trace = [] := by cases p <;> exact (Option.some.inj traced).symm
    exact ⟨p, s, empty ▸ .here⟩
  | _ :: _, .pure value, s, trace, traced => by
    obtain rfl : [] = trace := Option.some.inj traced
    exact ⟨_, _, .here⟩
  | choice :: choices, .call op next, s, trace, traced => by
    rw [Program.trace] at traced
    split at traced
    · cases traced
    · rename_i t answer taken
      obtain ⟨rest, later, rfl⟩ := Option.map_eq_some_iff.mp traced
      obtain ⟨q, u, run⟩ := exists_run_of_trace later
      exact ⟨q, u, .next ⟨choice, taken⟩ run⟩

/-- What a played trace is found to pass holds of a run. -/
theorem exists_run_of_check {choices : List m.Choice} {p : Program S α} {s : σ} {check : List (Event S σ) → Bool}
    (traced : (p.trace m choices s).map check = some true) : ∃ trace q t, check trace = true ∧ Run m.Step p s trace q t := by
  obtain ⟨trace, followed, passed⟩ := Option.map_eq_some_iff.mp traced
  obtain ⟨q, t, run⟩ := exists_run_of_trace followed
  exact ⟨trace, q, t, passed, run⟩

/-- A play to the end is a run with the trace of its choices. -/
theorem run_of_play : ∀ {choices : List m.Choice} {p : Program S α} {s t : σ} {a : α}
    {trace : List (Event S σ)}, p.play m choices s = some (t, a) → p.trace m choices s = some trace →
      Run m.Step p s trace (.pure a) t
  | choices, .pure value, s, t, a, trace, played, traced => by
    obtain ⟨rfl, rfl⟩ : s = t ∧ value = a := by simpa [Program.play] using played
    obtain rfl : [] = trace := by cases choices <;> exact Option.some.inj traced
    exact .here
  | [], .call _ _, _, _, _, _, played, _ => by cases played
  | choice :: choices, .call op next, s, t, a, trace, played, traced => by
    rw [Program.play] at played
    rw [Program.trace] at traced
    split at played
    · cases played
    · rename_i u answer taken
      rw [taken] at traced
      obtain ⟨rest, later, rfl⟩ := Option.map_eq_some_iff.mp traced
      exact .next ⟨choice, taken⟩ (run_of_play played later)

/-- A play whose end passes a check is a run to such an end. -/
theorem exists_finishes_of_play {choices : List m.Choice} {p : Program S α} {s : σ} {check : σ × α → Bool}
    (played : (p.play m choices s).map check = some true) :
    ∃ a t, Finishes m.Step p s a t ∧ check (t, a) = true := by
  obtain ⟨⟨t, a⟩, ended, passed⟩ := Option.map_eq_some_iff.mp played
  exact ⟨a, t, finishes_of_play ended, passed⟩

theorem play_of_finishes {p : Program S α} {s t : σ} (run : Finishes m.Step p s a t) :
    ∃ choices : List m.Choice, p.play m choices s = some (t, a) := by
  induction p generalizing s with
  | pure value =>
    obtain ⟨rfl, rfl⟩ := finishes_pure.mp run
    exact ⟨[], rfl⟩
  | call op next ih =>
    obtain ⟨answer, u, ⟨choice, taken⟩, later⟩ := finishes_call.mp run
    obtain ⟨choices, played⟩ := ih answer later
    exact ⟨choice :: choices, by rw [Program.play, taken]; exact played⟩

end Runs

end Effect
