import Orch.Effect.Program

namespace Effect

variable {S : Signature} {σ : Type} {α β ε : Type}

/-- Nothing is asked for. -/
abbrev anything {α β : Type} (_ : α) (_ : β) : Prop := True

/-- Whatever the surroundings answer, the program asks only for operations
permitted in the state it asks in, and ends only in states of the
postcondition. -/
def Ensures (step : Steps S σ) (permit : σ → S.Op → Prop) (post : α → σ → Prop) : Program S α → σ → Prop
  | .pure value, s => post value s
  | .call op next, s => permit s op ∧ ∀ answer t, step s op answer t → Ensures step permit post (next answer) t

variable {step : Steps S σ} {permit : σ → S.Op → Prop}

variable {post : α → σ → Prop} {s : σ}

@[simp] theorem ensures_pure {a : α} :
    Ensures step permit post (Pure.pure a : Program S α) s ↔ post a s :=
  Iff.rfl

variable {p : Program S α} {rest : α → Program S β}

theorem ensures_bind {post : β → σ → Prop} :
    Ensures step permit post (p >>= rest) s ↔ Ensures step permit (fun a => Ensures step permit post (rest a)) p s := by
  change Ensures step permit post (p.bind rest) s ↔ _
  induction p generalizing s with
  | pure value => exact Iff.rfl
  | call op next ih => simp only [Program.bind, Ensures, ih]

theorem Ensures.mono {other : α → σ → Prop} (ensured : Ensures step permit post p s)
    (weaker : ∀ a t, post a t → other a t) :
    Ensures step permit other p s := by
  induction p generalizing s with
  | pure value => exact weaker value s ensured
  | call op next ih => exact ⟨ensured.1, fun answer t taken => ih answer (ensured.2 answer t taken)⟩

/-- What comes first ends in states that what comes later can start from. -/
theorem Ensures.bind {post : β → σ → Prop} {mid : α → σ → Prop}
    (first : Ensures step permit mid p s) (later : ∀ a t, mid a t → Ensures step permit post (rest a) t) :
    Ensures step permit post (p >>= rest) s :=
  ensures_bind.mpr (first.mono later)

theorem Ensures.permitting {allowed : σ → S.Op → Prop} (ensured : Ensures step permit post p s)
    (wider : ∀ s op, permit s op → allowed s op) :
    Ensures step allowed post p s := by
  induction p generalizing s with
  | pure value => exact ensured
  | call op next ih => exact ⟨wider s op ensured.1, fun answer t taken => ih answer (ensured.2 answer t taken)⟩

theorem Ensures.and {allowed : σ → S.Op → Prop} {first second : α → σ → Prop}
    (left : Ensures step permit first p s) (right : Ensures step allowed second p s) :
    Ensures step permit (fun a t => first a t ∧ second a t) p s := by
  induction p generalizing s with
  | pure value => exact ⟨left, right⟩
  | call op next ih =>
    exact ⟨left.1, fun answer t taken => ih answer (left.2 answer t taken) (right.2 answer t taken)⟩

theorem Ensures.trivially (p : Program S α) : Ensures step anything anything p s := by
  induction p generalizing s with
  | pure value => trivial
  | call op next ih => exact ⟨trivial, fun answer t _ => ih answer⟩

variable {q : Program S α} {trace : List (Event S σ)}

/-- At every point of a run, what was asked so far was permitted and the
rest of the program keeps its promise. -/
theorem Ensures.run {s t : σ} (ensured : Ensures step permit post p s) (run : Run step p s trace q t) :
    (∀ event ∈ trace, permit event.before event.op) ∧ Ensures step permit post q t := by
  induction run with
  | here => exact ⟨by simp, ensured⟩
  | next taken later ih =>
    obtain ⟨permitted, rest⟩ := ih (ensured.2 _ _ taken)
    refine ⟨?_, rest⟩
    intro event member
    rcases List.mem_cons.mp member with rfl | member
    · exact ensured.1
    · exact permitted event member

theorem Ensures.finishes {s t : σ} {a : α} (ensured : Ensures step permit post p s) (run : Finishes step p s a t) :
    post a t := by
  obtain ⟨trace, run⟩ := run
  exact (ensured.run run).2

/-- A property that every permitted operation keeps holds in every state the
program visits. -/
theorem Ensures.visits {s t : σ} (ensured : Ensures step permit post p s) (inv : σ → Prop)
    (kept : ∀ {s op answer t}, inv s → permit s op → step s op answer t → inv t) (start : inv s)
    (run : Visits step p s t) : inv t := by
  obtain ⟨trace, q, run⟩ := run
  induction run with
  | here => exact start
  | next taken later ih => exact ih (ensured.2 _ _ taken) (kept start ensured.1 taken)

/-- An invariant that permitted operations keep may be used throughout. -/
theorem Ensures.invariant {inv : σ → Prop}
    (kept : ∀ {s op answer t}, inv s → permit s op → step s op answer t → inv t) (start : inv s)
    (ensured : Ensures (fun s op answer t => inv s ∧ step s op answer t ∧ inv t) permit post p s) :
    Ensures step permit (fun a t => post a t ∧ inv t) p s := by
  induction p generalizing s with
  | pure value => exact ⟨ensured, start⟩
  | call op next ih =>
    refine ⟨ensured.1, fun answer t taken => ?_⟩
    have later := kept start ensured.1 taken
    exact ih answer later (ensured.2 answer t ⟨start, taken, later⟩)

/-- A program whose operations can always be answered has a run to its end. -/
theorem Ensures.exists_finishes (ensured : Ensures step permit post p s) (inv : σ → Prop)
    (enabled : ∀ s op, inv s → permit s op → ∃ answer t, step s op answer t ∧ inv t) (start : inv s) :
    ∃ a t, Finishes step p s a t ∧ post a t ∧ inv t := by
  induction p generalizing s with
  | pure value => exact ⟨value, s, finishes_pure.mpr ⟨rfl, rfl⟩, ensured, start⟩
  | call op next ih =>
    obtain ⟨answer, t, taken, kept⟩ := enabled s op start ensured.1
    obtain ⟨a, u, run, after, last⟩ := ih answer (ensured.2 answer t taken) kept
    exact ⟨a, u, finishes_call.mpr ⟨answer, t, taken, run⟩, after, last⟩

/-- The same without an invariant. -/
theorem Ensures.exists_end (ensured : Ensures step permit post p s)
    (enabled : ∀ s op, permit s op → ∃ answer t, step s op answer t) : ∃ a t, Finishes step p s a t ∧ post a t := by
  obtain ⟨a, t, run, after, -⟩ := ensured.exists_finishes (fun _ => True) (fun s op _ allowed => by
    obtain ⟨answer, t, taken⟩ := enabled s op allowed
    exact ⟨answer, t, taken, trivial⟩) trivial
  exact ⟨a, t, run, after⟩

/-- What holds of a coarser machine holds of every machine it simulates. -/
theorem Ensures.simulate {τ : Type} {coarse : Steps S τ} {allowed : τ → S.Op → Prop} {post : α → τ → Prop}
    {view : σ → τ} (simulated : ∀ {s op answer t}, step s op answer t → coarse (view s) op answer (view t)) {s : σ}
    (ensured : Ensures coarse allowed post p (view s)) :
    Ensures step (fun s => allowed (view s)) (fun a t => post a (view t)) p s := by
  induction p generalizing s with
  | pure value => exact ensured
  | call op next ih => exact ⟨ensured.1, fun answer t taken => ih answer (ensured.2 answer _ (simulated taken))⟩

/-- Steps that keep a note of what has happened so far. -/
def Noting {γ : Type} (step : Steps S σ) (note : γ → Event S σ → γ) : Steps S (σ × γ) :=
  fun s op answer t => step s.1 op answer t.1 ∧ t.2 = note s.2 ⟨s.1, op, answer, t.1⟩

/-- Every operation of a run was permitted given what had happened before
it. -/
theorem Ensures.noting {γ : Type} {note : γ → Event S σ → γ} {permit : σ × γ → S.Op → Prop} {post : α → σ × γ → Prop}
    {s t : σ} {g : γ} (ensured : Ensures (Noting step note) permit post p (s, g)) (run : Run step p s trace q t) :
    ∀ before event after, trace = before ++ event :: after → permit (event.before, before.foldl note g) event.op := by
  induction run generalizing g with
  | here => simp
  | @next op rest s t answer trace q u taken later ih =>
    intro before event after cut
    have following := ih (ensured.2 answer (t, note g ⟨s, op, answer, t⟩) ⟨taken, rfl⟩)
    cases before with
    | nil =>
      obtain ⟨rfl, -⟩ := List.cons.inj cut
      exact ensured.1
    | cons first before =>
      obtain ⟨rfl, rest⟩ := List.cons.inj cut
      exact following before event after rest

/-- What is left of a run is still ensured, with the notes taken so far. -/
theorem Ensures.noting_run {γ : Type} {note : γ → Event S σ → γ} {permit : σ × γ → S.Op → Prop}
    {post : α → σ × γ → Prop} {s t : σ} {g : γ} (ensured : Ensures (Noting step note) permit post p (s, g))
    (run : Run step p s trace q t) :
    Ensures (Noting step note) permit post q (t, trace.foldl note g) := by
  induction run generalizing g with
  | here => exact ensured
  | @next op rest s t answer trace q u taken later ih =>
    exact ih (ensured.2 answer (t, note g ⟨s, op, answer, t⟩) ⟨taken, rfl⟩)

variable {body : β → Program S (Except ε Unit)}

/-- Loops that stop at the first error: the invariant speaks of the elements
still to come. -/
theorem ensures_eachUntil {post : Except ε Unit → σ → Prop} (inv : List β → σ → Prop)
    (done : ∀ s, inv [] s → post (.ok ()) s)
    (round : ∀ x xs s, inv (x :: xs) s → Ensures step permit
      (fun result t => match result with | .ok _ => inv xs t | .error err => post (.error err) t) (body x) s) :
    ∀ {xs : List β} {s : σ}, inv xs s → Ensures step permit post (Program.eachUntil body xs) s
  | [], s, start => done s start
  | x :: xs, s, start => by
    rw [Program.eachUntil, ensures_bind]
    refine (round x xs s start).mono ?_
    rintro (err | _) t after
    · exact after
    · exact ensures_eachUntil inv done round after

theorem ensures_each {body : β → Program S Unit} {post : Unit → σ → Prop} (inv : List β → σ → Prop)
    (done : ∀ s, inv [] s → post () s)
    (round : ∀ x xs s, inv (x :: xs) s → Ensures step permit (fun _ => inv xs) (body x) s) :
    ∀ {xs : List β} {s : σ}, inv xs s → Ensures step permit post (Program.each body xs) s
  | [], s, start => done s start
  | x :: xs, s, start => by
    rw [Program.each, ensures_bind]
    exact (round x xs s start).mono fun _ t after => ensures_each inv done round after

def Program.Asks (kind : S.Op → Prop) : Program S α → Prop
  | .pure _ => True
  | .call op next => kind op ∧ ∀ answer, (next answer).Asks kind

variable {kind : S.Op → Prop}

theorem asks_perform {op : S.Op} (right : kind op) : (Program.perform op).Asks kind :=
  ⟨right, fun _ => trivial⟩

theorem asks_bind (here : p.Asks kind) (later : ∀ a, (rest a).Asks kind) :
    (p >>= rest).Asks kind := by
  change (p.bind rest).Asks kind
  induction p with
  | pure value => exact later value
  | call op next ih => exact ⟨here.1, fun answer => ih answer (here.2 answer)⟩

theorem asks_then {op : S.Op} {rest : S.Answer op → Program S β} (right : kind op) (later : ∀ a, (rest a).Asks kind) :
    (Program.perform op >>= rest).Asks kind :=
  asks_bind (asks_perform right) later

theorem asks_eachUntil (round : ∀ x, (body x).Asks kind) :
    ∀ xs : List β, (Program.eachUntil body xs).Asks kind
  | [] => trivial
  | x :: xs => by
    refine asks_bind (round x) ?_
    rintro (err | _)
    · trivial
    · exact asks_eachUntil round xs

theorem asks_each {body : β → Program S Unit} (round : ∀ x, (body x).Asks kind) :
    ∀ xs : List β, (Program.each body xs).Asks kind
  | [] => trivial
  | x :: xs => asks_bind (round x) fun _ => asks_each round xs

theorem Program.Asks.mono {wider : S.Op → Prop} (asks : p.Asks kind) (within : ∀ op, kind op → wider op) :
    p.Asks wider := by
  induction p with
  | pure value => trivial
  | call op next ih => exact ⟨within op asks.1, fun answer => ih answer (asks.2 answer)⟩

theorem Program.Asks.ensures (asks : p.Asks kind) (permitted : ∀ s op, kind op → permit s op) :
    Ensures step permit anything p s := by
  induction p generalizing s with
  | pure value => trivial
  | call op next ih => exact ⟨permitted s op asks.1, fun answer t _ => ih answer (asks.2 answer)⟩

/-- A state that permits everything and stays so. -/
theorem Ensures.keeping (holds : σ → Prop) (permitted : ∀ {s} op, holds s → permit s op)
    (kept : ∀ {s op answer t}, holds s → step s op answer t → holds t) (p : Program S α) (start : holds s) :
    Ensures step permit (fun _ => holds) p s := by
  induction p generalizing s with
  | pure value => exact start
  | call op next ih => exact ⟨permitted op start, fun answer t taken => ih answer (kept start taken)⟩

/-- A program of one kind, where the operations of that kind keep what permits
them. -/
theorem Program.Asks.keeping {holds : σ → Prop} (asks : p.Asks kind)
    (permitted : ∀ {s op}, holds s → kind op → permit s op)
    (kept : ∀ {s op answer t}, holds s → kind op → step s op answer t → holds t) (start : holds s) :
    Ensures step permit (fun _ => holds) p s := by
  induction p generalizing s with
  | pure value => exact start
  | call op next ih =>
    exact ⟨permitted start asks.1, fun answer t taken => ih answer (asks.2 answer) (kept start asks.1 taken)⟩

/-- What operations of one kind keep, a program of that kind keeps. -/
theorem Program.Asks.keeps {holds : σ → Prop} (asks : p.Asks kind)
    (kept : ∀ {s op answer t}, holds s → kind op → step s op answer t → holds t) (start : holds s) :
    Ensures step anything (fun _ => holds) p s :=
  asks.keeping (fun _ _ => trivial) kept start

/-- A program whose operations all leave the state alone. -/
theorem Program.Asks.stays (asks : p.Asks kind) (permitted : ∀ op, kind op → permit s op)
    (same : ∀ {op answer t}, kind op → step s op answer t → t = s) (after : ∀ a, post a s) :
    Ensures step permit post p s := by
  induction p with
  | pure value => exact after value
  | call op next ih =>
    refine ⟨permitted op asks.1, ?_⟩
    intro answer t taken
    obtain rfl := same asks.1 taken
    exact ih answer (asks.2 answer)

/-- A program that asks only for operations of one kind as long as the answers
are of the kind it was told to expect. The state does not matter for it. -/
abbrev Heeds (told : (op : S.Op) → S.Answer op → Prop) (kind : S.Op → Prop) (post : α → Prop) (p : Program S α) : Prop :=
  Ensures (fun (_ : Unit) op answer _ => told op answer) (fun _ op => kind op) (fun a _ => post a) p ()

section Heeds

variable {told : (op : S.Op) → S.Answer op → Prop} {kind : S.Op → Prop}

variable {p : Program S α}

theorem heeds_bind {mid : α → Prop} {post : β → Prop} (first : Heeds told kind mid p)
    (later : ∀ a, mid a → Heeds told kind post (rest a)) :
    Heeds told kind post (p >>= rest) := by
  exact first.bind fun a _ reached => later a reached

theorem heeds_then {post : β → Prop} (first : Heeds told kind (fun _ => True) p)
    (later : ∀ a, Heeds told kind post (rest a)) :
    Heeds told kind post (p >>= rest) :=
  heeds_bind first fun a _ => later a

theorem heeds_perform {op : S.Op} {post : S.Answer op → Prop} (right : kind op)
    (after : ∀ answer, told op answer → post answer) : Heeds told kind post (Program.perform op) :=
  ⟨right, fun answer _ heard => after answer heard⟩

/-- Surroundings that answer as told need no state to speak of. -/
theorem Ensures.of_told {post : α → Prop} (tells : ∀ {s op answer t}, step s op answer t → told op answer)
    (heeds : Heeds told kind post p) : Ensures step (fun _ op => kind op) (fun a _ => post a) p s := by
  induction p generalizing s with
  | pure value => exact heeds
  | call op next ih => exact ⟨heeds.1, fun answer t taken => ih answer (heeds.2 answer () (tells taken))⟩

/-- What a program asks and leaves, where the answers come from a state with an
invariant that its operations keep. -/
theorem Ensures.of_heeds {post : α → Prop} (inv : σ → Prop)
    (tells : ∀ {s op answer t}, inv s → step s op answer t → told op answer)
    (kept : ∀ {s op answer t}, inv s → kind op → step s op answer t → inv t) (heeds : Heeds told kind post p)
    (start : inv s) :
    Ensures step (fun s op => inv s ∧ kind op) (fun a t => post a ∧ inv t) p s := by
  induction p generalizing s with
  | pure value => exact ⟨heeds, start⟩
  | call op next ih =>
    refine ⟨⟨start, heeds.1⟩, fun answer t taken => ?_⟩
    exact ih answer (heeds.2 answer () (tells start taken)) (kept start heeds.1 taken)

end Heeds

end Effect
