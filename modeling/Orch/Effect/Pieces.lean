import Orch.Effect.Ensures
import Mathlib.Data.List.Basic

namespace Effect

variable {S : Signature} {σ α β ε : Type} {step : Steps S σ}

/-! Complete runs and what their traces are made of. -/

variable {trace : List (Event S σ)}

theorem Run.of_pure {a b : α} {s t : σ} (run : Run step (.pure a) s trace (.pure b) t) :
    trace = [] ∧ b = a ∧ t = s := by
  cases run
  exact ⟨rfl, rfl, rfl⟩

theorem Run.of_perform {op : S.Op} {rest : S.Answer op → Program S α} {a : α} {s u : σ}
    (run : Run step (Program.perform op >>= rest) s trace (.pure a) u) :
    ∃ answer t later, step s op answer t ∧ trace = ⟨s, op, answer, t⟩ :: later ∧
      Run step (rest answer) t later (.pure a) u := by
  cases run with
  | next taken later => exact ⟨_, _, _, taken, rfl, later⟩

variable {rest : α → Program S β}

/-- A run of two programs in a row is a run of each. -/
theorem Run.of_bind {p : Program S α} {b : β} {s u : σ} (run : Run step (p >>= rest) s trace (.pure b) u) :
    ∃ a t early late, Run step p s early (.pure a) t ∧ trace = early ++ late ∧ Run step (rest a) t late (.pure b) u := by
  induction p generalizing s trace with
  | pure value => exact ⟨value, s, [], trace, .here, rfl, run⟩
  | call op next ih =>
    cases run with
    | next taken later =>
      obtain ⟨a, t, early, late, first, rfl, second⟩ := ih _ later
      exact ⟨a, t, _ :: early, late, .next taken first, rfl, second⟩

theorem Run.asked {kind : S.Op → Prop} {p q : Program S α} {s t : σ}
    (run : Run step p s trace q t) (asks : p.Asks kind) : ∀ event ∈ trace, kind event.op := by
  induction run with
  | here => simp
  | next taken later ih => exact List.forall_mem_cons.mpr ⟨asks.1, ih (asks.2 _)⟩

/-- A trace made of pieces, with nothing but quiet operations between them. -/
inductive Pieced (quiet : S.Op → Prop) (piece : List (Event S σ) → Prop) : List (Event S σ) → Prop
  | done : Pieced quiet piece []
  | pass {event later} : quiet event.op → Pieced quiet piece later → Pieced quiet piece (event :: later)
  | next {part later} : piece part → Pieced quiet piece later → Pieced quiet piece (part ++ later)

section Pieces

variable {quiet : S.Op → Prop} {piece : List (Event S σ) → Prop}

theorem Pieced.append {early late : List (Event S σ)} (first : Pieced quiet piece early) (second : Pieced quiet piece late) :
    Pieced quiet piece (early ++ late) := by
  induction first with
  | done => exact second
  | pass silent _ ih => exact .pass silent ih
  | next part _ ih =>
    rw [List.append_assoc]
    exact .next part ih

theorem pieced_of_quiet : ∀ {trace : List (Event S σ)}, (∀ event ∈ trace, quiet event.op) → Pieced quiet piece trace
  | [], _ => .done
  | _ :: _, silent => .pass (silent _ List.mem_cons_self) (pieced_of_quiet fun event member =>
      silent event (List.mem_cons_of_mem _ member))

theorem Pieced.around {trace before after : List (Event S σ)} {event : Event S σ} (pieced : Pieced quiet piece trace)
    (split : trace = before ++ event :: after) (loud : ¬ quiet event.op) :
    ∃ outer inner tail rest, before = outer ++ inner ∧ after = tail ++ rest ∧ piece (inner ++ event :: tail) := by
  induction pieced generalizing before with
  | done => simp at split
  | pass silent _ ih =>
    cases before with
    | nil =>
      obtain ⟨rfl, rfl⟩ := List.cons.inj split
      exact absurd silent loud
    | cons first before =>
      obtain ⟨rfl, behind⟩ := List.cons.inj split
      obtain ⟨outer, inner, tail, rest, rfl, rfl, found⟩ := ih behind
      exact ⟨_ :: outer, inner, tail, rest, rfl, rfl, found⟩
  | @next part later found _ ih =>
    rcases List.append_eq_append_iff.mp split with ⟨gap, rfl, behind⟩ | ⟨gap, rfl, ahead⟩
    · obtain ⟨outer, inner, tail, rest, rfl, rfl, inside⟩ := ih behind
      exact ⟨part ++ outer, inner, tail, rest, by rw [List.append_assoc], rfl, inside⟩
    · cases gap with
      | nil =>
        have behind : later = [] ++ event :: after := ahead.symm
        obtain ⟨outer, inner, tail, rest, none, rfl, inside⟩ := ih behind
        obtain ⟨rfl, rfl⟩ := List.append_eq_nil_iff.mp none.symm
        exact ⟨before, [], tail, rest, (List.append_nil _).symm, rfl, inside⟩
      | cons first gap =>
        obtain ⟨rfl, rfl⟩ := List.cons.inj ahead
        exact ⟨[], before, gap, later, rfl, rfl, found⟩

/-- Every complete run of the program is made of pieces. -/
def Piecewise (step : Steps S σ) (quiet : S.Op → Prop) (piece : List (Event S σ) → Prop) (p : Program S α) : Prop :=
  ∀ {s trace a t}, Run step p s trace (.pure a) t → Pieced quiet piece trace

theorem piecewise_pure {a : α} : Piecewise step quiet piece (Pure.pure a : Program S α) :=
  fun run => run.of_pure.1 ▸ .done

variable {p : Program S α}

theorem piecewise_of_asks (asks : p.Asks quiet) : Piecewise step quiet piece p :=
  fun run => pieced_of_quiet (run.asked asks)

theorem piecewise_bind (comes : α → Prop) (first : Piecewise step quiet piece p)
    (outcome : ∀ {s trace a t}, Run step p s trace (.pure a) t → comes a)
    (later : ∀ a, comes a → Piecewise step quiet piece (rest a)) : Piecewise step quiet piece (p >>= rest) := by
  intro s trace b u run
  obtain ⟨a, t, early, late, here, rfl, there⟩ := run.of_bind
  exact (first here).append (later a (outcome here) there)

theorem piecewise_then (first : Piecewise step quiet piece p)
    (later : ∀ a, Piecewise step quiet piece (rest a)) : Piecewise step quiet piece (p >>= rest) :=
  piecewise_bind (fun _ => True) first (fun _ => trivial) fun a _ => later a

theorem piecewise_eachUntil {body : β → Program S (Except ε Unit)} : ∀ {xs : List β},
    (∀ x ∈ xs, Piecewise step quiet piece (body x)) → Piecewise step quiet piece (Program.eachUntil body xs)
  | [], _ => piecewise_pure
  | x :: xs, bodies => by
    refine piecewise_then (bodies x List.mem_cons_self) ?_
    rintro (err | _)
    · exact piecewise_pure
    · exact piecewise_eachUntil fun y member => bodies y (List.mem_cons_of_mem _ member)

theorem piecewise_each {body : β → Program S Unit} : ∀ {xs : List β},
    (∀ x ∈ xs, Piecewise step quiet piece (body x)) → Piecewise step quiet piece (Program.each body xs)
  | [], _ => piecewise_pure
  | x :: _, bodies =>
    piecewise_then (bodies x List.mem_cons_self) fun _ => piecewise_each fun y member => bodies y (List.mem_cons_of_mem _ member)

end Pieces

theorem split_unique (kind : Event S σ → Prop) {a b c d : List (Event S σ)} {x y : Event S σ}
    (same : a ++ x :: b = c ++ y :: d) (early : ∀ event ∈ c, ¬ kind event) (late : ∀ event ∈ d, ¬ kind event) (here : kind x) :
    a = c ∧ x = y ∧ b = d := by
  rcases List.append_eq_append_iff.mp same with ⟨gap, rfl, behind⟩ | ⟨gap, rfl, ahead⟩
  · cases gap with
    | nil =>
      obtain ⟨rfl, rfl⟩ := List.cons.inj behind
      exact ⟨by simp, rfl, rfl⟩
    | cons first gap =>
      obtain ⟨rfl, -⟩ := List.cons.inj behind
      exact absurd here (early _ (by simp))
  · cases gap with
    | nil =>
      obtain ⟨rfl, rfl⟩ := List.cons.inj ahead
      exact ⟨by simp, rfl, rfl⟩
    | cons first gap =>
      obtain ⟨-, rfl⟩ := List.cons.inj ahead
      exact absurd here (late _ (by simp))

end Effect
