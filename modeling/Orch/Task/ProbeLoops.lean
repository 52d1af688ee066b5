import Orch.Effect.Ensures
import Orch.Task.Readiness

namespace Orch

open Effect

inductive ProbeDeadline where
  | unlimited
  | expired
  | after (nanos : Int)
deriving DecidableEq, Repr

/-- An `http.Client` takes a timeout that is not positive for none, a `net.Dialer`
only one of zero. -/
def probeDeadline (kind : String) (timeout : Int) : ProbeDeadline :=
  if 0 < timeout then .after timeout else if kind = "http" ∨ timeout = 0 then .unlimited else .expired

inductive LoopOp where
  | probe (deadline : ProbeDeadline)
  | sleep (nanos : Int)

abbrev LoopSig : Signature := ⟨LoopOp, fun _ => Check⟩

abbrev Loop := Program LoopSig Check

def runReadinessCheck (check : ReadinessCheck) : Loop :=
  Program.perform (S := LoopSig) (.probe (probeDeadline check.kind check.timeout))

/-- There is nothing to wait for unless the time is positive. -/
def sleepContext (nanos : Int) : Loop :=
  if nanos ≤ 0 then return .pass else Program.perform (S := LoopSig) (.sleep nanos)

def waitBeforeNextReadinessAttempt (check : ReadinessCheck) (attempt : Int) : Loop :=
  if attempt ≥ check.attempts then return .pass else sleepContext check.interval

def probeAttempts (check : ReadinessCheck) (failed : Failure → Failure) : Nat → Int → Failure → Loop
  | 0, _, lastErr => return .error (failed lastErr)
  | left + 1, attempt, _ => do
    match ← runReadinessCheck check with
    | .ok _ => return .pass
    | .error lastErr =>
      match ← waitBeforeNextReadinessAttempt check attempt with
      | .error err => return .error err
      | .ok _ => probeAttempts check failed left (attempt + 1) lastErr

def waitReadinessAttempts (workload : Workload) (check : ReadinessCheck) : Loop :=
  probeAttempts check
    (.wrapf · "workload %s readiness probe failed after %d attempt(s)" [.text workload.name, .number check.attempts])
    check.attempts.toNat 1 (.errorf "")

def waitHealthProbeAttempts (workload : Workload) (phase : String) (check : ReadinessCheck) : Loop :=
  probeAttempts check
    (.wrapf · "workload %s %s probe failed after %d attempt(s)" [.text workload.name, .text phase, .number check.attempts])
    check.attempts.toNat 1 (.errorf "")

def livenessRounds (workload : Workload) (check : ReadinessCheck) : Nat → Loop
  | 0 => return .pass
  | rounds + 1 => do
    match ← waitHealthProbeAttempts workload "liveness" check with
    | .error err => return .error err
    | .ok _ =>
      match ← sleepContext check.interval with
      | .error err => return .error err
      | .ok _ => livenessRounds workload check rounds

inductive ProbeLoop where
  | readiness
  | startup
  | liveness (rounds : Nat)

def ProbeLoop.program (workload : Workload) (check : ReadinessCheck) (loop : ProbeLoop) : Loop := do
  match ← sleepContext check.startPeriod with
  | .error err => return .error err
  | .ok _ =>
    match loop with
    | .readiness => waitReadinessAttempts workload check
    | .startup => waitHealthProbeAttempts workload "startup" check
    | .liveness rounds => livenessRounds workload check rounds

/-- Each probe has some time, and each but the first comes after a pause. -/
def Paced : Bool → List LoopOp → Prop
  | _, [] => True
  | rested, .probe deadline :: later => rested = true ∧ (∃ nanos, 0 < nanos ∧ deadline = .after nanos) ∧ Paced false later
  | _, .sleep nanos :: later => 0 < nanos ∧ Paced true later

/-- What a loop may do next, and whether it has paused since the last probe. -/
def PacedStep : Steps LoopSig Bool := fun _ op _ rested =>
  rested = match op with
    | .probe _ => false
    | .sleep _ => true

def PacedOp (rested : Bool) : LoopOp → Prop
  | .probe deadline => rested = true ∧ ∃ nanos, 0 < nanos ∧ deadline = .after nanos
  | .sleep nanos => 0 < nanos

abbrev Paces (rested : Bool) (post : Check → Bool → Prop) (p : Loop) : Prop := Ensures PacedStep PacedOp post p rested

abbrev Probes (p : Loop) (ops : List LoopOp) : Prop :=
  ∃ trace q t, Run (fun (_ : Unit) _ _ _ => True) p () trace q t ∧ ops = trace.map (·.op)

theorem Paces.paced {p : Loop} {rested : Bool} {post : Check → Bool → Prop} (paces : Paces rested post p)
    {ops : List LoopOp} (probes : Probes p ops) : Paced rested ops := by
  obtain ⟨trace, q, t, run, rfl⟩ := probes
  generalize () = s at run
  induction run generalizing rested with
  | here => trivial
  | @next op rest s t answer trace q u taken later ih =>
    have onward := ih (paces.2 answer _ rfl)
    cases op with
    | probe deadline => exact ⟨paces.1.1, paces.1.2, onward⟩
    | sleep nanos => exact ⟨paces.1, onward⟩

section Positive

variable {check : ReadinessCheck} (interval : 0 < check.interval) (timeout : 0 < check.timeout)

theorem sleepContext_paces {nanos : Int} {rested : Bool} (needed : rested = true ∨ 0 < nanos) :
    Paces rested (fun _ rested => rested = true) (sleepContext nanos) := by
  unfold sleepContext
  split
  · rename_i short
    exact needed.resolve_right (by omega)
  · rename_i long
    exact ⟨by simpa [PacedOp] using long, fun _ _ taken => taken⟩

include interval timeout

theorem probeAttempts_paces (failed : Failure → Failure) : ∀ {left : Nat} {attempt : Int} {lastErr : Failure} {rested : Bool},
    (0 < left → rested = true) → check.attempts = attempt + left - 1 →
      Paces rested anything (probeAttempts check failed left attempt lastErr)
  | 0, _, _, _, _, _ => trivial
  | left + 1, attempt, _, rested, ready, count => by
    have deadline : probeDeadline check.kind check.timeout = .after check.timeout := if_pos timeout
    refine ⟨⟨ready left.succ_pos, check.timeout, timeout, deadline⟩, ?_⟩
    rintro (err | _) _ rfl
    swap
    · trivial
    have waits : Paces false (fun _ rested => 0 < left → rested = true) (waitBeforeNextReadinessAttempt check attempt) := by
      unfold waitBeforeNextReadinessAttempt
      split
      · exact fun more => by omega
      · exact (sleepContext_paces (.inr interval)).mono fun _ _ rested _ => rested
    refine waits.bind ?_
    rintro (err | _) rested after
    · trivial
    · exact probeAttempts_paces failed after (by omega)

theorem livenessRounds_paces {workload : Workload} : ∀ {rounds : Nat} {rested : Bool}, rested = true →
    Paces rested anything (livenessRounds workload check rounds)
  | 0, _, _ => trivial
  | rounds + 1, rested, ready => by
    by_cases some : 0 < check.attempts
    · refine (probeAttempts_paces interval timeout _ (fun _ => ready) (by omega)).bind ?_
      rintro (err | _) after -
      · trivial
      refine (sleepContext_paces (.inr interval)).bind ?_
      rintro (err | _) _ rfl
      · trivial
      · exact livenessRounds_paces rfl
    · have none : check.attempts.toNat = 0 := by omega
      simp only [livenessRounds, waitHealthProbeAttempts, none]
      trivial

theorem ProbeLoop.paces {workload : Workload} (loop : ProbeLoop) :
    Paces true anything (loop.program workload check) := by
  refine (sleepContext_paces (.inl rfl)).bind ?_
  rintro (err | _) _ rfl
  · trivial
  have attempts (failed : Failure → Failure) :
      Paces true anything (probeAttempts check failed check.attempts.toNat 1 (.errorf "")) := by
    by_cases some : 0 < check.attempts
    · exact probeAttempts_paces interval timeout failed (fun _ => rfl) (by omega)
    · have none : check.attempts.toNat = 0 := by omega
      rw [none]
      trivial
  cases loop with
  | readiness => exact attempts _
  | startup => exact attempts _
  | liveness rounds => exact livenessRounds_paces interval timeout rfl

end Positive

def PositiveDuration (raw : String) : Prop := trimSpace raw = "" ∨ ∃ nanos, Parse.duration raw = some nanos ∧ 0 < nanos

theorem probeDurationOrDefault_pos_iff {field raw : String} (valid : validateProbeDuration field raw = .ok ()) {fallback : Int}
    (positive : 0 < fallback) : 0 < probeDurationOrDefault raw fallback ↔ PositiveDuration raw := by
  unfold probeDurationOrDefault PositiveDuration
  unfold validateProbeDuration at valid
  split at valid
  · rename_i blank
    simp [blank, positive]
  · rename_i given
    split at valid
    · cases valid
    · rename_i nanos parsed
      simp [given, parsed]

theorem buildReadinessCheck_times {parses : String → Bool} {metadata : Metadata} {w : Workload} {probe : Probe} {address : String}
    {check : ReadinessCheck} (built : buildReadinessCheck parses metadata w probe address = .ok check) :
    check.interval = probeDurationOrDefault probe.interval defaultReadinessInterval ∧
      check.timeout = probeDurationOrDefault probe.timeout defaultReadinessTimeout := by
  unfold buildReadinessCheck readinessHTTPCheck readinessTCPCheck at built
  dsimp only at built
  split at built
  · split at built
    · cases built
    · exact Except.ok.inj built ▸ ⟨rfl, rfl⟩
  · split at built
    · cases built
    · exact Except.ok.inj built ▸ ⟨rfl, rfl⟩
  · cases built

/-- The probes of a validated app have positive times, and their loops pause,
just when the durations that are given are positive. -/
theorem probe_loops_pause_iff {app : App} {sorter : GraphSorter} (valid : app.validate sorter = .ok ()) {x : Workload}
    (member : x ∈ app.workloads) {health : Health} (given : x.health = some health) {probe : Probe}
    (one : some probe ∈ [health.readiness, health.startup, health.liveness]) {parses : String → Bool} {address : String}
    {check : ReadinessCheck} (built : buildReadinessCheck parses app.metadata x probe address = .ok check) :
    (0 < check.interval ∧ 0 < check.timeout ∧ ∀ (loop : ProbeLoop) ops, Probes (loop.program x check) ops → Paced true ops) ↔
      PositiveDuration probe.interval ∧ PositiveDuration probe.timeout := by
  obtain ⟨name, passed⟩ := Workload.validateHealth_probe (App.validate_workload valid member).health given one
  obtain ⟨_, timing, -⟩ := Except.bind_ok passed
  obtain ⟨_, -, timing⟩ := Except.bind_ok timing
  obtain ⟨_, interval, timing⟩ := Except.bind_ok timing
  obtain ⟨_, timeout, -⟩ := Except.bind_ok timing
  obtain ⟨intervals, timeouts⟩ := buildReadinessCheck_times built
  have second : 0 < defaultReadinessInterval := by decide
  have seconds : 0 < defaultReadinessTimeout := by decide
  rw [← probeDurationOrDefault_pos_iff interval second, ← intervals, ← probeDurationOrDefault_pos_iff timeout seconds, ← timeouts]
  constructor
  · rintro ⟨positive, limited, -⟩
    exact ⟨positive, limited⟩
  · rintro ⟨positive, limited⟩
    exact ⟨positive, limited, fun loop _ probes => (loop.paces positive limited).paced probes⟩

def pollingApp (interval : String) : App :=
  { healthyApp with
    workloads := [{ probedWorkload with health := some { liveness := some { http := some {}, interval } } }] }

def pollingCheck (interval : Int) : ReadinessCheck :=
  { kind := "http", host := "10.0.0.1", port := 8080, path := "/", interval, timeout := defaultReadinessTimeout
    attempts := defaultReadinessAttempts, startPeriod := 0 }

theorem probe_loops_pause_seconds :
    0 < (pollingCheck 5000000000).interval ∧ 0 < (pollingCheck 5000000000).timeout ∧ ∀ (loop : ProbeLoop) ops,
      Probes (loop.program { probedWorkload with health := some { liveness := some { http := some {}, interval := "5s" } } }
        (pollingCheck 5000000000)) ops → Paced true ops :=
  have valid : (pollingApp "5s").validate (Topological.peeling String) = .ok () := by decide +kernel
  have built : buildReadinessCheck (fun _ => false) (pollingApp "5s").metadata _ _ "10.0.0.1" = .ok (pollingCheck 5000000000) := by
    decide +kernel
  (probe_loops_pause_iff valid List.mem_cons_self rfl (List.mem_cons_of_mem _ (List.mem_cons_of_mem _ List.mem_cons_self))
    built).mpr ⟨.inr ⟨5000000000, by decide +kernel, by decide⟩, .inl (by decide +kernel)⟩

/-- An interval of no time passes validation, and one probe follows the other. -/
theorem probe_loop_without_pause :
    (pollingApp "0s").validate (Topological.peeling String) = .ok () ∧ ∃ w ∈ (pollingApp "0s").workloads, ∃ probe check ops,
      w.health = some { liveness := some probe } ∧
      buildReadinessCheck (fun _ => false) (pollingApp "0s").metadata w probe "10.0.0.1" = .ok check ∧ check.interval = 0 ∧
      Probes ((ProbeLoop.liveness 2).program w check) ops ∧ ¬ Paced true ops := by
  refine ⟨by decide +kernel, _, List.mem_cons_self, { http := some {}, interval := "0s" }, pollingCheck 0,
    [.probe (.after defaultReadinessTimeout), .probe (.after defaultReadinessTimeout)], rfl, by decide +kernel, rfl, ?_, ?_⟩
  · let event : Event LoopSig Unit := ⟨(), .probe (.after defaultReadinessTimeout), .ok (), ()⟩
    exact ⟨[event, event], _, (), .next trivial (.next trivial .here), rfl⟩
  · rintro ⟨-, -, unrested, -⟩
    cases unrested

end Orch
