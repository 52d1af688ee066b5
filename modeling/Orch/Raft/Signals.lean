import Orch.Raft.Fsm

namespace Orch

/-- The loops that receive from the channel of deploy signals. -/
inductive DeployLoop where
  | reconcile
  | ingress
deriving DecidableEq

/-- Where a loop is. Only the reconcile loop waits for the leadership, and only it
looks for another signal after a pass. -/
inductive LoopPhase where
  | following
  | due
  | passing
  | polling
  | waiting
  | stopped
deriving DecidableEq

inductive DeployEvent where
  | update (command : Command)
  | recoverFromSnapshot (snapshot : FsmState)
  | lead
  | receive (loop : DeployLoop)
  | start (loop : DeployLoop)
  | finish (loop : DeployLoop)
  | rest
  | stop (loop : DeployLoop)

/-- The state machine of a node with the channel, which holds one signal at most. -/
structure DeploySignals where
  fsm : FsmState
  signal : Bool := false
  phase : DeployLoop → LoopPhase

def Command.notifies : Command → Bool
  | .upsertDeployApp app => trimSpace app.metadata.name ≠ ""
  | .deleteDeployApp metadata => trimSpace metadata.name ≠ ""
  | _ => false

namespace DeploySignals

def launched (fsm : FsmState) : DeploySignals where
  fsm
  phase
    | .reconcile => .following
    | .ingress => .waiting

def move (s : DeploySignals) (loop : DeployLoop) (phase : LoopPhase) : DeploySignals :=
  { s with phase := fun other => if other = loop then phase else s.phase other }

/-- One step, without the tickers. An event that cannot happen gives nothing. -/
def step (s : DeploySignals) : DeployEvent → Option DeploySignals
  -- The send does not block, so a signal that is still there stands for both.
  | .update command => some { s with fsm := s.fsm.update command, signal := s.signal || command.notifies }
  | .recoverFromSnapshot snapshot => some { s with fsm := snapshot }
  | .lead => if s.phase .reconcile = .following then some (s.move .reconcile .due) else none
  | .receive loop =>
    if s.signal ∧ (s.phase loop = .waiting ∨ s.phase loop = .polling) then some { s.move loop .due with signal := false }
    else none
  | .start loop => if s.phase loop = .due then some (s.move loop .passing) else none
  | .finish loop =>
    if s.phase loop = .passing then some (s.move loop (if loop = .reconcile then .polling else .waiting)) else none
  | .rest => if s.phase .reconcile = .polling ∧ ¬ s.signal then some (s.move .reconcile .waiting) else none
  | .stop loop =>
    if s.phase loop = .following ∨ s.phase loop = .polling ∨ s.phase loop = .waiting then some (s.move loop .stopped) else none

def run (s : DeploySignals) : List DeployEvent → Option DeploySignals
  | [] => some s
  | event :: rest => (s.step event).bind fun next => next.run rest

def Changes (s : DeploySignals) (event : DeployEvent) : Prop :=
  ∃ next, s.step event = some next ∧ ∃ key, next.fsm.deployApps.lookup key ≠ s.fsm.deployApps.lookup key

def Keeps (s : DeploySignals) : List DeployEvent → Prop
  | [] => True
  | event :: rest => ¬ s.Changes event ∧ ∀ next, s.step event = some next → next.Keeps rest

structure Quiet (s : DeploySignals) : Prop where
  empty : s.signal = false
  waiting : ∀ loop, s.phase loop = .waiting

/-- The loop has a pass to begin: its first one, or one that it took a signal for. -/
def Pending (s : DeploySignals) (loop : DeployLoop) : Prop := s.phase loop = .following ∨ s.phase loop = .due

/-- The latest change of the desired apps, in state `b`, with what has happened since. -/
structure LatestChange (fsm : FsmState) (history : List DeployEvent) (b : DeploySignals) (after : List DeployEvent) : Prop where
  split : ∃ before event, history = before ++ event :: after ∧ (launched fsm).run before = some b ∧ b.Changes event ∧
    ∀ next, b.step event = some next → next.Keeps after

/-- Each loop has begun a pass after the latest change, once nothing is left to do. -/
def Told (fsm : FsmState) (history : List DeployEvent) : Prop :=
  ∀ s, (launched fsm).run history = some s → s.Quiet → ∀ b after, LatestChange fsm history b after →
    ∀ loop, .start loop ∈ after

/-- Each loop had a pass to begin when the latest change came, or received a signal since. -/
def Heard (fsm : FsmState) (history : List DeployEvent) : Prop :=
  ∀ s, (launched fsm).run history = some s → s.Quiet → ∀ b after, LatestChange fsm history b after →
    ∀ loop, b.Pending loop ∨ .receive loop ∈ after

/-- What an event does to the phase of a loop that takes part in it. -/
inductive Moves : DeployEvent → DeployLoop → LoopPhase → LoopPhase → Prop
  | lead : Moves .lead .reconcile .following .due
  | receive {loop phase} : phase = .waiting ∨ phase = .polling → Moves (.receive loop) loop phase .due
  | start {loop} : Moves (.start loop) loop .due .passing
  | finish {loop} : Moves (.finish loop) loop .passing (if loop = .reconcile then .polling else .waiting)
  | rest : Moves .rest .reconcile .polling .waiting
  | stop {loop phase} : phase = .following ∨ phase = .polling ∨ phase = .waiting → Moves (.stop loop) loop phase .stopped

variable {s t : DeploySignals} {event : DeployEvent} {events : List DeployEvent} {loop : DeployLoop}

theorem phase_move (s : DeploySignals) (loop other : DeployLoop) (phase : LoopPhase) :
    (s.move loop phase).phase other = s.phase other ∨ other = loop ∧ (s.move loop phase).phase other = phase := by
  by_cases same : other = loop
  · exact .inr ⟨same, if_pos same⟩
  · exact .inl (if_neg same)

theorem step_phase (taken : s.step event = some t) (loop : DeployLoop) :
    t.phase loop = s.phase loop ∨ Moves event loop (s.phase loop) (t.phase loop) := by
  -- An event moves one loop, and the guard says from which phase.
  have moved {other : DeployLoop} {phase : LoopPhase} (move : Moves event other (s.phase other) phase)
      (same : t.phase = (s.move other phase).phase) :
      t.phase loop = s.phase loop ∨ Moves event loop (s.phase loop) (t.phase loop) := by
    rw [same]
    rcases phase_move s other loop phase with left | ⟨rfl, there⟩
    · exact .inl left
    · rw [there]
      exact .inr move
  cases event with
  | update command =>
    cases taken
    exact .inl rfl
  | recoverFromSnapshot snapshot =>
    cases taken
    exact .inl rfl
  | lead =>
    obtain ⟨following, made⟩ := Option.ite_none_right_eq_some.mp taken
    cases made
    exact moved (following ▸ .lead) rfl
  | receive other =>
    obtain ⟨⟨_, listens⟩, made⟩ := Option.ite_none_right_eq_some.mp taken
    cases made
    exact moved (.receive listens) rfl
  | start other =>
    obtain ⟨due, made⟩ := Option.ite_none_right_eq_some.mp taken
    cases made
    exact moved (due ▸ .start) rfl
  | finish other =>
    obtain ⟨passing, made⟩ := Option.ite_none_right_eq_some.mp taken
    cases made
    exact moved (passing ▸ .finish) rfl
  | rest =>
    obtain ⟨⟨polling, _⟩, made⟩ := Option.ite_none_right_eq_some.mp taken
    cases made
    exact moved (polling ▸ .rest) rfl
  | stop other =>
    obtain ⟨idle, made⟩ := Option.ite_none_right_eq_some.mp taken
    cases made
    exact moved (.stop idle) rfl

theorem pending_before (taken : s.step event = some t) (pending : t.Pending loop) :
    s.Pending loop ∨ event = .receive loop := by
  unfold Pending at pending ⊢
  rcases step_phase taken loop with same | moves
  · exact .inl (same ▸ pending)
  · generalize s.phase loop = was at moves ⊢
    generalize t.phase loop = now at moves pending
    cases moves with
    | lead => exact .inl (.inl rfl)
    | receive => exact .inr rfl
    | start => exact .inl (.inr rfl)
    | finish => cases loop <;> simp at pending
    | rest => simp at pending
    | stop => simp at pending

theorem pending_after (taken : s.step event = some t) (pending : s.Pending loop) :
    t.Pending loop ∨ event = .start loop ∨ t.phase loop = .stopped := by
  unfold Pending at pending ⊢
  rcases step_phase taken loop with same | moves
  · exact .inl (same ▸ pending)
  · generalize s.phase loop = was at moves pending
    generalize t.phase loop = now at moves ⊢
    cases moves with
    | lead => exact .inl (.inr rfl)
    | receive => exact .inl (.inr rfl)
    | start => exact .inr (.inl rfl)
    | finish => simp at pending
    | rest => simp at pending
    | stop => exact .inr (.inr rfl)

theorem stopped_after (taken : s.step event = some t) (stopped : s.phase loop = .stopped) : t.phase loop = .stopped := by
  rcases step_phase taken loop with same | moves
  · exact same.trans stopped
  · rw [stopped] at moves
    generalize t.phase loop = now at moves
    cases moves with
    | receive listens => simp at listens
    | stop idle => simp at idle

theorem run_stopped : ∀ {events : List DeployEvent} {s t : DeploySignals}, s.run events = some t → s.phase loop = .stopped →
    t.phase loop = .stopped
  | [], s, t, ran, stopped => by
    cases ran
    exact stopped
  | event :: events, s, t, ran, stopped => by
    obtain ⟨next, taken, later⟩ := Option.bind_eq_some_iff.mp ran
    exact run_stopped later (stopped_after taken stopped)

theorem pending_of_start : ∀ {events : List DeployEvent} {s t : DeploySignals}, s.run events = some t → .start loop ∈ events →
    s.Pending loop ∨ .receive loop ∈ events
  | event :: events, s, t, ran, member => by
    obtain ⟨next, taken, later⟩ := Option.bind_eq_some_iff.mp ran
    rcases List.mem_cons.mp member with rfl | member
    · exact .inl (.inr (Option.ite_none_right_eq_some.mp taken).1)
    · rcases pending_of_start later member with pending | received
      · rcases pending_before taken pending with before | rfl
        · exact .inl before
        · exact .inr List.mem_cons_self
      · exact .inr (List.mem_cons_of_mem _ received)

/-- A loop that ends up waiting has started what was pending. -/
theorem start_of_pending : ∀ {events : List DeployEvent} {s t : DeploySignals}, s.run events = some t → t.phase loop = .waiting →
    s.Pending loop → .start loop ∈ events
  | [], s, t, ran, waiting, pending => by
    cases ran
    unfold Pending at pending
    simp [waiting] at pending
  | event :: events, s, t, ran, waiting, pending => by
    obtain ⟨next, taken, later⟩ := Option.bind_eq_some_iff.mp ran
    rcases pending_after taken pending with still | rfl | stopped
    · exact List.mem_cons_of_mem _ (start_of_pending later waiting still)
    · exact List.mem_cons_self
    · have ended := run_stopped later stopped
      rw [waiting] at ended
      cases ended

theorem start_of_receive : ∀ {events : List DeployEvent} {s t : DeploySignals}, s.run events = some t → t.phase loop = .waiting →
    .receive loop ∈ events → .start loop ∈ events
  | event :: events, s, t, ran, waiting, member => by
    obtain ⟨next, taken, later⟩ := Option.bind_eq_some_iff.mp ran
    rcases List.mem_cons.mp member with rfl | member
    · obtain ⟨-, made⟩ := Option.ite_none_right_eq_some.mp taken
      cases made
      exact List.mem_cons_of_mem _ (start_of_pending later waiting (.inr (if_pos rfl)))
    · exact List.mem_cons_of_mem _ (start_of_receive later waiting member)

theorem run_append : ∀ {before after : List DeployEvent} {s : DeploySignals},
    s.run (before ++ after) = (s.run before).bind fun middle => middle.run after
  | [], _, _ => rfl
  | event :: before, after, s => by
    simp only [List.cons_append, run, Option.bind_assoc, run_append]

theorem fsm_step (taken : s.step event = some t) :
    (∃ command, event = .update command) ∨ (∃ snapshot, event = .recoverFromSnapshot snapshot) ∨ t.fsm = s.fsm := by
  cases event with
  | update command => exact .inl ⟨command, rfl⟩
  | recoverFromSnapshot snapshot => exact .inr (.inl ⟨snapshot, rfl⟩)
  | lead | receive _ | start _ | finish _ | rest | stop _ =>
    obtain ⟨-, made⟩ := Option.ite_none_right_eq_some.mp taken
    cases made
    exact .inr (.inr rfl)

theorem changes_cases (changes : s.Changes event) :
    (∃ command, event = .update command) ∨ ∃ snapshot, event = .recoverFromSnapshot snapshot := by
  obtain ⟨next, taken, key, differs⟩ := changes
  rcases fsm_step taken with update | recover | same
  · exact .inl update
  · exact .inr recover
  · exact absurd (by rw [same]) differs

theorem start_since_iff {fsm : FsmState} {history after : List DeployEvent} {b : DeploySignals}
    (ran : (launched fsm).run history = some s) (quiet : s.Quiet) (latest : LatestChange fsm history b after) (loop : DeployLoop) :
    .start loop ∈ after ↔ b.Pending loop ∨ .receive loop ∈ after := by
  obtain ⟨before, event, rfl, first, changes, -⟩ := latest
  rw [run_append, first, Option.bind_some] at ran
  have drop {loop' : DeployLoop} : (.start loop' ∈ event :: after ↔ .start loop' ∈ after) ∧
      (.receive loop' ∈ event :: after ↔ .receive loop' ∈ after) := by
    rcases changes_cases changes with ⟨command, rfl⟩ | ⟨snapshot, rfl⟩ <;> simp
  rw [← drop.1, ← drop.2]
  constructor
  · exact pending_of_start ran
  · rintro (pending | received)
    · exact start_of_pending ran (quiet.waiting loop) pending
    · exact start_of_receive ran (quiet.waiting loop) received

theorem told_iff_heard (fsm : FsmState) (history : List DeployEvent) : Told fsm history ↔ Heard fsm history := by
  refine forall_congr' fun s => forall_congr' fun ran => forall_congr' fun quiet => forall_congr' fun b =>
    forall_congr' fun after => forall_congr' fun latest => forall_congr' fun loop => ?_
  exact start_since_iff ran quiet latest loop

/-- In every run no notification is lost, in any of the states reached, exactly if
each loop had a pass to begin when a change came or received a signal since. -/
theorem no_deploy_lost_iff (fsm : FsmState) (events : List DeployEvent) :
    (∀ history, history <+: events → Told fsm history) ↔ ∀ history, history <+: events → Heard fsm history :=
  forall_congr' fun history => forall_congr' fun _ => told_iff_heard fsm history

end DeploySignals

namespace DeployEvent

def received : DeployEvent → Bool
  | .receive _ => true
  | _ => false

def notifies : DeployEvent → Bool
  | .update command => command.notifies
  | _ => false

end DeployEvent

namespace DeploySignals

variable {s t : DeploySignals} {event : DeployEvent}

theorem signal_step (taken : s.step event = some t) :
    event.received.toNat + t.signal.toNat ≤ s.signal.toNat + event.notifies.toNat := by
  cases event with
  | update command =>
    cases taken
    cases s.signal <;> cases sends : command.notifies <;> simp [DeployEvent.received, DeployEvent.notifies, sends]
  | recoverFromSnapshot snapshot =>
    cases taken
    simp [DeployEvent.received]
  | receive loop =>
    obtain ⟨⟨full, -⟩, made⟩ := Option.ite_none_right_eq_some.mp taken
    cases made
    simp [DeployEvent.received, full]
  | lead | start _ | finish _ | rest | stop _ =>
    obtain ⟨-, made⟩ := Option.ite_none_right_eq_some.mp taken
    cases made
    simp [DeployEvent.received, move]

theorem received_le : ∀ {events : List DeployEvent} {s t : DeploySignals}, s.run events = some t →
    events.countP DeployEvent.received + t.signal.toNat ≤ s.signal.toNat + events.countP DeployEvent.notifies
  | [], s, t, ran => by
    cases ran
    simp
  | event :: events, s, t, ran => by
    obtain ⟨next, taken, later⟩ := Option.bind_eq_some_iff.mp ran
    have here := signal_step taken
    have there := received_le later
    rw [List.countP_cons, List.countP_cons]
    cases got : event.received <;> cases sent : event.notifies <;> simp [got, sent] at here ⊢ <;> omega

theorem two_received {events : List DeployEvent} (every : ∀ loop, .receive loop ∈ events) :
    2 ≤ events.countP DeployEvent.received := by
  obtain ⟨left, right, rfl⟩ := List.append_of_mem (every .reconcile)
  have other : 0 < (left ++ right).countP DeployEvent.received := by
    refine List.countP_pos_iff.mpr ⟨.receive .ingress, ?_, rfl⟩
    simpa using every .ingress
  simp only [List.countP_append, List.countP_cons] at other ⊢
  simp only [DeployEvent.received, if_true]
  omega

/-- One signal reaches one loop: of a change that finds both loops without a pass
to begin, and that nothing is sent after, a loop learns nothing. -/
theorem untold_of_single_signal {fsm : FsmState} {history after : List DeployEvent} {b : DeploySignals}
    (ran : (launched fsm).run history = some s) (quiet : s.Quiet) (latest : LatestChange fsm history b after)
    (idle : ∀ loop, ¬ b.Pending loop) (silent : after.countP DeployEvent.notifies = 0) : ¬ Told fsm history := by
  intro told
  have every (loop : DeployLoop) : .receive loop ∈ after :=
    ((start_since_iff ran quiet latest loop).mp (told s ran quiet b after latest loop)).resolve_left (idle loop)
  obtain ⟨before, event, rfl, first, -, -⟩ := latest
  rw [run_append, first, Option.bind_some] at ran
  obtain ⟨next, -, later⟩ := Option.bind_eq_some_iff.mp ran
  have few := received_le later
  have many := two_received every
  have one := Bool.toNat_le next.signal
  omega

theorem keeps_of_loops : ∀ {events : List DeployEvent} {s : DeploySignals},
    (∀ event ∈ events, (∀ command, event ≠ .update command) ∧ ∀ snapshot, event ≠ .recoverFromSnapshot snapshot) → s.Keeps events
  | [], _, _ => trivial
  | event :: events, s, loops => by
    obtain ⟨⟨notUpdate, notRecover⟩, rest⟩ := List.forall_mem_cons.mp loops
    refine ⟨fun changes => ?_, fun next _ => keeps_of_loops rest⟩
    rcases changes_cases changes with ⟨command, rfl⟩ | ⟨snapshot, rfl⟩
    · exact notUpdate command rfl
    · exact notRecover snapshot rfl

/-- An app is deployed while both loops wait, and the ingress loop gets the signal. -/
theorem deploy_signal_lost : ¬ ∀ (fsm : FsmState) (history : List DeployEvent), Told fsm history := by
  intro told
  let started : List DeployEvent := [.lead, .start .reconcile, .finish .reconcile, .rest]
  let refreshed : List DeployEvent := [.receive .ingress, .start .ingress, .finish .ingress]
  let deploy : DeployEvent := .update (.upsertDeployApp (imageApp "web" "api" "nginx"))
  let b := ((((launched {}).move .reconcile .due).move .reconcile .passing).move .reconcile .polling).move .reconcile .waiting
  have first : (launched {}).run started = some b := rfl
  obtain ⟨next, taken⟩ : ∃ next, b.step deploy = some next := ⟨_, rfl⟩
  have changes : b.Changes deploy := by
    refine ⟨next, taken, "default/web", ?_⟩
    cases taken
    decide +kernel
  have latest : LatestChange {} (started ++ deploy :: refreshed) b refreshed :=
    ⟨started, deploy, rfl, first, changes, fun _ _ => keeps_of_loops (by simp [refreshed])⟩
  obtain ⟨s, ran, quiet⟩ : ∃ s, (launched {}).run (started ++ deploy :: refreshed) = some s ∧ s.Quiet := by
    let whole := (launched {}).run (started ++ deploy :: refreshed)
    refine ⟨whole.get (by decide +kernel), (Option.some_get _).symm, by decide +kernel, fun loop => ?_⟩
    cases loop <;> decide +kernel
  have idle (loop : DeployLoop) : ¬ b.Pending loop := by
    cases loop <;> simp [Pending, b, move, launched]
  exact untold_of_single_signal ran quiet latest idle rfl (told {} _)

end DeploySignals

end Orch
