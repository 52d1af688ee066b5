import Orch.Runtime.Process

namespace Orch.ProcessProvider

open Effect

variable {lib : DnsLibrary}

/-- What was done and by whom, the latest first. -/
abbrev Journal := List (Actor × ProcOp)

def note (journal : Journal) (entry : Actor × Event ProcSig (ProcState lib)) : Journal :=
  (entry.1, entry.2.op) :: journal

def journal (trace : List (Actor × Event ProcSig (ProcState lib))) : Journal := trace.foldl note []

/-- A run of calls, waiters and the operating system from a clean start. -/
def Reaches (p : Provider) (requests : Nat → Workload) (store : p.lib.Store)
    (trace : List (Actor × Event ProcSig (ProcState p.lib))) (s : ProcState p.lib) : Prop :=
  ∃ rest, Weave (fun who => (ProcState.machine p.lib who).Step) (program p requests) { store } trace rest s

/-- The state file names the live process of a `Deploy` that has returned nil, and
no `Stop` has begun since. -/
structure Standing (s : ProcState lib) (g : Journal) (d : Nat) : Prop where
  named : ∃ pid, s.file = .holds pid ∧ s.procs pid = some ⟨some d, true⟩
  returned : ∃ newer older, g = newer ++ (.deploy d, .finish (.ok ())) :: older ∧ ∀ k, (.stop k, .begin) ∉ newer

def KeepsRecord (s : ProcState lib) (g : Journal) : Prop := ∀ d, Standing s g d → s.record.isSome = true

/-- Who may still be busy with what came before the `Deploy`: the waiter of another
process, or a `Stop` that began before the `Deploy` returned. -/
inductive Overlaps (g : Journal) (d : Nat) : Actor → Prop
  | waiter {e : Nat} : e ≠ d → Overlaps g d (.waiter e)
  | stop {k : Nat} {newer older : Journal} : g = newer ++ (.deploy d, .finish (.ok ())) :: older →
      (.stop k, .begin) ∈ older → Overlaps g d (.stop k)

/-- Such an actor has erased the record that the `Deploy` had set, and it has not
been set again. -/
def WithdrawnLate (g : Journal) (d : Nat) : Prop :=
  ∃ newer who older, g = newer ++ (who, .eraseRecord) :: older ∧ (∀ other rec, (other, .setRecord rec) ∉ newer) ∧
    (∃ rec, (.deploy d, .setRecord rec) ∈ older) ∧ Overlaps g d who

/-- A process of the `Deploy` has the PID, whether or not it has ended. -/
def Owned (s : ProcState lib) (d pid : Nat) : Prop := ∃ running, s.procs pid = some ⟨some d, running⟩

/-- The process that the `Deploy` has left to its waiter is gone. -/
def Gone (s : ProcState lib) (d : Nat) : Prop := s.waits d ≠ none ∧ ∀ pid, ¬ Owned s d pid

def Bound (s : ProcState lib) (d : Nat) : Prop := ∀ pid, s.waits d = some pid → ∀ other, Owned s d other → other = pid

/-- Before the waiter is there, the processes of the `Deploy` are among some. -/
def Within (d : Nat) (pids : Nat → Prop) (s : ProcState lib) : Prop :=
  s.waits d = none ∧ ∀ pid, Owned s d pid → pids pid

def Published (g : Journal) (d : Nat) : Prop := ∃ rec, (.deploy d, .setRecord rec) ∈ g

abbrev NotedState (lib : DnsLibrary) := ProcState lib × Journal

def Permits : Actor → NotedState lib → ProcOp → Prop
  | .deploy d, x, op =>
    match op with
    | .finish (.ok _) => Published x.2 d
    | .start => Within d (fun _ => False) x.1
    | .goWait pid => Within d (· = pid) x.1
    | .eraseRecord | .wait => False
    | _ => True
  | .waiter d, x, op => op = .eraseRecord → Gone x.1 d
  | .stop k, x, op => op = .eraseRecord → (.stop k, .begin) ∈ x.2
  | .os _, _, op => op ≠ .eraseRecord

abbrev actorStep (lib : DnsLibrary) (who : Actor) : Steps ProcSig (NotedState lib) :=
  Noting (ProcState.machine lib who).Step fun g event => note g (who, event)

section Steps

variable {who : Actor} {s t : ProcState lib} {op : ProcOp} {answer : op.Answer} {d : Nat}

theorem owned_setProc {pid other : Nat} {proc : Option Proc} (owned : Owned (s.setProc pid proc) d other) :
    Owned s d other ∨ other = pid ∧ ∃ running, proc = some ⟨some d, running⟩ := by
  obtain ⟨running, there⟩ := owned
  by_cases same : other = pid
  · exact .inr ⟨same, running, by simpa [ProcState.setProc, same] using there⟩
  · exact .inl ⟨running, by simpa [ProcState.setProc, same] using there⟩

theorem owned_endProc {pid other : Nat} (owned : Owned (s.endProc pid) d other) : Owned s d other := by
  rcases owned_setProc owned with before | ⟨rfl, running, ended⟩
  · exact before
  · obtain ⟨⟨owner, was⟩, there, same⟩ := Option.map_eq_some_iff.mp ended
    cases same
    exact ⟨was, there⟩

theorem happen_spec {event : OsEvent} (happened : s.happen event = some t) :
    (∃ pid proc, t = s.setProc pid proc) ∧ ∀ d other, Owned t d other → Owned s d other := by
  cases event with
  | exit pid =>
    cases happened
    exact ⟨⟨_, _, rfl⟩, fun _ _ => owned_endProc⟩
  | appear pid =>
    obtain ⟨-, made⟩ := Option.ite_none_right_eq_some.mp happened
    cases made
    exact ⟨⟨_, _, rfl⟩, fun _ _ owned => (owned_setProc owned).resolve_right (by simp)⟩
  | vanish pid =>
    simp only [ProcState.happen] at happened
    split at happened
    · cases happened
      exact ⟨⟨_, _, rfl⟩, fun _ _ owned => (owned_setProc owned).resolve_right (by simp)⟩
    · cases happened

def recordAfter : ProcOp → Option DnsRecord → Option DnsRecord
  | .setRecord rec, _ => some rec
  | .eraseRecord, _ => none
  | _, record => record

/-- What one step can do to the record, to the waiters and to the processes. -/
structure Acts (who : Actor) (s : ProcState lib) (op : ProcOp) (t : ProcState lib) : Prop where
  record : t.record = recordAfter op s.record
  waits : ∀ d, t.waits d = s.waits d ∨ ∃ pid, who = .deploy d ∧ op = .goWait pid ∧ t.waits d = some pid
  owned : ∀ d pid, Owned t d pid → Owned s d pid ∨ who = .deploy d ∧ op = .start

theorem Acts.of_owned (record : t.record = recordAfter op s.record) (waits : t.waits = s.waits)
    (owned : ∀ d pid, Owned t d pid → Owned s d pid) : Acts who s op t where
  record
  waits d := .inl (by rw [waits])
  owned d pid now := .inl (owned d pid now)

theorem Acts.of_procs (record : t.record = recordAfter op s.record) (waits : t.waits = s.waits) (procs : t.procs = s.procs) :
    Acts who s op t :=
  .of_owned record waits fun _ _ owned => by
    unfold Owned at owned ⊢
    rwa [procs] at owned

theorem step_acts (taken : (ProcState.machine lib who).Step s op answer t) : Acts who s op t := by
  obtain ⟨choice, taken⟩ := taken
  change ProcState.perform who s op choice = some (t, answer) at taken
  cases op with
  | begin | finish _ | readState | openLogFiles | processAlive _ | interrupt _ | waitExit _ | getRecord | saveRecord _
  | deleteRecord _ | setRecord _ | eraseRecord =>
    cases taken
    exact .of_procs rfl rfl rfl
  | removeState =>
    simp only [ProcState.perform] at taken
    split at taken <;> cases taken <;> exact .of_procs rfl rfl rfl
  | writeState pid =>
    simp only [ProcState.perform] at taken
    split at taken <;> cases taken
    · exact .of_procs rfl rfl rfl
    · split <;> exact .of_procs rfl rfl rfl
  | start =>
    simp only [ProcState.perform] at taken
    split at taken
    · cases taken
      exact .of_procs rfl rfl rfl
    split at taken
    · rename_i d
      obtain ⟨-, made⟩ := Option.ite_none_right_eq_some.mp taken
      cases made
      refine ⟨rfl, fun _ => .inl rfl, fun e pid owned => ?_⟩
      rcases owned_setProc owned with before | ⟨rfl, _, same⟩
      · exact .inl before
      · cases same
        exact .inr ⟨rfl, rfl⟩
    · cases taken
  | kill pid =>
    cases taken
    exact .of_owned rfl rfl fun _ _ => owned_endProc
  | goWait pid =>
    simp only [ProcState.perform] at taken
    split at taken
    · rename_i d
      cases taken
      refine ⟨rfl, fun e => ?_, fun _ _ owned => .inl owned⟩
      by_cases same : e = d
      · exact .inr ⟨pid, by rw [same], rfl, if_pos same⟩
      · exact .inl (if_neg same)
    · cases taken
  | wait =>
    simp only [ProcState.perform] at taken
    split at taken
    · split at taken
      · cases taken
      · obtain ⟨-, made⟩ := Option.ite_none_right_eq_some.mp taken
        cases made
        exact .of_owned rfl rfl fun _ _ owned => (owned_setProc owned).resolve_right (by simp)
    · cases taken
  | happen =>
    obtain ⟨next, happened, same⟩ := Option.map_eq_some_iff.mp taken
    cases same
    obtain ⟨⟨pid, proc, rfl⟩, owned⟩ := happen_spec happened
    exact .of_owned rfl rfl owned

end Steps

section Rely

variable {who : Actor} {x y : NotedState lib} {op : ProcOp} {answer : op.Answer} {d : Nat}

theorem within_step {pids : Nat → Prop} (taken : actorStep lib who x op answer y)
    (other : who = .deploy d → op ≠ .start ∧ ∀ pid, op ≠ .goWait pid) (within : Within d pids x.1) : Within d pids y.1 := by
  have acts := step_acts taken.1
  refine ⟨?_, fun pid owned => ?_⟩
  · rcases acts.waits d with same | ⟨pid, own, goes, -⟩
    · exact same.trans within.1
    · exact absurd goes ((other own).2 pid)
  · rcases acts.owned d pid owned with before | ⟨own, starts⟩
    · exact within.2 pid before
    · exact absurd starts (other own).1

/-- A process that is gone does not come back by a permitted action. -/
theorem gone_step (permitted : Permits who x op) (taken : actorStep lib who x op answer y) (gone : Gone x.1 d) :
    Gone y.1 d := by
  have acts := step_acts taken.1
  refine ⟨?_, fun pid owned => ?_⟩
  · rcases acts.waits d with same | ⟨pid, -, -, now⟩
    · rw [same]
      exact gone.1
    · simp [now]
  · rcases acts.owned d pid owned with before | ⟨rfl, rfl⟩
    · exact gone.2 pid before
    · exact gone.1 permitted.1

theorem bound_step (permitted : Permits who x op) (taken : actorStep lib who x op answer y) (bound : Bound x.1 d) :
    Bound y.1 d := by
  have acts := step_acts taken.1
  intro pid waits other owned
  rcases acts.owned d other owned with before | ⟨rfl, rfl⟩
  · rcases acts.waits d with same | ⟨left, rfl, rfl, now⟩
    · exact bound pid (same ▸ waits) other before
    · obtain rfl := Option.some.inj (now.symm.trans waits)
      exact permitted.2 other before
  · -- A process is started before there is a waiter.
    rcases acts.waits d with same | ⟨_, _, impossible, _⟩
    · rw [same, permitted.1] at waits
      cases waits
    · cases impossible

def rely : Actor → NotedState lib → NotedState lib → Prop
  | .deploy d, x, y => (∀ pids, Within d pids x.1 → Within d pids y.1) ∧ x.2 ⊆ y.2
  | .waiter d, x, y => (Bound x.1 d → Bound y.1 d) ∧ (Gone x.1 d → Gone y.1 d)
  | .stop _, x, y => x.2 ⊆ y.2
  | .os _, _, _ => True

theorem rely_refl (who : Actor) (x : NotedState lib) : rely who x x := by
  cases who with
  | deploy d => exact ⟨fun _ => id, List.Subset.refl _⟩
  | waiter d => exact ⟨id, id⟩
  | stop k => exact List.Subset.refl _
  | os n => trivial

theorem rely_trans (who : Actor) {x y z : NotedState lib} (first : rely who x y) (second : rely who y z) : rely who x z := by
  cases who with
  | deploy d => exact ⟨fun pids within => second.1 pids (first.1 pids within), List.Subset.trans first.2 second.2⟩
  | waiter d => exact ⟨second.1 ∘ first.1, second.2 ∘ first.2⟩
  | stop k => exact List.Subset.trans first second
  | os n => trivial

theorem reliable {other : Actor} (apart : other ≠ who) (permitted : Permits who x op) (taken : actorStep lib who x op answer y) :
    rely other x y := by
  have grows : x.2 ⊆ y.2 := by
    rw [taken.2]
    exact List.subset_cons_self _ _
  cases other with
  | deploy d => exact ⟨fun pids within => within_step taken (fun own => absurd own.symm apart) within, grows⟩
  | waiter d => exact ⟨bound_step permitted taken, gone_step permitted taken⟩
  | stop k => exact grows
  | os n => trivial

end Rely

def ProcOp.quiet : ProcOp → Bool
  | .start | .goWait _ | .wait | .eraseRecord | .finish _ => false
  | _ => true

abbrev Quiet (op : ProcOp) : Prop := op.quiet = true

section Deploys

variable {d : Nat} {x y : NotedState lib}

abbrev deployStep (lib : DnsLibrary) (d : Nat) : Steps ProcSig (NotedState lib) :=
  Amid (rely (.deploy d)) (actorStep lib (.deploy d))

abbrev DeployEnsures {α : Type} (d : Nat) (post : α → NotedState lib → Prop) (task : ProcTask α) (x : NotedState lib) : Prop :=
  Ensures (deployStep lib d) (Permits (.deploy d)) post task x

variable {op : ProcOp}

theorem permits_quiet (quiet : Quiet op) : Permits (.deploy d) x op := by
  cases op <;> trivial

theorem journal_step {answer : op.Answer} (taken : deployStep lib d x op answer y) :
    (.deploy d, op) :: x.2 ⊆ y.2 := by
  obtain ⟨middle, own, others⟩ := taken
  rw [← show middle.2 = (.deploy d, op) :: x.2 from own.2]
  exact others.2

variable {pids : Nat → Prop}

theorem within_quiet {answer : op.Answer} (quiet : Quiet op) (taken : deployStep lib d x op answer y)
    (within : Within d pids x.1) : Within d pids y.1 := by
  obtain ⟨middle, own, others⟩ := taken
  refine others.1 pids (within_step own (fun _ => ?_) within)
  constructor
  · rintro rfl
    cases quiet
  · rintro pid rfl
    cases quiet

theorem ensureNoLiveState_quiet (workloadName : String) : (ensureNoLiveState workloadName).Asks Quiet := by
  refine ⟨rfl, ?_⟩
  rintro (_ | err | pid)
  · trivial
  · trivial
  · change Program.Asks _ (if 0 < pid then _ else _)
    split
    · refine ⟨rfl, ?_⟩
      rintro (_ | _)
      · exact asks_perform rfl
      · trivial
    · exact asks_perform rfl

theorem quiet_keeps {α : Type} {task : ProcTask α} (asks : task.Asks Quiet) (within : Within d pids x.1) :
    DeployEnsures d (fun _ y => Within d pids y.1) task x :=
  asks.keeping (fun _ quiet => permits_quiet quiet) (fun held quiet taken => within_quiet quiet taken held) within

theorem upsertWorkloadA_ensures (dns : DnsLibrary) (zone nspace workloadName ipv4 : String)
    (within : Within d pids x.1) :
    DeployEnsures d (fun result y => Within d pids y.1 ∧ (result = .ok () → Published y.2 d))
      (upsertWorkloadA dns zone nspace workloadName ipv4) x := by
  unfold upsertWorkloadA
  split
  · exact ⟨within, nofun⟩
  split
  · exact ⟨within, nofun⟩
  rename_i norm _
  refine ⟨trivial, fun prev x1 got => ⟨trivial, fun saved x2 put => ?_⟩⟩
  have held : Within d pids x2.1 := within_quiet rfl put (within_quiet rfl got within)
  rcases saved with err | _
  · exact ⟨held, nofun⟩
  have publish {x3 : NotedState lib} (held : Within d pids x3.1) :
      DeployEnsures d (fun (result : Check) y => Within d pids y.1 ∧ (result = .ok () → Published y.2 d))
        (do ask (.setRecord norm); return .pass) x3 :=
    ⟨trivial, fun _ y set => ⟨within_quiet rfl set held, fun _ => ⟨norm, journal_step set List.mem_cons_self⟩⟩⟩
  rcases prev with _ | prev
  · exact publish held
  · change DeployEnsures d _ (if _ then _ else _) x2
    split
    · exact ⟨trivial, fun _ x3 dropped => publish (within_quiet rfl dropped held)⟩
    · exact publish held

theorem sole_start {s t : ProcState lib} {pid : Nat}
    (taken : (ProcState.machine lib (.deploy d)).Step s .start (.ok pid) t) (fresh : Within d (fun _ => False) s) :
    Within d (· = pid) t := by
  obtain ⟨choice, taken⟩ := taken
  change ProcState.perform (.deploy d) s .start choice = some (t, .ok pid) at taken
  simp only [ProcState.perform] at taken
  split at taken
  · cases taken
  · obtain ⟨-, made⟩ := Option.ite_none_right_eq_some.mp taken
    cases made
    refine ⟨fresh.1, fun other owned => ?_⟩
    rcases owned_setProc owned with before | ⟨same, -⟩
    · exact absurd before (fresh.2 other)
    · exact same

theorem startProcess_ensures (p : Provider) (exe : String) (fresh : Within d (fun _ => False) x.1) :
    DeployEnsures d (fun result y => result = .ok () → Published y.2 d) (startProcess p exe) x := by
  refine ⟨fresh, fun started x1 start => ?_⟩
  rcases started with err | pid
  · exact nofun
  have sole : Within d (· = pid) x1.1 := by
    obtain ⟨middle, own, others⟩ := start
    exact others.1 _ (sole_start own.1 fresh)
  refine ⟨trivial, fun written x2 write => ?_⟩
  have held := within_quiet rfl write sole
  rcases written with err | _
  · exact ⟨trivial, fun _ x3 _ => nofun⟩
  change DeployEnsures d _ (upsertWorkloadA _ _ _ _ _ >>= _) x2
  refine (upsertWorkloadA_ensures p.lib p.zone p.metadata.nspace p.workloadName p.address held).bind ?_
  rintro (err | _) x3 ⟨held, published⟩
  · exact ⟨trivial, fun _ _ _ => ⟨trivial, fun _ _ _ => nofun⟩⟩
  · refine ⟨held, fun _ y went _ => ?_⟩
    obtain ⟨rec, found⟩ := published rfl
    exact ⟨rec, journal_step went (List.mem_cons_of_mem _ found)⟩

theorem deployBody_ensures (p : Provider) (w : Workload) (fresh : Within d (fun _ => False) x.1) :
    DeployEnsures d (fun result y => result = .ok () → Published y.2 d) (deployBody p w) x := by
  unfold deployBody
  split
  · exact nofun
  split
  · exact nofun
  refine (quiet_keeps (ensureNoLiveState_quiet w.name) fresh).bind ?_
  rintro (err | _) x1 fresh
  · exact nofun
  refine ⟨trivial, fun opened x2 opening => ?_⟩
  rcases opened with err | _
  · exact nofun
  · exact startProcess_ensures p _ (within_quiet rfl opening fresh)

theorem deploy_ensures (p : Provider) (w : Workload) (fresh : Within d (fun _ => False) x.1) :
    DeployEnsures d anything (call (deployBody p w)) x := by
  refine ⟨trivial, fun _ x1 began => ?_⟩
  change DeployEnsures d _ (deployBody p w >>= _) x1
  refine (deployBody_ensures p w (within_quiet rfl began fresh)).bind ?_
  rintro (err | _) y published
  · exact ⟨trivial, fun _ _ _ => trivial⟩
  · exact ⟨published rfl, fun _ _ _ => trivial⟩

end Deploys

section Promises

variable {x : NotedState lib}

theorem gone_wait {s t : ProcState lib} {d pid : Nat} (taken : (ProcState.machine lib (.waiter d)).Step s .wait pid t)
    (bound : Bound s d) : Gone t d := by
  obtain ⟨choice, taken⟩ := taken
  change ProcState.perform (.waiter d) s .wait choice = some (t, pid) at taken
  simp only [ProcState.perform] at taken
  split at taken
  · cases taken
  rename_i left waits
  obtain ⟨-, made⟩ := Option.ite_none_right_eq_some.mp taken
  cases made
  refine ⟨by simp [ProcState.setProc, waits], fun other owned => ?_⟩
  rcases owned_setProc owned with before | ⟨-, _, impossible⟩
  · obtain rfl := bound pid waits other before
    obtain ⟨running, there⟩ := owned
    simp [ProcState.setProc] at there
  · cases impossible

theorem waiter_withstands (d : Nat) (bound : Bound x.1 d) :
    Withstands (rely (.waiter d)) (actorStep lib (.waiter d)) (Permits (.waiter d)) anything waitProcess x := by
  intro y others
  refine ⟨nofun, fun pid z waited => ?_⟩
  obtain ⟨middle, own, moved⟩ := waited
  have gone : Gone z.1 d := moved.2 (gone_wait own.1 (others.1 bound))
  refine (Ensures.keeping (fun z => Gone z.1 d) ?_ ?_ _ gone).mono fun _ _ _ => trivial
  · exact fun op gone _ => gone
  · rintro z op answer u gone ⟨middle, own, moved⟩
    exact moved.2 (gone_step (show Permits (.waiter d) z op from fun _ => gone) own gone)

theorem stop_withstands (k : Nat) :
    Withstands (rely (.stop k)) (actorStep lib (.stop k)) (Permits (.stop k)) anything (call stopBody) x := by
  intro y _
  refine ⟨nofun, fun _ z began => ?_⟩
  have kept {x z : NotedState lib} {op : ProcOp} {answer : op.Answer}
      (taken : Amid (rely (.stop k)) (actorStep lib (.stop k)) x op answer z) : (.stop k, op) :: x.2 ⊆ z.2 := by
    obtain ⟨middle, own, moved⟩ := taken
    rw [← show middle.2 = (.stop k, op) :: x.2 from own.2]
    exact moved
  refine (Ensures.keeping (fun z => (.stop k, .begin) ∈ z.2) ?_ ?_ _ (kept began List.mem_cons_self)).mono
    fun _ _ _ => trivial
  · exact fun op began _ => began
  · exact fun began taken => kept taken (List.mem_cons_of_mem _ began)

theorem os_withstands (n : Nat) :
    Withstands (rely (.os n)) (actorStep lib (.os n)) (Permits (.os n)) (fun (_ : Check) _ => True)
      (do ask .happen; return .pass) x :=
  fun _ _ => ⟨nofun, fun _ _ _ => trivial⟩

end Promises

/-- Whether the latest of the writes to the record has set it. -/
def setLast : Journal → Bool
  | [] => false
  | (_, .setRecord _) :: _ => true
  | (_, .eraseRecord) :: _ => false
  | _ :: older => setLast older

theorem setLast_eq_false_iff {d : Nat} : ∀ {g : Journal}, Published g d → (setLast g = false ↔
    ∃ newer who older, g = newer ++ (who, .eraseRecord) :: older ∧ (∀ other rec, (other, .setRecord rec) ∉ newer) ∧
      Published older d)
  | [], ⟨_, nowhere⟩ => by cases nowhere
  | (actor, op) :: g, published => by
    have split : setLast ((actor, op) :: g) = false ↔ op = .eraseRecord ∨ (∀ rec, op ≠ .setRecord rec) ∧ setLast g = false := by
      cases op <;> simp [setLast]
    have rest (other : ∀ rec, op ≠ .setRecord rec) : Published g d := by
      obtain ⟨rec, found⟩ := published
      rcases List.mem_cons.mp found with same | later
      · cases same
        exact absurd rfl (other rec)
      · exact ⟨rec, later⟩
    rw [split]
    constructor
    · rintro (rfl | ⟨other, erased⟩)
      · exact ⟨[], actor, g, rfl, fun _ _ => List.not_mem_nil, rest nofun⟩
      · obtain ⟨newer, who, older, rfl, unset, before⟩ := (setLast_eq_false_iff (rest other)).mp erased
        refine ⟨(actor, op) :: newer, who, older, rfl, fun another rec member => ?_, before⟩
        rcases List.mem_cons.mp member with same | member
        · cases same
          exact other rec rfl
        · exact unset another rec member
    · rintro ⟨_ | ⟨first, newer⟩, who, older, same, unset, before⟩
      · cases same
        exact .inl rfl
      · cases same
        have other (rec : DnsRecord) : op ≠ .setRecord rec := by
          rintro rfl
          exact unset actor rec List.mem_cons_self
        refine .inr ⟨other, (setLast_eq_false_iff (rest other)).mpr ⟨newer, who, older, rfl, ?_, before⟩⟩
        exact fun another rec member => unset another rec (List.mem_cons_of_mem _ member)

structure Invariant (x : NotedState lib) : Prop where
  record : x.1.record.isSome = setLast x.2
  waiter : ∀ d, (.waiter d, .eraseRecord) ∈ x.2 → Gone x.1 d
  stop : ∀ k, (.stop k, .eraseRecord) ∈ x.2 → (.stop k, .begin) ∈ x.2
  deploy : ∀ d, (.deploy d, .finish (.ok ())) ∈ x.2 → Published x.2 d
  erasers : ∀ who, (who, .eraseRecord) ∈ x.2 → (∃ d, who = .waiter d) ∨ ∃ k, who = .stop k

theorem invariant_step {who : Actor} {x y : NotedState lib} {op : ProcOp} {answer : op.Answer} (inv : Invariant x)
    (permitted : Permits who x op) (taken : actorStep lib who x op answer y) : Invariant y := by
  have acts := step_acts taken.1
  have noted : y.2 = (who, op) :: x.2 := taken.2
  constructor
  · rw [acts.record, noted]
    cases op <;> first | exact inv.record | rfl
  · intro d member
    rw [noted] at member
    rcases List.mem_cons.mp member with first | member
    · cases first
      exact gone_step permitted taken (permitted rfl)
    · exact gone_step permitted taken (inv.waiter d member)
  · intro k member
    rw [noted] at member ⊢
    rcases List.mem_cons.mp member with first | member
    · cases first
      exact List.mem_cons_of_mem _ (permitted rfl)
    · exact List.mem_cons_of_mem _ (inv.stop k member)
  · intro d member
    rw [noted] at member ⊢
    have published : Published x.2 d := by
      rcases List.mem_cons.mp member with first | member
      · cases first
        exact permitted
      · exact inv.deploy d member
    obtain ⟨rec, found⟩ := published
    exact ⟨rec, List.mem_cons_of_mem _ found⟩
  · intro other member
    rw [noted] at member
    rcases List.mem_cons.mp member with first | member
    · cases first
      cases who with
      | deploy d => exact absurd permitted id
      | waiter d => exact .inl ⟨d, rfl⟩
      | stop k => exact .inr ⟨k, rfl⟩
      | os n => exact absurd rfl permitted
    · exact inv.erasers other member

theorem invariant_of_reaches {p : Provider} {requests : Nat → Workload} {store : p.lib.Store}
    {trace : List (Actor × Event ProcSig (ProcState p.lib))} {s : ProcState p.lib} (reached : Reaches p requests store trace s) :
    Invariant (s, journal trace) := by
  obtain ⟨rest, weave⟩ := reached
  obtain ⟨noted, weave, -⟩ := weave.noting note []
  have promised (who : Actor) : Withstands (rely who) (actorStep p.lib who) (Permits who) anything
      (program p requests who) ({ store }, []) := by
    cases who with
    | deploy d => exact fun y others => deploy_ensures p (requests d) (others.1 _ ⟨rfl, by simp [Owned]⟩)
    | waiter d => exact waiter_withstands d (by simp [Bound])
    | stop k => exact stop_withstands k
    | os n => exact os_withstands n
  obtain ⟨permitted, -⟩ := weave.permitted promised rely_refl (fun who => rely_trans who) reliable
  refine weave.keeps Invariant permitted invariant_step ?_
  exact ⟨rfl, by simp, by simp, by simp, by simp⟩

/-- In every run the record of a live process is kept exactly as long as no one
busy with what came before its `Deploy` erases it. -/
theorem record_kept_iff (p : Provider) (requests : Nat → Workload) (store : p.lib.Store)
    (trace : List (Actor × Event ProcSig (ProcState p.lib))) :
    (∀ before s, before <+: trace → Reaches p requests store before s → KeepsRecord s (journal before)) ↔
      ∀ before s, before <+: trace → Reaches p requests store before s →
        ∀ d, Standing s (journal before) d → ¬ WithdrawnLate (journal before) d := by
  refine forall_congr' fun before => forall_congr' fun s => forall_congr' fun _ => forall_congr' fun reached =>
    forall_congr' fun d => forall_congr' fun standing => ?_
  have inv := invariant_of_reaches reached
  obtain ⟨later, earlier, whole, unstopped⟩ := standing.returned
  have published : Published (journal before) d := inv.deploy d (by simp [whole])
  have erased := setLast_eq_false_iff published
  rw [show s.record.isSome = setLast (journal before) from inv.record]
  constructor
  · rintro set ⟨newer, who, older, cut, unset, own, -⟩
    rw [erased.mpr ⟨newer, who, older, cut, unset, own⟩] at set
    cases set
  · intro kept
    by_contra lost
    obtain ⟨newer, who, older, cut, unset, own⟩ := erased.mp (by simpa using lost)
    refine kept ⟨newer, who, older, cut, unset, own, ?_⟩
    have eraser : (who, .eraseRecord) ∈ journal before := by simp [cut]
    rcases inv.erasers who eraser with ⟨e, rfl⟩ | ⟨k, rfl⟩
    · refine .waiter ?_
      rintro rfl
      obtain ⟨pid, -, live⟩ := standing.named
      exact (inv.waiter e eraser).2 pid ⟨true, live⟩
    · refine .stop whole ?_
      have began := inv.stop k eraser
      rw [show (s, journal before).2 = _ from whole] at began
      rcases List.mem_append.mp began with since | since
      · exact absurd since (unstopped k)
      · exact (List.mem_cons.mp since).resolve_left (by simp)

def plainLibrary : DnsLibrary where
  normalizeRecord := .ok
  key rec := rec.name
  Store := Unit
  Choice := Unit
  saveRecord _ store _ := (store, .pass)
  deleteRecord _ store _ := (store, .pass)

def sampleProvider : Provider where
  lib := plainLibrary
  zone := "orch.local"
  metadata := { name := "web" }
  workloadName := "api"
  address := "127.0.0.1"

def sampleWorkload : Workload := { name := "api", runtime := .process, run.artifact.path := "/bin/api" }

def turns (who : Actor) (count pid : Nat) : List ((who : Actor) × (ProcState.machine plainLibrary who).Choice) :=
  List.replicate count ⟨who, { pid, storing := () }⟩

/-- The waiter of the first process comes to the record after the second process
has been deployed. -/
def lateSchedule : List ((who : Actor) × (ProcState.machine plainLibrary who).Choice) :=
  turns (.deploy 0) 10 10 ++ [⟨.os 0, { event := .exit 10, storing := () }⟩] ++ turns (.waiter 0) 1 0 ++
    turns (.deploy 1) 12 11 ++ turns (.waiter 0) 4 0

theorem record_withdrawn :
    ¬ ∀ (p : Provider) (requests : Nat → Workload) (store : p.lib.Store)
      (trace : List (Actor × Event ProcSig (ProcState p.lib))) (s : ProcState p.lib),
      Reaches p requests store trace s → KeepsRecord s (journal trace) := by
  intro kept
  let passes (run : List (Actor × Event ProcSig (ProcState plainLibrary)) × (Actor → ProcTask Check) × ProcState plainLibrary) : Bool :=
    run.2.2.file = .holds 11 ∧ run.2.2.procs 11 = some ⟨some 1, true⟩ ∧ run.2.2.record = none ∧
      (.deploy 1, .finish (.ok ())) ∈ journal run.1 ∧ (journal run.1).all fun entry => entry.1 matches .deploy _ | .waiter _ | .os _
  have woven : (weave (ProcState.machine plainLibrary) lateSchedule (program sampleProvider fun _ => sampleWorkload)
      { store := () }).map passes = some true := by
    decide +kernel
  obtain ⟨trace, rest, s, weave, passed⟩ := exists_weave woven
  obtain ⟨file, live, erased, returned, calls⟩ := of_decide_eq_true passed
  obtain ⟨newer, older, cut⟩ := List.append_of_mem returned
  have standing : Standing s (journal trace) 1 := by
    refine ⟨⟨11, file, live⟩, newer, older, cut, fun k began => ?_⟩
    have member : (.stop k, .begin) ∈ journal trace := by simp [cut, began]
    simpa using List.all_eq_true.mp calls _ member
  have registered := kept sampleProvider _ () trace s ⟨rest, weave⟩ 1 standing
  rw [erased] at registered
  cases registered

end Orch.ProcessProvider
