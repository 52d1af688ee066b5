import Orch.Effect.Parallel
import Orch.Raft.Documents
import Orch.Task.Walks

namespace Orch

open Effect

deriving instance DecidableEq for HealthTarget

/-- The goroutines of one process: the request that submits a document, the two
loops, and the monitors, each under the number it was registered with. -/
inductive Actor where
  | submit
  | reconcile
  | recover
  | monitor (runID : Nat) (target : HealthTarget)
deriving DecidableEq

/-- The workload whose starts are counted, in the document it comes from. -/
structure Counted where
  doc : App
  workload : Workload

namespace Counted

def key (c : Counted) : String := assignmentKey c.doc.metadata c.workload.name

def generation (c : Counted) : String := appGeneration c.doc

def attemptKey (c : Counted) : String := restartAttemptKey c.key c.generation

def cap (c : Counted) : Int := workloadMaxRestarts c.workload

/-- The documents kept are valid, and none but the one at hand is about this
workload. -/
structure Keeps (c : Counted) (app : App) : Prop where
  valid : ∃ sorter, app.validate sorter = .ok ()
  own : app = c.doc ∨ ∀ w ∈ app.workloads, assignmentKey app.metadata w.name ≠ c.key

/-- What is recorded once a start has come to an end. -/
structure Settled (c : Counted) (a : Assignment) : Prop where
  status : a.status = .running ∨ a.status = .failed
  dated : trimSpace a.generation = trimSpace c.generation
  key : a.key = c.key

/-- What a monitor of the process may be aimed at. -/
structure Aims (c : Counted) (target : HealthTarget) : Prop where
  proper : Proper target.app.metadata target.workload
  key : target.key = assignmentKey target.app.metadata target.workload.name
  dated : target.key = c.key → trimSpace target.generation = trimSpace c.generation

end Counted

/-- How often the workload has been started, how many restarts were granted for
it, and how many starts each goroutine has left. -/
structure Tally where
  takes : Nat
  starts : Nat
  credit : Actor → Nat

namespace Tally

/-- The first start needs no grant. It is left to the reconcile loop. -/
def opening : Tally where
  takes := 0
  starts := 0
  credit i := if i = .reconcile then 1 else 0

def grant (tally : Tally) (i : Actor) : Tally :=
  { tally with takes := tally.takes + 1, credit := Function.update tally.credit i (tally.credit i + 1) }

def spend (tally : Tally) (i : Actor) : Tally :=
  { tally with starts := tally.starts + 1, credit := Function.update tally.credit i (tally.credit i - 1) }

def note (c : Counted) (tally : Tally) (i : Actor) (op : TaskOp) (answer : op.Answer) : Tally :=
  match op, answer with
  | .takeRestart k limit, granted =>
    if granted = true ∧ k = c.attemptKey ∧ limit = c.cap ∧ restartPolicyForWorkload c.workload ≠ .never then tally.grant i
    else tally
  | .runtimeDeploy _ metadata w, _ => if assignmentKey metadata w.name = c.key then tally.spend i else tally
  | _, _ => tally

end Tally

/-- What the starts of one workload depend on: whether all documents kept are as
expected, and all monitors aimed as expected, its assignment, its attempts, and
the tally. -/
structure Meter where
  sound : Prop
  launched : Prop
  current : Option Assignment
  attempts : Int
  tally : Tally

namespace Meter

def record (d : Meter) (key : String) (a : Assignment) : Meter :=
  match normalizeAssignment a with
  | none => d
  | some b => if b.key = key then { d with current := some b } else d

/-- What one action of a goroutine does to a meter, on a cluster of one node
whose proposals are all accepted. -/
def Step (c : Counted) (svc : Service) (i : Actor) : Steps TaskSig Meter := fun d op answer e =>
  (∀ runID target, i = .monitor runID target → d.launched → c.Aims target) ∧
  match op, answer with
  | .listDesiredDeployApps, apps => (d.sound → ∀ app ∈ apps, c.Keeps app) ∧ e = d
  | .getPreviousDeployApp _, found => (d.sound → ∀ revision, found = some revision → c.Keeps revision.app) ∧ e = d
  | .getWorkloadAssignment k, found => (trimSpace k = c.key → found = d.current) ∧ e = d
  | .apply _ (.upsertWorkloadAssignment a), _ => e = d.record c.key a
  | .apply _ (.upsertDeployApp app), _ => ∃ sound, (d.sound → c.Keeps app.decoded → sound) ∧ e = { d with sound }
  | .apply _ (.deleteDeployApp _), _ => ∃ sound, (d.sound → sound) ∧ e = { d with sound }
  | .registerHealthMonitor target, _ => ∃ launched, (d.launched → c.Aims target → launched) ∧ e = { d with launched }
  | .takeRestart k limit, granted =>
    ∃ attempts, e = { d with attempts, tally := d.tally.note c i (.takeRestart k limit) granted } ∧
      if k ≠ c.attemptKey then attempts = d.attempts
      else if limit > 0 ∧ d.attempts ≥ limit then granted = false ∧ attempts = d.attempts
      else granted = true ∧ attempts = d.attempts + 1
  | .runtimeDeploy ctx metadata w, result =>
    e = { d with tally := d.tally.note c i (.runtimeDeploy ctx metadata w) result }
  | .dispatchWorkload _ node _ _, result => node ≠ svc.localNode → result.isOk = false ∧ e = d
  | .dispatchStop _ node _ _, result => node ≠ svc.localNode → result.isOk = false ∧ e = d
  | _, _ => e = d

/-- What each goroutine is allowed: the two loops start the workload on credit,
only the reconcile loop records it as anything but settled, and all of them keep
to the documents and monitors expected. -/
def Permits (c : Counted) (svc : Service) (i : Actor) (d : Meter) : TaskOp → Prop
  | .runtimeDeploy _ metadata w =>
    assignmentKey metadata w.name = c.key → (i = .reconcile ∨ i = .recover) ∧ 0 < d.tally.credit i
  | .apply _ (.upsertWorkloadAssignment a) =>
    i = .reconcile ∨ ∀ b, normalizeAssignment a = some b → b.key = c.key → c.Settled b
  | .apply _ (.upsertDeployApp app) => c.Keeps app.decoded
  | .registerHealthMonitor target => c.Aims target
  | .dispatchWorkload _ node _ _ => node ≠ svc.localNode
  | .dispatchStop _ node _ _ => node ≠ svc.localNode
  | _ => True

/-- The starts made and those still to make have been granted, but for the
first. -/
structure Balanced (c : Counted) (d : Meter) : Prop where
  spent : d.tally.starts + d.tally.credit .reconcile + d.tally.credit .recover ≤ d.tally.takes + 1
  counted : (d.tally.takes : Int) ≤ d.attempts
  capped : 0 < c.cap → (d.tally.takes : Int) ≤ c.cap
  never : restartPolicyForWorkload c.workload = .never → d.tally.takes = 0

variable {c : Counted}

theorem Balanced.congr {d e : Meter} (balanced : d.Balanced c) (tally : e.tally = d.tally)
    (attempts : d.attempts ≤ e.attempts) : e.Balanced c := by
  obtain ⟨spent, counted, capped, never⟩ := balanced
  refine ⟨?_, ?_, ?_, ?_⟩
  · rwa [tally]
  · rw [tally]
    omega
  · rwa [tally]
  · rwa [tally]

theorem record_tally (d : Meter) (key : String) (a : Assignment) :
    (d.record key a).tally = d.tally ∧ (d.record key a).attempts = d.attempts := by
  unfold record
  split
  · exact ⟨rfl, rfl⟩
  · split <;> exact ⟨rfl, rfl⟩

variable {i : Actor}

theorem Balanced.grant {d : Meter} {attempts : Int} (balanced : d.Balanced c)
    (policy : restartPolicyForWorkload c.workload ≠ .never) (left : ¬ (c.cap > 0 ∧ d.attempts ≥ c.cap))
    (taken : attempts = d.attempts + 1) : Balanced c { d with attempts, tally := d.tally.grant i } := by
  obtain ⟨spent, counted, capped, never⟩ := balanced
  refine ⟨?_, ?_, ?_, fun policy' => absurd policy' policy⟩
  · simp only [Tally.grant]
    cases i with
    | reconcile | recover =>
      rw [Function.update_self, Function.update_of_ne (by simp)]
      omega
    | submit | monitor =>
      rw [Function.update_of_ne (by simp), Function.update_of_ne (by simp)]
      omega
  · simp only [Tally.grant]
    omega
  · intro positive
    simp only [Tally.grant]
    omega

theorem Balanced.spend {d : Meter} (balanced : d.Balanced c) (loop : i = .reconcile ∨ i = .recover)
    (left : 0 < d.tally.credit i) :
    Balanced c { d with tally := d.tally.spend i } := by
  obtain ⟨spent, counted, capped, never⟩ := balanced
  refine ⟨?_, counted, capped, never⟩
  rcases loop with rfl | rfl
  · simp only [Tally.spend, Function.update_self]
    rw [Function.update_of_ne (by simp)]
    omega
  · simp only [Tally.spend, Function.update_self]
    rw [Function.update_of_ne (by simp)]
    omega

/-- No permitted action overdraws the restarts that were granted. -/
theorem Balanced.step {svc : Service} {d e : Meter} {op : TaskOp} {answer : op.Answer} (balanced : d.Balanced c)
    (permitted : d.Permits c svc i op) (taken : Step c svc i d op answer e) : e.Balanced c := by
  obtain ⟨-, taken⟩ := taken
  cases op with
  | listDesiredDeployApps | getPreviousDeployApp | getWorkloadAssignment =>
    obtain ⟨-, rfl⟩ := taken
    exact balanced
  | apply ctx command =>
    cases command with
    | upsertWorkloadAssignment a =>
      obtain rfl : e = d.record c.key a := taken
      exact balanced.congr (record_tally ..).1 (le_of_eq (record_tally ..).2.symm)
    | upsertDeployApp | deleteDeployApp =>
      obtain ⟨sound, -, rfl⟩ := taken
      exact balanced.congr rfl le_rfl
    | _ =>
      obtain rfl : e = d := taken
      exact balanced
  | registerHealthMonitor target =>
    obtain ⟨launched, -, rfl⟩ := taken
    exact balanced.congr rfl le_rfl
  | takeRestart k limit =>
    obtain ⟨attempts, rfl, counted⟩ := taken
    simp only [Tally.note]
    split
    · rename_i granted
      obtain ⟨rfl, rfl, rfl, policy⟩ := granted
      rw [if_neg (by simp)] at counted
      split at counted
      · cases counted.1
      · rename_i left
        exact balanced.grant policy left counted.2
    · refine balanced.congr rfl ?_
      split at counted
      · exact le_of_eq counted.symm
      · split at counted
        · exact le_of_eq counted.2.symm
        · have := counted.2
          dsimp only
          omega
  | runtimeDeploy ctx metadata w =>
    obtain rfl : e = { d with tally := d.tally.note c i (.runtimeDeploy ctx metadata w) answer } := taken
    simp only [Tally.note]
    split
    · rename_i own
      obtain ⟨loop, left⟩ := permitted own
      exact balanced.spend loop left
    · exact balanced
  | dispatchWorkload ctx node metadata w | dispatchStop ctx node metadata w =>
    obtain ⟨-, rfl⟩ := taken permitted
    exact balanced
  | _ =>
    obtain rfl : e = d := taken
    exact balanced

end Meter

end Orch
