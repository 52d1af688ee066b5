import Orch.Meta

namespace Orch

/-- The runtimes of one host. A call changes their state and answers as the
environment chooses, within what the runtimes can do. -/
structure Runtime where
  State : Type
  Choice : Type
  deploy : State → Metadata → Workload → Choice → Option (State × Check)
  stop : State → RuntimeKind → Metadata → String → Choice → Option (State × Check)
  status : State → RuntimeKind → Metadata → String → Choice → Option (Except Failure String)

namespace Runtime

variable (R : Runtime)

def Deploys (before : R.State) (metadata : Metadata) (workload : Workload) (result : Check) (after : R.State) : Prop :=
  ∃ c, R.deploy before metadata workload c = some (after, result)

def Stops (before : R.State) (kind : RuntimeKind) (metadata : Metadata) (name : String) (result : Check)
    (after : R.State) : Prop :=
  ∃ c, R.stop before kind metadata name c = some (after, result)

end Runtime

abbrev Running := RuntimeKind → WorkloadId → Bool

def Running.set (running : Running) (kind : RuntimeKind) (id : WorkloadId) (value : Bool) : Running :=
  fun k i => if k = kind ∧ i = id then value else running k i

/-- How a call to a host's runtimes goes. A call that fails may have done
its work all the same. -/
structure Outcome where
  ok : Bool := true
  landed : Bool := false
  status : String := "running"
deriving DecidableEq

/-- Runtimes seen from outside: a deploy makes the workload run, a stop ends
it, and a call that fails without landing leaves things as they were. -/
def instanceRuntime : Runtime where
  State := Running
  Choice := Outcome
  deploy running metadata workload outcome :=
    let started := running.set workload.runtime (workloadId metadata workload.name) true
    if outcome.ok then some (started, .ok ())
    else some (if outcome.landed then started else running, .fail "runtime deploy failed")
  stop running kind metadata name outcome :=
    let ended := running.set kind (workloadId metadata name) false
    if outcome.ok then some (ended, .ok ())
    else some (if outcome.landed then ended else running, .fail "runtime stop failed")
  status _ _ _ _ outcome :=
    if outcome.ok then some (.ok outcome.status) else some (.error (.errorf "runtime status failed"))

variable (running : Running) (kind : RuntimeKind)

@[simp] theorem Running.set_same (id : WorkloadId) (value : Bool) :
    running.set kind id value kind id = value := by
  simp [Running.set]

theorem Running.set_other {running : Running} {kind k : RuntimeKind} {id i : WorkloadId} {value : Bool}
    (other : ¬ (k = kind ∧ i = id)) : running.set kind id value k i = running k i := by
  simp [Running.set, other]

@[simp] theorem Running.set_current (id : WorkloadId) :
    running.set kind id (running kind id) = running := by
  funext k i
  unfold Running.set
  split
  · rename_i here
    rw [here.1, here.2]
  · rfl

@[simp] theorem Running.set_set (id : WorkloadId) (a b : Bool) :
    (running.set kind id a).set kind id b = running.set kind id b := by
  funext k i
  unfold Running.set
  split <;> rfl

end Orch
