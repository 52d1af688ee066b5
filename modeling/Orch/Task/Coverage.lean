import Orch.Task.Progress
import Orch.Task.Wards

namespace Orch

open Effect

/-- Documents that have passed the checks of a service, and are told apart by
their generations. -/
structure Catalogue (docs : App → Prop) : Prop where
  valid : ∀ app, docs app → ∃ sorter, app.validate sorter = .ok ()
  distinct : ∀ a b, docs a → docs b → appGeneration a = appGeneration b → a = b

namespace Catalogue

variable {docs : App → Prop} {app other : App} {workload v : Workload}

theorem proper (catalogue : Catalogue docs) (known : docs app) (member : workload ∈ app.workloads) :
    Proper app.metadata workload := by
  obtain ⟨sorter, valid⟩ := catalogue.valid app known
  exact proper_of_validate valid member

theorem workload_unique (catalogue : Catalogue docs) (known : docs app) (too : docs other) (member : workload ∈ app.workloads)
    (inside : v ∈ other.workloads) (generations : appGeneration other = appGeneration app)
    (keys : assignmentKey other.metadata v.name = assignmentKey app.metadata workload.name) : v = workload := by
  obtain rfl := catalogue.distinct other app too known generations
  obtain ⟨sorter, valid⟩ := catalogue.valid other known
  exact workload_unique_of_validate valid member inside keys

end Catalogue

variable {d : Ward}

namespace Ward

/-- A workload that runs is watched if it has a probe, or its startup probe,
the only one it has, has already passed. -/
structure Guarded (docs : App → Prop) (passed : String → Workload → Prop) (key : String) (d : Ward) (a : Assignment) : Prop where
  dated : trimSpace a.generation ≠ ""
  watched : ∀ app workload, docs app → workload ∈ app.workloads → assignmentKey app.metadata workload.name = key →
    appGeneration app = trimSpace a.generation → workloadHasBackgroundHealth workload = true →
      (∃ target, d.monitors (trimSpace a.node) = some target ∧ target.workload.health = workload.health) ∨
        workloadLivenessProbe workload = none ∧ passed (trimSpace a.node) workload

def Covered (docs : App → Prop) (passed : String → Workload → Prop) (key : String) (d : Ward) : Prop :=
  ∀ a, d.current = some a → a.status = .running → Guarded docs passed key d a

theorem Covered.congr {docs : App → Prop} {passed : String → Workload → Prop} {key : String} {d e : Ward}
    (covered : d.Covered docs passed key) (current : e.current = d.current) (monitors : e.monitors = d.monitors) :
    e.Covered docs passed key := by
  intro a found running
  obtain ⟨dated, watched⟩ := covered a (current ▸ found) running
  exact ⟨dated, monitors ▸ watched⟩

theorem covered_of_current {docs : App → Prop} {passed : String → Workload → Prop} {key : String} {a : Assignment}
    (current : d.current = some a) (ended : a.status ≠ .running) : d.Covered docs passed key := by
  intro b found running
  cases current.symm.trans found
  exact absurd running ended

end Ward

variable {node : String} {status : AssignmentStatus}

section Covers

variable {key : String} {svc : Service} {docs : App → Prop} {passed : String → Workload → Prop} {step : Steps TaskSig Ward}
variable (within : ∀ {d op answer e}, step d op answer e → Ward.Step key svc d op answer e)
include within

theorem Ward.lasting (holds : Ward → Prop) : Lasting step anything holds := by
  intro d op held idle
  refine ⟨trivial, ?_⟩
  intro answer e taken
  obtain rfl := (within taken).local.idle idle
  exact held

variable {app : App} {workload : Workload} {ctx : Ctx} {generation : String}

/-- Something holds of the workload at hand, and all others are covered. -/
def Ward.Open (docs : App → Prop) (passed : String → Workload → Prop) (key : String) (metadata : Metadata)
    (workload : Workload) (own : Ward → Prop) (d : Ward) : Prop :=
  (assignmentKey metadata workload.name = key → own d) ∧
    (assignmentKey metadata workload.name ≠ key → d.Covered docs passed key)

theorem recording_ward {metadata : Metadata} {node address : String} {error : Option Failure}
    {result : Check} {d e : Ward} (proper : Proper metadata workload) (accepted : result = .ok ())
    (taken : step d (recording ctx metadata workload node status generation error address) result e) :
    e = if assignmentKey metadata workload.name = key then
      { d with current := some (assignmentRecord metadata workload node status generation error address
          (artifactSummary workload.run)) } else d := by
  obtain ⟨recorded, -⟩ := within taken
  rw [recorded accepted, Ward.record, normalizeAssignment_record proper.named proper.present]
  rfl

variable {own : Ward → Prop}

theorem stopHealthMonitor_ward {metadata : Metadata} (held : Ward.Open docs passed key metadata workload
      (fun d => ∀ node, own { d with monitors := Function.update d.monitors node none }) d) :
    Ensures step anything (fun _ => Ward.Open docs passed key metadata workload own)
      (ask (.stopHealthMonitor (assignmentKey metadata workload.name))) d := by
  refine ⟨trivial, ?_⟩
  rintro _ e taken
  obtain rfl : e = d.drop key svc.localNode (assignmentKey metadata workload.name) := within taken
  unfold Ward.drop
  by_cases mine : assignmentKey metadata workload.name = key
  · rw [if_pos mine]
    exact ⟨fun _ => held.1 mine _, fun other => absurd mine other⟩
  · rw [if_neg mine]
    exact ⟨fun own => absurd own mine, held.2⟩

theorem runtime_ward {op : TaskOp} {holds : Ward → Prop} (held : holds d)
    (runtime : ∀ {d answer e}, Ward.Step key svc d op answer e → e = d) :
    Ensures step anything (fun _ => holds) (ask op) d := by
  refine ⟨trivial, ?_⟩
  intro answer e taken
  obtain rfl := runtime (within taken)
  exact held

theorem stopWorkloadOnNode_open {metadata : Metadata} (own : Option Assignment → Prop)
    (proper : Proper metadata workload)
    (held : Ward.Open docs passed key metadata workload (fun d => own d.current) d) :
    Ensures step anything
      (fun _ => Ward.Open docs passed key metadata workload (fun d => own d.current))
      (stopWorkloadOnNode svc ctx metadata workload node) d := by
  have dropped : Ensures step anything
      (fun _ => Ward.Open docs passed key metadata workload (fun d => own d.current))
      (ask (.stopHealthMonitor (assignmentKey metadata workload.name))) d :=
    stopHealthMonitor_ward within ⟨fun mine _ => held.1 mine, held.2⟩
  have lasting (ok : Bool) := Ward.lasting within
    (Ward.Open docs passed key metadata workload (fun d => own d.current))
  refine stopWorkloadOnNode_walk proper lasting held (fun _ _ => ?_) (fun _ => dropped)
    (fun t _ held => runtime_ward within held fun taken => taken)
  refine ⟨trivial, ?_⟩
  intro answer e taken
  have near : Ward.Near key (assignmentKey metadata workload.name) _ d e := within taken
  by_cases mine : assignmentKey metadata workload.name = key
  · refine ⟨fun _ => ?_, fun other => absurd mine other⟩
    change own e.current
    rw [near.current]
    exact held.1 mine
  · rw [near.other mine]
    exact held

omit within in
/-- A running record is covered once its monitor watches the node. -/
theorem Ward.covered_of_record {a : Assignment} (catalogue : Catalogue docs) (known : docs app)
    (member : workload ∈ app.workloads) (own : assignmentKey app.metadata workload.name = key) (current : d.current = some a)
    (placed : a.node = trimSpace node) (dated : a.generation = appGeneration app)
    (watched : workloadHasBackgroundHealth workload = true →
      ∃ target, d.monitors (trimSpace node) = some target ∧ target.workload.health = workload.health) :
    d.Covered docs passed key := by
  intro b found running
  cases current.symm.trans found
  refine ⟨by rw [dated, trimSpace_appGeneration]; exact appGeneration_ne_empty _, ?_⟩
  intro other v too inside keys generations background
  rw [dated, trimSpace_appGeneration] at generations
  obtain rfl := catalogue.workload_unique known too member inside generations (keys.trans own.symm)
  rw [placed, trimSpace_trimSpace]
  exact .inl (watched background)

variable (lands : ∀ {d ctx a result e}, step d (.apply ctx (.upsertWorkloadAssignment a)) result e → a.status ≠ .running →
  result = .ok ())
include lands

theorem recording_covers {node address : String} {error : Option Failure}
    (proper : Proper app.metadata workload) (ended : status ≠ .running)
    (held : Ward.Open docs passed key app.metadata workload own d) :
    Ensures step anything (fun _ e => e.Covered docs passed key)
      (ask (recording ctx app.metadata workload node status generation error address)) d := by
  refine ⟨trivial, ?_⟩
  intro result e taken
  have after := recording_ward within proper (lands taken ended) taken
  by_cases mine : assignmentKey app.metadata workload.name = key
  · rw [if_pos mine] at after
    subst after
    exact Ward.covered_of_current rfl ended
  · rw [if_neg mine] at after
    exact after ▸ held.2 mine

theorem recordDeployFailure_covers {err : Failure} (proper : Proper app.metadata workload)
    (held : Ward.Open docs passed key app.metadata workload
      (fun d => ∀ a, d.current = some a → assignmentConvergedOnDifferentNode a node generation = false) d) :
    Ensures step anything (fun _ e => e.Covered docs passed key)
      (recordDeployFailure ctx app workload node generation err) d := by
  have dropped : Ensures step anything
      (fun _ => Ward.Open docs passed key app.metadata workload
        (fun d => ∀ a, d.current = some a → assignmentConvergedOnDifferentNode a node generation = false))
      (ask (.stopHealthMonitor (assignmentKey app.metadata workload.name))) d :=
    stopHealthMonitor_ward within ⟨fun own _ => held.1 own, held.2⟩
  refine recordDeployFailure_walk (fun _ => True) proper (Ward.lasting within _) (Ward.lasting within _) dropped ?_
    (fun t held => recording_covers within lands proper (by decide) held) (fun _ _ => trivial) ?_
  · intro t a u held taken elsewhere
    obtain ⟨read, same⟩ := within taken
    obtain rfl : u = t := same
    by_cases mine : assignmentKey app.metadata workload.name = key
    · have found := (read (by rw [trimSpace_assignmentKey, mine])).symm
      cases (held.1 mine a found).symm.trans elsewhere
    · exact held.2 mine
  · intro t ctx doc covered _
    refine ⟨trivial, ?_⟩
    intro result u taken
    obtain ⟨current, monitors⟩ := within taken
    exact covered.congr current monitors

variable (catalogue : Catalogue docs) (known : docs app) (member : workload ∈ app.workloads)
include catalogue known member

omit within lands catalogue known member in
/-- The workload has been assigned to a node and has not been started yet. -/
def Ward.Assigned (node : String) (d : Ward) : Prop :=
  ∃ a, d.current = some a ∧ a.status = .assigned ∧ a.node = trimSpace node

omit within lands catalogue known member in
/-- The workload is watched on a node, if it has a probe and that node is not
this one. -/
def Ward.WatchedAway (svc : Service) (workload : Workload) (node : String) (d : Ward) : Prop :=
  node ≠ svc.localNode → workloadHasBackgroundHealth workload = true →
    ∃ target, d.monitors (trimSpace node) = some target ∧ target.workload.health = workload.health

theorem assigns_ward
    (held : Ward.Open docs passed key app.metadata workload own d) :
    Ensures step anything
      (fun _ => Ward.Open docs passed key app.metadata workload (Ward.Assigned node))
      (ask (recording ctx app.metadata workload node .assigned (appGeneration app) none "")) d := by
  refine ⟨trivial, ?_⟩
  intro result e taken
  have after := recording_ward within (catalogue.proper known member)
    (lands taken (by decide : AssignmentStatus.assigned ≠ .running)) taken
  by_cases mine : assignmentKey app.metadata workload.name = key
  · rw [if_pos mine] at after
    subst after
    exact ⟨fun _ => ⟨_, rfl, rfl, rfl⟩, fun other => absurd mine other⟩
  · rw [if_neg mine] at after
    exact after ▸ ⟨fun own => absurd own mine, held.2⟩

omit lands catalogue known member in
theorem dispatches_ward
    (held : Ward.Open docs passed key app.metadata workload (Ward.Assigned node) d) :
    Ensures step anything (fun result => match result with
        | .ok _ => Ward.Open docs passed key app.metadata workload
            (Ward.WatchedAway svc workload node)
        | .error _ => Ward.Open docs passed key app.metadata workload (Ward.Assigned node))
      (ask (.dispatchWorkload ctx node app.metadata workload)) d := by
  refine ⟨trivial, ?_⟩
  intro result e taken
  obtain ⟨near, watched⟩ := within taken
  by_cases mine : assignmentKey app.metadata workload.name = key
  · cases result with
    | ok reply => exact ⟨fun _ _ background => watched reply rfl mine background, fun other => absurd mine other⟩
    | error err =>
      refine ⟨fun _ => ?_, fun other => absurd mine other⟩
      obtain ⟨a, current, status⟩ := held.1 mine
      exact ⟨a, near.current.trans current, status⟩
  · rw [near.other mine]
    cases result with
    | ok reply => exact ⟨fun own => absurd own mine, held.2⟩
    | error err => exact ⟨fun own => absurd own mine, held.2⟩

omit lands in
theorem runs_ward (recorded : ∀ {d : Ward} {monitors}, own d → own { d with monitors })
    (held : Ward.Open docs passed key app.metadata workload own d) :
    Ensures step anything (fun result e => match result with
        | .ok ran => ran.status = .running ∧ e = d ∧ ∃ t, step d (.runtimeDeploy ctx app.metadata workload) (.ok ()) t
        | .error _ => Ward.Open docs passed key app.metadata workload own e)
      (runLocalWorkload ctx app.metadata workload node) d := by
  have dropped (t : Ward) (started : t = d ∧ ∃ t, step d (.runtimeDeploy ctx app.metadata workload) (.ok ()) t) :
      Ensures step anything
        (fun _ => Ward.Open docs passed key app.metadata workload own)
        (ask (.stopHealthMonitor (assignmentKey app.metadata workload.name))) t := by
    obtain ⟨rfl, -⟩ := started
    exact stopHealthMonitor_ward within ⟨fun mine _ => recorded (held.1 mine), held.2⟩
  refine runLocalWorkload_walk (catalogue.proper known member) (Ward.lasting within _) (Ward.lasting within _)
    ⟨trivial, ?_⟩ dropped (fun t held => runtime_ward within held fun taken => taken)
  rintro (err | _) e taken
  · obtain rfl : e = d := within taken
    exact held
  · exact ⟨within taken, e, taken⟩

end Covers

section Deploys

variable {key : String} {svc : Service} {docs : App → Prop} {passed : String → Workload → Prop} {step : Steps TaskSig Ward}
variable {app : App} {workload : Workload} {ctx : Ctx}
variable (within : ∀ {d op answer e}, step d op answer e → Ward.Step key svc d op answer e)
variable (accepts : ∀ {d ctx a result e}, step d (.apply ctx (.upsertWorkloadAssignment a)) result e → result = .ok ())
variable (catalogue : Catalogue docs) (known : docs app) (member : workload ∈ app.workloads)
include within accepts catalogue known member

theorem records_ward {node address : String} {watched : Ward → Prop}
    (unmoved : ∀ {d : Ward} {current}, watched d → watched { d with current })
    (held : Ward.Open docs passed key app.metadata workload watched d) :
    Ensures step anything
      (fun _ => Ward.Open docs passed key app.metadata workload (fun e =>
        (∃ a, e.current = some a ∧ a.node = trimSpace node ∧ a.generation = appGeneration app) ∧ watched e))
      (ask (recording ctx app.metadata workload node status (appGeneration app) none address)) d := by
  refine ⟨trivial, ?_⟩
  intro result e taken
  have after := recording_ward within (catalogue.proper known member) (accepts taken) taken
  by_cases mine : assignmentKey app.metadata workload.name = key
  · rw [if_pos mine] at after
    subst after
    exact ⟨fun _ => ⟨⟨_, rfl, rfl, trimSpace_appGeneration app⟩, unmoved (held.1 mine)⟩, fun other => absurd mine other⟩
  · rw [if_neg mine] at after
    exact after ▸ ⟨fun own => absurd own mine, held.2⟩

theorem placeWorkload_placing : Placing step anything svc app workload (appGeneration app)
    (Ward.Open docs passed key app.metadata workload (fun _ => True)) (Ward.Covered docs passed key)
    (fun node => Ward.Open docs passed key app.metadata workload (Ward.Assigned node))
    (fun node => Ward.Open docs passed key app.metadata workload (Ward.Assigned node))
    (fun node _ => Ward.Open docs passed key app.metadata workload (Ward.WatchedAway svc workload node))
    (fun node => Ward.Open docs passed key app.metadata workload (fun e =>
      (∃ a, e.current = some a ∧ a.node = trimSpace node ∧ a.generation = appGeneration app) ∧
        Ward.WatchedAway svc workload node e)) where
  proper := catalogue.proper known member
  waits := Ward.lasting within _
  ends := Ward.lasting within _
  lives _ _ := Ward.lasting within _
  stays _ := Ward.lasting within _
  unplaced {ctx err t} held := recordDeployFailure_covers within (fun taken _ => accepts taken) (catalogue.proper known member)
    ⟨fun _ a _ => not_convergedOnDifferentNode (.inl (by decide +kernel)), held.2⟩
  assigns {ctx node t} held := assigns_ward within (fun taken _ => accepts taken) catalogue known member held
  refused _ held := held
  sends {ctx node t} away held := (dispatches_ward within held).mono fun result e after => by
    cases result <;> exact after
  runs {ctx t} held := by
    refine (runs_ward within catalogue known member (fun assigned => assigned) held).mono ?_
    rintro (err | ran) e after
    · exact after
    · exact after.2.1 ▸ ⟨fun _ remote => absurd rfl remote, held.2⟩
  fails {ctx node err t} held := by
    refine recordDeployFailure_covers within (fun taken _ => accepts taken) (catalogue.proper known member) ⟨fun own => ?_, held.2⟩
    obtain ⟨a, current, -, placed⟩ := held.1 own
    intro b found
    cases current.symm.trans found
    exact not_convergedOnDifferentNode (.inr (by rw [placed, trimSpace_trimSpace]))
  records {ctx node status address t} held := records_ward within accepts catalogue known member (fun watched => watched) held
  away {node t} remote held := by
    by_cases mine : assignmentKey app.metadata workload.name = key
    · obtain ⟨⟨a, current, placed, dated⟩, watched⟩ := held.1 mine
      exact Ward.covered_of_record catalogue known member mine current placed dated (watched remote)
    · exact held.2 mine
  unwatched {t} plain held := by
    by_cases mine : assignmentKey app.metadata workload.name = key
    · obtain ⟨⟨a, current, placed, dated⟩, -⟩ := held.1 mine
      refine Ward.covered_of_record catalogue known member mine current placed dated fun background => ?_
      cases plain.symm.trans background
    · exact held.2 mine
  watches {address t} _ held := by
    refine ⟨trivial, ?_⟩
    intro runID e taken
    obtain rfl : e = t.register key svc.localNode _ := within taken
    unfold Ward.register
    by_cases mine : assignmentKey app.metadata workload.name = key
    · rw [if_pos (by exact mine)]
      obtain ⟨⟨a, current, placed, dated⟩, -⟩ := held.1 mine
      refine Ward.covered_of_record catalogue known member mine current placed dated fun _ => ?_
      rw [svc.trimmed]
      exact ⟨_, Function.update_self .., rfl⟩
    · rw [if_neg (by exact mine)]
      exact held.2 mine

/-- Deploying any workload leaves the one at hand covered. -/
theorem deployOneWorkload_covers {opts : DeployOptions} (covered : d.Covered docs passed key) :
    Ensures step anything (fun _ e => e.Covered docs passed key)
      (deployOneWorkload svc ctx app (appGeneration app) opts workload) d := by
  let seen (a : Assignment) (d : Ward) : Prop :=
    d.Covered docs passed key ∧ (assignmentKey app.metadata workload.name = key → d.current = some a)
  have deploying : Deploying step anything svc app workload (appGeneration app) opts (Ward.Covered docs passed key)
      (Ward.Open docs passed key app.metadata workload (fun _ => True)) (Ward.Covered docs passed key) seen seen
      (fun a => Ward.Open docs passed key app.metadata workload (fun d => d.current = some a)) :=
    { waits := Ward.lasting within _
      looks := fun _ => Ward.lasting within _
      holds := fun _ => Ward.lasting within _
      reads := fun covered => by
        refine ⟨trivial, ?_⟩
        intro found e taken
        obtain ⟨read, same⟩ := within taken
        obtain rfl := same
        cases found with
        | none => exact ⟨fun _ => trivial, fun _ => covered⟩
        | some a => exact ⟨covered, fun mine => (read (by rw [trimSpace_assignmentKey, mine])).symm⟩
      settled := fun seen => seen.1
      fresh := fun seen _ _ _ => seen
      retries := fun seen _ _ => by
        refine ⟨trivial, ?_⟩
        intro allowed e taken
        obtain rfl := within taken
        cases allowed
        · exact seen.1
        · exact seen
      leaves := fun tries => tries.1
      goes := fun tries _ => ⟨fun _ => trivial, fun _ => tries.1⟩
      stops := fun {ctx a t} tries _ _ _ => by
        refine (stopWorkloadOnNode_open within (· = some a) (catalogue.proper known member)
          ⟨tries.2, fun _ => tries.1⟩).mono ?_
        rintro (err | _) e after
        · exact after
        · exact ⟨fun _ => trivial, after.2⟩
      fails := fun {ctx a err t} stuck => by
        refine recordDeployFailure_covers within (fun taken _ => accepts taken) (catalogue.proper known member)
          ⟨fun mine b found => ?_, stuck.2⟩
        cases (stuck.1 mine).symm.trans found
        exact not_convergedOnDifferentNode (.inr (by rw [trimSpace_trimSpace])) }
  exact deploying.walk (placeWorkload_placing within accepts catalogue known member) covered

theorem stopMovePlan_covers {operation : Operation} {plan : PlannedWorkloadMove} (own : plan.workload = workload)
    (covered : d.Covered docs passed key) :
    Ensures step anything (fun _ e => e.Covered docs passed key)
      (stopMovePlan svc ctx app operation (appGeneration app) plan) d := by
  have skips : Idle (skipMoveStop app operation plan) := by
    unfold skipMoveStop
    split
    · trivial
    split
    · trivial
    · exact asks_bind (workloadAssignment_idle _ _) fun _ => trivial
  subst own
  rw [stopMovePlan]
  refine (Ward.lasting within (Ward.Covered docs passed key)).then skips covered ?_
  rintro (_ | _) t covered
  · rw [ensures_bind, stopWorkload]
    have stopped : Ensures step anything
        (fun _ => Ward.Open docs passed key app.metadata plan.workload (fun _ => True))
        (stopTargetNode svc app.metadata plan.workload.name >>= stopWorkloadOnNode svc ctx app.metadata plan.workload) t := by
      refine (Ward.lasting within (Ward.Covered docs passed key)).then stopTargetNode_reads.idle covered fun node t covered => ?_
      exact stopWorkloadOnNode_open within (fun _ => True) (catalogue.proper known member)
        ⟨fun _ => trivial, fun _ => covered⟩
    refine stopped.mono ?_
    rintro (err | _) u held
    · refine (recordWorkload_walk (catalogue.proper known member) (Ward.lasting within (Ward.Covered docs passed key))
        (recording_covers within (fun taken _ => accepts taken) (catalogue.proper known member) (by decide) held)).bind ?_
      intro _ e covered
      split <;> exact covered
    · rw [ensures_bind]
      exact (recordWorkload_walk (catalogue.proper known member) (Ward.lasting within (Ward.Covered docs passed key))
        (recording_covers within (fun taken _ => accepts taken) (catalogue.proper known member) (by decide) held)).mono
          fun _ _ covered => covered
  · exact covered

/-- So does starting a moved workload. -/
theorem startMovePlan_covers {plan : PlannedWorkloadMove}
    (bare : ∀ {d ctx metadata w result e}, step d (.runtimeDeploy ctx metadata w) result e →
      workloadHasBackgroundHealth w = false) (own : plan.workload = workload) (covered : d.Covered docs passed key) :
    Ensures step anything (fun _ e => e.Covered docs passed key)
      (startMovePlan svc ctx app (appGeneration app) plan) d := by
  subst own
  have proper := catalogue.proper known member
  have failing {t : Ward} {own : Ward → Prop} {err : Failure}
      (held : Ward.Open docs passed key app.metadata plan.workload own t) :
      Ensures step anything (fun _ e => e.Covered docs passed key) (do
        recordWorkload ctx app plan.workload plan.target .failed .failed (appGeneration app) (some err)
        return (.error err : Check)) t := by
    exact (recordWorkload_walk proper (Ward.lasting within (Ward.Covered docs passed key))
      (recording_covers within (fun taken _ => accepts taken) proper (by decide) held)).bind fun _ _ covered => covered
  have running {t : Ward} {ran : WorkloadRunResult}
      (held : Ward.Open docs passed key app.metadata plan.workload (fun d =>
        workloadHasBackgroundHealth plan.workload = true → ∃ target, d.monitors (trimSpace plan.target) = some target ∧
          target.workload.health = plan.workload.health) t) :
      Ensures step anything (fun _ e => e.Covered docs passed key) (do
        recordWorkload ctx app plan.workload plan.target ran.status .bound (appGeneration app) none ran.address
        return (.ok () : Check)) t := by
    refine (recordWorkload_walk proper (Ward.lasting within _)
      (records_ward within accepts catalogue known member (fun watched => watched) held)).bind ?_
    intro _ e after
    by_cases mine : assignmentKey app.metadata plan.workload.name = key
    · obtain ⟨⟨a, current, placed, dated⟩, watched⟩ := after.1 mine
      exact Ward.covered_of_record catalogue known member mine current placed dated watched
    · exact after.2 mine
  refine (applyWorkloadAssignment_walk proper (assigns_ward within (fun taken _ => accepts taken) catalogue known member
    ⟨fun _ => covered, fun _ => covered⟩)).bind ?_
  intro _ t held
  rw [ensures_bind, runWorkloadOnNode]
  dsimp only
  split
  · exact failing held
  split
  · refine (runs_ward within catalogue known member (fun assigned => assigned) held).mono ?_
    rintro (err | ran) e after
    · exact failing after
    · obtain ⟨-, rfl, _, deployed⟩ := after
      refine running ⟨fun _ background => ?_, held.2⟩
      cases (bare deployed).symm.trans background
  rename_i named remote
  unfold dispatchWorkload
  split
  · exact failing held
  rw [ensures_bind, ensures_bind]
  have held' : Ward.Open docs passed key app.metadata plan.workload
      (Ward.Assigned (trimSpace plan.target)) t := by
    refine ⟨fun mine => ?_, held.2⟩
    obtain ⟨a, current, status, placed⟩ := held.1 mine
    exact ⟨a, current, status, by rw [placed, trimSpace_trimSpace]⟩
  refine (dispatches_ward within held').mono ?_
  rintro (err | reply) e after
  · exact failing after
  refine (Ward.lasting within _).then (asks_perform rfl) after fun _ u after => ?_
  refine running ⟨fun mine background => ?_, after.2⟩
  have watched := after.1 mine remote background
  rwa [trimSpace_trimSpace] at watched

end Deploys

section Recoveries

variable {key : String} {svc : Service} {docs : App → Prop} {passed : String → Workload → Prop} {step : Steps TaskSig Ward}
variable {app : App} {workload : Workload} {ctx : Ctx}
variable (within : ∀ {d op answer e}, step d op answer e → Ward.Step key svc d op answer e)
variable (lands : ∀ {d ctx a result e}, step d (.apply ctx (.upsertWorkloadAssignment a)) result e → a.status ≠ .running →
  result = .ok ())
include within lands

/-- So does recovering any. -/
theorem recoverWorkloadFailure_covers (catalogue : Catalogue docs) (known : docs app)
    (member : workload ∈ app.workloads) (covered : d.Covered docs passed key) :
    Ensures step anything (fun _ e => e.Covered docs passed key)
      (recoverWorkloadFailure ctx app workload svc.localNode (appGeneration app)) d := by
  have proper := catalogue.proper known member
  let running (a : Assignment) (d : Ward) : Prop := d.Covered docs passed key ∧
    RunsHere svc.localNode (appGeneration app) a ∧ (assignmentKey app.metadata workload.name = key → d.current = some a)
  have recovering : Recovering step anything app workload svc.localNode (appGeneration app)
      (Ward.Covered docs passed key) (Ward.Covered docs passed key)
      running running running
      (fun _ => Ward.Open docs passed key app.metadata workload (fun _ => True)) :=
    { proper
      looks := fun _ => Ward.lasting within _
      holds := fun _ => Ward.lasting within _
      reads := fun covered => by
        refine ⟨trivial, ?_⟩
        intro found e taken
        obtain ⟨read, same⟩ := within taken
        obtain rfl := same
        refine ⟨covered, ?_⟩
        rintro a rfl here
        exact ⟨covered, here, fun mine => (read (by rw [trimSpace_assignmentKey, mine])).symm⟩
      settled := fun seen => seen.1
      takes := fun seen _ => by
        refine ⟨trivial, ?_⟩
        intro allowed e taken
        obtain rfl := within taken
        cases allowed
        · exact seen.1
        · exact seen
      leaves := fun granted => granted.1
      runs := fun {ctx a t} granted => by
        have held : Ward.Open docs passed key app.metadata workload (fun _ => True) t :=
          ⟨fun _ => trivial, fun _ => granted.1⟩
        refine (runs_ward within catalogue known member (fun _ => trivial) held).mono ?_
        rintro (err | ran) e after
        · exact after
        · exact ⟨after.1, after.2.1 ▸ granted⟩
      records := fun {ctx a address t} started => by
        refine ⟨trivial, ?_⟩
        intro result e taken
        obtain ⟨-, either⟩ := within taken
        rcases either with same | recorded
        · exact same ▸ started.1
        rw [Ward.record, normalizeAssignment_record proper.named proper.present] at recorded
        dsimp only at recorded
        by_cases mine : assignmentKey app.metadata workload.name = key
        · rw [if_pos (by exact mine)] at recorded
          obtain ⟨covered, here, current⟩ := started
          obtain ⟨dated, watched⟩ := covered a (current mine) here.running
          have generation := here.current.resolve_left dated
          subst recorded
          intro b found running
          cases found
          refine ⟨?_, ?_⟩
          · change trimSpace (trimSpace (appGeneration app)) ≠ ""
            rw [trimSpace_trimSpace, ← generation]
            exact dated
          · intro other v too inside keys generations background
            change appGeneration other = trimSpace (trimSpace (appGeneration app)) at generations
            rw [trimSpace_trimSpace, ← generation] at generations
            change (∃ target, t.monitors (trimSpace (trimSpace (trimSpace a.node))) = some target ∧ _) ∨
              _ ∧ passed (trimSpace (trimSpace (trimSpace a.node))) v
            rw [trimSpace_trimSpace, trimSpace_trimSpace]
            exact watched other v too inside keys generations background
        · rw [if_neg (by exact mine)] at recorded
          exact recorded ▸ started.1
      fails := fun {ctx a err t} failed => recording_covers within lands proper (by decide) failed }
  exact recovering.walk covered

end Recoveries

/-- What happens to a cluster at the hands of its services. -/
inductive Deed where
  | submit (ctx : Ctx) (app : App)
  | pass (ctx : Ctx)
  | move (ctx : Ctx) (operation : MoveOp)
  | recover (ctx : Ctx)

namespace Deed

def program (svc : Service) : Deed → Task Unit
  | .submit ctx app => do let _ ← submitDeploy svc ctx app
  | .pass ctx => reconcileAll svc ctx
  | .move ctx operation => do let _ ← operation.program svc ctx
  | .recover ctx => do let _ ← recoverLocalFailures svc ctx

/-- What must not go wrong for a deed to leave every workload covered. Raft
accepts what passes and moves record of workloads, and what a scan records
unless it is that a workload runs. And a move starts no workload with a probe
on the node that carries it out. -/
def smooth : Deed → (op : TaskOp) → op.Answer → Bool
  | .submit _ _, _, _ => true
  | .pass _, .apply _ (.upsertWorkloadAssignment _), result => result.isOk
  | .move _ _, .apply _ (.upsertWorkloadAssignment _), result => result.isOk
  | .move _ _, .runtimeDeploy _ _ w, _ => !workloadHasBackgroundHealth w
  | .recover _, .apply _ (.upsertWorkloadAssignment a), result => result.isOk || a.status = .running
  | _, _, _ => true

theorem covers {docs : App → Prop} {passed : String → Workload → Prop} {key : String} {svc : Service} {deed : Deed}
    (catalogue : Catalogue docs) (known : ∀ app ∈ d.desired, docs app) (covered : d.Covered docs passed key) :
    Ensures (Assuming (Ward.Step key svc) deed.smooth) anything (fun _ e => e.Covered docs passed key)
      (deed.program svc) d := by
  have within {d : Ward} {op : TaskOp} {answer : op.Answer} {e : Ward}
      (taken : Assuming (Ward.Step key svc) deed.smooth d op answer e) : Ward.Step key svc d op answer e := taken.1
  have listed {apps : List App} {e : Ward}
      (taken : Assuming (Ward.Step key svc) deed.smooth d .listDesiredDeployApps apps e) : ∀ app ∈ apps, docs app := by
    intro app member
    exact known app ((within taken).1.mem_iff.mp member)
  cases deed with
  | submit ctx app =>
    have submits : (submitDeploy svc ctx app).Asks fun op : TaskOp =>
        op.idle = true ∨ ∃ ctx doc, op = .apply ctx (.upsertDeployApp doc) := by
      unfold submitDeploy
      split
      · trivial
      refine asks_bind (preflightDeploy_reads.idle.mono fun _ => .inl) ?_
      rintro (err | _)
      · trivial
      refine asks_then (.inr ⟨_, _, rfl⟩) ?_
      rintro (err | _) <;> trivial
    rw [program, ensures_bind]
    refine submits.keeps ?_ covered
    rintro d op answer e covered (idle | ⟨ctx, doc, rfl⟩) taken
    · obtain rfl := (within taken).local.idle idle
      exact covered
    · obtain ⟨current, monitors⟩ := within taken
      exact covered.congr current monitors
  | pass ctx =>
    refine reconcileAll_walk docs (Ward.lasting within _) listed ?_ covered
    intro app known w member _ t covered
    exact deployOneWorkload_covers within (fun taken => Check.isOk_iff.mp taken.2) catalogue known member covered
  | move ctx operation =>
    rw [program, ensures_bind]
    refine operation.walk docs (Ward.lasting within (Ward.Covered docs passed key)) ?_ ?_ covered
    · intro metadata app e taken
      exact known app ((within taken).1 app rfl).1
    intro operation app workloads targetFor t known subset targets covered
    refine moveAppWorkloads_walk (Ward.lasting within _) targets ?_ ?_ covered
    · intro plan member u covered
      exact stopMovePlan_covers within (fun taken => Check.isOk_iff.mp taken.2) catalogue known (subset _ member) rfl covered
    · intro plan member u covered
      refine startMovePlan_covers within (fun taken => Check.isOk_iff.mp taken.2) catalogue known (subset _ member) ?_ rfl
        covered
      intro _ _ _ w _ _ taken
      simpa [smooth] using taken.2
  | recover ctx =>
    refine (recoverLocalFailures_walk docs (Ward.lasting within _) listed ?_ covered).bind fun _ _ covered => covered
    intro app known w member t covered
    refine recoverWorkloadFailure_covers within ?_ catalogue known member covered
    intro _ _ a result _ taken ended
    have landed := taken.2
    simp only [smooth, Bool.or_eq_true, decide_eq_true_eq] at landed
    exact Check.isOk_iff.mp (landed.resolve_right ended)

end Deed

end Orch
