import Orch.Task.Restarts

namespace Orch

open Effect

theorem Counted.Keeps.decoded {c : Counted} {app : App} (kept : c.Keeps app) (stored : c.doc.decoded = c.doc) :
    c.Keeps app.decoded := by
  obtain ⟨⟨sorter, valid⟩, own⟩ := kept
  refine ⟨⟨sorter, (App.validate_decoded app sorter).trans valid⟩, ?_⟩
  rcases own with rfl | other
  · exact .inl stored
  · refine .inr fun w member => ?_
    obtain ⟨v, inside, rfl⟩ := List.mem_map.mp member
    exact other v inside

variable {status : AssignmentStatus} {error : Option Failure} {node address : String}

namespace Meter

variable {c : Counted} {svc : Service} {i j : Actor} {d e f : Meter}

def Keyed (c : Counted) (d : Meter) : Prop := ∀ a, d.current = some a → a.key = c.key

/-- What a goroutine can rely on while the others act: its credit is its own, and
no one but the reconcile loop unsettles the workload. -/
structure Rely (c : Counted) (i : Actor) (d e : Meter) : Prop where
  sound : d.sound → e.sound
  launched : d.launched → e.launched
  keyed : d.Keyed c → e.Keyed c
  credit : e.tally.credit i = d.tally.credit i
  settled : i = .reconcile → e.current = d.current ∨ ∃ a, e.current = some a ∧ c.Settled a

theorem Rely.refl (d : Meter) : Rely c i d d := ⟨id, id, id, rfl, fun _ => .inl rfl⟩

theorem Rely.trans (first : Rely c i d e) (second : Rely c i e f) : Rely c i d f := by
  refine ⟨second.sound ∘ first.sound, second.launched ∘ first.launched, second.keyed ∘ first.keyed,
    second.credit.trans first.credit, ?_⟩
  intro loop
  rcases second.settled loop with same | settled
  · rw [same]
    exact first.settled loop
  · exact .inr settled

variable {op : TaskOp}

theorem note_credit {answer : op.Answer} {tally : Tally} (other : j ≠ i) :
    (tally.note c i op answer).credit j = tally.credit j := by
  cases op with
  | takeRestart k limit =>
    simp only [Tally.note]
    split
    · exact Function.update_of_ne other ..
    · rfl
  | runtimeDeploy ctx metadata w =>
    simp only [Tally.note]
    split
    · exact Function.update_of_ne other ..
    · rfl
  | _ => rfl

theorem record_keyed (keyed : d.Keyed c) (a : Assignment) : (d.record c.key a).Keyed c := by
  unfold record
  split
  · exact keyed
  split
  · rename_i own
    rintro b ⟨⟩
    exact own
  · exact keyed

/-- What one goroutine does is what the others rely on. -/
theorem rely_of_step {answer : op.Answer} (other : j ≠ i) (permitted : d.Permits c svc i op)
    (taken : Step c svc i d op answer e) : Rely c j d e := by
  obtain ⟨-, taken⟩ := taken
  cases op with
  | listDesiredDeployApps | getPreviousDeployApp | getWorkloadAssignment =>
    obtain ⟨-, rfl⟩ := taken
    exact .refl _
  | apply ctx command =>
    cases command with
    | upsertWorkloadAssignment a =>
      obtain rfl : e = d.record c.key a := taken
      refine ⟨?_, ?_, fun keyed => record_keyed keyed a, by rw [(record_tally ..).1], ?_⟩
      · unfold record
        split <;> [exact id; (split <;> exact id)]
      · unfold record
        split <;> [exact id; (split <;> exact id)]
      · rintro rfl
        have settles := permitted.resolve_left (Ne.symm other)
        unfold record
        split
        · exact .inl rfl
        rename_i b normal
        split
        · rename_i own
          exact .inr ⟨b, rfl, settles b normal own⟩
        · exact .inl rfl
    | upsertDeployApp app =>
      obtain ⟨sound, kept, rfl⟩ := taken
      exact ⟨fun before => kept before permitted, id, id, rfl, fun _ => .inl rfl⟩
    | deleteDeployApp metadata =>
      obtain ⟨sound, kept, rfl⟩ := taken
      exact ⟨kept, id, id, rfl, fun _ => .inl rfl⟩
    | _ =>
      obtain rfl : e = d := taken
      exact .refl _
  | registerHealthMonitor target =>
    obtain ⟨launched, kept, rfl⟩ := taken
    exact ⟨id, fun before => kept before permitted, id, rfl, fun _ => .inl rfl⟩
  | takeRestart k limit =>
    obtain ⟨attempts, rfl, -⟩ := taken
    exact ⟨id, id, id, note_credit other, fun _ => .inl rfl⟩
  | runtimeDeploy ctx metadata w =>
    obtain rfl : e = { d with tally := d.tally.note c i (.runtimeDeploy ctx metadata w) answer } := taken
    exact ⟨id, id, id, note_credit other, fun _ => .inl rfl⟩
  | dispatchWorkload ctx node metadata w | dispatchStop ctx node metadata w =>
    obtain ⟨-, rfl⟩ := taken permitted
    exact .refl _
  | _ =>
    obtain rfl : e = d := taken
    exact .refl _

abbrev Among (c : Counted) (svc : Service) (i : Actor) : Steps TaskSig Meter := Amid (Rely c i) (Step c svc i)

def Stable (c : Counted) (i : Actor) (holds : Meter → Prop) : Prop := ∀ {d e}, holds d → Rely c i d e → holds e

theorem ask_among {post : op.Answer → Meter → Prop} (stable : ∀ answer, Stable c i (post answer))
    (permitted : d.Permits c svc i op) (taken : ∀ answer e, Step c svc i d op answer e → post answer e) :
    Ensures (Among c svc i) (Permits c svc i) post (ask op) d := by
  refine ⟨permitted, ?_⟩
  rintro answer e ⟨t, step, moved⟩
  exact stable answer (taken answer t step) moved

theorem Step.idle {answer : op.Answer} (taken : Step c svc i d op answer e) (idle : op.idle = true) : e = d := by
  obtain ⟨-, taken⟩ := taken
  cases op with
  | listDesiredDeployApps | getPreviousDeployApp | getWorkloadAssignment => exact taken.2
  | apply ctx command =>
    cases command with
    | upsertNodeCapacity | upsertVolumeBinding => exact taken
    | _ => cases idle
  | registerHealthMonitor | takeRestart | runtimeDeploy | dispatchWorkload | dispatchStop => cases idle
  | _ => exact taken

theorem permits_of_idle (idle : op.idle = true) : d.Permits c svc i op := by
  cases op with
  | apply ctx command =>
    cases command with
    | upsertNodeCapacity | upsertVolumeBinding => trivial
    | _ => cases idle
  | registerHealthMonitor | runtimeDeploy | dispatchWorkload | dispatchStop => cases idle
  | _ => trivial

theorem Stable.lasting {holds : Meter → Prop} (stable : Stable c i holds) : Lasting (Among c svc i) (Permits c svc i) holds := by
  intro d op held idle
  refine ask_among (fun _ => stable) (permits_of_idle idle) ?_
  intro answer e taken
  obtain rfl := taken.idle idle
  exact held

/-- What does not depend on the assignment or the credit of a workload is not
touched by what is done for another one. -/
structure Near (i : Actor) (d e : Meter) : Prop where
  sound : d.sound → e.sound
  current : e.current = d.current
  credit : d.tally.credit i ≤ e.tally.credit i

def Foreign (c : Counted) : TaskOp → Prop
  | .runtimeDeploy _ metadata w => assignmentKey metadata w.name ≠ c.key
  | .apply _ (.upsertWorkloadAssignment a) => ∀ b, normalizeAssignment a = some b → b.key ≠ c.key
  | _ => True

/-- An action that is not about the workload leaves its counters alone. -/
theorem Step.near {answer : op.Answer} (taken : Step c svc i d op answer e) (permitted : d.Permits c svc i op)
    (foreign : Foreign c op) : Near i d e := by
  obtain ⟨-, taken⟩ := taken
  cases op with
  | listDesiredDeployApps | getPreviousDeployApp | getWorkloadAssignment =>
    obtain ⟨-, rfl⟩ := taken
    exact ⟨id, rfl, le_rfl⟩
  | apply ctx command =>
    cases command with
    | upsertWorkloadAssignment a =>
      obtain rfl : e = d.record c.key a := taken
      unfold record
      split
      · exact ⟨id, rfl, le_rfl⟩
      rename_i b normal
      rw [if_neg (foreign b normal)]
      exact ⟨id, rfl, le_rfl⟩
    | upsertDeployApp app =>
      obtain ⟨sound, kept, rfl⟩ := taken
      exact ⟨fun before => kept before permitted, rfl, le_rfl⟩
    | deleteDeployApp metadata =>
      obtain ⟨sound, kept, rfl⟩ := taken
      exact ⟨kept, rfl, le_rfl⟩
    | _ =>
      obtain rfl : e = d := taken
      exact ⟨id, rfl, le_rfl⟩
  | registerHealthMonitor target =>
    obtain ⟨launched, -, rfl⟩ := taken
    exact ⟨id, rfl, le_rfl⟩
  | takeRestart k limit =>
    obtain ⟨attempts, rfl, -⟩ := taken
    refine ⟨id, rfl, ?_⟩
    simp only [Tally.note]
    split
    · simp [Tally.grant]
    · exact le_rfl
  | runtimeDeploy ctx metadata w =>
    obtain rfl : e = { d with tally := d.tally.note c i (.runtimeDeploy ctx metadata w) answer } := taken
    simp only [Tally.note]
    rw [if_neg foreign]
    exact ⟨id, rfl, le_rfl⟩
  | dispatchWorkload ctx node metadata w | dispatchStop ctx node metadata w =>
    obtain ⟨-, rfl⟩ := taken permitted
    exact ⟨id, rfl, le_rfl⟩
  | _ =>
    obtain rfl : e = d := taken
    exact ⟨id, rfl, le_rfl⟩

section Foreign

variable {app : App} {workload : Workload} {ctx : Ctx} {generation : String} {holds : Meter → Prop}
variable (stable : Stable c i holds) (near : ∀ {d e}, holds d → Near i d e → holds e)
include stable near

theorem ask_foreign {op : TaskOp} (permitted : d.Permits c svc i op) (foreign : Foreign c op) (held : holds d) :
    Ensures (Among c svc i) (Permits c svc i) (fun _ => holds) (ask op) d :=
  ask_among (fun _ => stable) permitted fun _ _ taken => near held (taken.near permitted foreign)

omit stable near in
theorem revision_kept {metadata : Metadata} {revision : DeployAppRevision} (sound : ∀ {d}, holds d → d.sound) (held : holds d)
    (taken : Among c svc i d (.getPreviousDeployApp metadata) (some revision) e) : c.Keeps revision.app := by
  obtain ⟨t, ⟨-, kept, -⟩, -⟩ := taken
  exact kept (sound held) revision rfl

theorem filed_kept {doc : App} (stored : c.doc.decoded = c.doc) (held : holds d) (kept : c.Keeps doc) :
    Ensures (Among c svc i) (Permits c svc i) (fun _ => holds) (ask (.apply ctx (.upsertDeployApp doc))) d :=
  ask_foreign stable near (kept.decoded stored) trivial held

variable (proper : Proper app.metadata workload) (foreign : assignmentKey app.metadata workload.name ≠ c.key)
include proper foreign

theorem acting_foreign : Acting (Among c svc i) (Permits c svc i) svc app workload holds := by
  refine ⟨proper, stable.lasting, ?_⟩
  intro op d concerns held
  cases op with
  | apply ctx command =>
    cases command with
    | upsertWorkloadAssignment a =>
      have other (b : Assignment) (normal : normalizeAssignment a = some b) : b.key ≠ c.key := by
        obtain ⟨node, status, generation, error, address, rfl⟩ := concerns
        rw [normalizeAssignment_record proper.named proper.present] at normal
        cases normal
        exact foreign
      exact ask_foreign stable near (.inr fun b normal own => absurd own (other b normal)) other held
    | _ => exact concerns.elim
  | runtimeDeploy ctx metadata w =>
    obtain ⟨rfl, rfl⟩ := concerns
    exact ask_foreign stable near (fun own => absurd own foreign) foreign held
  | dispatchWorkload ctx node metadata w | dispatchStop ctx node metadata w =>
    exact ask_foreign stable near concerns.2.2 trivial held
  | registerHealthMonitor target =>
    obtain ⟨generation, address, rfl⟩ := concerns
    exact ask_foreign stable near ⟨proper, rfl, fun own => absurd own foreign⟩ trivial held
  | runtimeStop | stopHealthMonitor | takeRestart => exact ask_foreign stable near trivial trivial held
  | _ => exact concerns.elim

theorem keeping_foreign (sound : ∀ {d}, holds d → d.sound) (stored : c.doc.decoded = c.doc) :
    Keeping (Among c svc i) (Permits c svc i) svc app workload c.Keeps holds :=
  ⟨acting_foreign stable near proper foreign, fun held taken => revision_kept sound held taken,
    fun held kept => filed_kept stable near stored held kept⟩

end Foreign

/-- Between two workloads of a pass: the first start is still to be made, or the
last one has come to an end. -/
structure Rested (c : Counted) (d : Meter) : Prop where
  sound : d.sound
  first : d.current = none → 0 < d.tally.credit .reconcile
  settled : ∀ a, d.current = some a → c.Settled a

/-- A program of the reconcile loop after which the workload rests. -/
abbrev Rests (c : Counted) (svc : Service) {α : Type} (p : Task α) (d : Meter) : Prop :=
  Ensures (Among c svc .reconcile) (Permits c svc .reconcile) (fun _ => Rested c) p d

structure Ready (c : Counted) (d : Meter) : Prop where
  sound : d.sound
  left : 0 < d.tally.credit .reconcile
  settled : ∀ a, d.current = some a → c.Settled a

/-- The workload has been assigned to the node, and perhaps others have recorded
since how it went before. -/
structure Placed (c : Counted) (node : String) (d : Meter) : Prop where
  sound : d.sound
  placed : ∀ a, d.current = some a → c.Settled a ∨ a.status = .assigned ∧ trimSpace a.node = trimSpace node

theorem Rested.stable : Stable c .reconcile (Rested c) := by
  rintro d e ⟨sound, first, settled⟩ moved
  rcases moved.settled rfl with same | ⟨a, current, fine⟩
  · exact ⟨moved.sound sound, fun none => moved.credit ▸ first (same ▸ none), fun a found => settled a (same ▸ found)⟩
  · refine ⟨moved.sound sound, fun none => ?_, fun b found => ?_⟩
    · cases none.symm.trans current
    · cases current.symm.trans found
      exact fine

theorem Ready.stable : Stable c .reconcile (Ready c) := by
  rintro d e ⟨sound, left, settled⟩ moved
  refine ⟨moved.sound sound, moved.credit ▸ left, ?_⟩
  rcases moved.settled rfl with same | ⟨a, current, fine⟩
  · exact same ▸ settled
  · intro b found
    cases current.symm.trans found
    exact fine

theorem Placed.stable {node : String} : Stable c .reconcile (Placed c node) := by
  rintro d e ⟨sound, placed⟩ moved
  refine ⟨moved.sound sound, ?_⟩
  rcases moved.settled rfl with same | ⟨a, current, fine⟩
  · exact same ▸ placed
  · intro b found
    cases current.symm.trans found
    exact .inl fine

theorem Rested.near (rested : Rested c d) (near : Near .reconcile d e) : Rested c e :=
  ⟨near.sound rested.sound, fun none => (rested.first (near.current ▸ none)).trans_le near.credit,
    fun a found => rested.settled a (near.current ▸ found)⟩

theorem Ready.rested (ready : Ready c d) : Rested c d := ⟨ready.sound, fun _ => ready.left, ready.settled⟩

theorem Ready.placed (ready : Ready c d) (node : String) : Placed c node d :=
  ⟨ready.sound, fun a found => .inl (ready.settled a found)⟩

section Reconcile

variable {ctx : Ctx} {generation : String}
variable (valid : ∃ sorter, c.doc.validate sorter = .ok ()) (member : c.workload ∈ c.doc.workloads)
  (stored : c.doc.decoded = c.doc)
include valid member

theorem proper_own : Proper c.doc.metadata c.workload := by
  obtain ⟨sorter, valid⟩ := valid
  exact proper_of_validate valid member

theorem normalize_own {b : Assignment}
    (normal : normalizeAssignment (assignmentRecord c.doc.metadata c.workload node status c.generation error address
      (artifactSummary c.workload.run)) = some b) (ended : status = .running ∨ status = .failed) : c.Settled b := by
  have proper := proper_own valid member
  rw [normalizeAssignment_record proper.named proper.present] at normal
  cases normal
  exact ⟨ended, trimSpace_trimSpace _, rfl⟩

theorem recording_rested (sound : d.sound) (ended : status = .running ∨ status = .failed) :
    Rests c svc (ask (recording ctx c.doc.metadata c.workload node status c.generation error address)) d := by
  have proper := proper_own valid member
  refine ask_among (fun _ => Rested.stable) (.inl rfl) ?_
  rintro result e ⟨-, taken⟩
  have after : e = d.record c.key _ := taken
  rw [record, normalizeAssignment_record proper.named proper.present] at after
  dsimp only at after
  rw [if_pos (by rfl)] at after
  subst after
  refine ⟨sound, nofun, ?_⟩
  rintro a ⟨⟩
  exact ⟨ended, trimSpace_trimSpace _, rfl⟩

include stored

theorem recordDeployFailure_own {node : String} {err : Failure} (placed : Placed c node d) :
    Rests c svc (recordDeployFailure ctx c.doc c.workload node c.generation err) d := by
  have dropped : Ensures (Among c svc .reconcile) (Permits c svc .reconcile) (fun _ => Placed c node)
      (ask (.stopHealthMonitor (assignmentKey c.doc.metadata c.workload.name))) d := by
    refine ask_among (fun _ => Placed.stable) trivial ?_
    rintro _ e ⟨-, same⟩
    obtain rfl : e = d := same
    exact placed
  refine recordDeployFailure_walk c.Keeps (proper_own valid member) Placed.stable.lasting Rested.stable.lasting dropped ?_
    (fun _ placed => recording_rested valid member placed.sound (.inr rfl))
    (fun rested taken => revision_kept (fun rested => rested.sound) rested taken)
    (fun rested kept => filed_kept Rested.stable (fun rested near => rested.near near) stored rested kept)
  rintro t a u placed ⟨v, ⟨-, read, same⟩, moved⟩ elsewhere
  obtain rfl : v = t := same
  have current : v.current = some a := (read (trimSpace_assignmentKey ..)).symm
  -- The one recorded elsewhere cannot be the assignment of this start.
  rcases placed.placed a current with settled | ⟨-, here⟩
  · have rested : Rested c v := by
      refine ⟨placed.sound, fun none => ?_, fun b found => ?_⟩
      · cases none.symm.trans current
      · cases current.symm.trans found
        exact settled
    exact Rested.stable rested moved
  · rw [not_convergedOnDifferentNode (.inr here)] at elsewhere
    cases elsewhere

theorem placeWorkload_placing : Placing (Among c svc .reconcile) (Permits c svc .reconcile) svc c.doc c.workload c.generation
    (Ready c) (Rested c) (fun node d => Placed c node d ∧ 0 < d.tally.credit .reconcile) (Placed c)
    (fun node status d => status = .running ∧ Placed c node d) (fun _ => Rested c) where
  proper := proper_own valid member
  waits := Ready.stable.lasting
  ends := Rested.stable.lasting
  lives node status := Stable.lasting fun ⟨same, placed⟩ moved => ⟨same, placed.stable moved⟩
  stays _ := Rested.stable.lasting
  unplaced ready := recordDeployFailure_own valid member stored (ready.placed "")
  assigns {ctx node t} ready := by
    have proper := proper_own valid member
    refine ask_among (fun _ => fun ⟨placed, left⟩ moved => ⟨placed.stable moved, moved.credit ▸ left⟩) (.inl rfl) ?_
    rintro result e ⟨-, taken⟩
    have after : e = t.record c.key _ := taken
    rw [record, normalizeAssignment_record proper.named proper.present] at after
    dsimp only at after
    rw [if_pos (by rfl)] at after
    subst after
    refine ⟨⟨ready.sound, ?_⟩, ready.left⟩
    rintro a ⟨⟩
    exact .inr ⟨rfl, trimSpace_trimSpace _⟩
  refused _ placed := placed.1
  sends {ctx node t} away placed := by
    refine ⟨away, ?_⟩
    rintro (err | reply) e ⟨u, ⟨-, taken⟩, moved⟩
    · obtain ⟨-, rfl⟩ := taken away
      exact placed.1.stable moved
    · cases (taken away).1
  runs {ctx t} placed := by
    have lasting : Lasting (Among c svc .reconcile) (Permits c svc .reconcile) (Placed c svc.localNode) := Placed.stable.lasting
    have kept {op : TaskOp} (free : ∀ d : Meter, d.Permits c svc .reconcile op)
        (same : ∀ {d answer e}, Step c svc .reconcile d op answer e → e = d) (t : Meter) (placed : Placed c svc.localNode t) :
        Ensures (Among c svc .reconcile) (Permits c svc .reconcile) (fun _ => Placed c svc.localNode) (ask op) t := by
      refine ask_among (fun _ => Placed.stable) (free t) ?_
      intro answer e taken
      obtain rfl := same taken
      exact placed
    refine (runLocalWorkload_walk (proper_own valid member) lasting lasting ?_
      (kept (fun _ => trivial) fun taken => taken.2) (kept (fun _ => trivial) fun taken => taken.2)).mono ?_
    · refine ⟨fun _ => ⟨.inl rfl, placed.2⟩, ?_⟩
      rintro result e ⟨u, ⟨-, taken⟩, moved⟩
      have started : Placed c svc.localNode u := by
        obtain rfl : u = { t with tally := _ } := taken
        exact ⟨placed.1.sound, placed.1.placed⟩
      cases result <;> exact started.stable moved
    · rintro (err | ran) e after
      · exact after
      · exact after
  fails placed := recordDeployFailure_own valid member stored placed
  records := by
    rintro ctx node status address t ⟨rfl, placed⟩
    exact recording_rested valid member placed.sound (.inl rfl)
  away _ rested := rested
  unwatched _ rested := rested
  watches {address t} _ rested := by
    have aims : c.Aims (newWorkloadHealthTarget c.doc c.workload svc.localNode c.generation address) := by
      refine ⟨proper_own valid member, rfl, fun _ => ?_⟩
      simp only [newWorkloadHealthTarget]
      split
      · exact trimSpace_trimSpace _
      · exact trimSpace_trimSpace _
    exact ask_foreign Rested.stable (fun rested near => rested.near near) aims trivial rested

theorem deployOneWorkload_own {opts : DeployOptions} (rested : Rested c d) :
    Rests c svc (deployOneWorkload svc ctx c.doc c.generation opts c.workload) d := by
  have same {a : Assignment} (settled : c.Settled a) : sameGeneration a c.generation = true := decide_eq_true settled.dated
  have deploying : Deploying (Among c svc .reconcile) (Permits c svc .reconcile) svc c.doc c.workload c.generation opts
      (Rested c) (Ready c) (Rested c) (fun a d => Rested c d ∧ c.Settled a) (fun a d => Ready c d ∧ c.Settled a)
      (fun _ _ => False) :=
    { waits := Rested.stable.lasting
      looks := fun _ => Stable.lasting fun ⟨rested, settled⟩ moved => ⟨rested.stable moved, settled⟩
      holds := fun _ => Stable.lasting fun ⟨ready, settled⟩ moved => ⟨ready.stable moved, settled⟩
      reads := fun {t} rested => by
        refine ⟨trivial, ?_⟩
        rintro found e ⟨u, ⟨-, read, same⟩, moved⟩
        obtain rfl : u = t := same
        have current : found = u.current := read (trimSpace_assignmentKey ..)
        cases found with
        | none => exact Ready.stable ⟨rested.sound, rested.first current.symm, rested.settled⟩ moved
        | some a => exact ⟨rested.stable moved, rested.settled a current.symm⟩
      settled := fun seen => seen.1
      fresh := fun {a t} seen unconverged _ unfailed => by
        rcases seen.2.status with running | failed
        · simp [workloadAssignmentConverged, same seen.2, running] at unconverged
        · simp [failedAssignmentSameGeneration, same seen.2, failed] at unfailed
      retries := fun {a t} seen _ policy => by
        refine ⟨trivial, ?_⟩
        rintro allowed e ⟨u, ⟨-, attempts, after, -⟩, moved⟩
        have own : restartAttemptKey a.key c.generation = c.attemptKey := by rw [seen.2.key, Counted.attemptKey]
        cases allowed with
        | false =>
          have rested : Rested c u := by
            subst after
            exact ⟨seen.1.sound, seen.1.first, seen.1.settled⟩
          exact rested.stable moved
        | true =>
          have ready : Ready c u := by
            subst after
            refine ⟨seen.1.sound, ?_, seen.1.settled⟩
            simp only [Tally.note]
            rw [if_pos ⟨trivial, own, rfl, policy⟩]
            simp [Tally.grant]
          exact ⟨ready.stable moved, seen.2⟩
      leaves := fun tries => tries.1.rested
      goes := fun tries _ => tries.1
      stops := fun tries other => by
        rw [same tries.2] at other
        cases other
      fails := fun stuck => stuck.elim }
  exact deploying.walk (placeWorkload_placing valid member stored) rested

end Reconcile

theorem ask_rests (op : TaskOp) (permitted : d.Permits c svc .reconcile op) (foreign : Foreign c op) (rested : Rested c d) :
    Rests c svc (ask op) d :=
  ask_foreign Rested.stable (fun rested near => rested.near near) permitted foreign rested

section Loops

variable {ctx : Ctx} (member : c.workload ∈ c.doc.workloads) (stored : c.doc.decoded = c.doc)
include member

theorem own_or_foreign {app : App} {w : Workload} (kept : c.Keeps app) (inside : w ∈ app.workloads) :
    app = c.doc ∧ w = c.workload ∨ assignmentKey app.metadata w.name ≠ c.key := by
  by_cases same : assignmentKey app.metadata w.name = c.key
  · obtain ⟨⟨sorter, valid⟩, rfl | other⟩ := kept
    · exact .inl ⟨rfl, workload_unique_of_validate valid member inside same⟩
    · exact absurd same (other w inside)
  · exact .inr same

include stored

theorem reconcileAll_rests (rested : Rested c d) :
    Rests c svc (reconcileAll svc ctx) d := by
  refine reconcileAll_walk c.Keeps Rested.stable.lasting ?_ ?_ rested
  · rintro apps u ⟨t, ⟨-, kept, -⟩, -⟩
    exact kept rested.sound
  · intro app kept w inside valid t rested
    rcases own_or_foreign member kept inside with ⟨rfl, rfl⟩ | foreign
    · exact deployOneWorkload_own ⟨_, valid⟩ inside stored rested
    · exact (keeping_foreign Rested.stable (fun rested near => rested.near near) (proper_of_validate valid inside) foreign
        (fun rested => rested.sound) stored).deploys rested

theorem reconcilePendingDeploys_rests : ∀ {fuel : Nat} {d : Meter}, Rested c d →
    Rests c svc (reconcilePendingDeploys svc ctx fuel) d
  | 0, _, rested => rested
  | fuel + 1, d, rested => by
    refine (reconcileAll_rests member stored rested).bind ?_
    intro _ t rested
    refine (ask_rests .pollReconcileSignal trivial trivial rested).bind ?_
    rintro (_ | _ | _) u rested
    · exact rested
    · exact reconcilePendingDeploys_rests rested
    · exact rested

theorem runDeployReconcileLoop_rests {pending : Nat} : ∀ {fuel : Nat} {d : Meter}, Rested c d →
    Rests c svc (runDeployReconcileLoop svc ctx pending fuel) d
  | 0, _, rested => rested
  | fuel + 1, d, rested => by
    refine (reconcilePendingDeploys_rests member stored rested).bind ?_
    rintro (_ | _) t rested
    · exact rested
    refine (ask_rests .waitReconcileTrigger trivial trivial rested).bind ?_
    rintro (_ | _) u rested
    · exact rested
    · exact runDeployReconcileLoop_rests rested

theorem runDeployReconcile_rests {pending fuel : Nat} (rested : Rested c d) :
    Rests c svc (runDeployReconcile svc ctx pending fuel) d := by
  refine (ask_rests .waitLocalLeader trivial trivial rested).bind ?_
  rintro (err | _) t rested
  · exact rested
  · exact runDeployReconcileLoop_rests member stored rested

end Loops

/-- Between two workloads of a scan nothing is known but where things are
kept. -/
structure Scanning (c : Counted) (d : Meter) : Prop where
  sound : d.sound
  keyed : d.Keyed c

theorem Scanning.stable : Stable c .recover (Scanning c) := fun held moved =>
  ⟨moved.sound held.sound, moved.keyed held.keyed⟩

theorem Scanning.near (held : Scanning c d) (near : Near i d e) : Scanning c e :=
  ⟨near.sound held.sound, fun a found => held.keyed a (near.current ▸ found)⟩

section Recover

variable {ctx : Ctx} (member : c.workload ∈ c.doc.workloads)
include member

theorem recording_scanning (valid : ∃ sorter, c.doc.validate sorter = .ok ())
    (held : Scanning c d) (ended : status = .running ∨ status = .failed) :
    Ensures (Among c svc .recover) (Permits c svc .recover) (fun _ => Scanning c)
      (ask (recording ctx c.doc.metadata c.workload node status c.generation error address)) d := by
  refine ask_among (fun _ => Scanning.stable) (.inr fun b normal _ => normalize_own valid member normal ended) ?_
  rintro result e ⟨-, taken⟩
  obtain rfl : e = d.record c.key _ := taken
  refine ⟨?_, record_keyed held.keyed _⟩
  unfold record
  split
  · exact held.sound
  · split <;> exact held.sound

theorem recoverWorkloadFailure_own (valid : ∃ sorter, c.doc.validate sorter = .ok ()) {node : String} (held : Scanning c d) :
    Ensures (Among c svc .recover) (Permits c svc .recover) (fun _ => Scanning c)
      (recoverWorkloadFailure ctx c.doc c.workload node c.generation) d := by
  have free (op : TaskOp) {t : Meter} (permitted : t.Permits c svc .recover op) (other : Foreign c op) (held : Scanning c t) :
      Ensures (Among c svc .recover) (Permits c svc .recover) (fun _ => Scanning c) (ask op) t :=
    ask_foreign Scanning.stable (fun held near => held.near near) permitted other held
  have recovering : Recovering (Among c svc .recover) (Permits c svc .recover) c.doc c.workload node c.generation (Scanning c)
      (Scanning c) (fun a d => Scanning c d ∧ a.key = c.key) (fun _ d => Scanning c d ∧ 0 < d.tally.credit .recover)
      (fun _ => Scanning c) (fun _ => Scanning c) :=
    { proper := proper_own valid member
      looks := fun _ => Stable.lasting fun ⟨held, key⟩ moved => ⟨held.stable moved, key⟩
      holds := fun _ => Stable.lasting fun ⟨held, left⟩ moved => ⟨held.stable moved, moved.credit ▸ left⟩
      reads := fun {t} held => by
        refine ⟨trivial, ?_⟩
        rintro found e ⟨u, ⟨-, read, same⟩, moved⟩
        obtain rfl : u = t := same
        refine ⟨held.stable moved, ?_⟩
        rintro a rfl -
        exact ⟨held.stable moved, held.keyed a (read (trimSpace_assignmentKey ..)).symm⟩
      settled := fun seen => seen.1
      takes := fun {a t} seen policy => by
        refine ⟨trivial, ?_⟩
        rintro allowed e ⟨u, ⟨-, attempts, after, -⟩, moved⟩
        have own : restartAttemptKey a.key c.generation = c.attemptKey := by rw [seen.2, Counted.attemptKey]
        have held : Scanning c u := by
          subst after
          exact ⟨seen.1.sound, seen.1.keyed⟩
        cases allowed with
        | false => exact held.stable moved
        | true =>
          have left : 0 < u.tally.credit .recover := by
            subst after
            simp only [Tally.note]
            rw [if_pos ⟨trivial, own, rfl, policy⟩]
            simp [Tally.grant]
          exact ⟨held.stable moved, moved.credit ▸ left⟩
      leaves := fun granted => granted.1
      runs := fun {ctx a t} granted => by
        have lasting : Lasting (Among c svc .recover) (Permits c svc .recover) (Scanning c) := Scanning.stable.lasting
        refine runLocalWorkload_walk (proper_own valid member) lasting lasting ?_
          (fun _ held => free (.stopHealthMonitor _) trivial trivial held)
          (fun _ held => free (.runtimeStop _ _ _ _) trivial trivial held)
        refine ⟨fun _ => ⟨.inr rfl, granted.2⟩, ?_⟩
        rintro result e ⟨u, ⟨-, taken⟩, moved⟩
        have started : Scanning c u := by
          obtain rfl : u = { t with tally := _ } := taken
          exact ⟨granted.1.sound, granted.1.keyed⟩
        cases result <;> exact started.stable moved
      records := fun held => recording_scanning member valid held (.inl rfl)
      fails := fun held => recording_scanning member valid held (.inr rfl) }
  exact recovering.walk held

theorem recoverLocalFailures_scans (held : Scanning c d) :
    Ensures (Among c svc .recover) (Permits c svc .recover) (fun _ => Scanning c) (recoverLocalFailures svc ctx) d := by
  refine recoverLocalFailures_walk c.Keeps Scanning.stable.lasting ?_ ?_ held
  · rintro apps u ⟨t, ⟨-, kept, -⟩, -⟩
    exact kept held.sound
  · intro app kept w inside t held
    have valid := kept.valid
    rcases own_or_foreign member kept inside with ⟨rfl, rfl⟩ | foreign
    · exact recoverWorkloadFailure_own inside valid held
    · obtain ⟨sorter, valid⟩ := valid
      exact (acting_foreign Scanning.stable (fun held near => held.near near) (proper_of_validate valid inside) foreign).recovers
        held

theorem runFailureRecovery_scans : ∀ {scans : Nat} {d : Meter}, Scanning c d →
    Ensures (Among c svc .recover) (Permits c svc .recover) (fun _ => Scanning c) (runFailureRecovery svc ctx scans) d
  | 0, _, held => held
  | scans + 1, d, held => by
    refine (recoverLocalFailures_scans member held).bind ?_
    intro _ t held
    exact runFailureRecovery_scans held

end Recover

section Monitors

variable {ctx : Ctx} {runID : Nat} {target : HealthTarget}

theorem failLocalWorkloadHealth_settles {phase : String} {err : Failure} (aims : c.Aims target) :
    Ensures (Among c svc (.monitor runID target)) (Permits c svc (.monitor runID target)) anything
      (failLocalWorkloadHealth ctx target phase err) d := by
  have lasting : Lasting (Among c svc (.monitor runID target)) (Permits c svc (.monitor runID target)) (fun _ => True) :=
    Stable.lasting fun _ _ => trivial
  have still : Idle (healthAssignmentStillCurrent target) := by
    refine asks_then rfl ?_
    rintro (_ | assignment) <;> trivial
  rw [failLocalWorkloadHealth, ensures_bind]
  refine ⟨trivial, fun stopped e _ => ?_⟩
  refine lasting.then deleteRecord_idle trivial fun _ e _ => ?_
  refine lasting.then still trivial ?_
  rintro (_ | _) e -
  · trivial
  refine recordWorkload_walk aims.proper lasting ⟨.inr ?_, fun _ _ _ => trivial⟩
  intro b normal own
  rw [normalizeAssignment_record aims.proper.named aims.proper.present] at normal
  cases normal
  exact ⟨.inr rfl, (trimSpace_trimSpace _).trans (aims.dated (aims.key.trans own)), own⟩

theorem runHealthPhase_aims {phase : String} {probe : Option Probe} (launched : d.launched) :
    Ensures (Among c svc (.monitor runID target)) (Permits c svc (.monitor runID target))
      (fun verdict e => e.launched ∧ ∀ err, verdict = .failed err → c.Aims target) (runHealthPhase phase probe target) d := by
  cases probe with
  | none => exact ⟨launched, nofun⟩
  | some probe =>
    refine ⟨trivial, ?_⟩
    rintro verdict e ⟨t, ⟨aims, same⟩, moved⟩
    obtain rfl : t = d := same
    exact ⟨moved.launched launched, fun _ _ => aims runID target rfl launched⟩

theorem runWorkloadHealthMonitor_settles (launched : d.launched) :
    Ensures (Among c svc (.monitor runID target)) (Permits c svc (.monitor runID target)) anything
      (runWorkloadHealthMonitor ctx runID target) d := by
  have watches : Ensures (Among c svc (.monitor runID target)) (Permits c svc (.monitor runID target)) anything
      (watchWorkloadHealth ctx target) d := by
    refine (runHealthPhase_aims launched).bind ?_
    rintro (_ | err | _) t ⟨launched, aims⟩
    · refine (runHealthPhase_aims launched).bind ?_
      rintro (_ | err | _) u ⟨-, aims⟩
      · trivial
      · exact failLocalWorkloadHealth_settles (aims err rfl)
      · trivial
    · exact failLocalWorkloadHealth_settles (aims err rfl)
    · trivial
  exact watches.bind fun _ _ _ => ⟨trivial, fun _ _ _ => trivial⟩

end Monitors

theorem submitDeploy_keeps {ctx : Ctx} {doc : App} (submitted : doc.decoded = c.doc) :
    Ensures (Among c svc .submit) (Permits c svc .submit) anything (submitDeploy svc ctx doc) d := by
  have lasting : Lasting (Among c svc .submit) (Permits c svc .submit) (fun _ => True) := Stable.lasting fun _ _ => trivial
  unfold submitDeploy
  split
  · trivial
  rename_i valid
  refine lasting.then preflightDeploy_reads.idle trivial ?_
  rintro (err | _) t -
  · trivial
  refine ⟨⟨⟨svc.sorter, (App.validate_decoded doc _).trans valid⟩, .inl submitted⟩, ?_⟩
  rintro (err | _) u - <;> trivial

end Meter

end Orch
