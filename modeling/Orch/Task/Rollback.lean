import Orch.Task.Desk
import Orch.Task.Progress
import Orch.Raft.Payload

namespace Orch

open Effect

def guardKey (key generation : String) : String := key ++ "@" ++ generation

theorem autoRollbackGuardKey_eq {m : Metadata} {generation : String} (named : trimSpace m.name ≠ "")
    (dated : trimSpace generation ≠ "") :
    autoRollbackGuardKey m generation = guardKey (deployAppMapKey m) (trimSpace generation) := by
  simp only [autoRollbackGuardKey]
  rw [if_neg (by simp [named, dated])]
  rfl

theorem guardKey_ne_empty (key generation : String) : guardKey key generation ≠ "" := by
  intro empty
  have := congrArg String.length empty
  simp [guardKey] at this

structure Marks.Grown (m k : Marks) : Prop where
  attempts : m.autoRollbackAttempts ⊆ k.autoRollbackAttempts
  suppressed : m.autoRollbackSuppressed ⊆ k.autoRollbackSuppressed

theorem Marks.Grown.refl (m : Marks) : m.Grown m := ⟨List.Subset.refl _, List.Subset.refl _⟩

theorem Marks.Grown.trans {m k l : Marks} (first : m.Grown k) (second : k.Grown l) : m.Grown l :=
  ⟨List.Subset.trans first.attempts second.attempts, List.Subset.trans first.suppressed second.suppressed⟩

/-- An automatic rollback that went through: the document was neither tried
nor suppressed before, and both it and its predecessor are marked since. -/
structure Desk.RollsBack (d : Desk) (key : String) (old : App) (target : DeployAppRevision) (e : Desk) : Prop where
  current : d.papers.deployApps.lookup key = some old
  previous : ((d.papers.deployAppRevisions.lookup key).getD []).getLast? = some target
  untried : guardKey key (appGeneration old) ∉ d.marks.autoRollbackAttempts
  unsuppressed : guardKey key (appGeneration old) ∉ d.marks.autoRollbackSuppressed
  tried : guardKey key (appGeneration old) ∈ e.marks.autoRollbackAttempts
  suppressed : guardKey key (trimSpace target.generation) ∈ e.marks.autoRollbackSuppressed
  replaced : e.papers = (d.papers.update (.upsertDeployApp target.app)).papers
  differs : trimSpace target.generation ≠ appGeneration old

/-- What happens to a service, each as one step: requests of the operator, and
deploys that fail. -/
inductive Act where
  | deploy (ctx : Ctx) (app : App)
  | rollback (ctx : Ctx) (metadata : Metadata)
  | delete (ctx : Ctx) (metadata : Metadata)
  | failure (ctx : Ctx) (app : App) (workload : Workload) (node generation : String) (err : Failure)

def Act.Acts : Act → Desk → Desk → Prop
  | .deploy _ app, d, e =>
    e.marks = d.marks ∧ (e.papers = d.papers ∨ e.papers = (d.papers.update (.upsertDeployApp app)).papers)
  | .rollback _ metadata, d, e =>
    d.marks.Grown e.marks ∧
      (∀ target, trimSpace metadata.name ≠ "" → d.papers.previousDeployApp metadata = some target →
        trimSpace target.generation ≠ "" →
          guardKey (deployAppMapKey metadata) (trimSpace target.generation) ∈ e.marks.autoRollbackSuppressed) ∧
      (e.papers = d.papers ∨ ∃ target, d.papers.previousDeployApp metadata = some target ∧
        e.papers = (d.papers.update (.upsertDeployApp target.app)).papers)
  | .delete _ metadata, d, e =>
    e.marks = d.marks ∧
      (e.papers = d.papers ∨ e.papers = (d.papers.update (.deleteDeployApp (normalizeOperationMetadata metadata))).papers)
  | .failure _ app _ _ _ _, d, e =>
    d.marks.Grown e.marks ∧
      (e.papers = d.papers ∨ ∃ old target, d.RollsBack (deployAppMapKey app.metadata) old target e)

section Programs

variable {metadata : Metadata} {workload : Workload} {generation : String} {d : Desk}

theorem suppressAutoRollback_desk (post : Unit → Desk → Prop)
    (after : ∀ marks, d.marks.Grown marks → (trimSpace metadata.name ≠ "" → trimSpace generation ≠ "" →
      guardKey (deployAppMapKey metadata) (trimSpace generation) ∈ marks.autoRollbackSuppressed) →
        marks.autoRollbackAttempts = d.marks.autoRollbackAttempts → post () { d with marks }) :
    Ensures Desk.Step anything post (suppressAutoRollback metadata generation) d := by
  by_cases complete : trimSpace metadata.name = "" ∨ trimSpace generation = ""
  · have blank : autoRollbackGuardKey metadata generation = "" := by
      simp only [autoRollbackGuardKey]
      rw [if_pos complete]
    simp only [suppressAutoRollback, blank, ↓reduceIte]
    refine after d.marks (.refl _) ?_ rfl
    intro named dated
    exact absurd complete (by simp [named, dated])
  · rw [not_or] at complete
    have key := autoRollbackGuardKey_eq complete.1 complete.2
    simp only [suppressAutoRollback, key, guardKey_ne_empty, ↓reduceIte]
    refine ⟨trivial, ?_⟩
    rintro _ ⟨papers, marks⟩ ⟨marked, rfl⟩
    cases marked
    refine after _ ⟨List.Subset.refl _, List.subset_cons_self _ _⟩ (fun _ _ => ?_) rfl
    rw [← key]
    exact List.mem_cons_self

/-- A revision to go back to is found only for a document that is current,
unsuppressed and untried, which counts as tried from then on. -/
theorem autoRollbackRevision_desk (post : Option DeployAppRevision → Desk → Prop) (nothing : post none d)
    (found : ∀ old target marks, trimSpace metadata.name ≠ "" → trimSpace target.generation ≠ "" →
      d.papers.getDeployApp metadata = some old → d.papers.previousDeployApp metadata = some target →
      guardKey (deployAppMapKey metadata) (appGeneration old) ∉ d.marks.autoRollbackAttempts →
      guardKey (deployAppMapKey metadata) (appGeneration old) ∉ d.marks.autoRollbackSuppressed →
      trimSpace target.generation ≠ appGeneration old → d.marks.Grown marks →
      guardKey (deployAppMapKey metadata) (appGeneration old) ∈ marks.autoRollbackAttempts →
        post (some target) { d with marks }) :
    Ensures Desk.Step anything post (autoRollbackRevision metadata workload generation) d := by
  simp only [autoRollbackRevision]
  have configured : Ensures Desk.Step anything
      (fun wanted e => e = d ∧ (wanted = true → trimSpace generation ≠ "" ∧ (trimSpace metadata.name ≠ "" →
        guardKey (deployAppMapKey metadata) (trimSpace generation) ∉ d.marks.autoRollbackSuppressed)))
      (autoRollbackConfigured metadata workload (trimSpace generation)) d := by
    unfold autoRollbackConfigured
    split
    · exact ⟨rfl, fun wanted => by cases wanted⟩
    rename_i enabled
    rw [not_or] at enabled
    rw [ensures_bind, autoRollbackIsSuppressed]
    dsimp only
    split
    · rename_i blank
      refine ⟨rfl, fun _ => ⟨enabled.1, fun named => ?_⟩⟩
      rw [autoRollbackGuardKey_eq named (by rw [trimSpace_trimSpace]; exact enabled.1)] at blank
      exact absurd blank (guardKey_ne_empty _ _)
    · refine ⟨trivial, ?_⟩
      rintro found ⟨papers, marks⟩ ⟨⟨known, same⟩, filed⟩
      cases same
      cases filed
      refine ⟨rfl, fun wanted => ⟨enabled.1, fun named => ?_⟩⟩
      rw [autoRollbackGuardKey_eq named (by rw [trimSpace_trimSpace]; exact enabled.1), trimSpace_trimSpace] at known
      subst known
      simpa using wanted
  refine configured.bind ?_
  rintro (_ | _) e ⟨rfl, wanted⟩
  · exact nothing
  obtain ⟨dated, unheld⟩ := wanted rfl
  rw [ensures_bind, autoRollbackDesiredGenerationCurrent, ensures_bind]
  refine ⟨trivial, ?_⟩
  rintro current ⟨papers, marks⟩ ⟨same, read, filed⟩
  cases same
  cases filed
  cases current with
  | none => exact nothing
  | some old =>
    refine ensures_pure.mpr (ensures_pure.mpr ?_)
    by_cases current : trimSpace (appGeneration old) = trimSpace generation
    case neg =>
      rw [decide_eq_false current]
      exact nothing
    rw [decide_eq_true current]
    rw [trimSpace_appGeneration] at current
    refine ⟨trivial, ?_⟩
    rintro previous ⟨papers, marks⟩ ⟨same, revised, filed⟩
    cases same
    cases filed
    cases previous with
    | none => exact nothing
    | some target =>
      change Ensures _ _ _ (if trimSpace target.generation = "" ∨ trimSpace target.generation = trimSpace generation then _
        else _) _
      split
      · exact nothing
      rename_i other
      rw [not_or, ← current] at other
      rw [← current] at unheld
      rw [ensures_bind, markAutoRollbackAttempt]
      split
      · exact nothing
      rename_i complete
      have named : trimSpace metadata.name ≠ "" := by
        intro blank
        simp [autoRollbackGuardKey, blank] at complete
      have key : autoRollbackGuardKey metadata (trimSpace generation) = guardKey (deployAppMapKey metadata) (appGeneration old) := by
        rw [autoRollbackGuardKey_eq named (by rwa [trimSpace_trimSpace]), trimSpace_trimSpace, current]
      refine ⟨trivial, ?_⟩
      rintro fresh ⟨papers, marks⟩ ⟨marked, filed⟩
      cases filed
      simp only [Marks.Step, key] at marked
      split at marked
      · obtain ⟨rfl, same⟩ := marked
        cases same
        exact nothing
      · rename_i untried
        obtain ⟨rfl, same⟩ := marked
        cases same
        exact found old target _ named other.1 read.symm revised.symm untried (unheld named) other.2
          ⟨List.subset_cons_self _ _, List.Subset.refl _⟩ List.mem_cons_self

theorem maybeAutoRollbackDeployFailure_desk :
    Ensures Desk.Step anything
      (fun _ e => d.marks.Grown e.marks ∧
        (e.papers = d.papers ∨ ∃ old target, d.RollsBack (deployAppMapKey metadata) old target e))
      (maybeAutoRollbackDeployFailure metadata workload generation) d := by
  rw [maybeAutoRollbackDeployFailure, ensures_bind]
  refine autoRollbackRevision_desk _ ⟨.refl _, .inl rfl⟩ ?_
  intro old target marks named dated current previous untried unsuppressed differs grown tried
  rw [ensures_bind]
  refine Aside.ensures id (asks_perform rfl) fun now => ?_
  rw [ensures_bind]
  refine Aside.ensures id preflightDeploy_aside ?_
  rintro (err | _)
  · exact ⟨grown, .inl rfl⟩
  rw [ensures_bind]
  refine suppressAutoRollback_desk _ ?_
  intro later more suppressed same
  refine ⟨trivial, ?_⟩
  rintro result ⟨papers, last⟩ ⟨marked, -, filed⟩
  have unchanged : last = later := marked
  subst unchanged
  refine ⟨grown.trans more, ?_⟩
  rcases filed with kept | ⟨-, replaced⟩
  · exact .inl kept
  · exact .inr ⟨old, target, current, previous, untried, unsuppressed, by rw [same]; exact tried, suppressed named dated,
      replaced, differs⟩

variable {ctx : Ctx}

theorem recordDeployFailure_desk {app : App} {node : String} {err : Failure} :
    Ensures Desk.Step anything
      (fun _ e => d.marks.Grown e.marks ∧
        (e.papers = d.papers ∨ ∃ old target, d.RollsBack (deployAppMapKey app.metadata) old target e))
      (recordDeployFailure ctx app workload node generation err) d := by
  rw [recordDeployFailure, ensures_bind]
  refine Aside.ensures id stopWorkloadHealthMonitor_aside fun _ => ?_
  rw [ensures_bind]
  refine Aside.ensures id skipStaleDeployFailure_aside ?_
  rintro (_ | _)
  · rw [ensures_bind]
    exact Aside.ensures id recordWorkload_aside fun _ => maybeAutoRollbackDeployFailure_desk
  · exact ⟨.refl _, .inl rfl⟩

variable {svc : Service}

theorem submitDeploy_desk {app : App} :
    Ensures Desk.Step anything
      (fun _ e => e.marks = d.marks ∧ (e.papers = d.papers ∨ e.papers = (d.papers.update (.upsertDeployApp app)).papers))
      (submitDeploy svc ctx app) d := by
  unfold submitDeploy
  split
  · exact ⟨rfl, .inl rfl⟩
  rw [ensures_bind]
  refine Aside.ensures id preflightDeploy_aside ?_
  rintro (err | _)
  · exact ⟨rfl, .inl rfl⟩
  refine ⟨trivial, ?_⟩
  rintro result e ⟨marked, -, filed⟩
  have after : e.marks = d.marks ∧ (e.papers = d.papers ∨ e.papers = (d.papers.update (.upsertDeployApp app)).papers) :=
    ⟨marked, filed.imp_right And.right⟩
  rcases result with err | _ <;> exact after

theorem submitRollback_desk :
    Ensures Desk.Step anything
      (fun _ => (Act.rollback ctx metadata).Acts d) (submitRollback svc ctx metadata) d := by
  have key := deployAppMapKey_normalizeOperationMetadata metadata
  have same : d.papers.previousDeployApp (normalizeOperationMetadata metadata) = d.papers.previousDeployApp metadata := by
    rw [Ledger.previousDeployApp, key]
    rfl
  simp only [submitRollback]
  split
  · rename_i blank
    exact ⟨.refl _, fun _ named => absurd blank named, .inl rfl⟩
  rename_i named
  refine ⟨trivial, ?_⟩
  rintro previous ⟨papers, marks⟩ ⟨unmarked, found, filed⟩
  cases unmarked
  cases filed
  rw [same] at found
  cases previous with
  | none =>
    refine ⟨.refl _, fun target _ known => ?_, .inl rfl⟩
    cases known.symm.trans found.symm
  | some target =>
    change Ensures _ _ _ (suppressAutoRollback (normalizeOperationMetadata metadata) target.generation >>= _) _
    rw [ensures_bind]
    refine suppressAutoRollback_desk _ ?_
    intro later grown suppressed _
    refine submitDeploy_desk.bind ?_
    rintro result e ⟨rfl, filed⟩
    have after : (Act.rollback ctx metadata).Acts d e := by
      refine ⟨grown, fun revision present known dated => ?_, filed.imp_right fun stored => ⟨target, found.symm, stored⟩⟩
      cases known.symm.trans found.symm
      rw [← key]
      exact suppressed (by rw [show (normalizeOperationMetadata metadata).name = trimSpace metadata.name from rfl,
        trimSpace_trimSpace]; exact present) dated
    rcases result with err | _ <;> exact after

theorem submitDelete_desk :
    Ensures Desk.Step anything
      (fun _ e => e.marks = d.marks ∧
        (e.papers = d.papers ∨ e.papers = (d.papers.update (.deleteDeployApp (normalizeOperationMetadata metadata))).papers))
      (submitDelete svc ctx metadata) d := by
  simp only [submitDelete]
  split
  · exact ⟨rfl, .inl rfl⟩
  rename_i named
  refine ⟨trivial, ?_⟩
  rintro desired ⟨papers, marks⟩ ⟨unmarked, -, filed⟩
  cases unmarked
  cases filed
  change Ensures _ _ _ (raftApplyDeleteDeployApp ctx (normalizeOperationMetadata metadata) >>= _) _
  rw [ensures_bind, raftApplyDeleteDeployApp, if_neg named]
  refine ⟨trivial, ?_⟩
  rintro result e ⟨marked, -, filed⟩
  have after : e.marks = d.marks ∧ (e.papers = d.papers ∨
      e.papers = (d.papers.update (.deleteDeployApp (normalizeOperationMetadata metadata))).papers) :=
    ⟨marked, filed.imp_right And.right⟩
  rcases result with err | _
  · exact after
  cases desired with
  | none => exact after
  | some app =>
    change Ensures _ _ _ (stopAppWorkloads svc ctx app) _
    exact Aside.ensures id stopAppWorkloads_aside fun _ => after

end Programs

namespace Ledger

/-- Documents are kept under their own keys, as JSON reads them back, and a
revision carries the generation of its document. -/
structure Sound (f : Ledger) : Prop where
  kept : f.Holds fun key app => deployAppMapKey app.metadata = key ∧ app.decoded = app
  dated : ∀ key revisions, f.deployAppRevisions.lookup key = some revisions → ∀ r ∈ revisions, r.generation = appGeneration r.app

variable {f : Ledger}

theorem Sound.papers (sound : f.Sound) : f.papers.Sound :=
  ⟨⟨sound.kept.desired, sound.kept.revised⟩, sound.dated⟩

theorem Sound.update (sound : f.Sound) (command : Command) : (f.update command).Sound := by
  refine ⟨Holds.update sound.kept fun app _ _ => ⟨rfl, app.decoded_decoded⟩, ?_⟩
  intro key revisions found r member
  rcases revision_of_update found member with ⟨earlier, kept, old⟩ | ⟨app, -, rfl⟩
  · exact sound.dated key earlier kept r old
  · rfl

theorem Sound.previous_dated {metadata : Metadata} {revision : DeployAppRevision} (sound : f.Sound)
    (found : f.previousDeployApp metadata = some revision) : revision.generation = appGeneration revision.app := by
  unfold previousDeployApp at found
  cases kept : f.deployAppRevisions.lookup (deployAppMapKey metadata) with
  | none => simp [kept] at found
  | some revisions =>
    rw [kept] at found
    exact sound.dated _ revisions kept revision (List.mem_of_mem_getLast? found)

theorem lookup_upsert (f : Ledger) (app : App) (key : String) :
    (f.update (.upsertDeployApp app)).deployApps.lookup key =
      if trimSpace app.metadata.name ≠ "" ∧ key = deployAppMapKey app.metadata then some app.decoded
      else f.deployApps.lookup key := by
  rw [deployApps_update]
  simp only [Command.desires]
  by_cases named : trimSpace app.metadata.name = ""
  · rw [if_pos named, if_neg (by simp [named])]
  rw [if_neg named]
  by_cases own : key = deployAppMapKey app.metadata
  · rw [if_pos ⟨named, own⟩, own, AList.lookup_insert]
  · rw [if_neg (fun both => own both.2), AList.lookup_insert_ne own]

end Ledger

def Act.program (svc : Service) : Act → Task Unit
  | .deploy ctx app => do let _ ← submitDeploy svc ctx app
  | .rollback ctx metadata => do let _ ← submitRollback svc ctx metadata
  | .delete ctx metadata => do let _ ← submitDelete svc ctx metadata
  | .failure ctx app workload node generation err => recordDeployFailure ctx app workload node generation err

def Act.Submits (key : String) : Act → Prop
  | .deploy _ app => deployAppMapKey app.metadata = key
  | .rollback _ metadata => deployAppMapKey metadata = key
  | _ => False

theorem Act.acts {svc : Service} {act : Act} {w u : World instanceRuntime}
    (run : Finishes (World.machine instanceRuntime svc).Step (act.program svc) w () u) :
    act.Acts (w.desk svc) (u.desk svc) := by
  have ensured : Ensures Desk.Step anything (fun _ e => act.Acts (w.desk svc) e) (act.program svc) (w.desk svc) := by
    cases act with
    | deploy ctx app =>
      rw [program, ensures_bind]
      exact submitDeploy_desk
    | rollback ctx metadata =>
      rw [program, ensures_bind]
      exact submitRollback_desk
    | delete ctx metadata =>
      rw [program, ensures_bind]
      exact submitDelete_desk
    | failure ctx app workload node generation err => exact recordDeployFailure_desk
  have lifted : Ensures (World.machine instanceRuntime svc).Step anything
      (fun _ u => act.Acts (w.desk svc) (u.desk svc)) (act.program svc) w := ensured.simulate World.desk_step
  exact lifted.finishes run

namespace Act

variable {act : Act} {d e : Desk}

theorem Acts.grown (acts : act.Acts d e) : d.marks.Grown e.marks := by
  cases act with
  | deploy | delete =>
    rw [acts.1]
    exact .refl _
  | rollback | failure => exact acts.1

theorem Acts.sound (acts : act.Acts d e) (sound : d.papers.Sound) : e.papers.Sound := by
  cases act with
  | deploy | delete =>
    rcases acts.2 with same | stored
    · exact same ▸ sound
    · exact stored ▸ (sound.update _).papers
  | rollback =>
    rcases acts.2.2 with same | ⟨target, -, stored⟩
    · exact same ▸ sound
    · exact stored ▸ (sound.update _).papers
  | failure =>
    rcases acts.2 with same | ⟨old, target, back⟩
    · exact same ▸ sound
    · exact back.replaced ▸ (sound.update _).papers

end Act

/-- An act together with the states around it. -/
structure Turn where
  act : Act
  before : World instanceRuntime
  after : World instanceRuntime

/-- One act after the other, each with any answers to its calls. -/
inductive Unfolds (svc : Service) : World instanceRuntime → List Turn → World instanceRuntime → Prop
  | start {w : World instanceRuntime} : Unfolds svc w [] w
  | turn {act : Act} {w u last : World instanceRuntime} {turns : List Turn}
      (run : Finishes (World.machine instanceRuntime svc).Step (act.program svc) w () u)
      (later : Unfolds svc u turns last) : Unfolds svc w (⟨act, w, u⟩ :: turns) last

namespace Turn

/-- Handling a failure has replaced the desired document of an app: an
automatic rollback from one generation to another. -/
def RollsBack (t : Turn) (key source target : String) : Prop :=
  (∃ ctx app workload node generation err, t.act = .failure ctx app workload node generation err) ∧
    ∃ old new, t.before.fsm.deployApps.lookup key = some old ∧ t.after.fsm.deployApps.lookup key = some new ∧ old ≠ new ∧
      appGeneration old = source ∧ appGeneration new = target

/-- A generation of an app is what a rollback leads to, be it an automatic one
that is applied or one the operator asks for. -/
def Targets (t : Turn) (key generation : String) : Prop :=
  (∃ source, t.RollsBack key source generation) ∨
    ∃ ctx metadata target, t.act = .rollback ctx metadata ∧ trimSpace metadata.name ≠ "" ∧ deployAppMapKey metadata = key ∧
      t.before.fsm.previousDeployApp metadata = some target ∧ target.generation = generation

end Turn

section Turns

variable {svc : Service} {key source target : String}

variable {t : Turn}

theorem Turn.RollsBack.desk (back : t.RollsBack key source target) (sound : (t.before.desk svc).papers.Sound)
    (acts : t.act.Acts (t.before.desk svc) (t.after.desk svc)) :
    guardKey key source ∉ (t.before.desk svc).marks.autoRollbackAttempts ∧
      guardKey key source ∉ (t.before.desk svc).marks.autoRollbackSuppressed ∧
      guardKey key source ∈ (t.after.desk svc).marks.autoRollbackAttempts ∧
      guardKey key target ∈ (t.after.desk svc).marks.autoRollbackSuppressed := by
  obtain ⟨⟨ctx, app, workload, node, generation, err, failed⟩, old, new, before, after, changed, rfl, rfl⟩ := back
  rw [failed] at acts
  have was : (t.before.desk svc).papers.deployApps.lookup key = some old := before
  have now : (t.after.desk svc).papers.deployApps.lookup key = some new := after
  rcases acts.2 with same | ⟨current, revision, rolled⟩
  · rw [same, was] at now
    exact absurd (Option.some.inj now) changed
  · have stored : ((t.before.desk svc).papers.update (.upsertDeployApp revision.app)).deployApps.lookup key = some new := by
      rw [← now, rolled.replaced]
      rfl
    have filed := sound.kept.previous rolled.previous
    rw [Ledger.lookup_upsert] at stored
    split at stored
    · rename_i own
      rw [filed.1] at own
      obtain ⟨-, rfl⟩ := own
      rw [filed.2] at stored
      cases stored
      cases rolled.current.symm.trans was
      have dated : trimSpace revision.generation = appGeneration revision.app := by
        rw [sound.previous_dated rolled.previous, trimSpace_appGeneration]
      refine ⟨rolled.untried, rolled.unsuppressed, rolled.tried, ?_⟩
      rw [← dated]
      exact rolled.suppressed
    · rw [was] at stored
      exact absurd (Option.some.inj stored) changed

theorem Turn.Targets.suppressed (targets : t.Targets key target) (sound : (t.before.desk svc).papers.Sound)
    (acts : t.act.Acts (t.before.desk svc) (t.after.desk svc)) :
    guardKey key target ∈ (t.after.desk svc).marks.autoRollbackSuppressed := by
  rcases targets with ⟨source, back⟩ | ⟨ctx, metadata, revision, asked, named, rfl, previous, rfl⟩
  · exact (back.desk sound acts).2.2.2
  · rw [asked] at acts
    have found : (t.before.desk svc).papers.previousDeployApp metadata = some revision := previous
    have dated := sound.previous_dated found
    have mark := acts.2.1 revision named found (by rw [dated, trimSpace_appGeneration]; exact appGeneration_ne_empty _)
    rwa [dated, trimSpace_appGeneration, ← dated] at mark

/-- The document of the app is missing, or must not be rolled back. -/
def Desk.Quiet (key : String) (d : Desk) : Prop :=
  ∀ doc, d.papers.deployApps.lookup key = some doc → guardKey key (appGeneration doc) ∈ d.marks.autoRollbackSuppressed

theorem Act.Acts.quiet {act : Act} {d e : Desk} (acts : act.Acts d e) (sound : d.papers.Sound) (quiet : d.Quiet key)
    (other : ¬ act.Submits key) : e.Quiet key := by
  have grown := acts.grown
  have unchanged (same : e.papers.deployApps.lookup key = d.papers.deployApps.lookup key) : e.Quiet key := by
    intro doc found
    rw [same] at found
    exact grown.suppressed (quiet doc found)
  have stored {app : App} (apart : deployAppMapKey app.metadata ≠ key)
      (after : e.papers = (d.papers.update (.upsertDeployApp app)).papers) : e.Quiet key := by
    refine unchanged ?_
    rw [after]
    refine (Ledger.lookup_upsert ..).trans (if_neg ?_)
    exact fun own => apart own.2.symm
  cases act with
  | deploy ctx app =>
    rcases acts.2 with same | after
    · exact unchanged (by rw [same])
    · exact stored other after
  | rollback ctx metadata =>
    rcases acts.2.2 with same | ⟨revision, previous, after⟩
    · exact unchanged (by rw [same])
    · exact stored (by rw [(sound.kept.previous previous).1]; exact other) after
  | delete ctx metadata =>
    rcases acts.2 with same | after
    · exact unchanged (by rw [same])
    · intro doc found
      rw [after] at found
      simp only [Ledger.update, Ledger.applyDeleteDeployApp, Ledger.papers] at found
      split at found
      · exact grown.suppressed (quiet doc found)
      · by_cases own : key = deployAppMapKey (normalizeOperationMetadata metadata)
        · subst own
          rw [AList.lookup_erase] at found
          cases found
        · rw [AList.lookup_erase_ne own] at found
          exact grown.suppressed (quiet doc found)
  | failure ctx app workload node generation err =>
    rcases acts.2 with same | ⟨old, revision, back⟩
    · exact unchanged (by rw [same])
    · refine stored ?_ back.replaced
      rw [(sound.kept.previous back.previous).1]
      rintro rfl
      exact back.unsuppressed (quiet old back.current)

variable {w last : World instanceRuntime}

theorem Unfolds.turns {turns : List Turn} (unfolds : Unfolds svc w turns last) (sound : (w.desk svc).papers.Sound) :
    ∀ t ∈ turns, (w.desk svc).marks.Grown (t.before.desk svc).marks ∧ (t.before.desk svc).papers.Sound ∧
      t.act.Acts (t.before.desk svc) (t.after.desk svc) := by
  induction unfolds with
  | start => simp
  | @turn act w u last turns run later ih =>
    have acts := Act.acts run
    intro t inside
    rcases List.mem_cons.mp inside with rfl | inside
    · exact ⟨.refl _, sound, acts⟩
    · obtain ⟨grown, rest⟩ := ih (acts.sound sound) t inside
      exact ⟨acts.grown.trans grown, rest⟩

theorem Unfolds.quiet {mid after : List Turn} (unfolds : Unfolds svc w (mid ++ t :: after) last)
    (sound : (w.desk svc).papers.Sound) (quiet : (w.desk svc).Quiet key) (idle : ∀ s ∈ mid, ¬ s.act.Submits key) :
    ¬ t.RollsBack key source target := by
  induction mid generalizing w with
  | nil =>
    intro back
    cases unfolds with
    | turn run later =>
      have held := (back.desk sound (Act.acts run)).2.1
      obtain ⟨-, old, new, before, -, -, rfl, -⟩ := back
      exact held (quiet old before)
  | cons first mid ih =>
    cases unfolds with
    | turn run later =>
      have acts := Act.acts run
      refine ih later (acts.sound sound) (acts.quiet sound quiet ?_) fun s inside => idle s (List.mem_cons_of_mem _ inside)
      exact idle _ List.mem_cons_self

theorem Unfolds.between {before mid after : List Turn} {s : Turn}
    (unfolds : Unfolds svc w (before ++ s :: (mid ++ t :: after)) last) (sound : (w.desk svc).papers.Sound)
    {source' target' : String} (first : s.RollsBack key source target) (second : t.RollsBack key source' target') :
    ∃ u ∈ mid, u.act.Submits key := by
  induction before generalizing w with
  | nil =>
    cases unfolds with
    | turn run later =>
      by_contra idle
      simp only [not_exists, not_and] at idle
      have acts := Act.acts run
      have marks := first.desk sound acts
      refine later.quiet (acts.sound sound) ?_ idle second
      intro doc found
      obtain ⟨-, old, new, -, now, -, -, rfl⟩ := first
      cases (show _ = some doc from found).symm.trans now
      exact marks.2.2.2
  | cons turn before ih =>
    cases unfolds with
    | turn run later => exact ih later ((Act.acts run).sound sound)

/-- Automatic rollbacks are bounded: at most one from each generation of an
app, none from where a rollback has led, and at most one between two
submissions. -/
theorem auto_rollback_bounded {w last : World instanceRuntime} {turns : List Turn} (unfolds : Unfolds svc w turns last)
    (sound : w.fsm.toLedger.Sound) :
    turns.Pairwise (fun s t => ∀ key source target target', s.RollsBack key source target → ¬ t.RollsBack key source target') ∧
    turns.Pairwise (fun s t => ∀ key generation target, s.Targets key generation → ¬ t.RollsBack key generation target) ∧
    ∀ before s mid t after key source target source' target', turns = before ++ s :: (mid ++ t :: after) →
      s.RollsBack key source target → t.RollsBack key source' target' → ∃ u ∈ mid, u.act.Submits key := by
  have papers : (w.desk svc).papers.Sound := sound.papers
  refine ⟨?_, ?_, ?_⟩
  · clear sound
    induction unfolds with
    | start => exact .nil
    | @turn act w u last turns run later ih =>
      have acts := Act.acts run
      refine .cons ?_ (ih (acts.sound papers))
      intro t inside key source target target' first second
      obtain ⟨grown, soundBefore, own⟩ := later.turns (acts.sound papers) t inside
      exact (second.desk soundBefore own).1 (grown.attempts (first.desk papers acts).2.2.1)
  · clear sound
    induction unfolds with
    | start => exact .nil
    | @turn act w u last turns run later ih =>
      have acts := Act.acts run
      refine .cons ?_ (ih (acts.sound papers))
      intro t inside key generation target led back
      obtain ⟨grown, soundBefore, own⟩ := later.turns (acts.sound papers) t inside
      exact (back.desk soundBefore own).2.1 (grown.suppressed (led.suppressed papers acts))
  · rintro before s mid t after key source target source' target' rfl first second
    exact unfolds.between papers first second

end Turns

def acting (svc : Service) (acts : List Act) : Task Unit := Program.each (Act.program svc) acts

theorem unfolds_of_finishes {svc : Service} {acts : List Act} {w u : World instanceRuntime}
    (run : Finishes (World.machine instanceRuntime svc).Step (acting svc acts) w () u) :
    ∃ turns, Unfolds svc w turns u ∧ turns.map Turn.act = acts := by
  induction acts generalizing w with
  | nil =>
    obtain ⟨-, rfl⟩ := finishes_pure.mp run
    exact ⟨[], .start, rfl⟩
  | cons act acts ih =>
    obtain ⟨_, mid, first, rest⟩ := finishes_bind.mp run
    obtain ⟨turns, later, same⟩ := ih rest
    exact ⟨_ :: turns, .turn first later, by rw [List.map_cons, same]⟩

def guardedApp (image : String) : App :=
  { imageApp "web" "api" image with
    workloads := [{ imageWorkload "api" image with rollout := some { rollbackOnFailure := true } }] }

def failedUpgrade : List Act :=
  [.deploy {} (guardedApp "nginx"), .deploy {} (guardedApp "caddy"),
    .failure {} (guardedApp "caddy") { imageWorkload "api" "caddy" with rollout := some { rollbackOnFailure := true } } "a"
      (appGeneration (guardedApp "caddy")) (.errorf "exit status 1")]

/-- The failed version is rolled back, and that is the only rollback. -/
theorem auto_rollback_bounded_upgrade :
    ∃ turns last, Unfolds sampleService World.idle turns last ∧ turns.map Turn.act = failedUpgrade ∧
      (last.fsm.getDeployApp { name := "web" }).map appGeneration = some (appGeneration (guardedApp "nginx")) ∧
      turns.Pairwise fun s t => ∀ key source target target', s.RollsBack key source target → ¬ t.RollsBack key source target' := by
  have played : ((acting sampleService failedUpgrade).play (World.machine instanceRuntime sampleService)
      (List.replicate 30 (World.smoothly "a")) World.idle).map (fun last =>
        decide ((last.1.fsm.getDeployApp { name := "web" }).map appGeneration = some (appGeneration (guardedApp "nginx")))) =
          some true := by decide +kernel
  obtain ⟨_, last, run, passed⟩ := exists_finishes_of_play played
  obtain ⟨turns, unfolds, same⟩ := unfolds_of_finishes run
  have sound : World.idle.fsm.toLedger.Sound := by
    refine ⟨⟨fun key app found => ?_, fun key revisions found => ?_⟩, fun key revisions found => ?_⟩ <;> cases found
  exact ⟨turns, last, unfolds, same, of_decide_eq_true passed, (auto_rollback_bounded unfolds sound).1⟩

end Orch
