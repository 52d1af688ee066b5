import Orch.Effect.Parallel
import Orch.Task.Rollback

namespace Orch

open Effect

/-- What one action does to the documents, whosever desk it is at. -/
def Ledger.Filing : Steps TaskSig Ledger := fun f op answer g => ∃ m n, Desk.Step ⟨f, m⟩ op answer ⟨g, n⟩

theorem World.filing_step {svc : Service} {w u : World instanceRuntime} {op : TaskOp} {answer : op.Answer}
    (taken : (machine instanceRuntime svc).Step w op answer u) :
    Ledger.Filing w.fsm.toLedger.papers op answer u.fsm.toLedger.papers :=
  ⟨_, _, desk_step taken⟩

def TaskOp.submits : TaskOp → Option App
  | .apply _ (.upsertDeployApp doc) => some doc
  | _ => none

theorem Ledger.Filing.unfiled {f g : Ledger} {op : TaskOp} {answer : op.Answer} (taken : Filing f op answer g)
    (unfiled : op.unfiled = true) : g = f := by
  obtain ⟨m, n, -, filed⟩ := taken
  cases op with
  | getDesiredDeployApp | getPreviousDeployApp => exact filed.2
  | apply ctx command =>
    simp only [TaskOp.unfiled, Bool.not_eq_true'] at unfiled
    rcases filed.2 with same | ⟨files, -⟩
    · exact same
    · cases unfiled.symm.trans files
  | _ => exact filed

theorem Ledger.Filing.submitted {f g : Ledger} {ctx : Ctx} {doc : App} {answer : Check}
    (taken : Filing f (.apply ctx (.upsertDeployApp doc)) answer g) :
    g = f ∨ g = (f.update (.upsertDeployApp doc)).papers := by
  obtain ⟨m, n, -, -, same | ⟨-, stored⟩⟩ := taken
  · exact .inl same
  · exact .inr stored

/-- What has become of the document an automatic rollback has checked. -/
inductive Watch where
  | unread
  | clean
  | overtaken
deriving DecidableEq

/-- An automatic rollback is under way, with submissions by other requests. It
checks the desired document once. From then on, another document for the app in
its place overtakes it. A submission that Raft refuses does not. -/
def Watch.note (key : String) (watch : Watch) (i : Option Nat) (op : TaskOp) (before after : Ledger) : Watch :=
  match i, op with
  | none, .getDesiredDeployApp _ => if watch = .unread then .clean else watch
  | none, _ => watch
  | some _, _ =>
    if watch = .clean ∧ after.deployApps.lookup key ≠ before.deployApps.lookup key then .overtaken else watch

section Watched

variable {key generation : String}

def Ledger.Watched (key : String) (i : Option Nat) : Steps TaskSig (Ledger × Watch) := fun s op answer t =>
  Filing s.1 op answer t.1 ∧ t.2 = s.2.note key i op s.1 t.1

/-- What a rollback can rely on while others submit documents. -/
structure Undisturbed (key : String) (s t : Ledger × Watch) : Prop where
  sound : s.1.Sound → t.1.Sound
  watch : t.2 = s.2 ∨ s.2 = .clean ∧ t.2 = .overtaken
  same : t.2 = .clean → t.1.deployApps.lookup key = s.1.deployApps.lookup key

theorem Undisturbed.refl (s : Ledger × Watch) : Undisturbed key s s := ⟨id, .inl rfl, fun _ => rfl⟩

variable {s t : Ledger × Watch}

theorem Undisturbed.trans {u : Ledger × Watch} (first : Undisturbed key s t) (second : Undisturbed key t u) :
    Undisturbed key s u := by
  refine ⟨second.sound ∘ first.sound, ?_, ?_⟩
  · rcases first.watch with same | ⟨clean, past⟩
    · rw [← same]
      exact second.watch
    · rcases second.watch with same | ⟨again, -⟩
      · exact .inr ⟨clean, same.trans past⟩
      · cases past.symm.trans again
  · intro clean
    have before : t.2 = .clean := by
      rcases second.watch with same | ⟨-, past⟩
      · exact same.symm.trans clean
      · cases past.symm.trans clean
    exact (second.same clean).trans (first.same before)

variable {op : TaskOp}

theorem undisturbed_of_submission {k : Nat} {answer : op.Answer} (taken : Ledger.Watched key (some k) s op answer t)
    (kind : op.unfiled = true ∨ ∃ ctx doc, op = .apply ctx (.upsertDeployApp doc)) : Undisturbed key s t := by
  obtain ⟨f, watch⟩ := s
  obtain ⟨g, later⟩ := t
  obtain ⟨filed, noted⟩ := taken
  refine ⟨fun sound => ?_, ?_, fun clean => ?_⟩
  · rcases kind with unfiled | ⟨ctx, doc, rfl⟩
    · exact filed.unfiled unfiled ▸ sound
    · rcases filed.submitted with same | stored
      · exact same ▸ sound
      · exact stored ▸ (sound.update _).papers
  · simp only [Watch.note] at noted
    split at noted
    · rename_i replaced
      exact .inr ⟨replaced.1, noted⟩
    · exact .inl noted
  · simp only [Watch.note] at noted
    split at noted
    · cases clean.symm.trans noted
    · rename_i kept
      by_contra other
      exact kept ⟨noted.symm.trans clean, other⟩

/-- The rollback has found the failed generation desired, and so it still is
unless the rollback is overtaken. -/
structure Checked (key generation : String) (s : Ledger × Watch) : Prop where
  sound : s.1.Sound
  read : s.2 ≠ .unread
  current : s.2 = .clean → ∃ old, s.1.deployApps.lookup key = some old ∧ appGeneration old = generation

theorem Checked.undisturbed (checked : Checked key generation s) (moved : Undisturbed key s t) :
    Checked key generation t := by
  refine ⟨moved.sound checked.sound, ?_, ?_⟩
  · intro unread
    rcases moved.watch with same | ⟨-, past⟩
    · exact checked.read (same.symm.trans unread)
    · cases past.symm.trans unread
  · intro clean
    rw [moved.same clean]
    refine checked.current ?_
    rcases moved.watch with same | ⟨-, past⟩
    · exact same.symm.trans clean
    · cases past.symm.trans clean

theorem Checked.unfiled {answer : op.Answer} (checked : Checked key generation s)
    (taken : Ledger.Watched key none s op answer t) (unfiled : op.unfiled = true) : Checked key generation t := by
  obtain ⟨f, watch⟩ := s
  obtain ⟨g, later⟩ := t
  obtain ⟨filed, noted⟩ := taken
  obtain rfl : g = f := filed.unfiled unfiled
  obtain rfl : later = watch := by
    refine Eq.trans noted ?_
    cases op with
    | getDesiredDeployApp => exact if_neg checked.read
    | _ => rfl
  exact checked

/-- What a rollback may file: something over the failed generation, unless it
was overtaken. -/
def Replaces (generation : String) (s : Ledger × Watch) (op : TaskOp) : Prop :=
  ∀ doc, op.submits = some doc → s.2 ≠ .overtaken →
    ∃ old, s.1.getDeployApp doc.metadata = some old ∧ appGeneration old = generation

theorem replaces_of_unfiled (unfiled : op.unfiled = true) : Replaces generation s op := by
  intro doc submits
  cases op with
  | apply ctx command =>
    cases command with
    | upsertDeployApp => cases unfiled
    | _ => cases submits
  | _ => cases submits

theorem Checked.ensures {α : Type} {p : Task α} (asks : p.Asks fun op : TaskOp => op.unfiled = true)
    (checked : Checked key generation s) :
    Ensures (Amid (Undisturbed key) (Ledger.Watched key none)) (Replaces generation)
      (fun _ t => Checked key generation t) p s := by
  induction p generalizing s with
  | pure value => exact checked
  | call op next ih =>
    refine ⟨replaces_of_unfiled asks.1, ?_⟩
    rintro answer u ⟨t, taken, moved⟩
    exact ih answer (asks.2 answer) ((checked.unfiled taken asks.1).undisturbed moved)

theorem Ledger.Sound.previous {f : Ledger} {metadata : Metadata} {revision : DeployAppRevision} (sound : f.Sound)
    (found : f.previousDeployApp metadata = some revision) :
    deployAppMapKey revision.app.metadata = deployAppMapKey metadata :=
  (sound.kept.previous found).1

end Watched

/-- The rollback replaces the generation it read, if nothing disturbs it. -/
theorem maybeAutoRollbackDeployFailure_replaces {metadata : Metadata} {workload : Workload} {generation : String}
    {s : Ledger × Watch} (sound : s.1.Sound) (unread : s.2 = .unread) :
    Withstands (Undisturbed (deployAppMapKey metadata)) (Ledger.Watched (deployAppMapKey metadata) none)
      (Replaces (trimSpace generation)) anything (maybeAutoRollbackDeployFailure metadata workload generation) s := by
  -- before the check nothing can overtake the rollback
  have idle {s t : Ledger × Watch} (before : s.1.Sound ∧ s.2 = .unread) (moved : Undisturbed (deployAppMapKey metadata) s t) :
      t.1.Sound ∧ t.2 = .unread := by
    refine ⟨moved.sound before.1, ?_⟩
    rcases moved.watch with same | ⟨clean, -⟩
    · exact same.trans before.2
    · cases before.2.symm.trans clean
  intro t moved
  have start := idle ⟨sound, unread⟩ moved
  clear moved
  have revised : Ensures (Amid (Undisturbed (deployAppMapKey metadata)) (Ledger.Watched (deployAppMapKey metadata) none))
      (Replaces (trimSpace generation)) (fun found t => ∀ revision, found = some revision →
        Checked (deployAppMapKey metadata) (trimSpace generation) t ∧
          deployAppMapKey revision.app.metadata = deployAppMapKey metadata)
      (autoRollbackRevision metadata workload generation) t := by
    have nothing {t : Ledger × Watch} (revision : DeployAppRevision) (found : none = some revision) :
        Checked (deployAppMapKey metadata) (trimSpace generation) t ∧
          deployAppMapKey revision.app.metadata = deployAppMapKey metadata := by cases found
    simp only [autoRollbackRevision]
    have configured : Ensures (Amid (Undisturbed (deployAppMapKey metadata)) (Ledger.Watched (deployAppMapKey metadata) none))
        (Replaces (trimSpace generation)) (fun _ t => t.1.Sound ∧ t.2 = .unread)
        (autoRollbackConfigured metadata workload (trimSpace generation)) t := by
      unfold autoRollbackConfigured
      split
      · exact start
      rw [ensures_bind, autoRollbackIsSuppressed]
      split
      · exact start
      refine ⟨replaces_of_unfiled rfl, ?_⟩
      rintro answer u ⟨v, ⟨filed, noted⟩, moved⟩
      refine idle ⟨?_, noted.trans start.2⟩ moved
      rw [filed.unfiled rfl]
      exact start.1
    refine configured.bind ?_
    rintro (_ | _) s ⟨sound, unread⟩
    · exact nothing
    rw [ensures_bind, autoRollbackDesiredGenerationCurrent, ensures_bind]
    refine ⟨replaces_of_unfiled rfl, ?_⟩
    rintro current u ⟨v, ⟨filed, noted⟩, moved⟩
    have kept := filed.unfiled rfl
    obtain ⟨m, n, -, read, -⟩ := filed
    cases current with
    | none => exact nothing
    | some old =>
      refine ensures_pure.mpr (ensures_pure.mpr ?_)
      by_cases same : trimSpace (appGeneration old) = trimSpace generation
      case neg =>
        rw [decide_eq_false same]
        exact nothing
      rw [decide_eq_true same]
      rw [trimSpace_appGeneration] at same
      have checked : Checked (deployAppMapKey metadata) (trimSpace generation) v := by
        refine ⟨kept ▸ sound, ?_, fun _ => ⟨old, ?_, same⟩⟩
        · rw [noted, unread]
          rintro ⟨⟩
        · rw [kept]
          exact read.symm
      have later := checked.undisturbed moved
      refine ⟨replaces_of_unfiled rfl, ?_⟩
      rintro previous x ⟨y, taken, moved⟩
      have after := (later.unfiled taken rfl).undisturbed moved
      obtain ⟨m, n, -, revised, -⟩ := taken.1
      cases previous with
      | none => exact nothing
      | some target =>
        change Ensures _ _ _ (if trimSpace target.generation = "" ∨ trimSpace target.generation = trimSpace generation then _
          else _) _
        split
        · exact nothing
        rw [ensures_bind]
        have marks : (markAutoRollbackAttempt metadata (trimSpace generation)).Asks fun op : TaskOp => op.unfiled = true := by
          unfold markAutoRollbackAttempt
          dsimp only
          split
          · trivial
          · exact asks_perform rfl
        refine (after.ensures marks).mono ?_
        rintro (_ | _) z marked
        · exact nothing
        · rintro revision ⟨⟩
          exact ⟨marked, later.sound.previous revised.symm⟩
  refine revised.bind ?_
  rintro (_ | revision) u found
  · trivial
  obtain ⟨checked, own⟩ := found revision rfl
  refine (checked.ensures (p := ask .now) (asks_perform rfl)).bind ?_
  intro now v checked
  refine (checked.ensures (preflightDeploy_aside.mono fun _ aside => TaskOp.unfiled_of_aside aside)).bind ?_
  rintro (err | _) x checked
  · trivial
  have suppresses : (suppressAutoRollback metadata revision.generation).Asks fun op : TaskOp => op.unfiled = true := by
    unfold suppressAutoRollback
    dsimp only
    split
    · trivial
    · exact asks_perform rfl
  refine (checked.ensures suppresses).bind ?_
  intro _ y checked
  refine ⟨?_, fun _ _ _ => trivial⟩
  rintro doc ⟨⟩ apart
  have clean : y.2 = .clean := by
    cases seen : y.2 with
    | unread => exact absurd seen checked.read
    | clean => rfl
    | overtaken => exact absurd seen apart
  obtain ⟨old, current, dated⟩ := checked.current clean
  refine ⟨old, ?_, dated⟩
  rw [Ledger.getDeployApp, own]
  exact current

theorem submitDeploy_asks {svc : Service} {ctx : Ctx} {app : App} : (submitDeploy svc ctx app).Asks fun op : TaskOp =>
    op.unfiled = true ∨ ∃ ctx doc, op = .apply ctx (.upsertDeployApp doc) := by
  unfold submitDeploy
  split
  · trivial
  refine asks_bind (preflightDeploy_aside.mono fun _ aside => .inl (TaskOp.unfiled_of_aside aside)) ?_
  rintro (err | _)
  · trivial
  refine asks_then (.inr ⟨_, _, rfl⟩) ?_
  rintro (err | _) <;> trivial

/-- An automatic rollback, and submissions that are served at the same time,
each by some node. -/
def rollbackAmidDeploys (svcs : Option Nat → Service) (metadata : Metadata) (workload : Workload) (generation : String)
    (ctxs : Nat → Ctx) (docs : Nat → App) : Option Nat → Task Unit
  | none => maybeAutoRollbackDeployFailure metadata workload generation
  | some k => do let _ ← submitDeploy (svcs (some k)) (ctxs k) (docs k)

abbrev Interleaving := List (Option Nat × Event TaskSig (World instanceRuntime))

def Watch.noting (key : String) (watch : Watch) (i : Option Nat) (event : Event TaskSig (World instanceRuntime)) : Watch :=
  watch.note key i event.op event.before.fsm.toLedger event.after.fsm.toLedger

def Watch.after (key : String) (watch : Watch) (trace : Interleaving) : Watch :=
  trace.foldl (fun watch entry => watch.noting key entry.1 entry.2) watch

/-- The rollback files its revision although it has been overtaken: a submission
has put another document in the place of the one it checked. -/
def overtakes (key : String) : Watch → Interleaving → Bool
  | _, [] => false
  | watch, (i, event) :: rest =>
    (i = none ∧ event.op.submits.isSome ∧ watch = .overtaken) || overtakes key (watch.noting key i event) rest

theorem not_overtaken {key : String} {watch : Watch} {before after : Interleaving}
    {event : Event TaskSig (World instanceRuntime)} {doc : App} (submits : event.op.submits = some doc)
    (apart : overtakes key watch (before ++ (none, event) :: after) = false) : watch.after key before ≠ .overtaken := by
  induction before generalizing watch with
  | nil =>
    intro past
    change watch = .overtaken at past
    simp [overtakes, submits, past] at apart
  | cons first before ih =>
    simp only [List.cons_append, overtakes, Bool.or_eq_false_iff] at apart
    exact ih apart.2

namespace Overtaking

variable (key generation : String)

def rely : Option Nat → Ledger × Watch → Ledger × Watch → Prop
  | none => Undisturbed key
  | some _ => fun _ _ => True

def permit : Option Nat → Ledger × Watch → TaskOp → Prop
  | none => Replaces generation
  | some _ => fun _ op => op.unfiled = true ∨ ∃ ctx doc, op = .apply ctx (.upsertDeployApp doc)

variable {key generation}

theorem rely_refl (i : Option Nat) (s : Ledger × Watch) : rely key i s s := by
  cases i with
  | none => exact Undisturbed.refl s
  | some k => trivial

theorem rely_trans (i : Option Nat) {s t u : Ledger × Watch} (first : rely key i s t) (second : rely key i t u) :
    rely key i s u := by
  cases i with
  | none => exact Undisturbed.trans first second
  | some k => trivial

theorem rely_of_permit {i j : Option Nat} {s t : Ledger × Watch} {op : TaskOp} {answer : op.Answer} (other : j ≠ i)
    (allowed : permit generation i s op) (taken : Ledger.Watched key i s op answer t) : rely key j s t := by
  cases j with
  | some k => trivial
  | none =>
    cases i with
    | none => exact absurd rfl other
    | some k => exact undisturbed_of_submission taken allowed

end Overtaking

open Overtaking in
/-- The document a rollback replaces is the one that failed, unless a submission
is applied between the check and the replacement. -/
theorem auto_rollback_replaces_failed {svcs : Option Nat → Service} {metadata : Metadata} {workload : Workload}
    {generation : String} {ctxs : Nat → Ctx} {docs : Nat → App} {w u : World instanceRuntime} {trace : Interleaving}
    {rest : Option Nat → Task Unit} (sound : w.fsm.toLedger.Sound)
    (weave : Weave (fun i => (World.machine instanceRuntime (svcs i)).Step)
      (rollbackAmidDeploys svcs metadata workload generation ctxs docs) w trace rest u)
    (apart : overtakes (deployAppMapKey metadata) .unread trace = false) :
    ∀ event doc, (none, event) ∈ trace → event.op.submits = some doc →
      ∃ old, event.before.fsm.getDeployApp doc.metadata = some old ∧ appGeneration old = trimSpace generation := by
  obtain ⟨noted, woven, found⟩ :=
    weave.noting (fun watch entry => Watch.noting (deployAppMapKey metadata) watch entry.1 entry.2) .unread
  let view (s : World instanceRuntime × Watch) : Ledger × Watch := (s.1.fsm.toLedger.papers, s.2)
  have simulated (i : Option Nat) {s : World instanceRuntime × Watch} {op : TaskOp} {answer : op.Answer}
      {t : World instanceRuntime × Watch}
      (taken : Noting (World.machine instanceRuntime (svcs i)).Step
        (fun watch event => watch.noting (deployAppMapKey metadata) i event) s op answer t) :
      Ledger.Watched (deployAppMapKey metadata) i (view s) op answer (view t) :=
    ⟨World.filing_step taken.1, taken.2⟩
  have promised (i : Option Nat) : Withstands
      (fun s t => rely (deployAppMapKey metadata) i (view s) (view t))
      (Noting (World.machine instanceRuntime (svcs i)).Step
        fun watch event => Watch.noting (deployAppMapKey metadata) watch i event)
      (fun s => permit (trimSpace generation) i (view s)) (fun _ _ => True)
      (rollbackAmidDeploys svcs metadata workload generation ctxs docs i) (w, .unread) := by
    cases i with
    | none =>
      exact Withstands.simulate (simulated none) (maybeAutoRollbackDeployFailure_replaces sound.papers rfl)
    | some k =>
      have asked : Withstands (rely (deployAppMapKey metadata) (some k)) (Ledger.Watched (deployAppMapKey metadata) (some k))
          (permit (trimSpace generation) (some k)) (fun _ _ => True)
          (rollbackAmidDeploys svcs metadata workload generation ctxs docs (some k)) (view (w, .unread)) :=
        Program.Asks.withstands (asks_bind submitDeploy_asks fun _ => trivial)
      exact asked.simulate (simulated (some k))
  obtain ⟨permitted, -⟩ := woven.permitted promised (fun i s => rely_refl i _) (fun i => rely_trans i)
    fun other allowed taken => rely_of_permit other allowed (simulated _ taken)
  intro event doc member submits
  obtain ⟨before, after, cut⟩ := List.append_of_mem member
  have replaced := permitted none _ (found before none event after cut) doc submits
  rw [cut] at apart
  exact replaced (not_overtaken submits apart)

def World.upgraded : World instanceRuntime :=
  { World.told (guardedApp "nginx") with
    fsm := (World.told (guardedApp "nginx")).fsm.update (.upsertDeployApp (guardedApp "caddy")) }

/-- The second version is rolled back while a third one is submitted. -/
def rollbackAmidUpgrade : Option Nat → Task Unit :=
  rollbackAmidDeploys (fun _ => sampleService) { name := "web" }
    { imageWorkload "api" "caddy" with rollout := some { rollbackOnFailure := true } } (appGeneration (guardedApp "caddy"))
    (fun _ => {}) (fun _ => guardedApp "httpd")

abbrev sampleTurn (i : Option Nat) : (_ : Option Nat) × (World.machine instanceRuntime sampleService).Choice :=
  ⟨i, World.smoothly "a"⟩

theorem World.upgraded_sound : World.upgraded.fsm.toLedger.Sound := by
  have empty : Ledger.Sound {} := by
    refine ⟨⟨fun key app found => ?_, fun key revisions found => ?_⟩, fun key revisions found => ?_⟩ <;> cases found
  exact (empty.update (.upsertDeployApp (guardedApp "nginx"))).update (.upsertDeployApp (guardedApp "caddy"))

/-- One after the other, the rollback replaces what failed. -/
theorem auto_rollback_replaces_upgrade :
    ∃ trace rest u, Weave (fun _ => (World.machine instanceRuntime sampleService).Step) rollbackAmidUpgrade World.upgraded
        trace rest u ∧
      (∃ event doc, (none, event) ∈ trace ∧ event.op.submits = some doc) ∧
      ∀ event doc, (none, event) ∈ trace → event.op.submits = some doc →
        ∃ old, event.before.fsm.getDeployApp doc.metadata = some old ∧
          appGeneration old = trimSpace (appGeneration (guardedApp "caddy")) := by
  have woven : (weave (fun _ => World.machine instanceRuntime sampleService)
      (List.replicate 8 (sampleTurn none) ++ [sampleTurn (some 0)]) rollbackAmidUpgrade World.upgraded).map (fun last =>
        !overtakes (deployAppMapKey { name := "web" }) .unread last.1 &&
          last.1.any fun entry => entry.1.isNone && entry.2.op.submits.isSome) = some true := by decide +kernel
  obtain ⟨trace, rest, u, weave, checked⟩ := exists_weave woven
  simp only [Bool.and_eq_true, Bool.not_eq_true', List.any_eq_true, Option.isNone_iff_eq_none] at checked
  obtain ⟨apart, ⟨i, event⟩, member, rfl, submits⟩ := checked
  obtain ⟨doc, submits⟩ := Option.isSome_iff_exists.mp submits
  exact ⟨trace, rest, u, weave, ⟨event, doc, member, submits⟩, auto_rollback_replaces_failed World.upgraded_sound weave apart⟩

/-- Applied between the check and the replacement, the third version is
replaced by the first. -/
theorem auto_rollback_discards_newer :
    ∃ trace rest u, Weave (fun _ => (World.machine instanceRuntime sampleService).Step) rollbackAmidUpgrade World.upgraded
        trace rest u ∧
      ∃ event doc, (none, event) ∈ trace ∧ event.op.submits = some doc ∧
        event.before.fsm.getDeployApp doc.metadata = some (guardedApp "httpd") ∧
        event.after.fsm.getDeployApp doc.metadata = some (guardedApp "nginx") ∧
        appGeneration (guardedApp "httpd") ≠ trimSpace (appGeneration (guardedApp "caddy")) := by
  have woven : (weave (fun _ => World.machine instanceRuntime sampleService)
      (List.replicate 4 (sampleTurn none) ++ [sampleTurn (some 0)] ++ List.replicate 4 (sampleTurn none)) rollbackAmidUpgrade
      World.upgraded).map (fun last => last.1.any fun entry => entry.1.isNone && entry.2.op.submits.any fun doc =>
        entry.2.before.fsm.getDeployApp doc.metadata = some (guardedApp "httpd") ∧
          entry.2.after.fsm.getDeployApp doc.metadata = some (guardedApp "nginx")) = some true := by decide +kernel
  obtain ⟨trace, rest, u, weave, checked⟩ := exists_weave woven
  simp only [Bool.and_eq_true, List.any_eq_true, Option.isNone_iff_eq_none, Option.any_eq_true, decide_eq_true_eq] at checked
  obtain ⟨⟨i, event⟩, member, rfl, doc, submits, before, after⟩ := checked
  exact ⟨trace, rest, u, weave, event, doc, member, submits, before, after, by decide +kernel⟩

/-- The document of an app with its revisions. -/
def Desk.cell (d : Desk) (key : String) : Cell := FsmState.cell { toLedger := d.papers } (.deployApps, key)

/-- The desired document of an app, and the one that a rollback leads to. -/
def Desk.Stands (key : String) (current last : App) (d : Desk) : Prop :=
  ∃ revisions, d.cell key = .app (some current) revisions ∧ revisions.getLast? = some last.revision

/-- The operator submits no document for an app and does not delete it. -/
def Act.Leaves (key : String) : Act → Prop
  | .deploy _ app => deployAppMapKey app.metadata ≠ key
  | .delete _ metadata => deployAppMapKey metadata ≠ key
  | _ => True

section Alternation

variable {key : String} {a b : App} {d e : Desk}

theorem Desk.cell_update {command : Command} (stored : e.papers = (d.papers.update command).papers) :
    e.cell key = if command.decoded.address = some (.deployApps, key) then command.decoded.rewrite (d.cell key) else d.cell key := by
  have after : e.cell key = (FsmState.update { toLedger := d.papers } command).cell (.deployApps, key) := by
    rw [cell, stored]
    rfl
  rw [after, FsmState.update_eq_obey, FsmState.obey_cell]
  rfl

theorem joinRevisions_getLast? {revisions : List DeployAppRevision} (last : revisions.getLast? = some b.revision)
    (differ : appGeneration a ≠ appGeneration b) : (joinRevisions revisions a).getLast? = some a.revision := by
  rw [joinRevisions, if_neg (by simpa [last, App.revision] using differ.symm)]
  simp [List.rtake_eq_reverse_take_reverse, List.head?_take, maxDeployAppRevisions]

theorem Act.Acts.alternates {act : Act} (acts : act.Acts d e) (sound : d.papers.Sound) (leaves : act.Leaves key)
    (differ : appGeneration a ≠ appGeneration b) (stands : d.Stands key a b) : e.Stands key a b ∨ e.Stands key b a := by
  obtain ⟨revisions, here, last⟩ := stands
  have same (unchanged : e.papers = d.papers) : e.Stands key a b := ⟨revisions, by rw [Desk.cell, unchanged]; exact here, last⟩
  have apart {command : Command} (other : command.decoded.address ≠ some (.deployApps, key))
      (stored : e.papers = (d.papers.update command).papers) : e.Stands key a b :=
    ⟨revisions, by rw [Desk.cell_update stored, if_neg other]; exact here, last⟩
  have back {metadata : Metadata} {target : DeployAppRevision} (found : d.papers.previousDeployApp metadata = some target)
      (stored : e.papers = (d.papers.update (.upsertDeployApp target.app)).papers) : e.Stands key a b ∨ e.Stands key b a := by
    obtain ⟨filed, read⟩ := sound.kept.previous found
    by_cases own : (Command.upsertDeployApp target.app).decoded.address = some (.deployApps, key)
    · have keyed : deployAppMapKey metadata = key := by
        simp only [Command.decoded, Command.address, Option.ite_none_left_eq_some, Option.some.injEq, Prod.mk.injEq] at own
        exact filed.symm.trans own.2.2
      obtain ⟨-, kept⟩ := Cell.app.inj here
      rw [Ledger.previousDeployApp, keyed, kept, last] at found
      obtain rfl := Option.some.inj found
      refine .inr ⟨joinRevisions revisions a, ?_, joinRevisions_getLast? last differ⟩
      rw [Desk.cell_update stored, if_pos own, here, Command.decoded, read]
      exact congrArg (Cell.app (some b)) (if_pos differ)
    · exact .inl (apart own stored)
  cases act with
  | deploy ctx app =>
    refine .inl (acts.2.elim same (apart ?_))
    simp only [Command.decoded, Command.address]
    split <;> simp
    exact leaves
  | rollback ctx metadata =>
    rcases acts.2.2 with unchanged | ⟨target, found, stored⟩
    · exact .inl (same unchanged)
    · exact back found stored
  | delete ctx metadata =>
    refine .inl (acts.2.elim same (apart ?_))
    simp only [Command.decoded, Command.address, deployAppMapKey_normalizeOperationMetadata]
    split <;> simp
    exact leaves
  | failure ctx app workload node generation err =>
    rcases acts.2 with unchanged | ⟨old, target, rolled⟩
    · exact .inl (same unchanged)
    · exact back rolled.previous rolled.replaced

/-- However often an app is rolled back, by the operator or automatically, one
of the last two documents is desired, and the next rollback leads to the other
one. No older revision comes back. -/
theorem rollbacks_alternate {svc : Service} {w last : World instanceRuntime} {turns : List Turn}
    (unfolds : Unfolds svc w turns last) (sound : w.fsm.toLedger.Sound) (differ : appGeneration a ≠ appGeneration b)
    (stands : (w.desk svc).Stands key a b) (leaves : ∀ t ∈ turns, t.act.Leaves key) :
    (last.desk svc).Stands key a b ∨ (last.desk svc).Stands key b a := by
  have papers : (w.desk svc).papers.Sound := sound.papers
  clear sound
  induction unfolds generalizing a b with
  | start => exact .inl stands
  | @turn act w u last turns run later ih =>
    have acts := Act.acts run
    have rest : ∀ t ∈ turns, t.act.Leaves key := fun t inside => leaves t (List.mem_cons_of_mem _ inside)
    rcases acts.alternates papers (leaves _ List.mem_cons_self) differ stands with same | swapped
    · exact ih differ same rest (acts.sound papers)
    · exact (ih differ.symm swapped rest (acts.sound papers)).symm

end Alternation

deriving instance DecidableEq for DeployAppRevision

/-- Three rollbacks lead from the second version to the first one. -/
theorem rollbacks_alternate_thrice : ∃ turns last, Unfolds sampleService World.upgraded turns last ∧ turns.length = 3 ∧
    last.fsm.getDeployApp { name := "web" } = some (guardedApp "nginx") ∧
    ((last.desk sampleService).Stands "default/web" (guardedApp "caddy") (guardedApp "nginx") ∨
      (last.desk sampleService).Stands "default/web" (guardedApp "nginx") (guardedApp "caddy")) := by
  have played : ((acting sampleService (List.replicate 3 (.rollback {} { name := "web" }))).play
      (World.machine instanceRuntime sampleService) (List.replicate 30 (World.smoothly "a")) World.upgraded).map (fun last =>
        decide (last.1.fsm.getDeployApp { name := "web" } = some (guardedApp "nginx"))) = some true := by decide +kernel
  obtain ⟨_, last, run, passed⟩ := exists_finishes_of_play played
  obtain ⟨turns, unfolds, same⟩ := unfolds_of_finishes run
  refine ⟨turns, last, unfolds, by simpa using congrArg List.length same, of_decide_eq_true passed, ?_⟩
  have upgraded : (World.upgraded.desk sampleService).papers.deployApps.lookup "default/web" = some (guardedApp "caddy") := by
    decide +kernel
  refine rollbacks_alternate unfolds World.upgraded_sound (by decide +kernel)
    ⟨_, congrArg (Cell.app · _) upgraded, by decide +kernel⟩ fun t inside => ?_
  have asked : t.act ∈ List.replicate 3 (Act.rollback {} { name := "web" }) := same ▸ List.mem_map_of_mem inside
  rw [List.eq_of_mem_replicate asked]
  trivial

end Orch
