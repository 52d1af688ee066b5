import Orch.Raft.Payload
import Mathlib.Data.List.Chain

namespace Orch

/-- The history of one app: its desired document, and all the documents that
one of another generation took the place of since the last delete. -/
structure Chronicle where
  current : Option App := none
  superseded : List App := []

namespace Chronicle

def upsert (h : Chronicle) (app : App) : Chronicle where
  current := some app
  superseded :=
    match h.current with
    | none => h.superseded
    | some old => if appGeneration old ≠ appGeneration app then h.superseded ++ [old] else h.superseded

def record (h : Chronicle) : Command → Chronicle
  | .upsertDeployApp app => h.upsert app
  | .deleteDeployApp _ => {}
  | _ => h

def versions (h : Chronicle) : List App := h.superseded ++ h.current.toList

structure Sound (key : String) (h : Chronicle) : Prop where
  desired : h.current = none → h.superseded = []
  changes : h.versions.IsChain fun old new => appGeneration old ≠ appGeneration new
  own : ∀ app ∈ h.versions, deployAppMapKey app.metadata = key ∧ trimSpace app.metadata.name ≠ ""

def kept (h : Chronicle) : List DeployAppRevision := (h.superseded.map App.revision).rtake maxDeployAppRevisions

end Chronicle

section Chronicles

variable {Bytes : Type} (json : Codec Bytes)

def chronicleOf (key : String) (entries : List Bytes) : Chronicle :=
  entries.foldl (fun h entry =>
    if entryAddress json entry = some (.deployApps, key) then ((decodeCommand json entry).map h.record).getD h else h) {}

end Chronicles

namespace Chronicle

variable {key : String} {h : Chronicle}

theorem Sound.empty : Sound key {} := ⟨fun _ => rfl, .nil, by simp [versions]⟩

theorem Sound.upsert {app : App} (sound : h.Sound key) (mine : deployAppMapKey app.metadata = key)
    (named : trimSpace app.metadata.name ≠ "") : (h.upsert app).Sound key := by
  obtain ⟨current, superseded⟩ := h
  cases current with
  | none =>
    have nothing : superseded = [] := sound.desired rfl
    subst nothing
    refine ⟨by simp [Chronicle.upsert], ?_, ?_⟩
    · simp [Chronicle.upsert, versions]
    · simp [Chronicle.upsert, versions, mine, named]
  | some old =>
    have changes := sound.changes
    have own := sound.own
    simp only [versions, Option.toList_some] at changes own
    by_cases differ : appGeneration old = appGeneration app
    · refine ⟨by simp [Chronicle.upsert], ?_, ?_⟩
      · simp only [Chronicle.upsert, versions, differ, ne_eq, not_true_eq_false, if_false, Option.toList_some]
        rw [List.isChain_append] at changes ⊢
        refine ⟨changes.1, by simp, ?_⟩
        simpa [differ] using changes.2.2
      · intro other member
        simp only [Chronicle.upsert, versions, differ, ne_eq, not_true_eq_false, if_false, Option.toList_some,
          List.mem_append, List.mem_singleton] at member
        rcases member with earlier | rfl
        · exact own other (by simp [earlier])
        · exact ⟨mine, named⟩
    · refine ⟨by simp [Chronicle.upsert], ?_, ?_⟩
      · simp only [Chronicle.upsert, versions, ne_eq, differ, not_false_eq_true, if_true, Option.toList_some]
        rw [List.isChain_append]
        refine ⟨changes, by simp, ?_⟩
        simpa using differ
      · intro other member
        simp only [Chronicle.upsert, versions, ne_eq, differ, not_false_eq_true, if_true, Option.toList_some] at member
        rcases List.mem_append.mp member with earlier | new
        · exact own other earlier
        · rw [List.mem_singleton.mp new]
          exact ⟨mine, named⟩

theorem kept_getLast? (h : Chronicle) : h.kept.getLast? = h.superseded.getLast?.map App.revision := by
  simp [kept, List.rtake_eq_reverse_take_reverse, List.head?_take, maxDeployAppRevisions]

theorem joinRevisions_kept {current : App} {superseded : List App} (sound : Sound key ⟨some current, superseded⟩) :
    joinRevisions (kept ⟨some current, superseded⟩) current = kept ⟨some current, superseded ++ [current]⟩ := by
  have changes := sound.changes
  simp only [versions, Option.toList_some, List.isChain_append] at changes
  rw [joinRevisions, if_neg]
  · simp only [kept, maxDeployAppRevisions, List.map_append, List.map_cons, List.map_nil, List.rtake_concat_succ]
    simp [List.rtake_eq_reverse_take_reverse, List.take_take]
  -- The last of the revisions was superseded by the document itself.
  · rw [kept_getLast?, Option.map_map]
    intro same
    obtain ⟨last, member, generation⟩ := Option.map_eq_some_iff.mp same
    exact changes.2.2 last member current (by simp) generation

end Chronicle

section Logs

variable {Bytes : Type} (json : Codec Bytes)

theorem chronicleOf_append (key : String) (entries : List Bytes) (entry : Bytes) :
    chronicleOf json key (entries ++ [entry]) =
      if entryAddress json entry = some (.deployApps, key) then
        ((decodeCommand json entry).map (chronicleOf json key entries).record).getD (chronicleOf json key entries)
      else chronicleOf json key entries := by
  simp only [chronicleOf, List.foldl_append, List.foldl_cons, List.foldl_nil]

theorem Chronicle.record_sound {key : String} {h : Chronicle} {command : Command} (sound : h.Sound key)
    (about : command.address = some (.deployApps, key)) :
    (h.record command).Sound key ∧
      command.rewrite (.app h.current h.kept) = .app (h.record command).current (h.record command).kept := by
  cases command with
  | upsertDeployApp app =>
    simp only [Command.address] at about
    split at about
    · cases about
    rename_i named
    simp only [Option.some.injEq, Prod.mk.injEq, true_and] at about
    refine ⟨sound.upsert about named, ?_⟩
    obtain ⟨current, superseded⟩ := h
    cases current with
    | none => rfl
    | some old =>
      simp only [Command.rewrite, Chronicle.record, Chronicle.upsert]
      split
      · rw [Chronicle.joinRevisions_kept sound]
        rfl
      · rfl
  | deleteDeployApp metadata => exact ⟨.empty, rfl⟩
  | upsertNodeCapacity node =>
    simp only [Command.address] at about
    split at about <;> cases about
  | upsertWorkloadAssignment assignment =>
    obtain ⟨_, -, same⟩ := Option.map_eq_some_iff.mp about
    cases same
  | upsertVolumeBinding binding =>
    obtain ⟨_, -, same⟩ := Option.map_eq_some_iff.mp about
    cases same

theorem replay_chronicle (key : String) (entries : List Bytes) :
    (chronicleOf json key entries).Sound key ∧
      (FsmState.replay json {} entries).cell (.deployApps, key) =
        .app (chronicleOf json key entries).current (chronicleOf json key entries).kept := by
  induction entries using List.reverseRecOn with
  | nil => exact ⟨.empty, rfl⟩
  | append_singleton entries entry ih =>
    obtain ⟨sound, stored⟩ := ih
    rw [chronicleOf_append, FsmState.replay_append]
    simp only [FsmState.replay, List.foldl_cons, List.foldl_nil, FsmState.updateEntry_fst, FsmState.applyCommandPayload_cell,
      Cells.obey] at stored ⊢
    by_cases about : entryAddress json entry = some (.deployApps, key)
    · simp only [if_pos about, stored]
      have read := about
      simp only [entryAddress] at read
      split at read
      · cases read
      obtain ⟨command, decoded, address⟩ := Option.bind_eq_some_iff.mp read
      simp only [decoded, entryRewrite, Option.map_some, Option.getD_some]
      exact Chronicle.record_sound sound address
    · simp only [if_neg about, stored]
      exact ⟨sound, trivial⟩

def FsmState.desired (f : FsmState) (key : String) : Option App := f.deployApps.lookup key

def FsmState.revisions (f : FsmState) (key : String) : List DeployAppRevision := (f.deployAppRevisions.lookup key).getD []

/-- An entry that is read as the upsert of a document. -/
def Carries (entry : Bytes) (app : App) : Prop :=
  json.isEmpty entry = false ∧ decodeCommand json entry = some (.upsertDeployApp app)

variable {json} {key : String} {entries : List Bytes}

theorem replay_desired : (FsmState.replay json {} entries).desired key = (chronicleOf json key entries).current :=
  (Cell.app.inj (replay_chronicle json key entries).2).1

theorem replay_revisions : (FsmState.replay json {} entries).revisions key = (chronicleOf json key entries).kept :=
  (Cell.app.inj (replay_chronicle json key entries).2).2

theorem Carries.chronicleOf {entry : Bytes} {app : App} (carries : Carries json entry app)
    (own : deployAppMapKey app.metadata = key ∧ trimSpace app.metadata.name ≠ "") :
    chronicleOf json key (entries ++ [entry]) = (chronicleOf json key entries).upsert app := by
  have about : entryAddress json entry = some (.deployApps, key) := by
    simp [entryAddress, carries.1, carries.2, Command.address, own.1, own.2]
  rw [chronicleOf_append, if_pos about, carries.2]
  rfl

theorem newest_superseded {r : DeployAppRevision} (newest : ((FsmState.replay json {} entries).revisions key).getLast? = some r) :
    ∃ old, (chronicleOf json key entries).superseded.getLast? = some old ∧ r = old.revision := by
  rw [replay_revisions, Chronicle.kept_getLast?] at newest
  obtain ⟨old, last, same⟩ := Option.map_eq_some_iff.mp newest
  exact ⟨old, last, same.symm⟩

theorem replay_newest {r : DeployAppRevision} {current : App} {entry : Bytes}
    (newest : ((FsmState.replay json {} entries).revisions key).getLast? = some r)
    (desired : (FsmState.replay json {} entries).desired key = some current) (carries : Carries json entry r.app) :
    appGeneration r.app ≠ appGeneration current ∧
      (FsmState.replay json {} (entries ++ [entry])).desired key = some r.app ∧
      ((FsmState.replay json {} (entries ++ [entry])).revisions key).getLast? = some current.revision ∧
      ∀ again, Carries json again current →
        (FsmState.replay json {} (entries ++ [entry] ++ [again])).desired key = some current := by
  obtain ⟨old, last, rfl⟩ := newest_superseded newest
  have sound := (replay_chronicle json key entries).1
  rw [replay_desired] at desired
  have changes := sound.changes
  have own := sound.own
  simp only [Chronicle.versions, desired, Option.toList_some] at changes own
  have differ : appGeneration old ≠ appGeneration current :=
    (List.isChain_append.mp changes).2.2 old last current (by simp)
  have mine := own old (by simp [List.mem_of_mem_getLast? last])
  have told : chronicleOf json key (entries ++ [entry]) =
      ⟨some old, (chronicleOf json key entries).superseded ++ [current]⟩ := by
    rw [carries.chronicleOf mine]
    simp only [Chronicle.upsert, App.revision, desired, ne_eq, differ.symm, not_false_eq_true, if_true]
  refine ⟨differ, ?_, ?_, fun again carried => ?_⟩
  · rw [replay_desired, told]
    rfl
  · rw [replay_revisions, Chronicle.kept_getLast?, told]
    simp
  · rw [replay_desired, carried.chronicleOf (own current (by simp))]
    rfl

variable (json key entries) in
/-- The revisions of an app are the last documents that its log tells were
superseded, each of another generation than the one after it. -/
theorem revisions_exact :
    (FsmState.replay json {} entries).desired key = (chronicleOf json key entries).current ∧
    (FsmState.replay json {} entries).revisions key = ((chronicleOf json key entries).superseded.map App.revision).rtake 10 ∧
    ((FsmState.replay json {} entries).revisions key ≠ [] → ((FsmState.replay json {} entries).desired key).isSome) ∧
    ((FsmState.replay json {} entries).revisions key).IsChain (fun old new => old.generation ≠ new.generation) ∧
    (∀ r current, ((FsmState.replay json {} entries).revisions key).getLast? = some r →
      (FsmState.replay json {} entries).desired key = some current → r.generation ≠ appGeneration current) ∧
    ∀ r current entry, ((FsmState.replay json {} entries).revisions key).getLast? = some r →
      (FsmState.replay json {} entries).desired key = some current → Carries json entry r.app →
      appGeneration r.app ≠ appGeneration current ∧
      (FsmState.replay json {} (entries ++ [entry])).desired key = some r.app ∧
      ((FsmState.replay json {} (entries ++ [entry])).revisions key).getLast? = some current.revision ∧
      ∀ again, Carries json again current →
        (FsmState.replay json {} (entries ++ [entry] ++ [again])).desired key = some current := by
  have sound := (replay_chronicle json key entries).1
  refine ⟨replay_desired, replay_revisions, fun some_kept => ?_, ?_, fun r current newest desired => ?_,
    fun r current entry newest desired carries => replay_newest newest desired carries⟩
  · rw [replay_desired, Option.isSome_iff_ne_none]
    intro gone
    rw [replay_revisions, Chronicle.kept, sound.desired gone] at some_kept
    exact some_kept rfl
  · rw [replay_revisions, Chronicle.kept, List.rtake]
    refine List.IsChain.drop ?_ _
    rw [List.isChain_map]
    exact sound.changes.left_of_append
  · obtain ⟨old, last, rfl⟩ := newest_superseded newest
    rw [replay_desired] at desired
    have changes := sound.changes
    simp only [Chronicle.versions, desired, Option.toList_some] at changes
    exact (List.isChain_append.mp changes).2.2 old last current (by simp)

end Logs

def twoVersions : List Wire :=
  [.garbage, .command (.upsertDeployApp (imageApp "web" "api" "nginx")), .command (.upsertDeployApp (imageApp "web" "api" "caddy"))]

theorem revisions_exact_two_versions :
    (FsmState.replay wireCodec {} twoVersions).revisions "default/web" = [(imageApp "web" "api" "nginx").decoded.revision] ∧
    (FsmState.replay wireCodec {} (twoVersions ++ [.command (.upsertDeployApp (imageApp "web" "api" "nginx"))])).desired
      "default/web" = some (imageApp "web" "api" "nginx").decoded := by
  obtain ⟨current, kept, -, -, -, back⟩ := revisions_exact wireCodec "default/web" twoVersions
  have superseded : (chronicleOf wireCodec "default/web" twoVersions).superseded = [(imageApp "web" "api" "nginx").decoded] := by
    decide +kernel
  have desired : (chronicleOf wireCodec "default/web" twoVersions).current = some (imageApp "web" "api" "caddy").decoded := by
    decide +kernel
  rw [superseded] at kept
  rw [desired] at current
  have newest : ((FsmState.replay wireCodec {} twoVersions).revisions "default/web").getLast? =
      some (imageApp "web" "api" "nginx").decoded.revision := by
    rw [kept]
    rfl
  exact ⟨kept, (back _ _ _ newest current ⟨rfl, rfl⟩).2.1⟩

end Orch
