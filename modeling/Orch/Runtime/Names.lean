import Mathlib.Data.List.ModifyLast
import Orch.Std.Words
import Orch.Task.Records

namespace Orch

/-- What the providers make of a workload: the three names, each in a form a
container may have, joined by hyphens. -/
def sanitizedTriple (metadata : Metadata) (name : String) : String :=
  sanitizeName (namespaceOrDefault metadata.nspace) ++ "-" ++ sanitizeName metadata.name ++ "-" ++ sanitizeName name

namespace Process

/-- The base of the state file and the log files of a process. -/
def nameBase : Metadata → String → String :=
  sanitizedTriple

end Process

namespace Firecracker

def nameBase : Metadata → String → String :=
  sanitizedTriple

end Firecracker

namespace Systemd

/-- `strings.Fields`. -/
def fields (text : List Char) : List (List Char) :=
  (text.splitOnP isSpace).filter (!·.isEmpty)

def serviceSuffix : List Char :=
  ".service".toList

def withService (name : List Char) : List Char :=
  if serviceSuffix.isSuffixOf name then name else name ++ serviceSuffix

def normalizeUnitName (name : String) : String :=
  let name := trimSpace name
  if name = "" then ""
  else
    let name := name.toList.map fun c => if c = '\\' then '-' else c
    let name := name.map fun c => if c = '/' then '-' else c
    let name := ['-'].intercalate (fields name)
    String.ofList (withService name)

def defaultUnitName (metadata : Metadata) (workloadName : String) : String :=
  normalizeUnitName ("orch-" ++ sanitizedTriple metadata workloadName)

def dropService (word : List Char) : List Char :=
  if serviceSuffix.isSuffixOf word then word.take (word.length - serviceSuffix.length) else word

end Systemd

def isPlain (c : Char) : Bool :=
  ('a' ≤ c && c ≤ 'z') || ('0' ≤ c && c ≤ '9') || c == '.' || c == '_'

/-- The words of a name: in small letters, cut at hyphens and at every letter a
container name cannot have, without the empty words at its ends. -/
def nameWords (s : String) : List (List Char) :=
  let words := Words.core ((s.toList.map toLower).splitOnP fun c => !isPlain c)
  if words = [] then [['x']] else words

/-- The words of a namespace, of the app and of a name in it, one after the
other: which word belongs to which of the three is lost. -/
def identityWords (metadata : Metadata) (name : String) : List (List Char) :=
  nameWords (namespaceOrDefault metadata.nspace) ++ nameWords metadata.name ++ nameWords name

/-- The same, where an ending `.service` does not count. -/
def unitWords (metadata : Metadata) (name : String) : List (List Char) :=
  (identityWords metadata name).modifyLast Systemd.dropService

/-- A name as the validation of documents accepts it, with the namespace of
its app. -/
structure ValidatedName (metadata : Metadata) (name : String) : Prop where
  nspace : metadata.nspace = "" ∨ nameRe metadata.nspace = true
  app : nameRe metadata.name = true
  name : nameRe name = true

/-- A mounted volume: its name only has to be there. -/
structure ValidatedVolume (metadata : Metadata) (volume : String) : Prop where
  nspace : metadata.nspace = "" ∨ nameRe metadata.nspace = true
  app : nameRe metadata.name = true
  volume : trimSpace volume ≠ ""

theorem sanitizeChar_eq (c : Char) : sanitizeChar c = if isPlain (toLower c) then toLower c else '-' := by
  simp only [sanitizeChar, isPlain, Bool.or_eq_true, Bool.and_eq_true, decide_eq_true_eq, beq_iff_eq]
  by_cases hyphen : toLower c = '-'
  · simp [hyphen]
  · simp only [hyphen, or_false, or_assoc]

theorem splitOn_sanitizeName (s : String) : (sanitizeName s).toList.splitOn '-' = nameWords s := by
  have words : (s.toList.map sanitizeChar).splitOn '-' = (s.toList.map toLower).splitOnP fun c => !isPlain c := by
    have same : s.toList.map sanitizeChar = (s.toList.map toLower).map fun c => if isPlain c then c else '-' := by
      rw [List.map_map]
      exact List.map_congr_left fun c _ => sanitizeChar_eq c
    rw [same]
    refine Words.splitOn_map (fun c cut => ?_) (fun c plain => ?_) _
    · simp only [Bool.not_eq_true'] at cut
      simp [cut]
    · simp only [Bool.not_eq_false'] at plain
      refine ⟨by simp [plain], ?_⟩
      rintro rfl
      exact absurd plain (by decide)
  rw [nameWords, ← words, Words.core_splitOn]
  simp only [sanitizeName]
  split
  · simp; rfl
  · have split : (((s.toList.map sanitizeChar).dropWhile (· == '-')).rdropWhile (· == '-')).splitOn '-' ≠ [] :=
      List.splitOnP_ne_nil _ _
    simp [split]

variable {c : Char}

theorem mem_sanitizeName {s : String} (member : c ∈ (sanitizeName s).toList) :
    isPlain c = true ∨ c = '-' := by
  simp only [sanitizeName] at member
  split at member
  · simp only [String.reduceToList, List.mem_singleton] at member
    exact .inl (by rw [member]; decide)
  · rw [String.toList_ofList] at member
    have kept := (List.dropWhile_sublist _).subset ((List.rdropWhile_prefix _ _).subset member)
    obtain ⟨before, -, rfl⟩ := List.mem_map.mp kept
    rw [sanitizeChar_eq]
    split
    · next plain => exact .inl plain
    · exact .inr rfl

variable {name : String}

theorem mem_sanitizedTriple {metadata : Metadata} (member : c ∈ (sanitizedTriple metadata name).toList) :
    isPlain c = true ∨ c = '-' := by
  simp only [sanitizedTriple, String.toList_append, List.mem_append] at member
  obtain (((inside | hyphen) | inside) | hyphen) | inside := member
  · exact mem_sanitizeName inside
  · exact .inr (by simpa using hyphen)
  · exact mem_sanitizeName inside
  · exact .inr (by simpa using hyphen)
  · exact mem_sanitizeName inside

theorem splitOn_sanitizedTriple (metadata : Metadata) (name : String) :
    (sanitizedTriple metadata name).toList.splitOn '-' = identityWords metadata name := by
  have joined : (sanitizedTriple metadata name).toList =
      (sanitizeName (namespaceOrDefault metadata.nspace)).toList ++
        '-' :: ((sanitizeName metadata.name).toList ++ '-' :: (sanitizeName name).toList) := by
    simp [sanitizedTriple, String.toList_append]
  rw [joined, List.splitOn_append_cons_self, List.splitOn_append_cons_self, splitOn_sanitizeName, splitOn_sanitizeName,
    splitOn_sanitizeName, identityWords, List.append_assoc]

variable {m m' : Metadata}

theorem sanitizedTriple_eq_iff {name' : String} :
    sanitizedTriple m name = sanitizedTriple m' name' ↔ identityWords m name = identityWords m' name' := by
  rw [← splitOn_sanitizedTriple, ← splitOn_sanitizedTriple, Words.splitOn_inj, String.toList_inj]

theorem orch_append_inj {a b : String} : "orch-" ++ a = "orch-" ++ b ↔ a = b :=
  ⟨append_right_cancel, congrArg _⟩

theorem volumeName_eq_iff {volume volume' : String} :
    volumeName m volume = volumeName m' volume' ↔ identityWords m volume = identityWords m' volume' := by
  have written (m : Metadata) (volume : String) : volumeName m volume = "orch-" ++ sanitizedTriple m volume := by
    simp only [volumeName, sanitizedTriple, String.append_assoc]
  rw [written, written, orch_append_inj, sanitizedTriple_eq_iff]

theorem isSpace_isNameRest (rest : isNameRest c = true) : isSpace c = false := by
  simp only [isNameRest, isNameStart, Bool.or_eq_true, Bool.and_eq_true, decide_eq_true_eq, beq_iff_eq] at rest
  have bounds : 0x2d ≤ c.toNat ∧ c.toNat ≤ 0x7a := by
    have widen {a b : Char} (least : 0x2d ≤ a.toNat) (greatest : b.toNat ≤ 0x7a) (low : a ≤ c) (high : c ≤ b) :
        0x2d ≤ c.toNat ∧ c.toNat ≤ 0x7a :=
      ⟨Nat.le_trans least low, Nat.le_trans high greatest⟩
    obtain (((((⟨low, high⟩ | ⟨low, high⟩) | ⟨low, high⟩) | rfl) | rfl) | rfl) := rest
    · exact widen (by decide) (by decide) low high
    · exact widen (by decide) (by decide) low high
    · exact widen (by decide) (by decide) low high
    all_goals decide
  simp only [isSpace, Bool.or_eq_false_iff, Bool.and_eq_false_iff, beq_eq_false_iff_ne, decide_eq_false_iff_not]
  omega

theorem trimSpace_of_nameRe {s : String} (valid : nameRe s = true) : trimSpace s = s :=
  trimSpace_of_all fun c member => isSpace_isNameRest (isNameRest_of_nameRe valid c member)

theorem orchContainerName_eq_iff {name' : String} (left : ValidatedName m name) (right : ValidatedName m' name') :
    orchContainerName m name = orchContainerName m' name' ↔ identityWords m name = identityWords m' name' := by
  have written {m : Metadata} {name : String} (valid : ValidatedName m name) :
      orchContainerName m name = "orch-" ++ sanitizedTriple m name := by
    simp only [orchContainerName, sanitizedTriple, trimSpace_of_nameRe valid.app, trimSpace_of_nameRe valid.name,
      String.append_assoc]
  rw [written left, written right, orch_append_inj, sanitizedTriple_eq_iff]

namespace Systemd

theorem withService_eq (name : List Char) : withService name = dropService name ++ serviceSuffix := by
  unfold withService dropService
  split
  · next ends =>
    obtain ⟨front, rfl⟩ := List.isSuffixOf_iff_suffix.mp ends
    simp
  · rfl

theorem dropService_append_cons (front word : List Char) :
    dropService (front ++ '-' :: word) = front ++ '-' :: dropService word := by
  have ends : serviceSuffix.isSuffixOf (front ++ '-' :: word) = serviceSuffix.isSuffixOf word := by
    rw [Bool.eq_iff_iff, List.isSuffixOf_iff_suffix, List.isSuffixOf_iff_suffix]
    exact Words.suffix_append_cons (by decide) front word
  unfold dropService
  rw [ends]
  split
  · next suffix =>
    obtain ⟨start, rfl⟩ := List.isSuffixOf_iff_suffix.mp suffix
    rw [← List.cons_append, ← List.append_assoc, List.length_append, Nat.add_sub_cancel,
      List.take_left, List.length_append, Nat.add_sub_cancel, List.take_left]
  · rfl

theorem splitOn_dropService {text : List Char} (hyphen : '-' ∈ text) :
    (dropService text).splitOn '-' = (text.splitOn '-').modifyLast dropService := by
  obtain ⟨front, word, rfl, clean⟩ := Words.exists_last_cut hyphen
  have shorter : '-' ∉ dropService word := by
    unfold dropService
    split
    · exact fun inside => clean (List.mem_of_mem_take inside)
    · exact clean
  rw [dropService_append_cons, Words.splitOn_last_cut shorter, Words.splitOn_last_cut clean, List.modifyLast_concat]

theorem normalizeUnitName_of_clean {name : String} (some : name ≠ "")
    (clean : ∀ c ∈ name.toList, isPlain c = true ∨ c = '-') :
    normalizeUnitName name = String.ofList (withService name.toList) := by
  have apart (c : Char) (member : c ∈ name.toList) : isSpace c = false ∧ c ≠ '\\' ∧ c ≠ '/' := by
    have rest : isNameRest c = true := by
      rcases clean c member with plain | rfl
      · simp only [isPlain, Bool.or_eq_true] at plain
        simp only [isNameRest, isNameStart, Bool.or_eq_true]
        tauto
      · decide
    refine ⟨isSpace_isNameRest rest, ?_, ?_⟩
    · rintro rfl
      exact absurd rest (by decide)
    · rintro rfl
      exact absurd rest (by decide)
  have trimmed : trimSpace name = name := trimSpace_of_all fun c member => (apart c member).1
  have backslashes : name.toList.map (fun c => if c = '\\' then '-' else c) = name.toList := by
    conv_rhs => rw [← List.map_id name.toList]
    exact List.map_congr_left fun c member => if_neg (apart c member).2.1
  have slashes : name.toList.map (fun c => if c = '/' then '-' else c) = name.toList := by
    conv_rhs => rw [← List.map_id name.toList]
    exact List.map_congr_left fun c member => if_neg (apart c member).2.2
  have single : fields name.toList = [name.toList] := by
    rw [fields, List.splitOnP_eq_singleton fun c member => (apart c member).1]
    simpa using some
  simp only [normalizeUnitName, trimmed, some, if_false, backslashes, slashes, single]
  simp [List.intercalate]

theorem defaultUnitName_eq_iff {m m' : Metadata} {name name' : String} :
    defaultUnitName m name = defaultUnitName m' name' ↔ unitWords m name = unitWords m' name' := by
  have written (m : Metadata) (name : String) : defaultUnitName m name =
      String.ofList (dropService ("orch-".toList ++ (sanitizedTriple m name).toList) ++ serviceSuffix) := by
    rw [defaultUnitName, normalizeUnitName_of_clean, withService_eq, String.toList_append]
    · intro empty
      simpa using congrArg String.toList empty
    · intro c member
      rw [String.toList_append, List.mem_append] at member
      rcases member with inside | inside
      · have orch : "orch-".toList.all (fun c => isPlain c || c == '-') = true := by decide
        simpa using List.all_eq_true.mp orch c inside
      · exact mem_sanitizedTriple inside
  have words (m : Metadata) (name : String) :
      (dropService ("orch-".toList ++ (sanitizedTriple m name).toList)).splitOn '-' = "orch".toList :: unitWords m name := by
    have some : identityWords m name ≠ [] := by
      rw [← splitOn_sanitizedTriple]
      exact List.splitOnP_ne_nil _ _
    have cut : "orch-".toList ++ (sanitizedTriple m name).toList =
        "orch".toList ++ '-' :: (sanitizedTriple m name).toList := rfl
    have orch : "orch".toList.splitOn '-' = ["orch".toList] := by decide +kernel
    rw [splitOn_dropService (by simp), cut, List.splitOn_append_cons_self, splitOn_sanitizedTriple,
      List.modifyLast_append_of_right_ne_nil _ _ _ some, orch, List.singleton_append, unitWords]
  rw [written, written, String.ofList_inj, List.append_left_inj, ← Words.splitOn_inj (x := '-'), words, words,
    List.cons_inj_right]

end Systemd

/-- The names the runtimes know a workload by. -/
structure RuntimeNames where
  container : String
  processState : String
  firecrackerState : String
  unit : String
deriving DecidableEq, Repr

def runtimeNames (metadata : Metadata) (workloadName : String) : RuntimeNames :=
  ⟨orchContainerName metadata workloadName, Process.nameBase metadata workloadName,
    Firecracker.nameBase metadata workloadName, Systemd.defaultUnitName metadata workloadName⟩

/-- Two workloads that have no runtime name in common. -/
def RuntimeNames.Apart (a b : RuntimeNames) : Prop :=
  a.container ≠ b.container ∧ a.processState ≠ b.processState ∧ a.firecrackerState ≠ b.firecrackerState ∧ a.unit ≠ b.unit

instance (a b : RuntimeNames) : Decidable (a.Apart b) :=
  inferInstanceAs (Decidable (_ ∧ _ ∧ _ ∧ _))

theorem runtimeNames_apart_iff {w w' : String} (left : ValidatedName m w) (right : ValidatedName m' w') :
    (runtimeNames m w).Apart (runtimeNames m' w') ↔ unitWords m w ≠ unitWords m' w' := by
  constructor
  · rintro ⟨-, -, -, units⟩ same
    exact units (Systemd.defaultUnitName_eq_iff.mpr same)
  · intro units
    -- Equal words are equal without their endings, so the units decide.
    have words : identityWords m w ≠ identityWords m' w' :=
      fun same => units (congrArg (List.modifyLast Systemd.dropService) same)
    have bases : sanitizedTriple m w ≠ sanitizedTriple m' w' := sanitizedTriple_eq_iff.not.mpr words
    exact ⟨(orchContainerName_eq_iff left right).not.mpr words, bases, bases,
      Systemd.defaultUnitName_eq_iff.not.mpr units⟩

/-- Two volumes that are told apart by namespace, app and name. -/
def VolumesDiffer (m m' : Metadata) (v v' : String) : Prop :=
  (namespaceOrDefault m.nspace, m.name, trimSpace v) ≠ (namespaceOrDefault m'.nspace, m'.name, trimSpace v')

instance (m m' : Metadata) (v v' : String) : Decidable (VolumesDiffer m m' v v') :=
  inferInstanceAs (Decidable (_ ≠ _))

/-- The names of two workloads, and of two volumes, are told apart exactly when
the words of their names, read one after the other, are. -/
theorem runtime_identities_apart_iff (m m' : Metadata) (name name' : String) :
    (ValidatedName m name → ValidatedName m' name' → workloadId m name ≠ workloadId m' name' →
      ((runtimeNames m name).Apart (runtimeNames m' name') ↔ unitWords m name ≠ unitWords m' name')) ∧
    (ValidatedVolume m name → ValidatedVolume m' name' → VolumesDiffer m m' name name' →
      (volumeName m (trimSpace name) ≠ volumeName m' (trimSpace name') ↔
        identityWords m (trimSpace name) ≠ identityWords m' (trimSpace name'))) :=
  ⟨fun left right _ => runtimeNames_apart_iff left right, fun _ _ _ => volumeName_eq_iff.not⟩

def shopIn (nspace : String) (app : String := "shop") : Metadata :=
  { name := app, nspace }

theorem shop_identities_apart :
    (runtimeNames (shopIn "prod") "api").Apart (runtimeNames (shopIn "prod") "db") ∧
      volumeName (shopIn "prod") (trimSpace "data") ≠ volumeName (shopIn "test") (trimSpace "data") :=
  ⟨((runtime_identities_apart_iff _ _ _ _).1 ⟨by decide, by decide, by decide⟩ ⟨by decide, by decide, by decide⟩
      (by decide +kernel)).mpr (by decide +kernel),
    ((runtime_identities_apart_iff _ _ _ _).2 ⟨by decide, by decide, by decide +kernel⟩
      ⟨by decide, by decide, by decide +kernel⟩ (by decide +kernel)).mpr (by decide +kernel)⟩

/-- The hyphen between the names may stand in them. -/
theorem runtime_identities_collide :
    ¬ ((∀ (m m' : Metadata) (w w' : String), ValidatedName m w → ValidatedName m' w' →
        workloadId m w ≠ workloadId m' w' → (runtimeNames m w).Apart (runtimeNames m' w')) ∧
      ∀ (m m' : Metadata) (v v' : String), ValidatedVolume m v → ValidatedVolume m' v' → VolumesDiffer m m' v v' →
        volumeName m (trimSpace v) ≠ volumeName m' (trimSpace v')) := by
  rintro ⟨apart, -⟩
  have names := apart (shopIn "prod") (shopIn "prod" "shop-api") "api-v1" "v1" ⟨by decide, by decide, by decide⟩
    ⟨by decide, by decide, by decide⟩ (by decide +kernel)
  exact absurd names (by decide +kernel)

end Orch
