import Mathlib.Algebra.Group.Int.Defs
import Orch.Runtime.Names

namespace Orch

section Cpu

/-- What a variable of 64 bits holds of a number. -/
def int64 (n : Int) : Int :=
  n.bmod (2 ^ 64)

def maxInt64 : Int := 2 ^ 63 - 1

def nanoCPUsPerMilli : Int := 1000000

def cfsPeriodMicros : Int := 100000

def nanoCPUs (cpuMillis : Int) : Int :=
  if cpuMillis ≤ 0 then 0
  else if cpuMillis > maxInt64 / nanoCPUsPerMilli then maxInt64
  else int64 (cpuMillis * nanoCPUsPerMilli)

/-- Millicores as a quota for a stable period of 100ms, and the period. -/
def cfsQuota (cpuMillis : Int) : Int × Int :=
  if cpuMillis ≤ 0 then (0, cfsPeriodMicros)
  else
    -- the product comes first, and no bound is checked before it
    let quota := (int64 (cfsPeriodMicros * cpuMillis)).tdiv 1000
    (if quota ≤ 0 then 1 else quota, cfsPeriodMicros)

def Workload.cpuRequest (w : Workload) : Int :=
  (w.resources.getD {}).cpuMillis

/-- The limits for two requests are there, and the larger request has no smaller
limit. -/
structure LimitKept (limit : Int → Int) (a b : Int) : Prop where
  nonNegative : 0 ≤ limit a ∧ 0 ≤ limit b
  monotone : limit a ≤ limit b
  present : (limit a = 0 → a = 0) ∧ (limit b = 0 → b = 0)

theorem int64_of_range {n : Int} (low : 0 ≤ n) (high : n ≤ maxInt64) : int64 n = n := by
  have upper : n ≤ 2 ^ 63 - 1 := high
  exact Int.bmod_eq_of_le (by omega) (by omega)

theorem nanoCPUs_eq {c : Int} (low : 0 ≤ c) : nanoCPUs c = min (c * nanoCPUsPerMilli) maxInt64 := by
  unfold nanoCPUs
  split
  · have zero : c = 0 := by omega
    subst zero
    decide
  split
  · rename_i high
    simp only [maxInt64, nanoCPUsPerMilli] at high ⊢
    omega
  · rename_i high
    simp only [maxInt64, nanoCPUsPerMilli] at high ⊢
    rw [int64_of_range (by omega) (by unfold maxInt64; omega)]
    omega

theorem nanoCPUs_kept {a b : Int} (low : 0 ≤ a) (le : a ≤ b) : LimitKept nanoCPUs a b := by
  have here := nanoCPUs_eq low
  have there := nanoCPUs_eq (low.trans le)
  simp only [nanoCPUsPerMilli, maxInt64] at here there
  exact ⟨by omega, by omega, by omega⟩

theorem cfsQuota_eq {c : Int} (low : 0 ≤ c) (high : c ≤ maxInt64 / cfsPeriodMicros) : (cfsQuota c).1 = 100 * c := by
  simp only [maxInt64, cfsPeriodMicros] at high
  unfold cfsQuota
  split
  · simp only
    omega
  · have whole : int64 (cfsPeriodMicros * c) = 100 * c * 1000 := by
      rw [int64_of_range (by simp only [cfsPeriodMicros]; omega) (by simp only [cfsPeriodMicros, maxInt64]; omega)]
      simp only [cfsPeriodMicros]
      omega
    simp only [whole, Int.mul_tdiv_cancel _ (by decide : (1000 : Int) ≠ 0)]
    rw [if_neg (by omega)]

theorem cfsQuota_kept {a b : Int} (low : 0 ≤ a) (le : a ≤ b) (high : b ≤ maxInt64 / cfsPeriodMicros) :
    LimitKept (fun c => (cfsQuota c).1) a b := by
  have here := cfsQuota_eq low (le.trans high)
  have there := cfsQuota_eq (low.trans le) high
  exact ⟨by omega, by omega, by omega⟩

theorem Workload.cpuRequest_nonneg {w : Workload} (valid : w.validateResources = .ok ()) : 0 ≤ w.cpuRequest := by
  unfold Workload.validateResources at valid
  unfold Workload.cpuRequest
  split at valid
  · rename_i none
    simp [none]
  · rename_i resources given
    obtain ⟨_, cpu, -⟩ := Except.bind_ok valid
    unfold requireNonNegative at cpu
    split at cpu
    · cases cpu
    · simp [given]
      omega

def cpuWorkload (cpuMillis : Int) : Workload :=
  { imageWorkload "api" "nginx" with resources := some { cpuMillis } }

theorem cfsQuota_wraps : ¬ LimitKept (fun c => (cfsQuota c).1) 92233720368547 92233720368548 := by
  intro kept
  exact absurd kept.monotone (by decide)

/-- The limits of all requests up to a bound are kept exactly when the product
of the bound and the period fits 64 bits. -/
theorem cpu_limits_kept_upto_iff (most : Int) :
    (∀ x y : Workload, x.validateResources = .ok () → y.validateResources = .ok () → x.cpuRequest ≤ y.cpuRequest →
      y.cpuRequest ≤ most →
        LimitKept nanoCPUs x.cpuRequest y.cpuRequest ∧
          LimitKept (fun c => (cfsQuota c).1) x.cpuRequest y.cpuRequest) ↔
      most ≤ maxInt64 / cfsPeriodMicros := by
  constructor
  · intro kept
    by_contra above
    have reached : (92233720368548 : Int) ≤ most := by
      simp only [maxInt64, cfsPeriodMicros] at above
      omega
    have both := kept (cpuWorkload 92233720368547) (cpuWorkload 92233720368548) (by decide) (by decide) (by decide) reached
    exact cfsQuota_wraps both.2
  · intro fits x y left right le below
    have low := Workload.cpuRequest_nonneg left
    exact ⟨nanoCPUs_kept low le, cfsQuota_kept low le (below.trans fits)⟩

theorem cpu_limits_wrap :
    ¬ ∀ x y : Workload, x.validateResources = .ok () → y.validateResources = .ok () → x.cpuRequest ≤ y.cpuRequest →
      y.cpuRequest ≤ maxInt64 →
        LimitKept nanoCPUs x.cpuRequest y.cpuRequest ∧
          LimitKept (fun c => (cfsQuota c).1) x.cpuRequest y.cpuRequest := by
  intro kept
  have both := kept (cpuWorkload 92233720368547) (cpuWorkload 92233720368548) (by decide) (by decide) (by decide) (by decide)
  exact cfsQuota_wraps both.2

end Cpu

section Mounts

/-- A mount of a workload as the runtimes take it. -/
structure RuntimeMount where
  volume : String
  volumeName : String
  sourcePath : String := ""
  target : String
  readOnly : Bool
deriving DecidableEq, Repr

/-- `filepath.Join`, on Unix. -/
def joinPath (elements : List String) : String :=
  match elements.dropWhile (· = "") with
  | [] => ""
  | rest => String.ofList (Paths.clean (['/'].intercalate (rest.map String.toList)))

-- on Unix a path is absolute exactly when it begins with a slash, so the branch of filepath.IsAbs is never taken
def cleanMountTarget (target : String) : Except Failure String :=
  let target := trimSpace target
  if target = "" then .error (.errorf "target is required")
  else if rooted target then .ok (cleanPath target)
  else .error (.errorf "target must be absolute: %q" [.text target])

def appVolumesPath (root : String) (metadata : Metadata) : String :=
  joinPath [cleanPath root, "volumes", sanitizeName (namespaceOrDefault metadata.nspace), sanitizeName metadata.name]

def localVolumePath (root : String) (metadata : Metadata) (volumeName : String) : String :=
  joinPath [cleanPath root, "volumes", sanitizeName (namespaceOrDefault metadata.nspace), sanitizeName metadata.name,
    sanitizeName volumeName]

/-- Converts one mount of a document. Without a root there is no host path. -/
def localMount (root : String) (metadata : Metadata) (mount : Mount) : Except Failure RuntimeMount :=
  let volume := trimSpace mount.volume
  if volume = "" then .error (.errorf "volume name is required")
  else do
    let target ← cleanMountTarget mount.target
    return {
      volume, volumeName := volumeName metadata volume, target, readOnly := mount.readOnly
      sourcePath := if trimSpace root ≠ "" then localVolumePath root metadata volume else "" }

def localMountsFrom (root : String) (metadata : Metadata) (name : String) :
    Nat → List Mount → Except Failure (List RuntimeMount)
  | _, [] => .ok []
  | i, mount :: rest =>
    match localMount root metadata mount with
    | .error err => .error (.wrapf err "workload %s mounts[%d]" [.text name, .number i])
    | .ok converted => do return converted :: (← localMountsFrom root metadata name (i + 1) rest)

/-- Converts the mounts of a workload, up to the first that cannot be. -/
def localMounts (root : String) (metadata : Metadata) (w : Workload) : Except Failure (List RuntimeMount) :=
  localMountsFrom root metadata w.name 0 w.mounts

/-- A name of which one dot or two are left once the letters at its ends that
a directory cannot have are dropped. -/
def DotsOnly (name : String) : Prop :=
  ∃ before dots after, name.toList = before ++ dots ++ after ∧ (dots = ['.'] ∨ dots = ['.', '.']) ∧
    ∀ c ∈ before ++ after, isPlain (toLower c) = false

variable {c : Char}

theorem toLower_eq_dot : toLower c = '.' ↔ c = '.' := by
  refine ⟨fun lower => ?_, fun same => by rw [same]; decide⟩
  unfold toLower at lower
  split at lower
  · rename_i capital
    have low : 65 ≤ c.toNat := capital.1
    have high : c.toNat ≤ 90 := capital.2
    have valid : (c.toNat + 32).isValidChar := .inl (by omega)
    have number : c.toNat + 32 = 46 := by
      rw [Char.ofNat, dif_pos valid] at lower
      exact congrArg Char.toNat lower
    omega
  split at lower
  · exact absurd lower (by decide)
  split at lower
  · exact absurd lower (by decide)
  · exact lower

theorem sanitizeChar_eq_dot : sanitizeChar c = '.' ↔ c = '.' := by
  rw [sanitizeChar_eq]
  split
  · exact toLower_eq_dot
  · rename_i other
    refine ⟨fun same => absurd same (by decide), fun same => ?_⟩
    rw [same] at other
    exact absurd (by decide) other

theorem sanitizeChar_eq_hyphen : sanitizeChar c = '-' ↔ isPlain (toLower c) = false := by
  rw [sanitizeChar_eq]
  split
  · rename_i plain
    simp only [plain, Bool.true_eq_false, iff_false]
    intro same
    rw [same] at plain
    exact absurd plain (by decide)
  · rename_i other
    simpa using other

theorem map_sanitizeChar_dots {chars : List Char} {n : Nat} :
    chars.map sanitizeChar = List.replicate n '.' ↔ chars = List.replicate n '.' := by
  simp only [List.eq_replicate_iff, List.length_map, List.mem_map, forall_exists_index, and_imp,
    forall_apply_eq_imp_iff₂, sanitizeChar_eq_dot]

variable {s : String}

theorem sanitizeName_eq_dots {n : Nat} (some : 0 < n) :
    sanitizeName s = String.ofList (List.replicate n '.') ↔
      ∃ before after, s.toList = before ++ List.replicate n '.' ++ after ∧
        ∀ c ∈ before ++ after, isPlain (toLower c) = false := by
  have dots : ∀ c ∈ List.replicate n '.', (c == '-') = false := fun c member => by
    rw [List.eq_of_mem_replicate member]
    decide
  have stripped := Words.strip_eq_iff (s.toList.map sanitizeChar) (fun c first => dots c (List.mem_of_head? first))
    (fun c final => dots c (List.mem_of_getLast? final)) (by simp; omega)
  have named : sanitizeName s = String.ofList (List.replicate n '.') ↔
      ((s.toList.map sanitizeChar).dropWhile (· == '-')).rdropWhile (· == '-') = List.replicate n '.' := by
    simp only [sanitizeName]
    split
    · rename_i empty
      rw [empty]
      refine ⟨fun same => ?_, fun same => ?_⟩
      · have letters : ['x'] = List.replicate n '.' := by simpa using congrArg String.toList same
        have dot := List.eq_of_mem_replicate (letters ▸ List.mem_singleton_self 'x')
        exact absurd dot (by decide)
      · have none : n = 0 := by simpa using same.symm
        omega
    · exact String.ofList_inj
  rw [named, stripped]
  constructor
  · rintro ⟨before, after, text, cut⟩
    obtain ⟨front, rest, whole, fore, same⟩ := List.map_eq_append_iff.mp text
    obtain ⟨left, middle, rfl, rfl, inner⟩ := List.map_eq_append_iff.mp fore
    subst same
    rw [map_sanitizeChar_dots] at inner
    refine ⟨left, rest, by rw [whole, inner], fun c member => sanitizeChar_eq_hyphen.mp ?_⟩
    simpa using cut (sanitizeChar c) (by simpa only [List.map_append] using List.mem_map_of_mem member)
  · rintro ⟨before, after, text, cut⟩
    refine ⟨before.map sanitizeChar, after.map sanitizeChar, ?_, fun c member => ?_⟩
    · rw [text, List.map_append, List.map_append, map_sanitizeChar_dots.mpr rfl]
    · rw [← List.map_append] at member
      obtain ⟨d, inside, rfl⟩ := List.mem_map.mp member
      simp [sanitizeChar_eq_hyphen.mpr (cut d inside)]

theorem dotsOnly_iff : DotsOnly s ↔ sanitizeName s = "." ∨ sanitizeName s = ".." := by
  have one := sanitizeName_eq_dots (s := s) (n := 1) (by decide)
  have two := sanitizeName_eq_dots (s := s) (n := 2) (by decide)
  constructor
  · rintro ⟨before, dots, after, text, rfl | rfl, cut⟩
    · exact .inl (one.mpr ⟨before, after, text, cut⟩)
    · exact .inr (two.mpr ⟨before, after, text, cut⟩)
  · rintro (same | same)
    · obtain ⟨before, after, text, cut⟩ := one.mp same
      exact ⟨before, _, after, text, .inl rfl, cut⟩
    · obtain ⟨before, after, text, cut⟩ := two.mp same
      exact ⟨before, _, after, text, .inr rfl, cut⟩

theorem sanitizeName_ne_empty (s : String) : (sanitizeName s).toList ≠ [] := by
  simp only [sanitizeName]
  split
  · decide
  · rename_i present
    rwa [String.toList_ofList]

theorem slash_notMem_sanitizeName (s : String) : '/' ∉ (sanitizeName s).toList := by
  intro member
  rcases mem_sanitizeName member with plain | hyphen
  · exact absurd plain (by decide)
  · exact absurd hyphen (by decide)

theorem dotsOnly_iff_toList :
    DotsOnly s ↔ (sanitizeName s).toList = ['.'] ∨ (sanitizeName s).toList = ['.', '.'] := by
  rw [dotsOnly_iff, ← String.toList_inj, ← String.toList_inj]
  rfl

theorem plain_sanitizeName (other : ¬ DotsOnly s) : Paths.Plain (sanitizeName s).toList := by
  rw [dotsOnly_iff_toList, not_or] at other
  exact ⟨sanitizeName_ne_empty s, other.1, other.2⟩

theorem isPlain_toLower (letter : isNameStart c = true) : isPlain (toLower c) = true := by
  simp only [isNameStart, Bool.or_eq_true, Bool.and_eq_true, decide_eq_true_eq] at letter
  rcases letter with ⟨low, high⟩ | capital
  · have least : 97 ≤ c.toNat := low
    have greatest : c.toNat ≤ 122 := high
    have small : ¬ ('A' ≤ c ∧ c ≤ 'Z') := fun capital => by
      have below : c.toNat ≤ 90 := capital.2
      omega
    unfold toLower
    rw [if_neg small, if_neg (by omega), if_neg (by omega)]
    simp [isPlain, low, high]
  · have least : 65 ≤ c.toNat := capital.1
    have greatest : c.toNat ≤ 90 := capital.2
    have valid : (c.toNat + 32).isValidChar := .inl (by omega)
    have number : (Char.ofNat (c.toNat + 32)).toNat = c.toNat + 32 := by
      rw [Char.ofNat, dif_pos valid]
      rfl
    have low : 'a' ≤ Char.ofNat (c.toNat + 32) := by
      change 97 ≤ (Char.ofNat (c.toNat + 32)).toNat
      omega
    have high : Char.ofNat (c.toNat + 32) ≤ 'z' := by
      change (Char.ofNat (c.toNat + 32)).toNat ≤ 122
      omega
    unfold toLower
    rw [if_pos capital]
    simp [isPlain, low, high]

theorem not_dotsOnly_of_nameRe (valid : nameRe s = true) : ¬ DotsOnly s := by
  rintro ⟨before, dots, after, text, dot, cut⟩
  unfold nameRe at valid
  split at valid
  · cases valid
  · rename_i first rest chars
    simp only [Bool.and_eq_true] at valid
    have letter := valid.1.1
    rw [text] at chars
    cases before with
    | nil =>
      have same : first = '.' := by
        rcases dot with rfl | rfl
        · exact (List.cons.inj chars).1.symm
        · exact (List.cons.inj chars).1.symm
      rw [same] at letter
      exact absurd letter (by decide)
    | cons c before =>
      have same : c = first := (List.cons.inj chars).1
      have other := cut c (by simp)
      rw [same, isPlain_toLower letter] at other
      cases other

theorem not_dotsOnly_namespaceOrDefault {nspace : String} (valid : nspace = "" ∨ nameRe nspace = true) :
    ¬ DotsOnly (namespaceOrDefault nspace) := by
  rcases valid with rfl | given
  · exact not_dotsOnly_of_nameRe (by decide +kernel)
  · refine not_dotsOnly_of_nameRe ?_
    unfold namespaceOrDefault
    rw [trimSpace_of_nameRe given]
    split
    · decide
    · exact given

/-- The text of the directory of a namespace, before it is cleaned. -/
def namespaceVolumes (root : String) (metadata : Metadata) : List Char :=
  (cleanPath root).toList ++ '/' :: "volumes".toList ++ '/' :: (sanitizeName (namespaceOrDefault metadata.nspace)).toList

theorem cleanPath_ne_empty (root : String) : cleanPath root ≠ "" := by
  intro empty
  refine Paths.clean_ne_nil root.toList ?_
  simpa [cleanPath] using congrArg String.toList empty

theorem appVolumesPath_toList (root : String) (metadata : Metadata) :
    (appVolumesPath root metadata).toList =
      Paths.clean (namespaceVolumes root metadata ++ '/' :: (sanitizeName metadata.name).toList) := by
  simp [appVolumesPath, joinPath, cleanPath_ne_empty, namespaceVolumes, List.intercalate_cons_cons]

theorem localVolumePath_toList (root : String) (metadata : Metadata) (volume : String) :
    (localVolumePath root metadata volume).toList =
      Paths.clean (namespaceVolumes root metadata ++ '/' :: (sanitizeName metadata.name).toList ++
        '/' :: (sanitizeName volume).toList) := by
  simp [localVolumePath, joinPath, cleanPath_ne_empty, namespaceVolumes, List.intercalate_cons_cons]

theorem localVolumePath_below_iff {root : String} {metadata : Metadata}
    (nspace : metadata.nspace = "" ∨ nameRe metadata.nspace = true) (name : nameRe metadata.name = true)
    (volume : String) :
    Paths.Below (appVolumesPath root metadata).toList (localVolumePath root metadata volume).toList ↔
      ¬ DotsOnly volume := by
  have start : (cleanPath root).toList ++ '/' :: "volumes".toList ≠ [] := by simp
  have ends : Paths.parts (namespaceVolumes root metadata) ≠ [] := by
    rw [namespaceVolumes, Paths.parts_append_plain start (plain_sanitizeName (not_dotsOnly_namespaceOrDefault nspace))
      (slash_notMem_sanitizeName _)]
    simp
  rw [appVolumesPath_toList, localVolumePath_toList, Paths.below_clean_append_iff (by simp [namespaceVolumes]) ends
    (plain_sanitizeName (not_dotsOnly_of_nameRe name)) (slash_notMem_sanitizeName _) (sanitizeName_ne_empty _)
    (slash_notMem_sanitizeName _), dotsOnly_iff_toList, not_or]

theorem localMount_ok {root : String} {metadata : Metadata} {mount : Mount} {m : RuntimeMount}
    (converted : localMount root metadata mount = .ok m) :
    m.sourcePath = if trimSpace root ≠ "" then localVolumePath root metadata (trimSpace mount.volume) else "" := by
  unfold localMount at converted
  dsimp only at converted
  split at converted
  · cases converted
  · obtain ⟨target, -, built⟩ := Except.bind_ok converted
    cases built
    rfl

/-- The host path of a mount of a validated app stays below the directory of
the app exactly when the volume is not named by dots alone. -/
theorem volume_path_below_iff {app : App} {sorter : GraphSorter} (valid : app.validate sorter = .ok ()) {root : String}
    (given : trimSpace root ≠ "") {mount : Mount} {m : RuntimeMount} (converted : localMount root app.metadata mount = .ok m) :
    Paths.Below (appVolumesPath root app.metadata).toList m.sourcePath.toList ↔ ¬ DotsOnly (trimSpace mount.volume) := by
  obtain ⟨name, nspace⟩ := App.validate_metadata valid
  rw [localMount_ok converted, if_pos given]
  exact localVolumePath_below_iff nspace name _

def volumeApp (volume : String) : App :=
  { metadata := { name := "web" }
    workloads := [{ imageWorkload "api" "nginx" with mounts := [{ volume, target := "/data" }] }] }

theorem volume_path_below_data : ∃ m, localMount "/var/lib/orch" (volumeApp "data").metadata ⟨"data", "/data", false⟩ = .ok m ∧
    (Paths.Below (appVolumesPath "/var/lib/orch" (volumeApp "data").metadata).toList m.sourcePath.toList ↔
      ¬ DotsOnly (trimSpace "data")) :=
  have converted := (by decide +kernel :
    localMount "/var/lib/orch" (volumeApp "data").metadata ⟨"data", "/data", false⟩ =
      .ok ⟨"data", "orch-default-web-data", "/var/lib/orch/volumes/default/web/data", "/data", false⟩)
  ⟨_, converted, @volume_path_below_iff (volumeApp "data") (Topological.peeling String) (by decide +kernel) _ (by decide +kernel) _ _
    converted⟩

/-- A volume named by two dots is the directory of the namespace. -/
theorem volume_path_escapes :
    ¬ ∀ (app : App) (sorter : GraphSorter), app.validate sorter = .ok () → ∀ root : String, trimSpace root ≠ "" →
      ∀ x ∈ app.workloads, ∀ mount ∈ x.mounts, ∀ m : RuntimeMount, localMount root app.metadata mount = .ok m →
        Paths.Below (appVolumesPath root app.metadata).toList m.sourcePath.toList := by
  intro inside
  have below := inside (volumeApp "..") (Topological.peeling String) (by decide +kernel) "/var/lib/orch"
    (by decide +kernel) _ List.mem_cons_self _ List.mem_cons_self
    ⟨"..", "orch-default-web-..", "/var/lib/orch/volumes/default", "/data", false⟩ (by decide +kernel)
  exact absurd below.longer (by decide +kernel)

end Mounts

end Orch
