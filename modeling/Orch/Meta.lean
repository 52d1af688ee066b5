import Orch.Deploy.Generation
import Orch.Failure

namespace Orch

/-- Who a workload is, once the namespace is filled in and the names are
trimmed. -/
structure WorkloadId where
  nspace : String
  app : String
  workload : String
deriving DecidableEq, Repr

def workloadId (metadata : Metadata) (workloadName : String) : WorkloadId :=
  ⟨namespaceOrDefault metadata.nspace, trimSpace metadata.name, trimSpace workloadName⟩

def WorkloadId.key (id : WorkloadId) : String :=
  if id.app = "" ∨ id.workload = "" then "" else id.nspace ++ "/" ++ id.app ++ "/" ++ id.workload

/-- The key under which the assignment of a workload is replicated. -/
def assignmentKey (metadata : Metadata) (workloadName : String) : String :=
  (workloadId metadata workloadName).key

/-- `strings.ToLower`, where a capital outside ASCII counts only if its small
letter is in ASCII. -/
def toLower (c : Char) : Char :=
  if 'A' ≤ c ∧ c ≤ 'Z' then Char.ofNat (c.toNat + 32)
  else if c.toNat = 0x212a then 'k'
  else if c.toNat = 0x130 then 'i'
  else c

def sanitizeChar (c : Char) : Char :=
  let c := toLower c
  if ('a' ≤ c ∧ c ≤ 'z') ∨ ('0' ≤ c ∧ c ≤ '9') ∨ c = '.' ∨ c = '_' ∨ c = '-' then c else '-'

/-- Maps any text to an identifier a container may have. -/
def sanitizeName (s : String) : String :=
  let out := (((s.toList.map sanitizeChar).dropWhile (· == '-')).rdropWhile (· == '-'))
  if out = [] then "x" else String.ofList out

def orchContainerName (metadata : Metadata) (workload : String) : String :=
  "orch-" ++ sanitizeName (namespaceOrDefault metadata.nspace) ++ "-" ++ sanitizeName (trimSpace metadata.name) ++
    "-" ++ sanitizeName (trimSpace workload)

/-- The labels a container is found by. -/
structure Labels where
  app : String
  nspace : String
  workload : String
  runtime : String
deriving DecidableEq, Repr

def labelMap (metadata : Metadata) (w : Workload) : Labels :=
  ⟨metadata.name, namespaceOrDefault metadata.nspace, w.name, w.runtime.text⟩

def Labels.pairs (l : Labels) : List (String × String) :=
  [("orch.io/app", l.app), ("orch.io/namespace", l.nspace), ("orch.io/workload", l.workload),
    ("orch.io/runtime", l.runtime)]

/-- Expands short docker.io/library names. -/
def normalizeImageRef (image : String) : String :=
  let image := trimSpace image
  if image = "" ∨ '/' ∈ image.toList then image else "docker.io/library/" ++ image

inductive AssignmentStatus where
  | assigned
  | failed
  | running
  | stopped
  | other (text : String)
deriving DecidableEq, Repr

def AssignmentStatus.text : AssignmentStatus → String
  | .assigned => "assigned"
  | .failed => "failed"
  | .running => "running"
  | .stopped => "stopped"
  | .other text => text

/-- The latest scheduler decision or result for one workload. -/
structure Assignment where
  key : String
  metadata : Metadata
  workload : String
  node : String
  address : String := ""
  runtime : RuntimeKind
  artifact : String := ""
  status : AssignmentStatus
  generation : String := ""
  error : Option Failure := none
deriving DecidableEq, Repr

inductive BindingStatus where
  | bound
  | released
  | failed
deriving DecidableEq, Repr

/-- Where a volume of a workload is attached. -/
structure Binding where
  key : String
  metadata : Metadata
  volume : String
  workload : String
  target : String
  node : String
  runtime : RuntimeKind
  source : String
  persistent : Bool
  sizeBytes : Int
  status : BindingStatus
  generation : String
  error : Option Failure := none
deriving DecidableEq, Repr

def bindingKey (metadata : Metadata) (workloadName volumeName : String) : String :=
  let app := trimSpace metadata.name
  let workload := trimSpace workloadName
  let volume := trimSpace volumeName
  if app = "" ∨ workload = "" ∨ volume = "" then ""
  else namespaceOrDefault metadata.nspace ++ "/" ++ app ++ "/" ++ workload ++ "/" ++ volume

theorem append_right_cancel {a b c : String} (same : a ++ b = a ++ c) : b = c := by
  have chars := congrArg String.toList same
  simp only [String.toList_append, List.append_cancel_left_eq] at chars
  exact String.toList_inj.mp chars

theorem WorkloadId.key_inj {nspace app v w : String} (named : app ≠ "") (left : v ≠ "") (right : w ≠ "")
    (same : (WorkloadId.mk nspace app v).key = (WorkloadId.mk nspace app w).key) : v = w := by
  simp only [WorkloadId.key, named, left, right, or_self, if_false] at same
  exact append_right_cancel same

theorem append_slash_trimmed {a b : String} (left : trimSpace a = a) (right : trimSpace b = b) (nonempty : a ≠ "")
    (present : b ≠ "") : trimSpace (a ++ "/" ++ b) = a ++ "/" ++ b := by
  have slash : trimSpace (a ++ "/") = a ++ "/" := trimSpace_append left (by decide +kernel) nonempty (by decide)
  refine trimSpace_append slash right ?_ present
  intro empty
  simpa using congrArg String.toList empty

@[simp] theorem trimSpace_assignmentKey (metadata : Metadata) (workloadName : String) :
    trimSpace (assignmentKey metadata workloadName) = assignmentKey metadata workloadName := by
  unfold assignmentKey WorkloadId.key
  split
  · decide +kernel
  rename_i present
  simp only [workloadId, not_or] at present ⊢
  have head : trimSpace (namespaceOrDefault metadata.nspace ++ "/" ++ trimSpace metadata.name) =
      namespaceOrDefault metadata.nspace ++ "/" ++ trimSpace metadata.name :=
    append_slash_trimmed (trimSpace_namespaceOrDefault _) (trimSpace_trimSpace _)
      (namespaceOrDefault_ne_empty _) present.1
  refine append_slash_trimmed head (trimSpace_trimSpace _) ?_ present.2
  intro empty
  simpa using congrArg String.toList empty

@[simp] theorem trimSpace_bindingKey (metadata : Metadata) (workloadName volumeName : String) :
    trimSpace (bindingKey metadata workloadName volumeName) = bindingKey metadata workloadName volumeName := by
  unfold bindingKey
  dsimp only
  split
  · decide +kernel
  rename_i present
  simp only [not_or] at present
  have nonempty (a b : String) : a ++ "/" ++ b ≠ "" := by
    intro empty
    simpa using congrArg String.toList empty
  have app := append_slash_trimmed (trimSpace_namespaceOrDefault metadata.nspace) (trimSpace_trimSpace metadata.name)
    (namespaceOrDefault_ne_empty _) present.1
  have workload := append_slash_trimmed app (trimSpace_trimSpace workloadName) (nonempty _ _) present.2.1
  exact append_slash_trimmed workload (trimSpace_trimSpace volumeName) (nonempty _ _) present.2.2

theorem WorkloadId.key_ne_empty {id : WorkloadId} (named : id.app ≠ "") (present : id.workload ≠ "") : id.key ≠ "" := by
  simp only [WorkloadId.key, named, present, or_self, if_false]
  intro empty
  have chars := congrArg String.toList empty
  simp at chars

theorem assignmentKey_ne_empty {metadata : Metadata} {workloadName : String} (named : trimSpace metadata.name ≠ "")
    (present : trimSpace workloadName ≠ "") : assignmentKey metadata workloadName ≠ "" :=
  WorkloadId.key_ne_empty named present

theorem assignmentKey_blank {metadata : Metadata} {workloadName : String} (blank : trimSpace workloadName = "") :
    assignmentKey metadata workloadName = "" := by
  simp [assignmentKey, workloadId, WorkloadId.key, blank]

end Orch
