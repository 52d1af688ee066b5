import Mathlib.Data.List.Basic

namespace Orch

/-- An argument of a format string. -/
inductive Arg where
  | text (s : String)
  | number (n : Int)
deriving DecidableEq, Repr

/-- An error value, kept as the format and the arguments it was built from. -/
inductive Failure where
  | errorf (format : String) (args : List Arg := [])
  | wrapf (cause : Failure) (format : String) (args : List Arg := [])
  | appended (message : Failure) (between : String) (cause : Failure)
  | deadlineExceeded
deriving DecidableEq, Repr

abbrev Check := Except Failure Unit

def Check.pass : Check := .ok ()

def Check.fail (format : String) (args : List Arg := []) : Check := .error (.errorf format args)

/-- `Wrapf` around a check, with nothing to wrap when it passes. -/
def Check.wrap (check : Check) (format : String) (args : List Arg := []) : Check :=
  match check with
  | .ok _ => .ok ()
  | .error cause => .error (.wrapf cause format args)

/-- Check the elements from the given index on, up to the first that fails. -/
def checkFrom {α : Type} (check : Nat → α → Check) : Nat → List α → Check
  | _, [] => .ok ()
  | i, x :: xs => do
    check i x
    checkFrom check (i + 1) xs

def checkEach {α : Type} (xs : List α) (check : Nat → α → Check) : Check :=
  checkFrom check 0 xs

theorem Except.bind_ok {ε α β : Type} {first : Except ε α} {rest : α → Except ε β} {b : β}
    (run : first >>= rest = .ok b) : ∃ a, first = .ok a ∧ rest a = .ok b := by
  cases first with
  | error err => cases run
  | ok a => exact ⟨a, rfl, run⟩

theorem Check.isOk_iff {check : Check} : check.isOk = true ↔ check = .ok () := by
  cases check with
  | error err => simp [Except.isOk, Except.toBool]
  | ok => simp [Except.isOk, Except.toBool]

theorem checkFrom_ok {α : Type} {check : Nat → α → Check} :
    ∀ {i : Nat} {xs : List α}, checkFrom check i xs = .ok () → ∀ x ∈ xs, ∃ j, check j x = .ok ()
  | _, [], _, x, member => by cases member
  | i, y :: ys, passed, x, member => by
    obtain ⟨_, here, rest⟩ := Except.bind_ok passed
    rcases List.mem_cons.mp member with rfl | later
    · exact ⟨i, here⟩
    · exact checkFrom_ok rest x later

end Orch
