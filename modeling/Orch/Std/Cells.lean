import Mathlib.Logic.Function.Basic

/-! A state of independent cells: each command rewrites the one it is
addressed to, or none. -/

namespace Cells

variable {Address Cell Command : Type} [DecidableEq Address]
variable (address : Command → Option Address) (rewrite : Command → Cell → Cell)

def obey (cells : Address → Cell) (command : Command) : Address → Cell := fun place =>
  if address command = some place then rewrite command (cells place) else cells place

variable {address rewrite} {cells : Address → Cell} {a b : Command}

theorem obey_none (unaddressed : address a = none) : obey address rewrite cells a = cells := by
  funext place
  simp [obey, unaddressed]

/-- Commands for different cells commute. -/
theorem obey_comm (apart : address a = address b → address a = none) :
    obey address rewrite (obey address rewrite cells a) b = obey address rewrite (obey address rewrite cells b) a := by
  funext place
  by_cases first : address a = some place
  · have second : address b ≠ some place := fun same => by
      rw [apart (first.trans same.symm)] at first
      cases first
    simp [obey, first, second]
  · simp [obey, first]

/-- What every rewriting keeps holds of all cells in the end. -/
theorem foldl_keeps {good : Cell → Prop} (kept : ∀ command cell, good cell → good (rewrite command cell))
    (commands : List Command) (start : ∀ place, good (cells place)) (place : Address) :
    good (commands.foldl (obey address rewrite) cells place) := by
  induction commands generalizing cells with
  | nil => exact start place
  | cons command rest ih =>
    refine ih fun place => ?_
    unfold obey
    split
    · exact kept command _ (start place)
    · exact start place

/-- A cell depends on the commands for it only. -/
theorem foldl_obey {place : Address} (commands : List Command) {others : Address → Cell} (same : cells place = others place) :
    commands.foldl (obey address rewrite) cells place =
      (commands.filter fun command => address command = some place).foldl (obey address rewrite) others place := by
  induction commands generalizing cells others with
  | nil => exact same
  | cons command rest ih =>
    by_cases own : address command = some place
    · rw [List.filter_cons_of_pos (by simpa using own)]
      exact ih (by simp [obey, own, same])
    · rw [List.filter_cons_of_neg (by simpa using own)]
      exact ih (by simp [obey, own, same])

end Cells
