import Mathlib.Logic.Function.Basic

namespace Index

variable {ι κ β : Type} [DecidableEq ι] [DecidableEq κ]

/-- A table has an entry for exactly the owners that are live, each under its
own key, with its own value. -/
structure Reflects (table : κ → Option β) (live : ι → Option (κ × β)) : Prop where
  present : ∀ i k v, live i = some (k, v) → table k = some v
  owned : ∀ k v, table k = some v → ∃! i, live i = some (k, v)

/-- Set a key, or clear it when there is no value. Without a key nothing is
written. -/
def write (table : κ → Option β) (key : Option κ) (value : Option β) : κ → Option β :=
  match key with
  | none => table
  | some k => Function.update table k value

/-- What the same write means for the owner that makes it. -/
def own (live : ι → Option (κ × β)) (i : ι) (key : Option κ) (value : Option β) : ι → Option (κ × β) :=
  Function.update live i (key.bind fun k => value.map (k, ·))

/-- The key belongs to the live entry of this owner and to no other one. -/
def Unshared (live : ι → Option (κ × β)) (i : ι) (key : Option κ) : Prop :=
  ∀ j k v, live j = some (k, v) → (j = i ↔ some k = key)

variable {table : κ → Option β} {live : ι → Option (κ × β)} {i : ι} {k : κ}

omit [DecidableEq ι] [DecidableEq κ] in
theorem Reflects.key_inj (reflects : Reflects table live) {j : ι} {v v' : β} (left : live i = some (k, v))
    (right : live j = some (k, v')) : i = j := by
  have here := reflects.present i k v left
  have same : v = v' := Option.some.inj (here.symm.trans (reflects.present j k v' right))
  subst same
  exact (reflects.owned k v here).unique left right

omit [DecidableEq ι] [DecidableEq κ] in
theorem reflects_empty : Reflects (fun _ : κ => (none : Option β)) (fun _ : ι => none) :=
  ⟨fun _ _ _ found => absurd found (by simp), fun _ _ found => absurd found (by simp)⟩

variable {key : Option κ} {value : Option β}

omit [DecidableEq ι] in
theorem write_other (other : some k ≠ key) :
    write table key value k = table k := by
  cases key with
  | none => rfl
  | some key => exact Function.update_of_ne (fun same => other (congrArg some same)) _ _

omit [DecidableEq κ] in
theorem own_other {j : ι} (other : j ≠ i) :
    own live i key value j = live j :=
  Function.update_of_ne other _ _

omit [DecidableEq κ] in
theorem own_self {v : β} :
    own live i key value i = some (k, v) ↔ key = some k ∧ value = some v := by
  rw [own, Function.update_self]
  cases key with
  | none => simp
  | some key => cases value <;> simp

/-- A write keeps the table in step with the live owners exactly when its key
is not shared. -/
theorem Reflects.write_iff (reflects : Reflects table live) (i : ι) (key : Option κ) (value : Option β) :
    Reflects (write table key value) (own live i key value) ↔ Unshared live i key := by
  constructor
  · intro after j k v found
    have there := reflects.present j k v found
    constructor
    · rintro rfl
      by_contra other
      -- The old entry is still in the table, and no live owner has it.
      have kept : write table key value k = some v := (write_other other).trans there
      obtain ⟨owner, owns, -⟩ := after.owned k v kept
      rcases eq_or_ne owner j with rfl | apart
      · exact other (own_self.mp owns).1.symm
      · rw [own_other apart] at owns
        exact apart (reflects.key_inj owns found)
    · intro same
      by_contra apart
      have owns : own live i key value j = some (k, v) := (own_other apart).trans found
      have kept := after.present j k v owns
      subst same
      have put : value = some v := by simpa [write] using kept
      exact apart ((after.owned k v kept).unique owns (own_self.mpr ⟨rfl, put⟩))
  · intro unshared
    constructor
    · intro j k v owns
      rcases eq_or_ne j i with rfl | apart
      · obtain ⟨rfl, rfl⟩ := own_self.mp owns
        exact Function.update_self _ _ _
      · rw [own_other apart] at owns
        rw [write_other fun same => apart ((unshared j k v owns).mpr same)]
        exact reflects.present j k v owns
    · intro k v found
      by_cases here : some k = key
      · subst here
        have put : value = some v := by simpa [write] using found
        refine ⟨i, own_self.mpr ⟨rfl, put⟩, fun j owns => ?_⟩
        by_contra apart
        have found : live j = some (k, v) := (own_other apart).symm.trans owns
        exact apart ((unshared j k v found).mpr rfl)
      · rw [write_other here] at found
        obtain ⟨owner, owns, only⟩ := reflects.owned k v found
        have apart : owner ≠ i := fun same => here ((unshared owner k v owns).mp same)
        refine ⟨owner, (own_other apart).trans owns, fun j other => ?_⟩
        rcases eq_or_ne j i with rfl | away
        · exact absurd (own_self.mp other).1.symm here
        · exact only j ((own_other away).symm.trans other)

end Index
