import Orch.Std.Paths

namespace Orch

/-- The white space of `unicode.IsSpace`. -/
def isSpace (c : Char) : Bool :=
  let n := c.toNat
  n == 0x20 || (0x09 ≤ n && n ≤ 0x0d) || n == 0x85 || n == 0xa0 || n == 0x1680 ||
    (0x2000 ≤ n && n ≤ 0x200a) || n == 0x2028 || n == 0x2029 || n == 0x202f || n == 0x205f || n == 0x3000

def trimChars (chars : List Char) : List Char :=
  (chars.dropWhile isSpace).rdropWhile isSpace

/-- `strings.TrimSpace`. -/
def trimSpace (s : String) : String :=
  String.ofList (trimChars s.toList)

theorem trimChars_trimChars (chars : List Char) : trimChars (trimChars chars) = trimChars chars :=
  Words.strip_strip isSpace chars

@[simp] theorem trimSpace_trimSpace (s : String) : trimSpace (trimSpace s) = trimSpace s := by
  simp only [trimSpace, String.toList_ofList, trimChars_trimChars]

theorem trimSpace_of_all {s : String} (clean : ∀ c ∈ s.toList, isSpace c = false) : trimSpace s = s := by
  have front : s.toList.dropWhile isSpace = s.toList := by
    rw [List.dropWhile_eq_self_iff]
    intro nonempty
    simpa using clean _ (List.getElem_mem nonempty)
  have back : s.toList.rdropWhile isSpace = s.toList := by
    rw [List.rdropWhile_eq_self_iff]
    intro nonempty
    simpa using clean _ (List.getLast_mem nonempty)
  rw [trimSpace, trimChars, front, back, String.ofList_toList]

theorem trimChars_eq_self_iff {chars : List Char} :
    trimChars chars = chars ↔
      (∀ c, chars.head? = some c → isSpace c = false) ∧ (∀ c, chars.getLast? = some c → isSpace c = false) :=
  Words.strip_eq_self_iff

theorem trimSpace_append {a b : String} (left : trimSpace a = a) (right : trimSpace b = b) (nonempty : a ≠ "")
    (present : b ≠ "") : trimSpace (a ++ b) = a ++ b := by
  have chars : ∀ {s : String}, trimSpace s = s → trimChars s.toList = s.toList := by
    intro s same
    simpa [trimSpace] using congrArg String.toList same
  obtain ⟨headA, -⟩ := trimChars_eq_self_iff.mp (chars left)
  obtain ⟨-, lastB⟩ := trimChars_eq_self_iff.mp (chars right)
  have startA : a.toList ≠ [] := by simpa using nonempty
  have startB : b.toList ≠ [] := by simpa using present
  have joined : trimChars (a.toList ++ b.toList) = a.toList ++ b.toList := by
    rw [trimChars_eq_self_iff]
    constructor
    · intro c head
      rw [List.head?_append_of_ne_nil _ startA] at head
      exact headA c head
    · intro c last
      rw [List.getLast?_append_of_ne_nil _ startB] at last
      exact lastB c last
  rw [trimSpace, String.toList_append, joined, ← String.toList_append, String.ofList_toList]

-- Texts are compared and trimmed everywhere; unfolding them while checking a
-- proof leads nowhere.
attribute [irreducible] trimSpace

def rooted (s : String) : Bool := s.toList.head? == some '/'

/-- `path.Clean`. -/
def cleanPath (p : String) : String := String.ofList (Paths.clean p.toList)

theorem rooted_iff {s : String} : rooted s = true ↔ ∃ rest, s.toList = '/' :: rest := by
  rw [rooted, beq_iff_eq, List.head?_eq_some_iff]

theorem rooted_cleanPath {p : String} (root : rooted p = true) : rooted (cleanPath p) = true := by
  obtain ⟨rest, start⟩ := rooted_iff.mp root
  rw [rooted_iff, cleanPath, start, String.toList_ofList]
  exact ⟨_, rfl⟩

theorem cleanPath_cleanPath {p : String} (root : rooted p = true) : cleanPath (cleanPath p) = cleanPath p := by
  obtain ⟨rest, start⟩ := rooted_iff.mp root
  rw [cleanPath, cleanPath, String.toList_ofList, start, Paths.clean_clean]

end Orch
