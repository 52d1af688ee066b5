import Mathlib.Data.List.DropRight

namespace Words

variable {α : Type} [DecidableEq α]

variable {x : α} {word : List α}

theorem notMem_of_mem_splitOn {text : List α} (member : word ∈ text.splitOn x) : x ∉ word := by
  induction text generalizing word with
  | nil =>
    rw [List.splitOn_nil, List.mem_singleton] at member
    simp [member]
  | cons c text ih =>
    rw [List.splitOn_cons_eq_if_modifyHead] at member
    obtain ⟨first, rest, split⟩ := List.exists_cons_of_ne_nil (List.splitOn_ne_nil x text)
    rw [split] at member ih
    split at member
    · rcases List.mem_cons.mp member with rfl | later
      · exact List.not_mem_nil
      · exact ih later
    · rename_i other
      rcases List.mem_cons.mp member with rfl | later
      · have distinct : x ≠ c := fun same => other (by simp [same])
        exact List.not_mem_cons_of_ne_of_not_mem distinct (ih List.mem_cons_self)
      · exact ih (List.mem_cons_of_mem _ later)

theorem splitOn_inj {a b : List α} : a.splitOn x = b.splitOn x ↔ a = b := by
  refine ⟨fun same => ?_, congrArg _⟩
  calc
    a = [x].intercalate (a.splitOn x) := (List.intercalate_splitOn x).symm
    _ = [x].intercalate (b.splitOn x) := by rw [same]
    _ = b := List.intercalate_splitOn x

/-- A map that turns some letters into the separator and leaves the others
alone splits the text at those letters. -/
theorem splitOn_map {p : α → Bool} {f : α → α} (cut : ∀ c, p c = true → f c = x)
    (left : ∀ c, p c = false → f c = c ∧ c ≠ x) (text : List α) : (text.map f).splitOn x = text.splitOnP p := by
  induction text with
  | nil => rfl
  | cons c text ih =>
    rw [List.splitOn] at ih
    rw [List.map_cons, List.splitOn, List.splitOnP_cons_eq_if_modifyHead, List.splitOnP_cons_eq_if_modifyHead, ih]
    cases cutHere : p c with
    | true => simp [cut c cutHere]
    | false => simp [(left c cutHere).1, (left c cutHere).2]

theorem splitOn_concat_self (text : List α) (x : α) : (text ++ [x]).splitOn x = text.splitOn x ++ [[]] :=
  List.splitOn_append_cons_self text []

theorem splitOn_concat {c : α} (other : c ≠ x) (text : List α) :
    ∃ words word, (text ++ [c]).splitOn x = words ++ [word ++ [c]] := by
  induction text with
  | nil => exact ⟨[], [], by simp [List.splitOn, List.splitOnP_cons_eq_if_modifyHead, other]⟩
  | cons first text ih =>
    obtain ⟨words, word, split⟩ := ih
    rw [List.splitOn] at split
    rw [List.cons_append, List.splitOn, List.splitOnP_cons_eq_if_modifyHead, split]
    by_cases same : first = x
    · exact ⟨[] :: words, word, by simp [same]⟩
    · cases words with
      | nil => exact ⟨[], first :: word, by simp [same]⟩
      | cons next words => exact ⟨(first :: next) :: words, word, by simp [same]⟩

theorem dropWhile_splitOn (x : α) (text : List α) :
    (text.splitOn x).dropWhile (·.isEmpty) =
      if text.dropWhile (· == x) = [] then [] else (text.dropWhile (· == x)).splitOn x := by
  induction text with
  | nil => rfl
  | cons c text ih =>
    by_cases same : c = x
    · have split : (c :: text).splitOn x = [] :: text.splitOn x := by
        simp [List.splitOn, List.splitOnP_cons_eq_if_modifyHead, same]
      rw [split, List.dropWhile_cons_of_pos rfl, ih, List.dropWhile_cons_of_pos (by simp [same])]
    · have split : ∃ word words, (c :: text).splitOn x = (c :: word) :: words := by
        rw [List.splitOn, List.splitOnP_cons_eq_if_modifyHead]
        obtain ⟨word, words, rest⟩ := List.exists_cons_of_ne_nil (List.splitOnP_ne_nil (· == x) text)
        exact ⟨word, words, by simp [same, rest]⟩
      obtain ⟨word, words, split⟩ := split
      rw [List.dropWhile_cons_of_neg (by simp [same]), if_neg (by simp), split,
        List.dropWhile_cons_of_neg (by simp)]

theorem rdropWhile_splitOn (x : α) (text : List α) :
    (text.splitOn x).rdropWhile (·.isEmpty) =
      if text.rdropWhile (· == x) = [] then [] else (text.rdropWhile (· == x)).splitOn x := by
  induction text using List.reverseRecOn with
  | nil => rfl
  | append_singleton text c ih =>
    by_cases same : c = x
    · subst same
      rw [splitOn_concat_self, List.rdropWhile_concat_pos _ _ _ rfl, ih, List.rdropWhile_concat_pos _ _ _ (by simp)]
    · obtain ⟨words, word, split⟩ := splitOn_concat same text
      rw [List.rdropWhile_concat_neg _ _ _ (by simp [same]), if_neg (by simp), split,
        List.rdropWhile_concat_neg _ _ _ (by simp)]

/-- The words of a text, without the empty ones at its ends. -/
def core (words : List (List α)) : List (List α) :=
  (words.dropWhile (·.isEmpty)).rdropWhile (·.isEmpty)

theorem core_splitOn (x : α) (text : List α) :
    core (text.splitOn x) =
      if (text.dropWhile (· == x)).rdropWhile (· == x) = [] then []
      else ((text.dropWhile (· == x)).rdropWhile (· == x)).splitOn x := by
  rw [core, dropWhile_splitOn]
  split
  · next empty => simp [empty]
  · exact rdropWhile_splitOn x _

omit [DecidableEq α] in
/-- A text without the separator ends a joined text exactly when it ends its
last part. -/
theorem suffix_append_cons {ending : List α} (clean : x ∉ ending) (front word : List α) :
    ending <:+ front ++ x :: word ↔ ending <:+ word := by
  refine ⟨fun ends => ?_, fun ends => ends.trans ⟨front ++ [x], by simp⟩⟩
  have word_ends : x :: word <:+ front ++ x :: word := List.suffix_append _ _
  rcases List.suffix_or_suffix_of_suffix ends word_ends with inside | inside
  · rcases List.suffix_cons_iff.mp inside with same | inside
    · exact absurd (same ▸ List.mem_cons_self) clean
    · exact inside
  · exact absurd (inside.subset List.mem_cons_self) clean

omit [DecidableEq α] in
theorem exists_last_cut {text : List α} (member : x ∈ text) :
    ∃ front word, text = front ++ x :: word ∧ x ∉ word := by
  obtain ⟨word, front, reversed, clean⟩ := List.eq_append_cons_of_mem (List.mem_reverse.mpr member)
  refine ⟨front.reverse, word.reverse, ?_, by simpa using clean⟩
  rw [← List.reverse_reverse text, reversed]
  simp

theorem splitOn_last_cut (clean : x ∉ word) (front : List α) :
    (front ++ x :: word).splitOn x = front.splitOn x ++ [word] := by
  rw [List.splitOn_append_cons_self, List.splitOn_eq_singleton clean]

omit [DecidableEq α] in
/-- A word is left when the letters at the ends of a text are dropped exactly
when it stands between such letters. -/
theorem strip_eq_iff {p : α → Bool} (text : List α) (head : ∀ c ∈ word.head?, p c = false)
    (last : ∀ c ∈ word.getLast?, p c = false) (nonempty : word ≠ []) :
    (text.dropWhile p).rdropWhile p = word ↔
      ∃ before after, text = before ++ word ++ after ∧ ∀ c ∈ before ++ after, p c = true := by
  constructor
  · intro stripped
    refine ⟨text.takeWhile p, (text.dropWhile p).rtakeWhile p, ?_, ?_⟩
    · rw [← stripped, List.append_assoc, List.rdropWhile_append_rtakeWhile, List.takeWhile_append_dropWhile]
    · intro c member
      rcases List.mem_append.mp member with first | final
      · exact List.mem_takeWhile_imp first
      · exact List.mem_rtakeWhile_imp final
  · rintro ⟨before, after, rfl, cut⟩
    have first : ∀ c ∈ before, p c = true := fun c member => cut c (List.mem_append_left _ member)
    have final : ∀ c ∈ after, p c = true := fun c member => cut c (List.mem_append_right _ member)
    obtain ⟨c, rest, rfl⟩ := List.exists_cons_of_ne_nil nonempty
    have kept : ((before ++ c :: rest ++ after).dropWhile p) = c :: rest ++ after := by
      rw [List.append_assoc, List.dropWhile_append_of_pos first]
      simp [head c rfl]
    have whole : (c :: rest).rdropWhile p = c :: rest :=
      List.rdropWhile_eq_self_iff.mpr fun hl => by simp [last _ (List.getLast?_eq_getLast_of_ne_nil hl)]
    rw [kept, List.rdropWhile, List.reverse_append,
      List.dropWhile_append_of_pos fun c member => final c (List.mem_reverse.mp member)]
    exact whole

omit [DecidableEq α] in
theorem strip_strip (p : α → Bool) (text : List α) :
    ((((text.dropWhile p).rdropWhile p).dropWhile p).rdropWhile p) = (text.dropWhile p).rdropWhile p := by
  have kept : ((text.dropWhile p).rdropWhile p).dropWhile p = (text.dropWhile p).rdropWhile p := by
    rw [List.dropWhile_eq_self_iff]
    intro nonempty
    have inside : (text.dropWhile p).rdropWhile p <+: text.dropWhile p := List.rdropWhile_prefix _ _
    rw [inside.getElem nonempty]
    exact List.dropWhile_get_zero_not _ text (Nat.lt_of_lt_of_le nonempty inside.length_le)
  rw [kept]
  exact List.rdropWhile_idempotent _ _

omit [DecidableEq α] in
theorem strip_eq_self_iff {p : α → Bool} {text : List α} :
    (text.dropWhile p).rdropWhile p = text ↔
      (∀ c, text.head? = some c → p c = false) ∧ (∀ c, text.getLast? = some c → p c = false) := by
  constructor
  · intro same
    have front : text.dropWhile p = text := by
      refine (List.dropWhile_suffix _).eq_of_length_le ?_
      calc text.length = ((text.dropWhile p).rdropWhile p).length := by rw [same]
        _ ≤ (text.dropWhile p).length := (List.rdropWhile_prefix _ _).length_le
    have back : text.rdropWhile p = text := by rwa [front] at same
    constructor
    · intro c head
      cases text with
      | nil => cases head
      | cons first rest =>
        cases head
        simpa using List.dropWhile_eq_self_iff.mp front
    · intro c last
      have nonempty : text ≠ [] := by
        rintro rfl
        cases last
      rw [List.getLast?_eq_some_getLast nonempty, Option.some.injEq] at last
      simpa [last] using List.rdropWhile_eq_self_iff.mp back nonempty
  · rintro ⟨head, last⟩
    have front : text.dropWhile p = text := by
      rw [List.dropWhile_eq_self_iff]
      intro nonempty
      cases text with
      | nil => cases nonempty
      | cons first rest => simpa using head first rfl
    rw [front, List.rdropWhile_eq_self_iff]
    intro nonempty
    simpa using last _ (List.getLast?_eq_some_getLast nonempty)

end Words
