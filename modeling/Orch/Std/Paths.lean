import Orch.Std.Words

namespace Paths

abbrev Segment := List Char

/-- A segment after those that are kept, the last of which stands first. -/
def keep (rooted : Bool) (kept : List Segment) (segment : Segment) : List Segment :=
  if segment = [] ∨ segment = ['.'] then kept
  else if segment = ['.', '.'] then
    match kept with
    | [] => if rooted then [] else [segment]
    | last :: rest => if last = ['.', '.'] then segment :: kept else rest
  else segment :: kept

def segments (rooted : Bool) (path : List Char) : List Segment :=
  ((path.splitOn '/').foldl (keep rooted) []).reverse

/-- The shortest path with the same meaning, as in `path.Clean`. -/
def clean : List Char → List Char
  | [] => ['.']
  | '/' :: rest => '/' :: ['/'].intercalate (segments true rest)
  | path =>
    match segments false path with
    | [] => ['.']
    | kept => ['/'].intercalate kept

/-- A segment that cleaning a rooted path leaves alone. -/
structure Plain (segment : Segment) : Prop where
  nonempty : segment ≠ []
  notHere : segment ≠ ['.']
  notUp : segment ≠ ['.', '.']

variable {rooted : Bool} {segment : Segment}

theorem keep_plain (plain : Plain segment) (kept : List Segment) :
    keep rooted kept segment = segment :: kept := by
  unfold keep
  rw [if_neg (not_or.mpr ⟨plain.nonempty, plain.notHere⟩), if_neg plain.notUp]

theorem foldl_keep_plain :
    ∀ {added kept : List Segment}, (∀ s ∈ added, Plain s) → added.foldl (keep rooted) kept = added.reverse ++ kept
  | [], _, _ => rfl
  | s :: added, kept, plain => by
    rw [List.foldl_cons, keep_plain (plain s List.mem_cons_self),
      foldl_keep_plain fun t member => plain t (List.mem_cons_of_mem _ member)]
    simp

variable {s : Segment}

theorem mem_keep_true {kept : List Segment} (member : s ∈ keep true kept segment) :
    s ∈ kept ∨ s = segment ∧ Plain s := by
  unfold keep at member
  split at member
  · exact .inl member
  rename_i present
  rw [not_or] at present
  split at member
  · cases kept with
    | nil => cases member
    | cons last rest =>
      dsimp only at member
      split at member
      · rename_i up twice
        rcases List.mem_cons.mp member with rfl | earlier
        · exact .inl (by rw [up, ← twice]; exact List.mem_cons_self)
        · exact .inl earlier
      · exact .inl (List.mem_cons_of_mem _ member)
  · rename_i notUp
    rcases List.mem_cons.mp member with rfl | earlier
    · exact .inr ⟨rfl, present.1, present.2, notUp⟩
    · exact .inl earlier

variable {path : List Char}

theorem mem_segments (member : s ∈ segments true path) :
    Plain s ∧ s ∈ path.splitOn '/' := by
  have each : ∀ (added kept : List Segment), s ∈ added.foldl (keep true) kept → s ∈ kept ∨ Plain s ∧ s ∈ added := by
    intro added
    induction added with
    | nil => exact fun kept member => .inl member
    | cons first added ih =>
      intro kept member
      rcases ih _ member with kept | ⟨plain, later⟩
      · rcases mem_keep_true kept with earlier | ⟨rfl, plain⟩
        · exact .inl earlier
        · exact .inr ⟨plain, List.mem_cons_self⟩
      · exact .inr ⟨plain, List.mem_cons_of_mem _ later⟩
  rcases each _ [] (List.mem_reverse.mp member) with nowhere | found
  · cases nowhere
  · exact found

theorem segments_of_plain (plain : ∀ s ∈ path.splitOn '/', Plain s) :
    segments rooted path = path.splitOn '/' := by
  rw [segments, foldl_keep_plain plain]
  simp

theorem splitOn_intercalate_segments (some : segments true path ≠ []) :
    (['/'].intercalate (segments true path)).splitOn '/' = segments true path :=
  List.splitOn_intercalate '/' (fun _ member => Words.notMem_of_mem_splitOn (mem_segments member).2) some

theorem clean_eq_self_iff :
    clean ('/' :: path) = '/' :: path ↔ path = [] ∨ ∀ s ∈ path.splitOn '/', Plain s := by
  constructor
  · intro same
    have joined : ['/'].intercalate (segments true path) = path := (List.cons.inj same).2
    by_cases none : segments true path = []
    · exact .inl (by rw [← joined, none]; rfl)
    · right
      rw [← joined, splitOn_intercalate_segments none]
      exact fun s member => (mem_segments member).1
  · rintro (rfl | plain)
    · rfl
    · rw [clean, segments_of_plain plain, List.intercalate_splitOn]

theorem clean_upto {base : List Char} (same : clean ('/' :: path) = '/' :: path) (inside : base ++ ['/'] <+: path) :
    clean ('/' :: base) = '/' :: base := by
  obtain ⟨rest, rfl⟩ := inside
  rw [List.append_assoc, List.singleton_append] at same
  rcases clean_eq_self_iff.mp same with empty | plain
  · simp at empty
  · rw [List.splitOn_append_cons_self] at plain
    exact clean_eq_self_iff.mpr (.inr fun s member => plain s (List.mem_append_left _ member))

theorem clean_clean (path : List Char) : clean (clean ('/' :: path)) = clean ('/' :: path) := by
  by_cases none : segments true path = []
  · rw [clean, none]
    rfl
  · refine clean_eq_self_iff.mpr (.inr ?_)
    rw [splitOn_intercalate_segments none]
    exact fun s member => (mem_segments member).1

/-- A text without the slashes around it. -/
def trim (path : List Char) : List Char := (path.dropWhile (· == '/')).rdropWhile (· == '/')

theorem foldl_keep_core (added kept : List Segment) :
    (Words.core added).foldl (keep rooted) kept = added.foldl (keep rooted) kept := by
  have front : ∀ words : List Segment, (words.dropWhile (·.isEmpty)).foldl (keep rooted) kept = words.foldl (keep rooted) kept := by
    intro words
    induction words with
    | nil => rfl
    | cons word words ih =>
      cases word with
      | nil => exact ih
      | cons c word => rfl
  have back : ∀ words : List Segment, (words.rdropWhile (·.isEmpty)).foldl (keep rooted) kept = words.foldl (keep rooted) kept := by
    intro words
    induction words using List.reverseRecOn with
    | nil => rfl
    | append_singleton words word ih =>
      cases word with
      | nil =>
        rw [List.rdropWhile_concat_pos _ _ _ rfl, ih, List.foldl_append]
        rfl
      | cons c word => rw [List.rdropWhile_concat_neg _ _ _ (by simp)]
  rw [Words.core, back, front]

theorem clean_trim (path : List Char) : clean ('/' :: trim path) = clean ('/' :: path) := by
  have same : segments true (trim path) = segments true path := by
    rw [segments, segments, ← foldl_keep_core (path.splitOn '/'), Words.core_splitOn]
    by_cases empty : (path.dropWhile (· == '/')).rdropWhile (· == '/') = []
    · rw [trim, if_pos empty, empty]
      rfl
    · rw [if_neg empty, trim]
  rw [clean, clean, same]

def parts : List Char → List Segment
  | '/' :: rest => segments true rest
  | path => segments false path

theorem clean_eq_parts (nonempty : parts path ≠ []) :
    clean path = (if path.head? = some '/' then ['/'] else []) ++ ['/'].intercalate (parts path) := by
  unfold clean
  split
  · exact absurd rfl nonempty
  · rfl
  · rename_i none unrooted
    have plain : parts path = segments false path := by
      unfold parts
      split
      · exact (unrooted _ rfl).elim
      · rfl
    have start : path.head? ≠ some '/' := by
      intro here
      obtain ⟨rest, same⟩ := List.head?_eq_some_iff.mp here
      exact unrooted rest same
    rw [plain] at nonempty
    rw [if_neg start, plain]
    split
    · rename_i empty
      exact absurd empty nonempty
    · rfl

variable {added : List Segment}

theorem segments_append (free : ∀ s ∈ added, '/' ∉ s) (some : added ≠ []) :
    segments rooted (path ++ '/' :: ['/'].intercalate added) =
      (added.foldl (keep rooted) ((path.splitOn '/').foldl (keep rooted) [])).reverse := by
  rw [segments, List.splitOn_append_cons_self, List.splitOn_intercalate '/' free some, List.foldl_append]

theorem segments_append_plain (plain : ∀ s ∈ added, Plain s) (free : ∀ s ∈ added, '/' ∉ s) (some : added ≠ []) :
    segments rooted (path ++ '/' :: ['/'].intercalate added) = segments rooted path ++ added := by
  rw [segments_append free some, foldl_keep_plain plain, segments]
  simp

theorem segments_slash (path : List Char) : segments rooted (path ++ ['/']) = segments rooted path := by
  rw [segments, List.splitOn_append_cons_self, List.foldl_append, segments]
  rfl

theorem parts_append (start : path ≠ []) (rest : List Char) :
    (∃ tail, path = '/' :: tail ∧ parts path = segments true tail ∧ parts (path ++ rest) = segments true (tail ++ rest)) ∨
      parts path = segments false path ∧ parts (path ++ rest) = segments false (path ++ rest) := by
  cases path with
  | nil => exact absurd rfl start
  | cons c tail =>
    by_cases root : c = '/'
    · subst root
      exact .inl ⟨tail, rfl, rfl, rfl⟩
    · refine .inr ⟨?_, ?_⟩
      · unfold parts
        split
        · rename_i same
          exact absurd (List.cons.inj same).1 root
        · rfl
      · unfold parts
        split
        · rename_i same
          exact absurd (List.cons.inj same).1 root
        · rfl

theorem parts_append_plain {s : List Char} (start : path ≠ []) (plain : Plain s) (free : '/' ∉ s) :
    parts (path ++ '/' :: s) = parts path ++ [s] := by
  have one : ∀ {rooted : Bool} {path : List Char}, segments rooted (path ++ '/' :: s) = segments rooted path ++ [s] := by
    intro rooted path
    have joined : s = ['/'].intercalate [s] := List.intercalate_singleton.symm
    nth_rewrite 1 [joined]
    exact segments_append_plain (by simpa using plain) (by simpa using free) (List.cons_ne_nil s [])
  rcases parts_append start ('/' :: s) with ⟨tail, -, here, there⟩ | ⟨here, there⟩ <;> rw [here, there, one]

theorem parts_append_here (start : path ≠ []) : parts (path ++ ['/', '.']) = parts path := by
  have one : ∀ {rooted : Bool} {path : List Char}, segments rooted (path ++ ['/', '.']) = segments rooted path := by
    intro rooted path
    have here : path ++ ['/', '.'] = path ++ '/' :: ['/'].intercalate [['.']] := by simp
    rw [here, segments_append (by simp) (by simp), segments]
    simp [keep]
  rcases parts_append start ['/', '.'] with ⟨tail, -, here, there⟩ | ⟨here, there⟩ <;> rw [here, there, one]

theorem parts_append_up {s : List Char} (start : path ≠ []) (plain : Plain s) (free : '/' ∉ s) :
    parts (path ++ '/' :: s ++ ['/', '.', '.']) = parts path := by
  have back : ∀ {rooted : Bool} {path : List Char},
      segments rooted (path ++ ('/' :: s ++ ['/', '.', '.'])) = segments rooted path := by
    intro rooted path
    have joined : path ++ ('/' :: s ++ ['/', '.', '.']) = path ++ '/' :: ['/'].intercalate [s, ['.', '.']] := by
      simp [List.intercalate]
    rw [joined, segments_append (by simp [free]) (by simp), List.foldl_cons, keep_plain plain, segments]
    simp [keep, plain.notUp]
  rw [List.append_assoc]
  rcases parts_append start ('/' :: s ++ ['/', '.', '.']) with ⟨tail, -, here, there⟩ | ⟨here, there⟩ <;>
    rw [here, there, back]

theorem intercalate_append {before after : List Segment} (nonempty : before ≠ []) (more : after ≠ []) :
    ['/'].intercalate (before ++ after) = ['/'].intercalate before ++ '/' :: ['/'].intercalate after := by
  induction before with
  | nil => exact absurd rfl nonempty
  | cons first rest ih =>
    cases rest with
    | nil =>
      obtain ⟨second, after, rfl⟩ := List.exists_cons_of_ne_nil more
      simp [List.intercalate_cons_cons]
    | cons second rest =>
      have shorter := ih (List.cons_ne_nil second rest)
      simp only [List.cons_append, List.intercalate_cons_cons] at shorter ⊢
      rw [shorter]
      simp

/-- Below a path that ends in a plain segment, a plain segment is just added. -/
theorem clean_append_plain {s : List Char} (ends : parts path ≠ []) (start : path ≠ []) (plain : Plain s)
    (free : '/' ∉ s) : clean (path ++ '/' :: s) = clean path ++ '/' :: s := by
  have longer := parts_append_plain start plain free
  have head : (path ++ '/' :: s).head? = path.head? := List.head?_append_of_ne_nil _ start
  rw [clean_eq_parts (by simp [longer]), clean_eq_parts ends, longer, head]
  simp [intercalate_append ends]

/-- A path below another, with nothing in it that leads up again. -/
def Below (dir path : List Char) : Prop :=
  ∃ rest : List Segment, rest ≠ [] ∧ (∀ s ∈ rest, Plain s) ∧ path = dir ++ '/' :: ['/'].intercalate rest

theorem Below.longer {dir : List Char} (below : Below dir path) : dir.length < path.length := by
  obtain ⟨rest, -, -, rfl⟩ := below
  simp

theorem mem_keep {kept : List Segment} (member : s ∈ keep rooted kept segment) :
    s ∈ kept ∨ s = segment ∧ s ≠ [] := by
  unfold keep at member
  split at member
  · exact .inl member
  rename_i present
  rw [not_or] at present
  have here : s = segment → s ∈ kept ∨ s = segment ∧ s ≠ [] := fun same => .inr ⟨same, same ▸ present.1⟩
  split at member
  · cases kept with
    | nil =>
      cases rooted with
      | true => cases member
      | false => exact here (List.mem_singleton.mp member)
    | cons last rest =>
      dsimp only at member
      split at member
      · exact (List.mem_cons.mp member).elim here .inl
      · exact .inl (List.mem_cons_of_mem _ member)
  · exact (List.mem_cons.mp member).elim here .inl

theorem mem_foldl_keep : ∀ {added kept : List Segment},
    s ∈ added.foldl (keep rooted) kept → s ∈ kept ∨ s ∈ added ∧ s ≠ []
  | [], _, member => .inl member
  | segment :: added, kept, member => by
    rw [List.foldl_cons] at member
    rcases mem_foldl_keep member with early | ⟨late, present⟩
    · rcases mem_keep early with old | ⟨rfl, present⟩
      · exact .inl old
      · exact .inr ⟨List.mem_cons_self, present⟩
    · exact .inr ⟨List.mem_cons_of_mem _ late, present⟩

theorem segments_proper (member : s ∈ segments rooted path) :
    s ≠ [] ∧ '/' ∉ s := by
  rcases mem_foldl_keep (List.mem_reverse.mp member) with nowhere | ⟨part, present⟩
  · cases nowhere
  · exact ⟨present, Words.notMem_of_mem_splitOn part⟩

theorem around_slash (proper : ∀ s ∈ added, s ≠ [] ∧ '/' ∉ s) {before after : List Char}
    (joined : ['/'].intercalate added = before ++ '/' :: after) : before ≠ [] ∧ after ≠ [] := by
  by_cases none : added = []
  · subst none
    exact absurd joined.symm (by simp [List.intercalate])
  have parted := List.splitOn_intercalate '/' (fun s member => (proper s member).2) none
  rw [joined, List.splitOn_append_cons_self] at parted
  have outside : [] ∉ added := fun member => (proper [] member).1 rfl
  rw [← parted, List.mem_append, not_or] at outside
  refine ⟨?_, ?_⟩
  · rintro rfl
    exact outside.1 List.mem_cons_self
  · rintro rfl
    exact outside.2 List.mem_cons_self

/-- A clean path has one slash in front if it is rooted, and none at its end. -/
theorem clean_slash {before after : List Char} (cleaned : clean path = before ++ '/' :: after) :
    (before = [] → path.head? = some '/' ∧ after.head? ≠ some '/') ∧ (before ≠ [] → after ≠ []) := by
  unfold clean at cleaned
  split at cleaned
  · have member : '/' ∈ ['.'] := cleaned ▸ List.mem_append_right _ List.mem_cons_self
    simp at member
  · next rest =>
    cases before with
    | nil =>
      refine ⟨fun _ => ⟨rfl, fun twice => ?_⟩, fun some => absurd rfl some⟩
      obtain ⟨more, start⟩ := List.head?_eq_some_iff.mp twice
      have joined := (List.cons.inj cleaned).2.trans start
      exact (@around_slash _ (fun s member => segments_proper member) [] more joined).1 rfl
    | cons c before =>
      have joined := (List.cons.inj cleaned).2
      exact ⟨nofun, fun _ => (around_slash (fun s member => segments_proper member) joined).2⟩
  · split at cleaned
    · have member : '/' ∈ ['.'] := cleaned ▸ List.mem_append_right _ List.mem_cons_self
      simp at member
    · obtain ⟨start, final⟩ := around_slash (fun s member => segments_proper member) cleaned
      exact ⟨fun none => absurd none start, fun _ => final⟩

theorem clean_ne_nil (path : List Char) : clean path ≠ [] := by
  unfold clean
  split
  · exact List.cons_ne_nil _ _
  · exact List.cons_ne_nil _ _
  · split
    · exact List.cons_ne_nil _ _
    · rename_i some
      obtain ⟨first, rest, kept⟩ := List.exists_cons_of_ne_nil some
      have present : first ≠ [] := (segments_proper (kept ▸ List.mem_cons_self)).1
      rw [kept]
      cases rest with
      | nil => simpa using present
      | cons second rest => simp [List.intercalate_cons_cons, present]

theorem clean_append_of_parts {rest : List Char} (start : path ≠ []) (ends : parts path ≠ [])
    (same : parts (path ++ rest) = parts path) : clean (path ++ rest) = clean path := by
  rw [clean_eq_parts (by rw [same]; exact ends), clean_eq_parts ends, same, List.head?_append_of_ne_nil _ start]

/-- A segment added to a path leads below it, unless it is a dot or two. -/
theorem below_clean_append_iff {name s : List Char} (start : path ≠ []) (ends : parts path ≠ []) (plain : Plain name)
    (clear : '/' ∉ name) (nonempty : s ≠ []) (free : '/' ∉ s) :
    Below (clean (path ++ '/' :: name)) (clean (path ++ '/' :: name ++ '/' :: s)) ↔ s ≠ ['.'] ∧ s ≠ ['.', '.'] := by
  have begun : path ++ '/' :: name ≠ [] := by simp
  have inner : parts (path ++ '/' :: name) ≠ [] := by
    rw [parts_append_plain start plain clear]
    simp
  constructor
  · intro below
    have longer := below.longer
    refine ⟨?_, ?_⟩
    · rintro rfl
      rw [clean_append_of_parts begun inner (parts_append_here begun)] at longer
      exact absurd longer (Nat.lt_irrefl _)
    · rintro rfl
      have up := parts_append_up start plain clear
      rw [List.append_assoc] at up longer
      rw [clean_append_of_parts start ends up, clean_append_plain ends start plain clear, List.length_append] at longer
      omega
  · rintro ⟨notHere, notUp⟩
    refine ⟨[s], by simp, by simpa using ⟨nonempty, notHere, notUp⟩, ?_⟩
    rw [clean_append_plain inner begun ⟨nonempty, notHere, notUp⟩ free]
    simp

end Paths
