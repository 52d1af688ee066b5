import Orch.Std.Parse
import Orch.Std.Words
import Mathlib.Data.Nat.Digits.Defs

namespace Parse

/-- `net.IP.IsUnspecified`: the unspecified address of IPv6, or that of IPv4
in its mapped form. -/
def Unspecified (bytes : List Nat) : Prop :=
  bytes = List.replicate 16 0 ∨ bytes = List.replicate 10 0 ++ [255, 255] ++ [0, 0, 0, 0]

instance : DecidablePred Unspecified := fun _ => inferInstanceAs (Decidable (_ ∨ _))

theorem splitOn_eq (sep : Char) (s : List Char) : splitOn sep s = s.splitOn sep := by
  induction s with
  | nil => rfl
  | cons c cs ih =>
    obtain ⟨part, parts, split⟩ := List.exists_cons_of_ne_nil (List.splitOn_ne_nil sep cs)
    rw [List.splitOn_cons_eq_if_modifyHead, splitOn, ih, split]
    simp

theorem number_eq (digits : List Char) :
    number digits = Nat.ofDigits 10 (digits.map fun c => (digitValue c).getD 0).reverse := by
  induction digits using List.reverseRecOn with
  | nil => rfl
  | append_singleton digits c ih =>
    rw [List.map_append, List.reverse_append]
    simp only [List.map_cons, List.map_nil, List.reverse_singleton, List.singleton_append, Nat.ofDigits_cons, ← ih]
    rw [number, List.foldl_append, ← number]
    simp only [List.foldl_cons, List.foldl_nil]
    omega

theorem isDigit_iff {c : Char} : isDigit c = true ↔ '0' ≤ c ∧ c ≤ '9' := by
  unfold isDigit digitValue
  split <;> simp [*]

theorem digitValue_of_isDigit {c : Char} (digit : isDigit c = true) :
    '0'.toNat ≤ c.toNat ∧ c.toNat ≤ '9'.toNat ∧ (digitValue c).getD 0 = c.toNat - '0'.toNat := by
  have range := isDigit_iff.mp digit
  refine ⟨range.1, range.2, ?_⟩
  rw [digitValue, if_pos range]
  rfl

theorem digitValue_inj {c d : Char} (left : isDigit c = true) (right : isDigit d = true)
    (same : (digitValue c).getD 0 = (digitValue d).getD 0) : c = d := by
  obtain ⟨low, -, value⟩ := digitValue_of_isDigit left
  obtain ⟨low', -, value'⟩ := digitValue_of_isDigit right
  refine Char.toNat_inj.mp ?_
  omega

variable {digits : List Char} {n : Nat}

theorem octet_eq_some :
    octet digits = some n ↔ digits ≠ [] ∧ (∀ c ∈ digits, isDigit c = true) ∧
      (digits.head? = some '0' → digits.length ≤ 1) ∧ n ≤ 255 ∧ number digits = n := by
  unfold octet
  split
  · rename_i bad
    simp only [reduceCtorEq, false_iff]
    rintro ⟨some, all, leading, small, rfl⟩
    rcases bad with none | other | ⟨long, zero⟩ | large
    · exact some none
    · exact other (List.all_eq_true.mpr all)
    · have := leading zero
      omega
    · omega
  · rename_i good
    push Not at good
    obtain ⟨some, all, leading, small⟩ := good
    rw [Option.some.injEq]
    constructor
    · rintro rfl
      refine ⟨some, List.all_eq_true.mp all, fun zero => ?_, small, rfl⟩
      by_contra long
      exact leading (by omega) zero
    · rintro ⟨-, -, -, -, same⟩
      exact same

theorem octet_digits (parsed : octet digits = some n) (plain : digits.head? ≠ some '0') :
    Nat.digits 10 n = (digits.map fun c => (digitValue c).getD 0).reverse := by
  obtain ⟨some, all, -, -, rfl⟩ := octet_eq_some.mp parsed
  rw [number_eq]
  refine Nat.digits_ofDigits 10 (by decide) _ ?_ ?_
  · intro value member
    obtain ⟨c, inside, rfl⟩ := List.mem_map.mp (List.mem_reverse.mp member)
    obtain ⟨-, high, same⟩ := digitValue_of_isDigit (all c inside)
    have nine : '9'.toNat = 57 := rfl
    have zero : '0'.toNat = 48 := rfl
    omega
  · intro nonempty
    obtain ⟨c, rest, rfl⟩ := List.exists_cons_of_ne_nil some
    simp only [List.map_cons, List.reverse_cons, List.getLast_append_singleton]
    intro zero
    obtain rfl : c = '0' := digitValue_inj (all c List.mem_cons_self) (by decide) zero
    exact plain rfl

theorem octet_zero (parsed : octet digits = some n) (zero : digits.head? = some '0') :
    digits = ['0'] ∧ n = 0 := by
  obtain ⟨-, -, leading, -, rfl⟩ := octet_eq_some.mp parsed
  obtain ⟨rest, rfl⟩ := List.head?_eq_some_iff.mp zero
  obtain rfl : rest = [] := by simpa using leading zero
  exact ⟨rfl, rfl⟩

theorem octet_pos (parsed : octet digits = some n) (plain : digits.head? ≠ some '0') :
    n ≠ 0 := by
  rintro rfl
  have none := octet_digits parsed plain
  rw [Nat.digits_zero, eq_comm, List.reverse_eq_nil_iff, List.map_eq_nil_iff] at none
  exact (octet_eq_some.mp parsed).1 none

theorem map_digitValue_inj : ∀ {a b : List Char}, (∀ c ∈ a, isDigit c = true) → (∀ c ∈ b, isDigit c = true) →
    (a.map fun c => (digitValue c).getD 0) = (b.map fun c => (digitValue c).getD 0) → a = b
  | [], [], _, _, _ => rfl
  | [], _ :: _, _, _, same | _ :: _, [], _, _, same => by cases same
  | c :: a, d :: b, left, right, same => by
    rw [List.map_cons, List.map_cons, List.cons.injEq] at same
    rw [List.forall_mem_cons] at left right
    rw [digitValue_inj left.1 right.1 same.1, map_digitValue_inj left.2 right.2 same.2]

theorem octet_inj {a b : List Char} (left : octet a = some n) (right : octet b = some n) : a = b := by
  by_cases zero : a.head? = some '0'
  · obtain ⟨rfl, rfl⟩ := octet_zero left zero
    by_contra other
    refine octet_pos right (fun again => other ?_) rfl
    exact (octet_zero right again).1.symm
  · have plain : b.head? ≠ some '0' := fun again => octet_pos left zero (octet_zero right again).2
    have same := (octet_digits left zero).symm.trans (octet_digits right plain)
    exact map_digitValue_inj (octet_eq_some.mp left).2.1 (octet_eq_some.mp right).2.1 (List.reverse_injective same)

theorem mapM_inj {α β : Type} {f : α → Option β} (inj : ∀ {a b c}, f a = some c → f b = some c → a = b) :
    ∀ {xs ys : List α} {zs : List β}, xs.mapM f = some zs → ys.mapM f = some zs → xs = ys
  | [], [], _, _, _ => rfl
  | [], y :: ys, zs, left, right | y :: ys, [], zs, right, left => by
    obtain rfl : zs = [] := by simpa using left.symm
    simp [List.mapM_cons, Option.bind_eq_some_iff] at right
  | x :: xs, y :: ys, zs, left, right => by
    simp only [List.mapM_cons, Option.bind_eq_bind, Option.bind_eq_some_iff, Option.pure_def, Option.some.injEq] at left right
    obtain ⟨z, first, rest, later, rfl⟩ := left
    obtain ⟨z', first', rest', later', same⟩ := right
    obtain ⟨rfl, rfl⟩ := List.cons.inj same
    rw [inj first first', mapM_inj inj later later']

theorem ipv4_eq_some {s : List Char} {bytes : List Nat} :
    ipv4 s = some bytes ↔ (splitOn '.' s).mapM octet = some bytes ∧ bytes.length = 4 := by
  unfold ipv4
  split
  · rename_i a b c d parsed
    rw [parsed, Option.some.injEq]
    constructor
    · rintro rfl
      exact ⟨rfl, rfl⟩
    · exact fun same => same.1
  · rename_i other
    simp only [reduceCtorEq, false_iff]
    rintro ⟨parsed, length⟩
    match bytes, length with
    | [a, b, c, d], _ => exact other a b c d parsed

theorem ipv4_inj {s t : List Char} {bytes : List Nat} (left : ipv4 s = some bytes) (right : ipv4 t = some bytes) : s = t := by
  have same := mapM_inj octet_inj (ipv4_eq_some.mp left).1 (ipv4_eq_some.mp right).1
  rw [splitOn_eq, splitOn_eq] at same
  exact Words.splitOn_inj.mp same

section Dotted

variable {s t : String} {bytes : List Nat} (dotted : ':' ∉ s.toList)
include dotted

theorem ip_dotted : ip s = (ipv4 s.toList).map fun bytes => List.replicate 10 0 ++ [255, 255] ++ bytes := by
  rw [ip, if_neg (by simpa using dotted)]

theorem ip_inj_of_dotted (also : ':' ∉ t.toList) (left : ip s = some bytes) (right : ip t = some bytes) : s = t := by
  rw [ip_dotted dotted] at left
  rw [ip_dotted also] at right
  obtain ⟨low, parsed, rfl⟩ := Option.map_eq_some_iff.mp left
  obtain ⟨low', parsed', same⟩ := Option.map_eq_some_iff.mp right
  obtain rfl := List.append_cancel_left same
  exact String.toList_inj.mp (ipv4_inj parsed parsed')

theorem eq_of_unspecified (parsed : ip s = some bytes) (unspecified : Unspecified bytes) : s = "0.0.0.0" := by
  rcases unspecified with rfl | rfl
  · rw [ip_dotted dotted] at parsed
    obtain ⟨low, -, same⟩ := Option.map_eq_some_iff.mp parsed
    have tenth := congrArg (·[10]?) same
    simp at tenth
  · exact ip_inj_of_dotted dotted (by decide) parsed (by decide +kernel)

end Dotted

end Parse
