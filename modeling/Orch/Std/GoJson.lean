import Orch.Std.JsonText

namespace GoJson

open Json (Token Node)

/-- A character of a Go string, or a byte of it that is part of none. -/
inductive Rune where
  | char (c : Char)
  | stray (byte : Nat)
deriving DecidableEq, Repr

/-- A Go string as a loop over it reads it. -/
abbrev Text := List Rune

/-- What a decoder puts in the place of a byte that is part of no character. -/
def replacement : Char := Char.ofNat 0xfffd

namespace Rune

def bytes : Rune → List Nat
  | .char c => Json.utf8 c
  | .stray byte => [byte]

def token : Rune → Token
  | .char c => some c
  | .stray _ => none

def ofToken (token : Token) : Rune :=
  .char (token.getD replacement)

def IsChar : Rune → Prop
  | .char _ => True
  | .stray _ => False

instance (r : Rune) : Decidable r.IsChar :=
  match r with
  | .char _ => isTrue trivial
  | .stray _ => isFalse id

end Rune

namespace Text

def bytes (s : Text) : List Nat := s.flatMap Rune.bytes

def tokens (s : Text) : List Token := s.map Rune.token

def ofTokens (tokens : List Token) : Text := tokens.map Rune.ofToken

def ofString (s : String) : Text := s.toList.map Rune.char

/-- A text all of whose bytes belong to characters. -/
def Valid (s : Text) : Prop := ∀ r ∈ s, r.IsChar

instance (s : Text) : Decidable s.Valid := inferInstanceAs (Decidable (∀ r ∈ s, r.IsChar))

end Text

/-- A map with text keys: its entries by ascending key, as they are written. -/
@[ext] structure Mapping (α : Type) where
  entries : List (Text × α) := []
  sorted : entries.Pairwise fun x y => x.1.bytes < y.1.bytes := by decide

namespace Mapping

variable {α : Type}

/-- Puts an entry among those that were read after it: of two with one key the
later stands. -/
def put (key : Text) (value : α) : List (Text × α) → List (Text × α)
  | [] => [(key, value)]
  | entry :: rest =>
    if key.bytes < entry.1.bytes then (key, value) :: entry :: rest
    else if entry.1.bytes < key.bytes then entry :: put key value rest
    else entry :: rest

variable {key : Text} {value : α} {entries : List (Text × α)}

theorem mem_put {x : Text × α} (member : x ∈ put key value entries) : x = (key, value) ∨ x ∈ entries := by
  induction entries with
  | nil => exact .inl (List.mem_singleton.mp member)
  | cons entry rest ih =>
    rw [put] at member
    split_ifs at member with before after
    · exact List.mem_cons.mp member
    · rcases List.mem_cons.mp member with rfl | later
      · exact .inr List.mem_cons_self
      · exact (ih later).imp_right (List.mem_cons_of_mem _)
    · exact .inr member

theorem put_ne_nil (key : Text) (value : α) (entries : List (Text × α)) : put key value entries ≠ [] := by
  cases entries with
  | nil => exact List.cons_ne_nil _ _
  | cons entry rest =>
    rw [put]
    split_ifs <;> exact List.cons_ne_nil _ _

theorem sorted_put (sorted : entries.Pairwise fun x y => x.1.bytes < y.1.bytes) :
    (put key value entries).Pairwise fun x y => x.1.bytes < y.1.bytes := by
  induction entries with
  | nil => exact List.pairwise_singleton _ _
  | cons entry rest ih =>
    obtain ⟨least, tail⟩ := List.pairwise_cons.mp sorted
    rw [put]
    split_ifs with before after
    · refine List.pairwise_cons.mpr ⟨?_, sorted⟩
      intro x member
      rcases List.mem_cons.mp member with rfl | later
      · exact before
      · exact List.lt_trans before (least x later)
    · refine List.pairwise_cons.mpr ⟨?_, ih tail⟩
      intro x member
      rcases mem_put member with rfl | later
      · exact after
      · exact least x later
    · exact sorted

theorem put_of_lt (least : ∀ x ∈ entries, key.bytes < x.1.bytes) :
    put key value entries = (key, value) :: entries := by
  cases entries with
  | nil => rfl
  | cons entry rest => rw [put, if_pos (least entry List.mem_cons_self)]

/-- The map that a list of entries leaves behind. -/
def ofList (entries : List (Text × α)) : Mapping α where
  entries := entries.foldr (fun entry rest => put entry.1 entry.2 rest) []
  sorted := by
    induction entries with
    | nil => exact List.Pairwise.nil
    | cons entry rest ih => exact sorted_put ih

theorem mem_ofList {x : Text × α} (member : x ∈ (ofList entries).entries) :
    x ∈ entries := by
  induction entries with
  | nil => exact member
  | cons entry rest ih =>
    rcases mem_put member with rfl | later
    · exact List.mem_cons_self
    · exact List.mem_cons_of_mem _ (ih later)

theorem ofList_entries (sorted : entries.Pairwise fun x y => x.1.bytes < y.1.bytes) :
    (ofList entries).entries = entries := by
  induction entries with
  | nil => rfl
  | cons entry rest ih =>
    obtain ⟨least, tail⟩ := List.pairwise_cons.mp sorted
    change put entry.1 entry.2 (ofList rest).entries = entry :: rest
    rw [ih tail, put_of_lt least]

theorem isEmpty_ofList (entries : List (Text × α)) : (ofList entries).entries.isEmpty = entries.isEmpty := by
  cases entries with
  | nil => rfl
  | cons entry rest =>
    rw [List.isEmpty_cons, List.isEmpty_eq_false_iff]
    exact put_ne_nil _ _ _

end Mapping

/-- When a field of a struct is left out. -/
inductive Tag where
  | always
  | omitEmpty
  | omitZero
deriving DecidableEq, Repr

mutual

/-- The types of the values that are written: pointers are to structs. -/
inductive GoType where
  | text
  | int
  | bool
  | pointer (fields : Layout)
  | slice (elem : GoType)
  | mapping (elem : GoType)
  | struct (fields : Layout)

/-- The fields of a struct in declaration order. -/
inductive Layout where
  | nil
  | cons (name : String) (tag : Tag) (type : GoType) (rest : Layout)

end

mutual

def GoType.Val : GoType → Type
  | .text => Text
  | .int => Int
  | .bool => Bool
  | .pointer fields => Option (Layout.Row fields)
  | .slice elem => Option (List (GoType.Val elem))
  | .mapping elem => Option (Mapping (GoType.Val elem))
  | .struct fields => Layout.Row fields

def Layout.Row : Layout → Type
  | .nil => Unit
  | .cons _ _ type rest => GoType.Val type × Layout.Row rest

end

mutual

def GoType.zero : (t : GoType) → t.Val
  | .text => ([] : Text)
  | .int => (0 : Int)
  | .bool => false
  | .pointer fields => (none : Option fields.Row)
  | .slice elem => (none : Option (List elem.Val))
  | .mapping elem => (none : Option (Mapping elem.Val))
  | .struct fields => Layout.zero fields

def Layout.zero : (fields : Layout) → fields.Row
  | .nil => ()
  | .cons _ _ type rest => (GoType.zero type, Layout.zero rest)

end

mutual

def GoType.isZero : (t : GoType) → t.Val → Bool
  | .text, (s : Text) => s.isEmpty
  | .int, (n : Int) => n == 0
  | .bool, (b : Bool) => !b
  | .pointer _, (p : Option _) => p.isNone
  | .slice _, (xs : Option (List _)) => xs.isNone
  | .mapping _, (m : Option (Mapping _)) => m.isNone
  | .struct fields, row => Layout.isZero fields row

def Layout.isZero : (fields : Layout) → fields.Row → Bool
  | .nil, _ => true
  | .cons _ _ type rest, (v, row) => GoType.isZero type v && Layout.isZero rest row

end

/-- What `omitempty` leaves out: a struct never. -/
def GoType.isEmpty : (t : GoType) → t.Val → Bool
  | .text, (s : Text) => s.isEmpty
  | .int, (n : Int) => n == 0
  | .bool, (b : Bool) => !b
  | .pointer _, (p : Option _) => p.isNone
  | .slice _, (xs : Option (List _)) => (xs.getD []).isEmpty
  | .mapping _, (m : Option (Mapping _)) => (m.elim [] Mapping.entries).isEmpty
  | .struct _, _ => false

def Tag.omits (tag : Tag) (t : GoType) (v : t.Val) : Bool :=
  match tag with
  | .always => false
  | .omitEmpty => t.isEmpty v
  | .omitZero => t.isZero v

mutual

/-- `json.Marshal`, as far as the tree of what it writes. -/
def GoType.encode : (t : GoType) → t.Val → Node
  | .text, (s : Text) => .text s.tokens
  | .int, (n : Int) => .number n
  | .bool, (b : Bool) => .bool b
  | .pointer fields, (p : Option fields.Row) => p.elim .null fun row => .object (Layout.encode fields row)
  | .slice elem, (xs : Option (List elem.Val)) => xs.elim .null fun items => .array (items.map (GoType.encode elem))
  | .mapping elem, (m : Option (Mapping elem.Val)) =>
    m.elim .null fun m => .object (m.entries.map fun entry => (entry.1.tokens, GoType.encode elem entry.2))
  | .struct fields, row => .object (Layout.encode fields row)

def Layout.encode : (fields : Layout) → fields.Row → List (List Token × Node)
  | .nil, _ => []
  | .cons name tag type rest, (v, row) =>
    if tag.omits type v then Layout.encode rest row
    else ((Text.ofString name).tokens, GoType.encode type v) :: Layout.encode rest row

end

mutual

/-- `json.Unmarshal` into a zero value, of a tree that an encoder wrote: every
name of an object stands in it once. -/
def GoType.decode : (t : GoType) → Node → Option t.Val
  | .text, .text s => some (Text.ofTokens s)
  | .int, .number n => some n
  | .bool, .bool b => some b
  | .pointer fields, .object entries => (Layout.decode fields entries).map some
  | .slice elem, .array items => (items.mapM (GoType.decode elem)).map some
  | .mapping elem, .object entries =>
    (entries.mapM fun entry => (GoType.decode elem entry.2).map fun v => (Text.ofTokens entry.1, v)).map
      fun read => some (Mapping.ofList read)
  | .struct fields, .object entries => Layout.decode fields entries
  | t, .null => some t.zero
  | _, _ => none

def Layout.decode : (fields : Layout) → List (List Token × Node) → Option fields.Row
  | .nil, _ => some ()
  | .cons name _ type rest, entries =>
    ((entries.lookup (Text.ofString name).tokens).elim (some type.zero) (GoType.decode type)).bind fun v =>
      (Layout.decode rest entries).map fun row => (v, row)

end

mutual

/-- What a value has become once it was encoded and decoded. -/
def GoType.trip : (t : GoType) → t.Val → t.Val
  | .text, (s : Text) => Text.ofTokens s.tokens
  | .int, n => n
  | .bool, b => b
  | .pointer fields, (p : Option fields.Row) => p.map (Layout.trip fields)
  | .slice elem, (xs : Option (List elem.Val)) => xs.map (List.map (GoType.trip elem))
  | .mapping elem, (m : Option (Mapping elem.Val)) =>
    m.map fun m => Mapping.ofList (m.entries.map fun entry =>
      (Text.ofTokens entry.1.tokens, GoType.trip elem entry.2))
  | .struct fields, row => Layout.trip fields row

def Layout.trip : (fields : Layout) → fields.Row → fields.Row
  | .nil, _ => ()
  | .cons _ tag type rest, (v, row) =>
    (if tag.omits type v then type.zero else GoType.trip type v, Layout.trip rest row)

end

mutual

/-- A value that is written with nothing in it: what is set in it its own tags
leave out. -/
def GoType.isHollow : (t : GoType) → t.Val → Bool
  | .text, (s : Text) => s.isEmpty
  | .int, (n : Int) => n == 0
  | .bool, (b : Bool) => !b
  | .pointer _, (p : Option _) => p.isNone
  | .slice _, (xs : Option (List _)) => xs.isNone
  | .mapping _, (m : Option (Mapping _)) => m.isNone
  | .struct fields, row => Layout.isHollow fields row

def Layout.isHollow : (fields : Layout) → fields.Row → Bool
  | .nil, _ => true
  | .cons _ tag type rest, (v, row) =>
    (tag.omits type v || GoType.isHollow type v) && Layout.isHollow rest row

end

mutual

/-- Of what is written every text is valid, and no field that is to be left
out when zero is hollow without being zero. -/
def GoType.Stable : (t : GoType) → t.Val → Prop
  | .text, (s : Text) => s.Valid
  | .int, _ => True
  | .bool, _ => True
  | .pointer fields, (p : Option fields.Row) => p.elim True (Layout.Stable fields)
  | .slice elem, (xs : Option (List elem.Val)) => xs.elim True fun items => ∀ item ∈ items, GoType.Stable elem item
  | .mapping elem, (m : Option (Mapping elem.Val)) =>
    m.elim True fun m => ∀ entry ∈ m.entries, entry.1.Valid ∧ GoType.Stable elem entry.2
  | .struct fields, row => Layout.Stable fields row

def Layout.Stable : (fields : Layout) → fields.Row → Prop
  | .nil, _ => True
  | .cons _ tag type rest, (v, row) =>
    (tag.omits type v = false → GoType.Stable type v ∧ (tag = .omitZero → GoType.isHollow type v = false)) ∧
      Layout.Stable rest row

end

def Layout.names : Layout → List String
  | .nil => []
  | .cons name _ _ rest => name :: rest.names

mutual

/-- No struct names a field twice. -/
def GoType.wellNamed : GoType → Bool
  | .text => true
  | .int => true
  | .bool => true
  | .pointer fields => Layout.wellNamed fields
  | .slice elem => GoType.wellNamed elem
  | .mapping elem => GoType.wellNamed elem
  | .struct fields => Layout.wellNamed fields

def Layout.wellNamed : Layout → Bool
  | .nil => true
  | .cons name _ type rest => !rest.names.contains name && GoType.wellNamed type && Layout.wellNamed rest

end

namespace Text

theorem tokens_ofString (s : String) : (ofString s).tokens = s.toList.map some := by
  simp only [ofString, tokens, List.map_map]
  rfl

theorem tokens_ofString_inj {s t : String} (same : (ofString s).tokens = (ofString t).tokens) : s = t := by
  rw [tokens_ofString, tokens_ofString] at same
  exact String.toList_inj.mp (List.map_injective_iff.mpr (fun _ _ => Option.some.inj) same)

theorem valid_ofTokens (tokens : List Token) : (ofTokens tokens).Valid := by
  intro r member
  obtain ⟨token, -, rfl⟩ := List.mem_map.mp member
  trivial

variable {s : Text}

theorem valid_of_tokens_eq {t : Text} (same : s.tokens = t.tokens) (valid : t.Valid) : s.Valid := by
  intro r member
  have written : r.token ∈ t.tokens := same ▸ List.mem_map_of_mem member
  obtain ⟨r', member', same'⟩ := List.mem_map.mp written
  have char := valid r' member'
  cases r with
  | char c => trivial
  | stray byte =>
    cases r' with
    | char c => cases same'
    | stray byte' => exact char

theorem ofTokens_tokens (valid : s.Valid) : ofTokens s.tokens = s := by
  have same (r : Rune) (member : r ∈ s) : Rune.ofToken r.token = r := by
    have char := valid r member
    cases r with
    | char c => rfl
    | stray byte => exact char.elim
  rw [ofTokens, tokens, List.map_map]
  exact (List.map_congr_left same).trans (List.map_id s)

theorem tokens_trip_iff : (ofTokens s.tokens).tokens = s.tokens ↔ s.Valid := by
  constructor
  · intro same
    exact valid_of_tokens_eq same.symm (valid_ofTokens _)
  · intro valid
    rw [ofTokens_tokens valid]

end Text

/-! ### Reading back what was written -/

theorem Layout.names_encode : ∀ (fields : Layout) (row : fields.Row),
    ∀ entry ∈ fields.encode row, ∃ name ∈ fields.names, entry.1 = (Text.ofString name).tokens
  | .nil, _, entry, member => by cases member
  | .cons name tag type rest, (v, row), entry, member => by
    have later (member : entry ∈ rest.encode row) :
        ∃ name' ∈ name :: rest.names, entry.1 = (Text.ofString name').tokens := by
      obtain ⟨name', among, same⟩ := names_encode rest row entry member
      exact ⟨name', List.mem_cons_of_mem _ among, same⟩
    rw [encode] at member
    split_ifs at member with omitted
    · exact later member
    · rcases List.mem_cons.mp member with rfl | among
      · exact ⟨name, List.mem_cons_self, rfl⟩
      · exact later among

theorem lookup_append_of_ne {key : List Token} {before after : List (List Token × Node)}
    (absent : ∀ entry ∈ before, entry.1 ≠ key) : (before ++ after).lookup key = after.lookup key := by
  induction before with
  | nil => rfl
  | cons entry before ih =>
    have other : (key == entry.1) = false := beq_eq_false_iff_ne.mpr (absent entry List.mem_cons_self).symm
    rw [List.cons_append, List.lookup_cons, other]
    exact ih fun entry member => absent entry (List.mem_cons_of_mem _ member)

theorem lookup_eq_none_of_ne {key : List Token} {entries : List (List Token × Node)}
    (absent : ∀ entry ∈ entries, entry.1 ≠ key) : entries.lookup key = none := by
  have skipped : (entries ++ []).lookup key = none := lookup_append_of_ne absent
  rwa [List.append_nil] at skipped

variable {tag : Tag}

theorem Layout.wellNamed_cons {name : String} {type : GoType} {rest : Layout}
    (named : (Layout.cons name tag type rest).wellNamed = true) :
    name ∉ rest.names ∧ type.wellNamed = true ∧ rest.wellNamed = true := by
  simpa [Layout.wellNamed, and_assoc] using named

theorem mapM_map_some {α β γ : Type} {f : α → β} {g : β → Option γ} {h : α → γ}
    (read : ∀ x, g (f x) = some (h x)) (xs : List α) : (xs.map f).mapM g = some (xs.map h) := by
  induction xs with
  | nil => rfl
  | cons x xs ih =>
    rw [List.map_cons, List.mapM_cons, read, ih]
    rfl

mutual

/-- Decoding what was encoded gives what the trip leaves. -/
theorem GoType.decode_encode : ∀ (t : GoType), t.wellNamed = true → ∀ v : t.Val,
    t.decode (t.encode v) = some (t.trip v)
  | .text, _, s => rfl
  | .int, _, n => rfl
  | .bool, _, b => rfl
  | .pointer fields, named, p => by
    cases p with
    | none => rfl
    | some row =>
      have read := Layout.decode_encode fields named row [] (by simp)
      exact congrArg (Option.map some) read
  | .slice elem, named, xs => by
    cases xs with
    | none => rfl
    | some items => exact congrArg (Option.map some) (mapM_map_some (GoType.decode_encode elem named) items)
  | .mapping elem, named, m => by
    cases m with
    | none => rfl
    | some m =>
      refine congrArg (Option.map fun read => some (Mapping.ofList read)) (mapM_map_some ?_ m.entries)
      intro entry
      exact congrArg (Option.map fun v => (Text.ofTokens entry.1.tokens, v))
        (GoType.decode_encode elem named entry.2)
  | .struct fields, named, row => Layout.decode_encode fields named row [] (by simp)

theorem Layout.decode_encode : ∀ (fields : Layout), fields.wellNamed = true → ∀ (row : fields.Row)
    (before : List (List Token × Node)),
    (∀ entry ∈ before, ∀ name ∈ fields.names, entry.1 ≠ (Text.ofString name).tokens) →
    fields.decode (before ++ fields.encode row) = some (fields.trip row)
  | .nil, _, _, _, _ => rfl
  | .cons name tag type rest, named, (v, row), before, other => by
    obtain ⟨fresh, namedType, namedRest⟩ := Layout.wellNamed_cons named
    have absent : ∀ entry ∈ rest.encode row, entry.1 ≠ (Text.ofString name).tokens := by
      intro entry member same
      obtain ⟨name', among, same'⟩ := rest.names_encode row entry member
      rw [Text.tokens_ofString_inj (same.symm.trans same')] at fresh
      exact fresh among
    have front : ∀ entry ∈ before, entry.1 ≠ (Text.ofString name).tokens :=
      fun entry member => other entry member name List.mem_cons_self
    have beyond : ∀ entry ∈ before, ∀ name ∈ rest.names, entry.1 ≠ (Text.ofString name).tokens :=
      fun entry member name' among => other entry member name' (List.mem_cons_of_mem _ among)
    rw [Layout.decode, Layout.encode, Layout.trip]
    split_ifs with omitted
    · rw [lookup_append_of_ne front, lookup_eq_none_of_ne absent,
        Layout.decode_encode rest namedRest row before beyond]
      rfl
    · have rows := Layout.decode_encode rest namedRest row
        (before ++ [((Text.ofString name).tokens, type.encode v)]) (by
          intro entry member name' among same
          rcases List.mem_append.mp member with early | last
          · exact beyond entry early name' among same
          · rw [List.mem_singleton.mp last] at same
            rw [Text.tokens_ofString_inj same] at fresh
            exact fresh among)
      rw [List.append_assoc, List.singleton_append] at rows
      rw [lookup_append_of_ne front, rows, List.lookup_cons_self]
      simp only [Option.elim_some, GoType.decode_encode type namedType v, Option.bind_some]
      rfl

end

/-! ### What the trip leaves of the encoding -/

mutual

theorem GoType.isZero_zero : ∀ t : GoType, t.isZero t.zero = true
  | .text => rfl
  | .int => rfl
  | .bool => rfl
  | .pointer _ => rfl
  | .slice _ => rfl
  | .mapping _ => rfl
  | .struct fields => Layout.isZero_zero fields

theorem Layout.isZero_zero : ∀ fields : Layout, fields.isZero fields.zero = true
  | .nil => rfl
  | .cons _ _ type rest => by
    rw [Layout.zero, Layout.isZero, GoType.isZero_zero type, Layout.isZero_zero rest]
    rfl

end

mutual

theorem GoType.isZero_trip : ∀ (t : GoType) (v : t.Val), t.isZero (t.trip v) = t.isHollow v
  | .text, (s : Text) => by simp [GoType.trip, GoType.isZero, GoType.isHollow, Text.ofTokens, Text.tokens]
  | .int, _ => rfl
  | .bool, _ => rfl
  | .pointer _, p => by cases p <;> rfl
  | .slice _, xs => by cases xs <;> rfl
  | .mapping _, m => by cases m <;> rfl
  | .struct fields, row => Layout.isZero_trip fields row

theorem Layout.isZero_trip : ∀ (fields : Layout) (row : fields.Row),
    fields.isZero (fields.trip row) = fields.isHollow row
  | .nil, _ => rfl
  | .cons name tag type rest, (v, row) => by
    rw [Layout.trip, Layout.isZero, Layout.isHollow, Layout.isZero_trip rest row]
    split_ifs with omitted
    · rw [GoType.isZero_zero, omitted]
      rfl
    · rw [GoType.isZero_trip type v, eq_false_of_ne_true omitted]
      rfl

end

mutual

theorem GoType.trip_of_isZero : ∀ (t : GoType) (v : t.Val), t.isZero v = true → t.trip v = t.zero
  | .text, s, zero => by rw [List.isEmpty_iff.mp zero]; rfl
  | .int, (n : Int), zero => (eq_of_beq zero : n = 0)
  | .bool, b, zero => by cases b with
    | false => rfl
    | true => cases zero
  | .pointer _, p, zero => by rw [Option.isNone_iff_eq_none.mp zero]; rfl
  | .slice _, xs, zero => by rw [Option.isNone_iff_eq_none.mp zero]; rfl
  | .mapping _, m, zero => by rw [Option.isNone_iff_eq_none.mp zero]; rfl
  | .struct fields, row, zero => Layout.trip_of_isZero fields row zero

theorem Layout.trip_of_isZero : ∀ (fields : Layout) (row : fields.Row),
    fields.isZero row = true → fields.trip row = fields.zero
  | .nil, _, _ => rfl
  | .cons name tag type rest, (v, row), zero => by
    obtain ⟨front, back⟩ := Bool.and_eq_true_iff.mp zero
    rw [Layout.trip, Layout.zero, Layout.trip_of_isZero rest row back, GoType.trip_of_isZero type v front, ite_self]

end

theorem GoType.isEmpty_trip (t : GoType) (v : t.Val) : t.isEmpty (t.trip v) = t.isEmpty v := by
  cases t with
  | text => exact (List.isEmpty_map ..).trans (List.isEmpty_map ..)
  | int => rfl
  | bool => rfl
  | pointer fields => cases v <;> rfl
  | slice elem =>
    cases v with
    | none => rfl
    | some items => exact List.isEmpty_map ..
  | mapping elem =>
    cases v with
    | none => rfl
    | some m => exact (Mapping.isEmpty_ofList _).trans (List.isEmpty_map ..)
  | struct fields => rfl

theorem Tag.omits_zero {t : GoType} {v : t.Val} (omitted : tag.omits t v = true) :
    tag.omits t t.zero = true := by
  cases tag with
  | always => exact omitted
  | omitZero => exact t.isZero_zero
  | omitEmpty =>
    cases t with
    | struct fields => exact omitted
    | _ => rfl

theorem Tag.omits_trip {t : GoType} {v : t.Val} (written : tag.omits t v = false) :
    tag.omits t (t.trip v) = true ↔ tag = .omitZero ∧ t.isHollow v = true := by
  cases tag with
  | always => simp [Tag.omits]
  | omitZero => simp only [Tag.omits, t.isZero_trip, true_and]
  | omitEmpty =>
    have kept : t.isEmpty v = false := written
    simp [Tag.omits, t.isEmpty_trip, kept]

section Entries

variable {α : Type} {encode : α → Node} {trip : α → α} {stable : α → Prop}

theorem Mapping.encode_trip_iff (values : ∀ v, encode (trip v) = encode v ↔ stable v) (m : Mapping α) :
    ((ofList (m.entries.map fun entry => (Text.ofTokens entry.1.tokens, trip entry.2))).entries.map
        fun entry => (entry.1.tokens, encode entry.2)) =
      m.entries.map (fun entry => (entry.1.tokens, encode entry.2)) ↔
      ∀ entry ∈ m.entries, entry.1.Valid ∧ stable entry.2 := by
  -- With valid keys the entries are read back in the order in which they stand.
  have kept (valid : ∀ entry ∈ m.entries, entry.1.Valid) :
      (ofList (m.entries.map fun entry => (Text.ofTokens entry.1.tokens, trip entry.2))).entries =
        m.entries.map fun entry => (entry.1, trip entry.2) := by
    have keys : (m.entries.map fun entry => (Text.ofTokens entry.1.tokens, trip entry.2)) =
        m.entries.map fun entry => (entry.1, trip entry.2) :=
      List.map_congr_left fun entry member => by rw [Text.ofTokens_tokens (valid entry member)]
    rw [keys]
    exact ofList_entries (List.pairwise_map.mpr m.sorted)
  constructor
  · intro same
    have valid : ∀ entry ∈ m.entries, entry.1.Valid := by
      intro entry member
      have written := List.mem_map_of_mem (f := fun entry => (entry.1.tokens, encode entry.2)) member
      rw [← same] at written
      obtain ⟨read, among, equal⟩ := List.mem_map.mp written
      obtain ⟨source, -, rfl⟩ := List.mem_map.mp (mem_ofList among)
      exact Text.valid_of_tokens_eq (congrArg Prod.fst equal).symm (Text.valid_ofTokens _)
    rw [kept valid, List.map_map, List.map_inj_left] at same
    intro entry member
    exact ⟨valid entry member, (values entry.2).mp (congrArg Prod.snd (same entry member))⟩
  · intro stable
    rw [kept fun entry member => (stable entry member).1, List.map_map, List.map_inj_left]
    intro entry member
    exact congrArg (Prod.mk _) ((values entry.2).mpr (stable entry member).2)

end Entries

mutual

/-- The trip shows in the encoding unless the value is stable. -/
theorem GoType.encode_trip_iff : ∀ (t : GoType), t.wellNamed = true → ∀ v : t.Val,
    (t.encode (t.trip v) = t.encode v ↔ t.Stable v)
  | .text, _, (s : Text) => by
    simp only [GoType.trip, GoType.encode, GoType.Stable, Node.text.injEq]
    exact Text.tokens_trip_iff
  | .int, _, _ => ⟨fun _ => trivial, fun _ => rfl⟩
  | .bool, _, _ => ⟨fun _ => trivial, fun _ => rfl⟩
  | .pointer fields, named, p => by
    cases p with
    | none => exact ⟨fun _ => trivial, fun _ => rfl⟩
    | some row => exact (Node.object.injEq _ _).to_iff.trans (Layout.encode_trip_iff fields named row)
  | .slice elem, named, xs => by
    cases xs with
    | none => exact ⟨fun _ => trivial, fun _ => rfl⟩
    | some items =>
      change Node.array ((items.map elem.trip).map elem.encode) = .array (items.map elem.encode) ↔
        ∀ item ∈ items, elem.Stable item
      rw [Node.array.injEq, List.map_map, List.map_inj_left]
      exact forall₂_congr fun item _ => GoType.encode_trip_iff elem named item
  | .mapping elem, named, m => by
    cases m with
    | none => exact ⟨fun _ => trivial, fun _ => rfl⟩
    | some m =>
      exact (Node.object.injEq _ _).to_iff.trans (Mapping.encode_trip_iff (GoType.encode_trip_iff elem named) m)
  | .struct fields, named, row =>
    (Node.object.injEq _ _).to_iff.trans (Layout.encode_trip_iff fields named row)

theorem Layout.encode_trip_iff : ∀ (fields : Layout), fields.wellNamed = true → ∀ row : fields.Row,
    (fields.encode (fields.trip row) = fields.encode row ↔ fields.Stable row)
  | .nil, _, _ => ⟨fun _ => trivial, fun _ => rfl⟩
  | .cons name tag type rest, named, (v, row) => by
    obtain ⟨fresh, namedType, namedRest⟩ := Layout.wellNamed_cons named
    have values := GoType.encode_trip_iff type namedType v
    have rows := Layout.encode_trip_iff rest namedRest row
    rw [Layout.trip, Layout.encode, Layout.encode, Layout.Stable, ← rows]
    cases omitted : tag.omits type v with
    | true => simp [Tag.omits_zero omitted]
    | false =>
      have lost := Tag.omits_trip omitted
      simp only [Bool.false_eq_true, if_false, forall_const]
      by_cases hollow : tag = .omitZero ∧ type.isHollow v = true
      · -- The field is not written any more, and no later one has its name.
        rw [if_pos (lost.mpr hollow)]
        constructor
        · intro same
          have member : ((Text.ofString name).tokens, type.encode v) ∈ rest.encode (rest.trip row) :=
            same ▸ List.mem_cons_self
          obtain ⟨name', among, equal⟩ := rest.names_encode _ _ member
          rw [Text.tokens_ofString_inj equal] at fresh
          exact absurd among fresh
        · rintro ⟨⟨-, solid⟩, -⟩
          rw [solid hollow.1] at hollow
          cases hollow.2
      · rw [if_neg (mt lost.mp hollow), List.cons.injEq, Prod.mk.injEq, values]
        have solid : tag = .omitZero → type.isHollow v = false :=
          fun zero => eq_false_of_ne_true fun empty => hollow ⟨zero, empty⟩
        tauto

end

/-! ### Fields that hold a text, or are always written -/

theorem Tag.omits_text {s : Text} (omitted : tag.omits .text s = true) : s = [] := by
  cases tag with
  | always => cases omitted
  | omitEmpty => exact List.isEmpty_iff.mp omitted
  | omitZero => exact List.isEmpty_iff.mp omitted

/-- A field comes back as its value does, where one that is left out comes back
as it was. -/
theorem Layout.trip_cons (name : String) {tag : Tag} {type : GoType} {rest : Layout} {v : type.Val} (row : rest.Row)
    (kept : tag = .omitEmpty → type.isEmpty v = true → type.trip v = type.zero) :
    (Layout.cons name tag type rest).trip (v, row) = (type.trip v, rest.trip row) := by
  rw [Layout.trip]
  split_ifs with omitted
  · refine congrArg (·, rest.trip row) ?_
    cases tag with
    | always => cases omitted
    | omitEmpty => exact (kept rfl omitted).symm
    | omitZero => exact (type.trip_of_isZero v omitted).symm
  · rfl

theorem Layout.trip_cons_text (name : String) (tag : Tag) (rest : Layout) (s : Text) (row : rest.Row) :
    (Layout.cons name tag .text rest).trip (s, row) = (Text.ofTokens s.tokens, rest.trip row) :=
  trip_cons name row fun _ empty => GoType.trip_of_isZero .text s empty

theorem Layout.stable_cons_always (name : String) (type : GoType) (rest : Layout) (v : type.Val) (row : rest.Row) :
    (Layout.cons name .always type rest).Stable (v, row) ↔ type.Stable v ∧ rest.Stable row := by
  refine and_congr_left fun _ => ?_
  constructor
  · intro stable
    exact (stable rfl).1
  · intro stable _
    exact ⟨stable, fun zero => by cases zero⟩

theorem Layout.stable_cons_text (name : String) (tag : Tag) (rest : Layout) (s : Text) (row : rest.Row) :
    (Layout.cons name tag .text rest).Stable (s, row) ↔ s.Valid ∧ rest.Stable row := by
  refine and_congr_left fun _ => ?_
  constructor
  · intro stable
    cases omitted : tag.omits .text s with
    | true =>
      rw [Tag.omits_text omitted]
      exact List.forall_mem_nil _
    | false => exact (stable omitted).1
  · intro valid written
    refine ⟨valid, ?_⟩
    rintro rfl
    exact written

end GoJson
