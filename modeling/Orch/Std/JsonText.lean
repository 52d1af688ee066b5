import Orch.Std.Json
import Orch.Std.Parse

namespace Json

/-- A piece of a text as an encoder meets it: a character, or a byte that is
part of none. -/
abbrev Token := Option Char

def escapeToken : Token → List Char
  | some c => escape c
  | none => unicodeEscape 0xfffd

def quoteTokens (s : List Token) : List Char :=
  '"' :: (s.flatMap escapeToken ++ ['"'])

/-- A JSON value, its texts as they are written. -/
inductive Node where
  | null
  | bool (b : Bool)
  | number (n : Int)
  | text (s : List Token)
  | array (items : List Node)
  | object (fields : List (List Token × Node))

namespace Node

mutual

def render : Node → List Char
  | .null => ['n', 'u', 'l', 'l']
  | .bool true => ['t', 'r', 'u', 'e']
  | .bool false => ['f', 'a', 'l', 's', 'e']
  | .number n => decimal n
  | .text s => quoteTokens s
  | .array items => '[' :: (renderItems items ++ [']'])
  | .object fields => '\x7b' :: (renderFields fields ++ ['\x7d'])

def renderItems : List Node → List Char
  | [] => []
  | item :: rest => render item ++ renderMoreItems rest

def renderMoreItems : List Node → List Char
  | [] => []
  | item :: rest => ',' :: (render item ++ renderMoreItems rest)

def renderField : List Token × Node → List Char
  | (key, value) => quoteTokens key ++ ':' :: render value

def renderFields : List (List Token × Node) → List Char
  | [] => []
  | field :: rest => renderField field ++ renderMoreFields rest

def renderMoreFields : List (List Token × Node) → List Char
  | [] => []
  | field :: rest => ',' :: (renderField field ++ renderMoreFields rest)

end

def bytes (node : Node) : List Nat :=
  node.render.flatMap utf8

end Node

/-! ### Tokens -/

def readHex : List Char → Option (Token × List Char)
  | a :: b :: c :: d :: rest =>
    let n := Parse.hexNumber [a, b, c, d]
    some (if n = 0xfffd then none else some (Char.ofNat n), rest)
  | _ => none

def shortEscape (c : Char) : Option Char :=
  if c = '"' then some '"'
  else if c = '\\' then some '\\'
  else if c = 'b' then some (Char.ofNat 8)
  else if c = 'f' then some (Char.ofNat 12)
  else if c = 'n' then some (Char.ofNat 10)
  else if c = 'r' then some (Char.ofNat 13)
  else if c = 't' then some (Char.ofNat 9)
  else none

def readEscape : List Char → Option (Token × List Char)
  | [] => none
  | c :: rest => if c = 'u' then readHex rest else (shortEscape c).map fun short => (some short, rest)

/-- Reads one token back. The escape of the replacement character stands for a
stray byte: an encoder writes the character itself as it is. -/
def readToken : List Char → Option (Token × List Char)
  | [] => none
  | c :: rest => if c = '\\' then readEscape rest else some (some c, rest)

variable {n : Nat}

theorem hexValue_hexDigit (small : n < 16) : Parse.hexValue (hexDigit n) = some n := by
  revert n
  decide

theorem hexNumber_unicode (small : n < 65536) :
    Parse.hexNumber [hexDigit (n / 4096 % 16), hexDigit (n / 256 % 16), hexDigit (n / 16 % 16), hexDigit (n % 16)] =
      n := by
  simp only [Parse.hexNumber, List.foldl_cons, List.foldl_nil, hexValue_hexDigit (Nat.mod_lt _ (by decide : 0 < 16)),
    Option.getD_some]
  omega

theorem readToken_unicodeEscape (small : n < 65536) (rest : List Char) :
    readToken (unicodeEscape n ++ rest) = some (if n = 0xfffd then none else some (Char.ofNat n), rest) := by
  simp only [unicodeEscape, List.cons_append, List.nil_append, readToken, readEscape, readHex, if_true,
    hexNumber_unicode small]

theorem readToken_escapeToken (token : Token) (rest : List Char) :
    readToken (escapeToken token ++ rest) = some (token, rest) := by
  cases token with
  | none => exact readToken_unicodeEscape (by decide) rest
  | some c =>
    have short {n : Nat} (code : c.toNat = n) : Char.ofNat n = c := by rw [← code, Char.ofNat_toNat]
    simp only [escapeToken, escape]
    split_ifs with quotes slash h8 h12 h10 h13 h9 special
    · subst quotes
      rfl
    · subst slash
      rfl
    · rw [← short h8]
      rfl
    · rw [← short h12]
      rfl
    · rw [← short h10]
      rfl
    · rw [← short h13]
      rfl
    · rw [← short h9]
      rfl
    · have bound : c.toNat < 65536 ∧ c.toNat ≠ 0xfffd := by
        rcases special with low | rfl | rfl | rfl | high | high
        · omega
        · decide
        · decide
        · decide
        · omega
        · omega
      rw [readToken_unicodeEscape bound.1, if_neg bound.2, Char.ofNat_toNat]
    · simp only [List.cons_append, List.nil_append, readToken, if_neg slash]

variable {x y : List Char}

theorem escapeToken_append_inj {a b : Token} (same : escapeToken a ++ x = escapeToken b ++ y) :
    a = b ∧ x = y := by
  have read := congrArg readToken same
  rw [readToken_escapeToken, readToken_escapeToken, Option.some.injEq, Prod.mk.injEq] at read
  exact read

/-- No token is written with a quotation mark in front, so the mark ends a text. -/
theorem escapeToken_append_ne_quote (token : Token) (x y : List Char) : escapeToken token ++ x ≠ '"' :: y := by
  intro same
  have read := congrArg readToken same
  rw [readToken_escapeToken] at read
  obtain ⟨rfl, -⟩ := Prod.mk.inj (Option.some.inj read)
  cases same

theorem flatMap_escapeToken_append_inj : ∀ {s t : List Token},
    s.flatMap escapeToken ++ '"' :: x = t.flatMap escapeToken ++ '"' :: y → s = t ∧ x = y
  | [], [], same => ⟨rfl, List.tail_eq_of_cons_eq same⟩
  | [], b :: t, same => by
    rw [List.flatMap_cons, List.append_assoc] at same
    exact absurd same.symm (escapeToken_append_ne_quote b _ _)
  | a :: s, [], same => by
    rw [List.flatMap_cons, List.append_assoc] at same
    exact absurd same (escapeToken_append_ne_quote a _ _)
  | a :: s, b :: t, same => by
    rw [List.flatMap_cons, List.flatMap_cons, List.append_assoc, List.append_assoc] at same
    obtain ⟨rfl, rest⟩ := escapeToken_append_inj same
    obtain ⟨rfl, rfl⟩ := flatMap_escapeToken_append_inj rest
    exact ⟨rfl, rfl⟩

theorem quoteTokens_append_inj {s t : List Token} (same : quoteTokens s ++ x = quoteTokens t ++ y) :
    s = t ∧ x = y := by
  simp only [quoteTokens, List.cons_append, List.append_assoc, List.nil_append, List.cons.injEq, true_and] at same
  exact flatMap_escapeToken_append_inj same

/-! ### Numbers -/

/-- What may follow a number: the text is over, or goes on with no digit. -/
def Ends (x : List Char) : Prop := ∀ c ∈ x.head?, c.isDigit = false

theorem ends_cons {c : Char} (other : c.isDigit = false) : Ends (c :: x) := by
  rintro d ⟨⟩
  exact other

theorem takeWhile_toDigits_append (n : Nat) (ends : Ends x) :
    (Nat.toDigits 10 n ++ x).takeWhile Char.isDigit = Nat.toDigits 10 n := by
  rw [List.takeWhile_append_of_pos fun c => Nat.isDigit_of_mem_toDigits (by decide) (by decide)]
  cases x with
  | nil => exact List.append_nil _
  | cons c x => rw [List.takeWhile_cons_of_neg (by simpa using ends c rfl), List.append_nil]

theorem toDigits_append_inj {m : Nat} (endsX : Ends x) (endsY : Ends y)
    (same : Nat.toDigits 10 m ++ x = Nat.toDigits 10 n ++ y) : m = n ∧ x = y := by
  have digits : Nat.toDigits 10 m = Nat.toDigits 10 n := by
    rw [← takeWhile_toDigits_append m endsX, same, takeWhile_toDigits_append n endsY]
  rw [digits] at same
  refine ⟨?_, List.append_cancel_left same⟩
  have values := congrArg (Nat.ofDigitChars 10 · 0) digits
  simpa only [Nat.ofDigitChars_toDigits (b := 10) (by decide) (by decide)] using values

theorem toDigits_append_ne_minus (n : Nat) (x y : List Char) : Nat.toDigits 10 n ++ x ≠ '-' :: y := by
  intro same
  cases digits : Nat.toDigits 10 n with
  | nil => exact absurd digits Nat.toDigits_ne_nil
  | cons c rest =>
    rw [digits] at same
    obtain ⟨rfl, -⟩ := List.cons.inj same
    have digit : Char.isDigit '-' = true :=
      Nat.isDigit_of_mem_toDigits (b := 10) (n := n) (by decide) (by decide) (digits ▸ List.mem_cons_self)
    cases digit

theorem decimal_append_inj {m n : Int} (endsX : Ends x) (endsY : Ends y) (same : decimal m ++ x = decimal n ++ y) :
    m = n ∧ x = y := by
  match m, n with
  | .ofNat a, .ofNat b =>
    obtain ⟨rfl, rest⟩ := toDigits_append_inj endsX endsY same
    exact ⟨rfl, rest⟩
  | .ofNat a, .negSucc b => exact absurd same (toDigits_append_ne_minus a _ _)
  | .negSucc a, .ofNat b => exact absurd same.symm (toDigits_append_ne_minus b _ _)
  | .negSucc a, .negSucc b =>
    obtain ⟨next, rest⟩ := toDigits_append_inj endsX endsY (List.tail_eq_of_cons_eq same)
    exact ⟨congrArg Int.negSucc (Nat.succ.inj next), rest⟩

/-! ### Values -/

namespace Node

/-- What the first character of a value's text says about it. -/
inductive Kind where
  | null
  | yes
  | no
  | number
  | text
  | array
  | object
deriving DecidableEq

def kind : Node → Kind
  | .null => .null
  | .bool true => .yes
  | .bool false => .no
  | .number _ => .number
  | .text _ => .text
  | .array _ => .array
  | .object _ => .object

def kindOf (c : Char) : Option Kind :=
  if c = 'n' then some .null
  else if c = 't' then some .yes
  else if c = 'f' then some .no
  else if c = '"' then some .text
  else if c = '[' then some .array
  else if c = '\x7b' then some .object
  else if c = '-' ∨ c.isDigit then some .number
  else none

theorem kindOf_digit {c : Char} (digit : c.isDigit = true) : kindOf c = some .number := by
  unfold kindOf
  split_ifs with null yes no text array object number
  · subst null
    cases digit
  · subst yes
    cases digit
  · subst no
    cases digit
  · subst text
    cases digit
  · subst array
    cases digit
  · subst object
    cases digit
  · rfl
  · exact absurd (.inr digit) number

theorem head_decimal (n : Int) : ∃ c rest, decimal n = c :: rest ∧ kindOf c = some .number := by
  match n with
  | .ofNat k =>
    cases digits : Nat.toDigits 10 k with
    | nil => exact absurd digits Nat.toDigits_ne_nil
    | cons c rest =>
      refine ⟨c, rest, digits, kindOf_digit ?_⟩
      exact Nat.isDigit_of_mem_toDigits (b := 10) (n := k) (by decide) (by decide) (digits ▸ List.mem_cons_self)
  | .negSucc k => exact ⟨'-', _, rfl, by decide⟩

theorem head_render (node : Node) : ∃ c rest, node.render = c :: rest ∧ kindOf c = some node.kind := by
  cases node with
  | null => exact ⟨_, _, rfl, rfl⟩
  | bool b => cases b <;> exact ⟨_, _, rfl, rfl⟩
  | number n => exact head_decimal n
  | text s => exact ⟨_, _, rfl, rfl⟩
  | array items => exact ⟨_, _, by rw [render], rfl⟩
  | object fields => exact ⟨_, _, by rw [render], rfl⟩

variable {x : List Char}

theorem kind_of_render_append {a b : Node} {y : List Char} (same : a.render ++ x = b.render ++ y) :
    a.kind = b.kind := by
  obtain ⟨c, rest, start, kind⟩ := head_render a
  obtain ⟨c', rest', start', kind'⟩ := head_render b
  rw [start, start'] at same
  obtain ⟨rfl, -⟩ := List.cons.inj same
  exact Option.some.inj (kind.symm.trans kind')

/-- A value is not empty, and does not begin as the end of an array does. -/
theorem render_append_ne_bracket (node : Node) (x y : List Char) : node.render ++ x ≠ ']' :: y := by
  intro same
  obtain ⟨c, rest, start, kind⟩ := head_render node
  rw [start] at same
  obtain ⟨rfl, -⟩ := List.cons.inj same
  cases kind

theorem ends_renderMoreItems (items : List Node) (ends : Ends x) :
    Ends (renderMoreItems items ++ x) := by
  cases items with
  | nil => simpa only [renderMoreItems, List.nil_append] using ends
  | cons item rest =>
    rw [renderMoreItems]
    exact ends_cons (by decide)

theorem ends_renderMoreFields (fields : List (List Token × Node)) (ends : Ends x) :
    Ends (renderMoreFields fields ++ x) := by
  cases fields with
  | nil => simpa only [renderMoreFields, List.nil_append] using ends
  | cons field rest =>
    rw [renderMoreFields]
    exact ends_cons (by decide)

-- The induction follows `render`: a value's first character tells its kind, and each kind says where it ends.
mutual

/-- The rendering of a value shows where it ends. -/
theorem render_append_inj : ∀ (a b : Node) {x y : List Char}, Ends x → Ends y →
    a.render ++ x = b.render ++ y → a = b ∧ x = y
  | .null, b, _, _, _, _, same => by
    cases b with
    | null => exact ⟨rfl, List.append_cancel_left same⟩
    | bool b => cases b <;> cases kind_of_render_append same
    | _ => cases kind_of_render_append same
  | .bool true, b, _, _, _, _, same => by
    cases b with
    | bool b =>
      cases b with
      | true => exact ⟨rfl, List.append_cancel_left same⟩
      | false => cases kind_of_render_append same
    | _ => cases kind_of_render_append same
  | .bool false, b, _, _, _, _, same => by
    cases b with
    | bool b =>
      cases b with
      | false => exact ⟨rfl, List.append_cancel_left same⟩
      | true => cases kind_of_render_append same
    | _ => cases kind_of_render_append same
  | .number m, b, _, _, endsX, endsY, same => by
    cases b with
    | number n =>
      obtain ⟨rfl, rest⟩ := decimal_append_inj endsX endsY same
      exact ⟨rfl, rest⟩
    | bool b => cases b <;> cases kind_of_render_append same
    | _ => cases kind_of_render_append same
  | .text s, b, _, _, _, _, same => by
    cases b with
    | text t =>
      obtain ⟨rfl, rest⟩ := quoteTokens_append_inj same
      exact ⟨rfl, rest⟩
    | bool b => cases b <;> cases kind_of_render_append same
    | _ => cases kind_of_render_append same
  | .array items, b, _, _, _, _, same => by
    cases b with
    | array items' =>
      simp only [render, List.cons_append, List.append_assoc, List.nil_append, List.cons.injEq, true_and] at same
      obtain ⟨rfl, rest⟩ := renderItems_append_inj items items' same
      exact ⟨rfl, rest⟩
    | bool b => cases b <;> cases kind_of_render_append same
    | _ => cases kind_of_render_append same
  | .object fields, b, _, _, _, _, same => by
    cases b with
    | object fields' =>
      simp only [render, List.cons_append, List.append_assoc, List.nil_append, List.cons.injEq, true_and] at same
      obtain ⟨rfl, rest⟩ := renderFields_append_inj fields fields' same
      exact ⟨rfl, rest⟩
    | bool b => cases b <;> cases kind_of_render_append same
    | _ => cases kind_of_render_append same

theorem renderItems_append_inj : ∀ (items items' : List Node) {x y : List Char},
    renderItems items ++ ']' :: x = renderItems items' ++ ']' :: y → items = items' ∧ x = y
  | [], [], _, _, same => ⟨rfl, List.tail_eq_of_cons_eq same⟩
  | [], item' :: rest', _, _, same => by
    rw [renderItems, renderItems, List.append_assoc] at same
    exact absurd same.symm (render_append_ne_bracket item' _ _)
  | item :: rest, [], _, _, same => by
    rw [renderItems, renderItems, List.append_assoc] at same
    exact absurd same (render_append_ne_bracket item _ _)
  | item :: rest, item' :: rest', _, _, same => by
    rw [renderItems, renderItems, List.append_assoc, List.append_assoc] at same
    obtain ⟨rfl, more⟩ := render_append_inj item item' (ends_renderMoreItems rest (ends_cons (by decide)))
      (ends_renderMoreItems rest' (ends_cons (by decide))) same
    obtain ⟨rfl, tail⟩ := renderMoreItems_append_inj rest rest' more
    exact ⟨rfl, tail⟩

theorem renderMoreItems_append_inj : ∀ (items items' : List Node) {x y : List Char},
    renderMoreItems items ++ ']' :: x = renderMoreItems items' ++ ']' :: y → items = items' ∧ x = y
  | [], [], _, _, same => ⟨rfl, List.tail_eq_of_cons_eq same⟩
  | [], _ :: _, _, _, same => by
    rw [renderMoreItems, renderMoreItems] at same
    cases same
  | _ :: _, [], _, _, same => by
    rw [renderMoreItems, renderMoreItems] at same
    cases same
  | item :: rest, item' :: rest', _, _, same => by
    rw [renderMoreItems, renderMoreItems, List.cons_append, List.cons_append, List.append_assoc,
      List.append_assoc] at same
    obtain ⟨rfl, more⟩ := render_append_inj item item' (ends_renderMoreItems rest (ends_cons (by decide)))
      (ends_renderMoreItems rest' (ends_cons (by decide))) (List.tail_eq_of_cons_eq same)
    obtain ⟨rfl, tail⟩ := renderMoreItems_append_inj rest rest' more
    exact ⟨rfl, tail⟩

theorem renderField_append_inj : ∀ (field field' : List Token × Node) {x y : List Char}, Ends x → Ends y →
    renderField field ++ x = renderField field' ++ y → field = field' ∧ x = y
  | (key, value), (key', value'), _, _, endsX, endsY, same => by
    rw [renderField, renderField, List.append_assoc, List.append_assoc] at same
    obtain ⟨rfl, rest⟩ := quoteTokens_append_inj same
    obtain ⟨rfl, tail⟩ := render_append_inj value value' endsX endsY (List.tail_eq_of_cons_eq rest)
    exact ⟨rfl, tail⟩

theorem renderFields_append_inj : ∀ (fields fields' : List (List Token × Node)) {x y : List Char},
    renderFields fields ++ '\x7d' :: x = renderFields fields' ++ '\x7d' :: y → fields = fields' ∧ x = y
  | [], [], _, _, same => ⟨rfl, List.tail_eq_of_cons_eq same⟩
  | [], (_, _) :: _, _, _, same => by
    rw [renderFields, renderFields, renderField] at same
    cases same
  | (_, _) :: _, [], _, _, same => by
    rw [renderFields, renderFields, renderField] at same
    cases same
  | field :: rest, field' :: rest', _, _, same => by
    rw [renderFields, renderFields, List.append_assoc, List.append_assoc] at same
    obtain ⟨rfl, more⟩ := renderField_append_inj field field' (ends_renderMoreFields rest (ends_cons (by decide)))
      (ends_renderMoreFields rest' (ends_cons (by decide))) same
    obtain ⟨rfl, tail⟩ := renderMoreFields_append_inj rest rest' more
    exact ⟨rfl, tail⟩

theorem renderMoreFields_append_inj : ∀ (fields fields' : List (List Token × Node)) {x y : List Char},
    renderMoreFields fields ++ '\x7d' :: x = renderMoreFields fields' ++ '\x7d' :: y → fields = fields' ∧ x = y
  | [], [], _, _, same => ⟨rfl, List.tail_eq_of_cons_eq same⟩
  | [], _ :: _, _, _, same => by
    rw [renderMoreFields, renderMoreFields] at same
    cases same
  | _ :: _, [], _, _, same => by
    rw [renderMoreFields, renderMoreFields] at same
    cases same
  | field :: rest, field' :: rest', _, _, same => by
    rw [renderMoreFields, renderMoreFields, List.cons_append, List.cons_append, List.append_assoc,
      List.append_assoc] at same
    obtain ⟨rfl, more⟩ := renderField_append_inj field field' (ends_renderMoreFields rest (ends_cons (by decide)))
      (ends_renderMoreFields rest' (ends_cons (by decide))) (List.tail_eq_of_cons_eq same)
    obtain ⟨rfl, tail⟩ := renderMoreFields_append_inj rest rest' more
    exact ⟨rfl, tail⟩

end

theorem render_injective : Function.Injective render := by
  intro a b same
  have ended : Ends [] := by rintro c ⟨⟩
  exact (render_append_inj a b ended ended (congrArg (· ++ []) same)).1

end Node

/-! ### Bytes -/

theorem toNat_lt (c : Char) : c.toNat < 0x110000 := by
  have valid := c.valid
  unfold Char.toNat
  rcases valid with low | high <;> omega

theorem utf8_ne_nil (c : Char) : utf8 c ≠ [] := by
  unfold utf8
  dsimp only
  split_ifs <;> exact List.cons_ne_nil _ _

/-- The leading byte of a character tells how many bytes it has. -/
theorem utf8_append_inj {c d : Char} {x y : List Nat} (same : utf8 c ++ x = utf8 d ++ y) : c = d ∧ x = y := by
  suffices codes : c.toNat = d.toNat ∧ x = y from
    ⟨Char.toNat_inj.mp codes.1, codes.2⟩
  have boundC := toNat_lt c
  have boundD := toNat_lt d
  unfold utf8 at same
  dsimp only at same
  generalize c.toNat = m at same boundC ⊢
  generalize d.toNat = n at same boundD ⊢
  split_ifs at same <;>
    simp only [List.cons_append, List.nil_append, List.cons.injEq] at same <;>
    first
    | (refine ⟨by omega, ?_⟩; tauto)
    | omega

theorem flatMap_utf8_injective : Function.Injective (List.flatMap utf8)
  | [], [], _ => rfl
  | [], d :: t, same => by
    rw [List.flatMap_cons] at same
    exact absurd (List.append_eq_nil_iff.mp same.symm).1 (utf8_ne_nil d)
  | c :: s, [], same => by
    rw [List.flatMap_cons] at same
    exact absurd (List.append_eq_nil_iff.mp same).1 (utf8_ne_nil c)
  | c :: s, d :: t, same => by
    rw [List.flatMap_cons, List.flatMap_cons] at same
    obtain ⟨rfl, rest⟩ := utf8_append_inj same
    rw [flatMap_utf8_injective rest]

theorem Node.bytes_injective : Function.Injective Node.bytes :=
  flatMap_utf8_injective.comp Node.render_injective

end Json
