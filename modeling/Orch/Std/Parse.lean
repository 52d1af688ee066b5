import Mathlib.Data.List.Basic
import Orch.Std.Double

namespace Parse

def digitValue (c : Char) : Option Nat :=
  if '0' ≤ c ∧ c ≤ '9' then some (c.toNat - '0'.toNat) else none

def hexValue (c : Char) : Option Nat :=
  if '0' ≤ c ∧ c ≤ '9' then some (c.toNat - '0'.toNat)
  else if 'a' ≤ c ∧ c ≤ 'f' then some (c.toNat - 'a'.toNat + 10)
  else if 'A' ≤ c ∧ c ≤ 'F' then some (c.toNat - 'A'.toNat + 10)
  else none

def isDigit (c : Char) : Bool := (digitValue c).isSome

def number (digits : List Char) : Nat :=
  digits.foldl (fun n c => 10 * n + (digitValue c).getD 0) 0

def hexNumber (digits : List Char) : Nat :=
  digits.foldl (fun n c => 16 * n + (hexValue c).getD 0) 0

/-- Nanoseconds in a unit of `time.ParseDuration`. -/
def unitNanos : List Char → Option Nat
  | ['n', 's'] => some 1
  | ['u', 's'] => some 1000
  | ['µ', 's'] => some 1000
  | ['μ', 's'] => some 1000
  | ['m', 's'] => some 1000000
  | ['s'] => some 1000000000
  | ['m'] => some 60000000000
  | ['h'] => some 3600000000000
  | _ => none

/-- The digits after the point that still fit in a 63 bit integer, the rest
being ignored as `leadingFraction` does. -/
def fractionDigits : List Char → Nat → List Char
  | [], _ => []
  | c :: cs, soFar =>
    let next := 10 * soFar + (digitValue c).getD 0
    if soFar > (2 ^ 63 - 1) / 10 ∨ next > 2 ^ 63 then [] else c :: fractionDigits cs next

/-- One term of a duration, such as `1.5h`, with what follows it. -/
def durationTerm (s : List Char) : Option (Nat × List Char) :=
  let whole := s.takeWhile isDigit
  let afterWhole := s.dropWhile isDigit
  let point := afterWhole.head? = some '.'
  let tail := if point then afterWhole.tail else afterWhole
  let fraction := if point then tail.takeWhile isDigit else []
  let afterFraction := if point then tail.dropWhile isDigit else tail
  let unit := afterFraction.takeWhile fun c => !(c == '.' || isDigit c)
  if number whole > 2 ^ 63 ∨ (whole = [] ∧ fraction = []) ∨ unit = [] then none
  else
    match unitNanos unit with
    | none => none
    | some nanos =>
      let digits := fractionDigits fraction 0
      let scale := digits.foldl (fun scale _ => Double.round (scale * 10)) 1
      let part := Double.round (Double.round (number digits) * Double.round (nanos / scale))
      let value := number whole * nanos + part.floor.toNat
      if number whole > 2 ^ 63 / nanos ∨ value > 2 ^ 63 then none
      else some (value, afterFraction.dropWhile fun c => !(c == '.' || isDigit c))

/-- The sum of the terms of a duration, with one unit of fuel a term. -/
def durationTerms : Nat → List Char → Nat → Option Nat
  | _, [], total => some total
  | 0, _ :: _, _ => none
  | fuel + 1, s, total =>
    match durationTerm s with
    | none => none
    | some (value, rest) => if total + value > 2 ^ 63 then none else durationTerms fuel rest (total + value)

/-- `time.ParseDuration`, in nanoseconds. -/
def duration (s : String) : Option Int :=
  let chars := s.toList
  let negative := chars.head? = some '-'
  let body := if negative ∨ chars.head? = some '+' then chars.tail else chars
  if body = ['0'] then some 0
  else if body = [] then none
  else
    match durationTerms body.length body 0 with
    | none => none
    | some total =>
      if negative then some (-total)
      else if total > 2 ^ 63 - 1 then none
      else some total

example : duration "0.00000000100000000000s" = some 0 := by decide +kernel

def splitOn (sep : Char) : List Char → List (List Char)
  | [] => [[]]
  | c :: cs =>
    match splitOn sep cs with
    | [] => [[c]]
    | part :: parts => if c = sep then [] :: part :: parts else (c :: part) :: parts

def octet (digits : List Char) : Option Nat :=
  if digits = [] ∨ ¬ digits.all isDigit ∨ (digits.length > 1 ∧ digits.head? = some '0') ∨ number digits > 255 then none
  else some (number digits)

def ipv4 (s : List Char) : Option (List Nat) :=
  match (splitOn '.' s).mapM octet with
  | some [a, b, c, d] => some [a, b, c, d]
  | _ => none

/-- One group of an IPv6 address, as two bytes. -/
def group (digits : List Char) : Option (List Nat) :=
  if digits = [] ∨ digits.length > 4 ∨ ¬ digits.all (fun c => (hexValue c).isSome) then none
  else some [hexNumber digits / 256, hexNumber digits % 256]

/-- Groups separated by colons. The last one may be an IPv4 address. -/
def groups : List (List Char) → Option (List Nat)
  | [] => some []
  | [last] => if last.contains '.' then ipv4 last else group last
  | first :: rest => do return (← group first) ++ (← groups rest)

def cutEllipsis : List Char → Option (List Char × List Char)
  | ':' :: ':' :: rest => some ([], rest)
  | c :: rest => (cutEllipsis rest).map fun parts => (c :: parts.1, parts.2)
  | [] => none

def groupsOrNone (s : List Char) : Option (List Nat) :=
  if s = [] then some [] else groups (splitOn ':' s)

def ipv6 (s : List Char) : Option (List Nat) :=
  match cutEllipsis s with
  | none =>
    match groups (splitOn ':' s) with
    | some bytes => if bytes.length = 16 then some bytes else none
    | none => none
  | some (before, after) =>
    -- An IPv4 tail may only stand at the very end.
    if before.contains '.' then none
    else
      match groupsOrNone before, groupsOrNone after with
      | some high, some low =>
        if high.length + low.length < 16 then
          some (high ++ List.replicate (16 - high.length - low.length) 0 ++ low)
        else none
      | _, _ => none

/-- `net.ParseIP`: the sixteen bytes of an address. -/
def ip (s : String) : Option (List Nat) :=
  if s.toList.contains ':' then ipv6 s.toList
  else (ipv4 s.toList).map fun bytes => List.replicate 10 0 ++ [255, 255] ++ bytes

def hexByte (digits : List Char) : Option Nat :=
  if digits.length = 2 ∧ digits.all (fun c => (hexValue c).isSome) then some (hexNumber digits) else none

/-- `net.ParseMAC`: groups of two digits, or of four between dots. -/
def mac (s : String) : Option (List Nat) :=
  let chars := s.toList
  let third := chars.getD 2 ' '
  let bytes :=
    if third = ':' ∨ third = '-' then (splitOn third chars).mapM hexByte
    else if chars.getD 4 ' ' = '.' then
      ((splitOn '.' chars).mapM fun part =>
        if part.length = 4 then [part.take 2, part.drop 2].mapM hexByte else none).map List.flatten
    else none
  match bytes with
  | none => none
  | some bytes => if bytes.length = 6 ∨ bytes.length = 8 ∨ bytes.length = 20 then some bytes else none

end Parse
