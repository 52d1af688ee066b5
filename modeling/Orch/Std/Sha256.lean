import Mathlib.Algebra.Group.Nat.Defs
import Mathlib.Data.List.Basic

namespace Sha256

/-- Words are natural numbers below `2 ^ 32`. -/
def word : Nat := 2 ^ 32

def rotr (x n : Nat) : Nat := (x >>> n) ||| ((x <<< (32 - n)) % word)

def roundConstants : List Nat := [
  0x428a2f98, 0x71374491, 0xb5c0fbcf, 0xe9b5dba5, 0x3956c25b, 0x59f111f1, 0x923f82a4, 0xab1c5ed5,
  0xd807aa98, 0x12835b01, 0x243185be, 0x550c7dc3, 0x72be5d74, 0x80deb1fe, 0x9bdc06a7, 0xc19bf174,
  0xe49b69c1, 0xefbe4786, 0x0fc19dc6, 0x240ca1cc, 0x2de92c6f, 0x4a7484aa, 0x5cb0a9dc, 0x76f988da,
  0x983e5152, 0xa831c66d, 0xb00327c8, 0xbf597fc7, 0xc6e00bf3, 0xd5a79147, 0x06ca6351, 0x14292967,
  0x27b70a85, 0x2e1b2138, 0x4d2c6dfc, 0x53380d13, 0x650a7354, 0x766a0abb, 0x81c2c92e, 0x92722c85,
  0xa2bfe8a1, 0xa81a664b, 0xc24b8b70, 0xc76c51a3, 0xd192e819, 0xd6990624, 0xf40e3585, 0x106aa070,
  0x19a4c116, 0x1e376c08, 0x2748774c, 0x34b0bcb5, 0x391c0cb3, 0x4ed8aa4a, 0x5b9cca4f, 0x682e6ff3,
  0x748f82ee, 0x78a5636f, 0x84c87814, 0x8cc70208, 0x90befffa, 0xa4506ceb, 0xbef9a3f7, 0xc67178f2]

/-- The eight working variables `a` to `h`. -/
structure Digest where
  a : Nat
  b : Nat
  c : Nat
  d : Nat
  e : Nat
  f : Nat
  g : Nat
  h : Nat

def initial : Digest :=
  ⟨0x6a09e667, 0xbb67ae85, 0x3c6ef372, 0xa54ff53a, 0x510e527f, 0x9b05688c, 0x1f83d9ab, 0x5be0cd19⟩

def round (v : Digest) (k w : Nat) : Digest :=
  let s1 := (rotr v.e 6) ^^^ (rotr v.e 11) ^^^ (rotr v.e 25)
  let ch := (v.e &&& v.f) ^^^ ((word - 1 - v.e) &&& v.g)
  let t1 := v.h + s1 + ch + k + w
  let s0 := (rotr v.a 2) ^^^ (rotr v.a 13) ^^^ (rotr v.a 22)
  let maj := (v.a &&& v.b) ^^^ (v.a &&& v.c) ^^^ (v.b &&& v.c)
  ⟨(t1 + (s0 + maj)) % word, v.a, v.b, v.c, (v.d + t1) % word, v.e, v.f, v.g⟩

/-- The next word of the schedule, from the latest sixteen, the newest first. -/
def nextWord (newest : List Nat) : Nat :=
  let w2 := newest.getD 1 0
  let w15 := newest.getD 14 0
  let s1 := (rotr w2 17) ^^^ (rotr w2 19) ^^^ (w2 >>> 10)
  let s0 := (rotr w15 7) ^^^ (rotr w15 18) ^^^ (w15 >>> 3)
  (s1 + newest.getD 6 0 + s0 + newest.getD 15 0) % word

def extend : Nat → List Nat → List Nat
  | 0, newest => newest
  | n + 1, newest => extend n (nextWord newest :: newest)

def rounds : List Nat → List Nat → Digest → Digest
  | k :: ks, w :: ws, v => rounds ks ws (round v k w)
  | _, _, v => v

def compress (state : Digest) (block : List Nat) : Digest :=
  let v := rounds roundConstants (extend 48 block.reverse).reverse state
  ⟨(state.a + v.a) % word, (state.b + v.b) % word, (state.c + v.c) % word, (state.d + v.d) % word,
    (state.e + v.e) % word, (state.f + v.f) % word, (state.g + v.g) % word, (state.h + v.h) % word⟩

def words : List Nat → List Nat
  | b0 :: b1 :: b2 :: b3 :: rest => (b0 * 2 ^ 24 + b1 * 2 ^ 16 + b2 * 2 ^ 8 + b3) :: words rest
  | _ => []

def bigEndian : Nat → Nat → List Nat
  | 0, _ => []
  | n + 1, x => (x >>> (8 * n)) % 256 :: bigEndian n x

def pad (message : List Nat) : List Nat :=
  let zeros := (119 - message.length % 64) % 64
  message ++ 0x80 :: (List.replicate zeros 0 ++ bigEndian 8 (8 * message.length))

/-- Feed sixteen words at a time, with one unit of fuel a block. -/
def blocks : Nat → List Nat → Digest → Digest
  | 0, _, state => state
  | fuel + 1, pending, state => blocks fuel (pending.drop 16) (compress state (pending.take 16))

/-- The thirty-two bytes of the SHA-256 digest of a byte string. -/
def sum256 (message : List Nat) : List Nat :=
  let padded := words (pad message)
  let v := blocks (padded.length / 16) padded initial
  [v.a, v.b, v.c, v.d, v.e, v.f, v.g, v.h].flatMap (bigEndian 4)

end Sha256
