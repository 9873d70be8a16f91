import Mathlib.Algebra.Group.Nat.Defs

/-!
# SHA-1 and HMAC

The hash function SHA-1 on byte strings, and the keyed hash HMAC on top of it. A digest carries
its length, so that its bytes can be taken by their index.

## Main results

* `Digest`: twenty bytes.
* `sha1`, `hmac`: the two functions, which can be evaluated.
-/

namespace Sha1

/-! ### Words -/

/-- Rotate to the left. -/
def rotl (x n : UInt32) : UInt32 := x <<< n ||| x >>> (32 - n)

/-- The bytes of a word, most significant first. -/
def wordBytes (w : UInt32) : List UInt8 :=
  [(w >>> 24).toUInt8, (w >>> 16).toUInt8, (w >>> 8).toUInt8, w.toUInt8]

/-- The words of a byte string whose length is a multiple of four. -/
def words : List UInt8 → List UInt32
  | a :: b :: c :: d :: rest =>
      (a.toUInt32 <<< 24 ||| b.toUInt32 <<< 16 ||| c.toUInt32 <<< 8 ||| d.toUInt32) :: words rest
  | _ => []

/-! ### Compression -/

/-- The chaining state. -/
structure State where
  a : UInt32
  b : UInt32
  c : UInt32
  d : UInt32
  e : UInt32
  deriving DecidableEq, Repr

/-- The initial state. -/
def State.initial : State := ⟨0x67452301, 0xefcdab89, 0x98badcfe, 0x10325476, 0xc3d2e1f0⟩

/-- Extend a message schedule by `n` words. The newest word comes first. -/
def extend : Nat → List UInt32 → List UInt32
  | 0, ws => ws
  | n + 1, ws =>
      let w := ws.getD 2 0 ^^^ ws.getD 7 0 ^^^ ws.getD 13 0 ^^^ ws.getD 15 0
      extend n (rotl w 1 :: ws)

/-- The function and the constant of the round number `t`. -/
def roundFunction (t : Nat) (b c d : UInt32) : UInt32 × UInt32 :=
  if t < 20 then ((b &&& c) ||| (~~~b &&& d), 0x5a827999)
  else if t < 40 then (b ^^^ c ^^^ d, 0x6ed9eba1)
  else if t < 60 then ((b &&& c) ||| (b &&& d) ||| (c &&& d), 0x8f1bbcdc)
  else (b ^^^ c ^^^ d, 0xca62c1d6)

/-- The rounds from the number `t` on, one for each word. -/
def rounds : Nat → State → List UInt32 → State
  | _, s, [] => s
  | t, s, w :: ws =>
      let (f, k) := roundFunction t s.b s.c s.d
      rounds (t + 1) ⟨rotl s.a 5 + f + s.e + k + w, s.a, rotl s.b 30, s.c, s.d⟩ ws

/-- Compress a block of sixteen words. -/
def compress (s : State) (block : List UInt32) : State :=
  let r := rounds 0 s (extend 64 block.reverse).reverse
  ⟨s.a + r.a, s.b + r.b, s.c + r.c, s.d + r.d, s.e + r.e⟩

/-- Compress `n` blocks. -/
def compressAll : Nat → State → List UInt32 → State
  | 0, s, _ => s
  | n + 1, s, ws => compressAll n (compress s (ws.take 16)) (ws.drop 16)

/-! ### The hash functions -/

/-- A message, filled up to a multiple of 64 bytes: a one bit, zeros, and the length in bits. -/
def pad (msg : List UInt8) : List UInt8 :=
  let bits := UInt64.ofNat (8 * msg.length)
  let zeros : List UInt8 := List.replicate ((119 - msg.length % 64) % 64) 0
  msg ++ 0x80 :: zeros ++ wordBytes (bits >>> 32).toUInt32 ++ wordBytes bits.toUInt32

/-- The bytes of a hash. -/
structure Digest where
  bytes : List UInt8
  length_eq : bytes.length = 20

/-- The byte number `i`. -/
def Digest.get (h : Digest) (i : Nat) (hi : i < 20) : UInt8 :=
  h.bytes.get ⟨i, h.length_eq ▸ hi⟩

/-- The digest that a state stands for, most significant byte first. -/
def State.digest (s : State) : Digest where
  bytes := wordBytes s.a ++ wordBytes s.b ++ wordBytes s.c ++ wordBytes s.d ++ wordBytes s.e
  length_eq := rfl

/-- SHA-1: the padded message, compressed block by block. -/
def sha1 (msg : List UInt8) : Digest :=
  let padded := pad msg
  (compressAll (padded.length / 64) .initial (words padded)).digest

/-- The key as a block: hashed if it is longer, filled up if it is shorter. -/
def keyBlock (key : List UInt8) : List UInt8 :=
  let key := if 64 < key.length then (sha1 key).bytes else key
  key ++ List.replicate (64 - key.length) 0

/-- HMAC-SHA-1. -/
def hmac (key msg : List UInt8) : Digest :=
  let block := keyBlock key
  let inner := sha1 (block.map (· ^^^ 0x36) ++ msg)
  sha1 (block.map (· ^^^ 0x5c) ++ inner.bytes)

-- The digest of "abc".
example : (sha1 [0x61, 0x62, 0x63]).bytes =
    [0xa9, 0x99, 0x3e, 0x36, 0x47, 0x06, 0x81, 0x6a, 0xba, 0x3e, 0x25, 0x71, 0x78, 0x50, 0xc2,
      0x6c, 0x9c, 0xd0, 0xd8, 0x9d] := by
  decide +kernel

end Sha1
