import Credentials.Bytes

/-!
# SHA-2

One construction over words of any width, and its two members of 32 and of 64 bits. A message is
padded to whole blocks of sixteen words; each block updates a chain of eight words.
-/

namespace Credentials.Sha2

/-- The choices in which the members of the family differ. -/
structure Variant (w : Nat) where
  initial : List (BitVec w)
  constants : List (BitVec w)
  bigSigma0 : Nat × Nat × Nat
  bigSigma1 : Nat × Nat × Nat
  smallSigma0 : Nat × Nat × Nat
  smallSigma1 : Nat × Nat × Nat

structure Chain (w : Nat) where
  a : BitVec w
  b : BitVec w
  c : BitVec w
  d : BitVec w
  e : BitVec w
  f : BitVec w
  g : BitVec w
  h : BitVec w

variable {w : Nat}

def Chain.ofList (l : List (BitVec w)) : Chain w :=
  ⟨l.getD 0 0, l.getD 1 0, l.getD 2 0, l.getD 3 0, l.getD 4 0, l.getD 5 0, l.getD 6 0, l.getD 7 0⟩

def Chain.toList (s : Chain w) : List (BitVec w) := [s.a, s.b, s.c, s.d, s.e, s.f, s.g, s.h]

def Chain.add (s t : Chain w) : Chain w :=
  ⟨s.a + t.a, s.b + t.b, s.c + t.c, s.d + t.d, s.e + t.e, s.f + t.f, s.g + t.g, s.h + t.h⟩

def rotations (r : Nat × Nat × Nat) (x : BitVec w) : BitVec w :=
  x.rotateRight r.1 ^^^ x.rotateRight r.2.1 ^^^ x.rotateRight r.2.2

def rotationsShift (r : Nat × Nat × Nat) (x : BitVec w) : BitVec w :=
  x.rotateRight r.1 ^^^ x.rotateRight r.2.1 ^^^ (x >>> r.2.2)

def choose (x y z : BitVec w) : BitVec w := (x &&& y) ^^^ (~~~x &&& z)

def majority (x y z : BitVec w) : BitVec w := (x &&& y) ^^^ (x &&& z) ^^^ (y &&& z)

def round (v : Variant w) (s : Chain w) (k m : BitVec w) : Chain w :=
  let t1 := s.h + rotations v.bigSigma1 s.e + choose s.e s.f s.g + k + m
  let t2 := rotations v.bigSigma0 s.a + majority s.a s.b s.c
  ⟨t1 + t2, s.a, s.b, s.c, s.d + t1, s.e, s.f, s.g⟩

/-- Drops the oldest of sixteen message words and appends the next one. -/
def slide (v : Variant w) (window : List (BitVec w)) : List (BitVec w) :=
  window.tail ++ [rotationsShift v.smallSigma1 (window.getD 14 0) + window.getD 9 0
    + rotationsShift v.smallSigma0 (window.getD 1 0) + window.getD 0 0]

def compress (v : Variant w) (s : Chain w) (block : List (BitVec w)) : Chain w :=
  s.add (v.constants.foldl
    (fun (p : Chain w × List (BitVec w)) k =>
      (round v p.1 k (p.2.getD 0 0), slide v p.2)) (s, block)).1

def blockSize (w : Nat) : Nat := 2 * w

/-- `k` bytes of a number, most significant first. -/
def bigEndian (k n : Nat) : Bytes :=
  (List.range k).map fun i => UInt8.ofNat (n >>> (8 * (k - 1 - i)))

/-- The message, one bit, zeros up to a whole block, and the message's length in bits. -/
def pad (w : Nat) (message : Bytes) : Bytes :=
  let tail := w / 4
  let used := message.length + 1 + tail
  message ++ 0x80 :: (List.replicate ((blockSize w - used % blockSize w) % blockSize w) 0
    ++ bigEndian tail (8 * message.length))

/-- Cuts a list into at most `n` pieces of `k` elements. -/
def chunks {α : Type} (k : Nat) : Nat → List α → List (List α)
  | 0, _ => []
  | _ + 1, [] => []
  | n + 1, l => l.take k :: chunks k n (l.drop k)

def wordOf (b : Bytes) : BitVec w := BitVec.ofNat w (b.foldl (fun n x => n * 256 + x.toNat) 0)

def wordsOf (block : Bytes) : List (BitVec w) := (chunks (w / 8) 16 block).map wordOf

def hash (v : Variant w) (message : Bytes) : Bytes :=
  let padded := pad w message
  let blocks := chunks (blockSize w) (padded.length / blockSize w) padded
  let chain := blocks.foldl (fun s b => compress v s (wordsOf b)) (Chain.ofList v.initial)
  chain.toList.flatMap fun x => bigEndian (w / 8) x.toNat

def variant256 : Variant 32 where
  initial := [
    0x6a09e667, 0xbb67ae85, 0x3c6ef372, 0xa54ff53a, 0x510e527f, 0x9b05688c, 0x1f83d9ab, 0x5be0cd19]
  constants := [
    0x428a2f98, 0x71374491, 0xb5c0fbcf, 0xe9b5dba5, 0x3956c25b, 0x59f111f1, 0x923f82a4, 0xab1c5ed5,
    0xd807aa98, 0x12835b01, 0x243185be, 0x550c7dc3, 0x72be5d74, 0x80deb1fe, 0x9bdc06a7, 0xc19bf174,
    0xe49b69c1, 0xefbe4786, 0x0fc19dc6, 0x240ca1cc, 0x2de92c6f, 0x4a7484aa, 0x5cb0a9dc, 0x76f988da,
    0x983e5152, 0xa831c66d, 0xb00327c8, 0xbf597fc7, 0xc6e00bf3, 0xd5a79147, 0x06ca6351, 0x14292967,
    0x27b70a85, 0x2e1b2138, 0x4d2c6dfc, 0x53380d13, 0x650a7354, 0x766a0abb, 0x81c2c92e, 0x92722c85,
    0xa2bfe8a1, 0xa81a664b, 0xc24b8b70, 0xc76c51a3, 0xd192e819, 0xd6990624, 0xf40e3585, 0x106aa070,
    0x19a4c116, 0x1e376c08, 0x2748774c, 0x34b0bcb5, 0x391c0cb3, 0x4ed8aa4a, 0x5b9cca4f, 0x682e6ff3,
    0x748f82ee, 0x78a5636f, 0x84c87814, 0x8cc70208, 0x90befffa, 0xa4506ceb, 0xbef9a3f7, 0xc67178f2]
  bigSigma0 := (2, 13, 22)
  bigSigma1 := (6, 11, 25)
  smallSigma0 := (7, 18, 3)
  smallSigma1 := (17, 19, 10)

def variant512 : Variant 64 where
  initial := [
    0x6a09e667f3bcc908, 0xbb67ae8584caa73b, 0x3c6ef372fe94f82b, 0xa54ff53a5f1d36f1,
    0x510e527fade682d1, 0x9b05688c2b3e6c1f, 0x1f83d9abfb41bd6b, 0x5be0cd19137e2179]
  constants := [
    0x428a2f98d728ae22, 0x7137449123ef65cd, 0xb5c0fbcfec4d3b2f, 0xe9b5dba58189dbbc,
    0x3956c25bf348b538, 0x59f111f1b605d019, 0x923f82a4af194f9b, 0xab1c5ed5da6d8118,
    0xd807aa98a3030242, 0x12835b0145706fbe, 0x243185be4ee4b28c, 0x550c7dc3d5ffb4e2,
    0x72be5d74f27b896f, 0x80deb1fe3b1696b1, 0x9bdc06a725c71235, 0xc19bf174cf692694,
    0xe49b69c19ef14ad2, 0xefbe4786384f25e3, 0x0fc19dc68b8cd5b5, 0x240ca1cc77ac9c65,
    0x2de92c6f592b0275, 0x4a7484aa6ea6e483, 0x5cb0a9dcbd41fbd4, 0x76f988da831153b5,
    0x983e5152ee66dfab, 0xa831c66d2db43210, 0xb00327c898fb213f, 0xbf597fc7beef0ee4,
    0xc6e00bf33da88fc2, 0xd5a79147930aa725, 0x06ca6351e003826f, 0x142929670a0e6e70,
    0x27b70a8546d22ffc, 0x2e1b21385c26c926, 0x4d2c6dfc5ac42aed, 0x53380d139d95b3df,
    0x650a73548baf63de, 0x766a0abb3c77b2a8, 0x81c2c92e47edaee6, 0x92722c851482353b,
    0xa2bfe8a14cf10364, 0xa81a664bbc423001, 0xc24b8b70d0f89791, 0xc76c51a30654be30,
    0xd192e819d6ef5218, 0xd69906245565a910, 0xf40e35855771202a, 0x106aa07032bbd1b8,
    0x19a4c116b8d2d0c8, 0x1e376c085141ab53, 0x2748774cdf8eeb99, 0x34b0bcb5e19b48a8,
    0x391c0cb3c5c95a63, 0x4ed8aa4ae3418acb, 0x5b9cca4f7763e373, 0x682e6ff3d6b2b8a3,
    0x748f82ee5defb2fc, 0x78a5636f43172f60, 0x84c87814a1f0ab72, 0x8cc702081a6439ec,
    0x90befffa23631e28, 0xa4506cebde82bde9, 0xbef9a3f7b2c67915, 0xc67178f2e372532b,
    0xca273eceea26619c, 0xd186b8c721c0c207, 0xeada7dd6cde0eb1e, 0xf57d4f7fee6ed178,
    0x06f067aa72176fba, 0x0a637dc5a2c898a6, 0x113f9804bef90dae, 0x1b710b35131c471b,
    0x28db77f523047d84, 0x32caab7b40c72493, 0x3c9ebe0a15c9bebc, 0x431d67c49c100d4c,
    0x4cc5d4becb3e42b6, 0x597f299cfc657e2a, 0x5fcb6fab3ad6faec, 0x6c44198c4a475817]
  bigSigma0 := (28, 34, 39)
  bigSigma1 := (14, 18, 41)
  smallSigma0 := (1, 8, 7)
  smallSigma1 := (19, 61, 6)

theorem length_bigEndian (k n : Nat) : (bigEndian k n).length = k := by
  simp [bigEndian]

theorem length_hash (v : Variant w) (message : Bytes) :
    (hash v message).length = 8 * (w / 8) := by
  simp [hash, Chain.toList, length_bigEndian]
  omega

end Credentials.Sha2

namespace Credentials

def sha256 (message : Bytes) : Bytes := Sha2.hash Sha2.variant256 message

def sha512 (message : Bytes) : Bytes := Sha2.hash Sha2.variant512 message

theorem length_sha256 (message : Bytes) : (sha256 message).length = 32 := Sha2.length_hash _ _

end Credentials
