import Credentials.Bytes

/-!
# The twisted Edwards curve of Ed25519

Points are kept in extended coordinates, with `T = X * Y / Z`; one complete addition law serves for
sums and doubles. A point's encoding is `y` with the low bit of `x` on top.
-/

namespace Credentials.Ed25519

def fieldPrime : Nat := Nat.pow 2 255 - 19

def groupOrder : Nat := Nat.pow 2 252 + 27742317777372353535851937790883648493

namespace BaseField

def add (a b : Nat) : Nat := (a + b) % fieldPrime

def sub (a b : Nat) : Nat := (a + (fieldPrime - b)) % fieldPrime

def mul (a b : Nat) : Nat := a * b % fieldPrime

def neg (a : Nat) : Nat := sub 0 a

/-- The power of `b` by the low `k` bits of `e`. -/
def powBits (b e : Nat) : Nat → Nat
  | 0 => 1
  | k + 1 =>
    let h := powBits (mul b b) (e / 2) k
    if e % 2 = 1 then mul b h else h

/-- The power of `b` by an exponent below `2 ^ 256`. -/
def pow (b e : Nat) : Nat := powBits b e 256

def inv (a : Nat) : Nat := pow a (fieldPrime - 2)

def rootOfMinusOne : Nat := pow 2 ((fieldPrime - 1) / 4)

/-- The even square root of `u / v`, if there is one. -/
def sqrtRatio? (u v : Nat) : Option Nat :=
  let v3 := mul (mul v v) v
  let v7 := mul (mul v3 v3) v
  let r := mul (mul u v3) (pow (mul u v7) ((fieldPrime - 5) / 8))
  let check := mul v (mul r r)
  let even := fun x => if x % 2 = 1 then neg x else x
  if check = u then some (even r)
  else if check = neg u then some (even (mul r rootOfMinusOne))
  else none

end BaseField

/-- The constant of the curve, `-121665 / 121666`. -/
def curveD : Nat := BaseField.mul (BaseField.neg 121665) (BaseField.inv 121666)

structure Point where
  x : Nat
  y : Nat
  z : Nat
  t : Nat

namespace Point

open BaseField

def zero : Point := ⟨0, 1, 1, 0⟩

def addWith (twoD : Nat) (p q : Point) : Point :=
  let a := mul (sub p.y p.x) (sub q.y q.x)
  let b := mul (BaseField.add p.y p.x) (BaseField.add q.y q.x)
  let c := mul twoD (mul p.t q.t)
  let d := mul 2 (mul p.z q.z)
  let e := sub b a
  let f := sub d c
  let g := BaseField.add d c
  let h := BaseField.add b a
  ⟨mul e f, mul g h, mul f g, mul e h⟩

def add (p q : Point) : Point := addWith (mul 2 curveD) p q

def negate (p : Point) : Point := ⟨neg p.x, p.y, p.z, neg p.t⟩

/-- Adds to `acc` the multiple of `p` by the low `k` bits of `n`, given twice the curve constant. -/
def addMultiple (twoD n : Nat) (p acc : Point) : Nat → Point
  | 0 => acc
  | k + 1 =>
    addMultiple twoD (n / 2) (addWith twoD p p) (if n % 2 = 1 then addWith twoD acc p else acc) k

/-- The multiple of `p` by a number below `2 ^ 256`. -/
def smul (n : Nat) (p : Point) : Point := addMultiple (mul 2 curveD) n p zero 256

end Point

/-- `k` bytes of a number, least significant first. -/
def littleEndian (k n : Nat) : Bytes := (List.range k).map fun i => UInt8.ofNat (n >>> (8 * i))

def numberOf (b : Bytes) : Nat := b.foldr (fun x n => x.toNat + 256 * n) 0

namespace Point

def encode (p : Point) : Bytes :=
  let zi := BaseField.inv p.z
  let x := BaseField.mul p.x zi
  let y := BaseField.mul p.y zi
  littleEndian 32 (y + x % 2 * Nat.pow 2 255)

/-- The point of an encoding; `y` is taken modulo the prime. -/
def decode? (b : Bytes) : Option Point :=
  let n := numberOf b
  let y := n % Nat.pow 2 255 % fieldPrime
  let yy := BaseField.mul y y
  let u := BaseField.sub yy 1
  let v := BaseField.add (BaseField.mul curveD yy) 1
  match BaseField.sqrtRatio? u v with
  | none => none
  | some x =>
    let x := if n / Nat.pow 2 255 % 2 = 1 then BaseField.neg x else x
    some ⟨x, y, 1, BaseField.mul x y⟩

/-- The point with `y = 4 / 5` and even `x`. -/
def base : Point :=
  let y := BaseField.mul 4 (BaseField.inv 5)
  (decode? (littleEndian 32 y)).getD zero

def double (p : Point) : Point := p.add p

/-- Whether eight times the point is the neutral point. -/
def isSmallOrder (p : Point) : Bool :=
  let q := p.double.double.double
  q.x == 0 && q.y == q.z

end Point
end Credentials.Ed25519
