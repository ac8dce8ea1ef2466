import Credentials.Decimal

/-!
# Binary floating point of 64 bits

A finite number is a sign, a natural and a power of two, so it is compared and rounded in exact
arithmetic. Rounding goes to the nearest number, a tie to the even one.
-/

namespace Credentials

inductive Binary64 where
  | nan
  | infinite (negative : Bool)
  /-- the number `m * 2 ^ e`, with a sign -/
  | finite (negative : Bool) (m : Nat) (e : Int)
deriving DecidableEq

namespace Binary64

def minExponent : Int := -1074

def maxExponent : Int := 971

def ofBits (bits : Nat) : Binary64 :=
  let negative := bits / Nat.pow 2 63 % 2 == 1
  let exponent : Nat := bits / Nat.pow 2 52 % 2048
  let fraction := bits % Nat.pow 2 52
  if exponent = 2047 then
    if fraction = 0 then .infinite negative else .nan
  else if exponent = 0 then .finite negative fraction minExponent
  else .finite negative (Nat.pow 2 52 + fraction) ((exponent : Int) - 1075)

/-- The natural nearest to `n / d`, a tie going to the even one. -/
def nearest (n d : Nat) : Nat :=
  let q := n / d
  let r := n % d
  if 2 * r < d then q
  else if d < 2 * r then q + 1
  else if q % 2 = 0 then q
  else q + 1

/-- `n / (d * 2 ^ e)` as a fraction of naturals. -/
def scaled (n d : Nat) (e : Int) : Nat × Nat :=
  if 0 ≤ e then (n, d * Nat.pow 2 e.toNat) else (n * Nat.pow 2 (-e).toNat, d)

def ofFraction (negative : Bool) (n d : Nat) : Binary64 :=
  if n = 0 then .finite negative 0 minExponent
  else
    let guess : Int := (Nat.log2 n : Int) - (Nat.log2 d : Int) - 53
    let e₀ := max guess minExponent
    let (a, b) := scaled n d e₀
    let e := if Nat.pow 2 53 ≤ a / b then e₀ + 1 else e₀
    let (a, b) := scaled n d e
    let m := nearest a b
    let (m, e) := if m = Nat.pow 2 53 then (Nat.pow 2 52, e + 1) else (m, e)
    if maxExponent < e then .infinite negative else .finite negative m e

/-- Digits, the power of ten they are scaled by, and the sign of a number literal. -/
def decimalParts (literal : Bytes) : Bool × Nat × Int :=
  let (negative, r) := match literal with
    | 0x2d :: r => (true, r)
    | r => (false, r)
  let whole := r.takeWhile Decimal.isDigit
  let r := r.dropWhile Decimal.isDigit
  let (places, r) := match r with
    | 0x2e :: r => (r.takeWhile Decimal.isDigit, r.dropWhile Decimal.isDigit)
    | r => ([], r)
  let power := match r with
    | [] => 0
    | _ :: r => (Decimal.signed? r).getD 0
  (negative, Decimal.value (whole ++ places), power - places.length)

def ofLiteral (literal : Bytes) : Binary64 :=
  let (negative, digits, power) := decimalParts literal
  let size : Int := (Nat.log2 digits : Int) / 4 + power
  if digits = 0 then .finite negative 0 minExponent
  else if 400 < size then .infinite negative
  else if (literal.length : Int) + power < -400 then .finite negative 0 minExponent
  else if 0 ≤ power then ofFraction negative (digits * Nat.pow 10 power.toNat) 1
  else ofFraction negative digits (Nat.pow 10 (-power).toNat)

/-- The exact value as a quotient of an integer by a natural; nothing for what is not finite. -/
def toFraction? : Binary64 → Option (Int × Nat)
  | .finite negative m e =>
    let (n, d) : Nat × Nat :=
      if 0 ≤ e then (m * Nat.pow 2 e.toNat, 1) else (m, Nat.pow 2 (-e).toNat)
    some (if negative then -(n : Int) else n, d)
  | _ => none

end Binary64
end Credentials
