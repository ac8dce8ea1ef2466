import Credentials.Binary64
import Credentials.Json.Basic

/-!
# Numbers under a schema

A literal that is a whole number of at most 64 bits has its own value; every other literal has the
value of the nearest number of binary floating point. Comparison is exact on these values.
-/

namespace Credentials.Schema

/-- The signed digits of a literal without point and exponent. -/
def wholeLiteral? (l : Bytes) : Option Int := Decimal.signed? l

/-- The value of a literal as an integer over a natural; nothing beyond the finite numbers. -/
def value? (l : Bytes) : Option (Int × Nat) :=
  match wholeLiteral? l with
  | some i =>
    if -(Int.pow 2 63) ≤ i ∧ i < Int.pow 2 64 then some (i, 1)
    else (Binary64.ofLiteral l).toFraction?
  | none => (Binary64.ofLiteral l).toFraction?

def fractionLt (a b : Int × Nat) : Bool := a.1 * b.2 < b.1 * a.2

def fractionEq (a b : Int × Nat) : Bool := a.1 * b.2 == b.1 * a.2

/-- Whether two literals have values in a relation; no relation holds beyond the finite numbers. -/
def related (r : Int × Nat → Int × Nat → Bool) (a b : Bytes) : Bool :=
  match value? a, value? b with
  | some a, some b => r a b
  | _, _ => false

def isWhole (l : Bytes) : Bool :=
  match value? l with
  | some (n, d) => n % (d : Int) == 0
  | none => false

/-- The value of a literal as a natural; halves and negative numbers have none. -/
def natural? (l : Bytes) : Option Nat :=
  match value? l with
  | some (n, d) => if n % (d : Int) = 0 ∧ 0 ≤ n then some (n / (d : Int)).toNat else none
  | none => none

def quotient? (a b : Int × Nat) : Option (Int × Nat) :=
  (Binary64.ofFraction ((a.1 < 0) != (b.1 < 0)) (a.1.natAbs * b.2) (b.1.natAbs * a.2)).toFraction?

def rounded? (l : Bytes) : Option (Int × Nat) := (Binary64.ofLiteral l).toFraction?

/-- Whether a number is a multiple. Whole divisors are exact. For others the rounded quotient counts:
what it has beyond a whole number, with its sign, must be less than `2 ^ -52`. -/
def isMultiple (divisor l : Bytes) : Bool :=
  match rounded? l, rounded? divisor with
  | some (n, d), some (m, e) =>
    if m % (e : Int) = 0 then n % (d : Int) == 0 && (n / (d : Int)) % (m / (e : Int)) == 0
    else match quotient? (n, d) (m, e) with
      | some (q, c) => q.tmod c * Int.pow 2 52 < c
      | none => n * e % (m * d) == 0
  | _, _ => false

/-- Whether two numbers differ by less than `2 ^ -52` in binary floating point. -/
def isNear (a b : Bytes) : Bool :=
  match rounded? a, rounded? b with
  | some (n, d), some (m, e) =>
    match (Binary64.ofFraction false (n * e - m * d).natAbs (d * e)).toFraction? with
    | some (q, c) => q * Int.pow 2 52 < c
    | none => false
  | _, _ => false

end Credentials.Schema
