import Credentials.Binary64
import Credentials.Json.Basic

/-!
# The shortest decimal that reads back

Of all decimals that round to a number, those with the fewest digits are taken, and of these the
nearest to it. Numbers from `1e-5` up to `1e16` are written with a point, all others with an exponent.
-/

namespace Credentials.Binary64

/-- The decimals that round to `m * 2 ^ e` lie between these two numerators over the denominator; the
value itself is the third numerator. -/
structure Interval where
  low : Nat
  high : Nat
  value : Nat
  denominator : Nat
  closed : Bool

def interval (m : Nat) (e : Int) : Interval :=
  let up := if 0 ≤ e then Nat.pow 2 e.toNat else 1
  let down := if 0 ≤ e then 1 else Nat.pow 2 (-e).toNat
  let short := m = Nat.pow 2 52 ∧ minExponent < e
  { low := (4 * m - (if short then 1 else 2)) * up
    high := (4 * m + 2) * up
    value := 4 * m * up
    denominator := 4 * down
    closed := m % 2 = 0 }

def Interval.contains (i : Interval) (n d : Nat) : Bool :=
  let x := n * i.denominator
  if i.closed then i.low * d ≤ x && x ≤ i.high * d else i.low * d < x && x < i.high * d

/-- The grid of multiples of `10 ^ k`, as a fraction. -/
def tenPower (k : Int) : Nat × Nat :=
  if 0 ≤ k then (Nat.pow 10 k.toNat, 1) else (1, Nat.pow 10 (-k).toNat)

/-- The better of the value's two neighbours on a grid, if one lies in the interval. -/
def onGrid? (i : Interval) (k : Int) : Option Nat :=
  let (p, q) := tenPower k
  let below := i.value * q / (i.denominator * p)
  let above := below + 1
  let inside := fun n => i.contains (n * p) q
  -- twice the value against the middle of the two neighbours
  let left := 2 * i.value * q
  let right := (2 * below + 1) * (i.denominator * p)
  match inside below, inside above with
  | true, true =>
    if left < right then some below
    else if right < left then some above
    else if below % 2 = 0 then some below else some above
  | true, false => some below
  | false, true => some above
  | false, false => none

/-- The power of ten at or below `n / d`, within one. -/
def tenLog (n d : Nat) : Int :=
  let guess : Int := ((Nat.log2 n : Int) - (Nat.log2 d : Int)) * 30103 / 100000
  let fits := fun (k : Int) => let (p, q) := tenPower k; p * d ≤ n * q
  if fits (guess + 1) then guess + 1
  else if fits guess then guess
  else guess - 1

/-- The digits and the power of ten of the first grid that has a decimal in the interval. -/
def shortestFrom (i : Interval) (k : Int) : Nat → Nat × Int
  | 0 => ((onGrid? i k).getD 0, k)
  | n + 1 =>
    match onGrid? i k with
    | some d => (d, k)
    | none => shortestFrom i (k - 1) n

def withoutZeros (digits : Nat) (k : Int) : Nat → Nat × Int
  | 0 => (digits, k)
  | n + 1 => if digits % 10 = 0 then withoutZeros (digits / 10) (k + 1) n else (digits, k)

def shortest (m : Nat) (e : Int) : Nat × Int :=
  let i := interval m e
  let (d, k) := shortestFrom i (tenLog i.value i.denominator) 17
  withoutZeros d k 17

def layout (digits : Nat) (k : Int) : Bytes :=
  let ds := Decimal.ofNat digits
  let e : Int := k + ds.length - 1
  if e < -5 ∨ 16 ≤ e then
    let fraction := if ds.length = 1 then [] else 0x2e :: ds.tail
    let sign : UInt8 := if e < 0 then 0x2d else 0x2b
    ds.take 1 ++ fraction ++ 0x65 :: sign :: Decimal.ofNat e.natAbs
  else if 0 ≤ k then ds ++ List.replicate k.toNat 0x30 ++ [0x2e, 0x30]
  else if e < 0 then 0x30 :: 0x2e :: (List.replicate (-e - 1).toNat 0x30 ++ ds)
  else ds.take (e + 1).toNat ++ 0x2e :: ds.drop (e + 1).toNat

/-- The document of a number; only finite numbers have one of their own. -/
def json : Binary64 → Json
  | .finite negative m e =>
    let magnitude := if m = 0 then [0x30, 0x2e, 0x30]
      else let (d, k) := shortest m e; layout d k
    .number (if negative then 0x2d :: magnitude else magnitude)
  | _ => .null

end Credentials.Binary64
