import Credentials.Bytes

/-!
# Decimal numerals

Naturals and integers as decimal digits. Writing gives the one numeral without leading zeros;
reading takes any run of digits.
-/

namespace Credentials.Decimal

def isDigit (b : UInt8) : Bool := 0x30 ≤ b && b ≤ 0x39

def digitValue (b : UInt8) : Nat := b.toNat - 0x30

def digit (n : Nat) : UInt8 := UInt8.ofNat (0x30 + n % 10)

def value (ds : Bytes) : Nat := ds.foldl (fun n d => 10 * n + digitValue d) 0

/-- The numeral of a natural, most significant digit first. -/
def ofNat (n : Nat) : Bytes :=
  if n < 10 then [digit n] else ofNat (n / 10) ++ [digit n]

def ofInt : Int → Bytes
  | .ofNat n => ofNat n
  | .negSucc n => 0x2d :: ofNat (n + 1)

def nat? (b : Bytes) : Option Nat :=
  if b ≠ [] ∧ b.all isDigit then some (value b) else none

/-- Reads digits after at most one sign. -/
def signed? : Bytes → Option Int
  | 0x2d :: r => (nat? r).map fun n => -(n : Int)
  | 0x2b :: r => (nat? r).map Int.ofNat
  | r => (nat? r).map Int.ofNat

/-- Reads digits after at most one plus sign. -/
def unsigned? : Bytes → Option Nat
  | 0x2b :: r => nat? r
  | r => nat? r

/-- The numeral of `n` with zeros in front up to `width` digits. -/
def padded (width n : Nat) : Bytes :=
  List.replicate (width - (ofNat n).length) 0x30 ++ ofNat n

theorem digitValue_digit (n : Nat) : digitValue (digit n) = n % 10 := by
  have h : n % 10 < 10 := Nat.mod_lt _ (by decide)
  simp only [digitValue, digit, UInt8.toNat_ofNat']
  omega

theorem isDigit_digit (n : Nat) : isDigit (digit n) = true := by
  have h : n % 10 < 10 := Nat.mod_lt _ (by decide)
  simp only [isDigit, digit, Bool.and_eq_true, decide_eq_true_eq, UInt8.le_iff_toNat_le,
    UInt8.toNat_ofNat', UInt8.reduceToNat]
  omega

theorem value_append_singleton (ds : Bytes) (d : UInt8) :
    value (ds ++ [d]) = 10 * value ds + digitValue d := by
  simp [value, List.foldl_append]

theorem value_ofNat (n : Nat) : value (ofNat n) = n := by
  fun_induction ofNat n with
  | case1 n h => simp [value, digitValue_digit]; omega
  | case2 n h ih => rw [value_append_singleton, ih, digitValue_digit]; omega

theorem ofNat_ne_nil (n : Nat) : ofNat n ≠ [] := by
  rw [ofNat]; split <;> simp

theorem all_isDigit_ofNat (n : Nat) : (ofNat n).all isDigit = true := by
  fun_induction ofNat n with
  | case1 n h => simp [isDigit_digit]
  | case2 n h ih => simp [List.all_append, ih, isDigit_digit]

theorem nat?_ofNat (n : Nat) : nat? (ofNat n) = some n := by
  simp [nat?, ofNat_ne_nil, all_isDigit_ofNat, value_ofNat]

end Credentials.Decimal
