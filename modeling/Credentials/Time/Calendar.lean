/-!
# The calendar

Days of the proleptic Gregorian calendar, counted from the first of January 1970. Years are counted
from March inside the conversions, so the leap day is the last day of a year.
-/

namespace Credentials

structure Date where
  year : Int
  month : Nat
  day : Nat
deriving DecidableEq, Repr

namespace Date

def isLeapYear (y : Int) : Bool := y % 4 = 0 && (y % 100 ≠ 0 || y % 400 = 0)

def daysInMonth (y : Int) (m : Nat) : Nat :=
  if m = 2 then if isLeapYear y then 29 else 28
  else if m = 4 ∨ m = 6 ∨ m = 9 ∨ m = 11 then 30
  else 31

def Valid (d : Date) : Prop :=
  1 ≤ d.month ∧ d.month ≤ 12 ∧ 1 ≤ d.day ∧ d.day ≤ daysInMonth d.year d.month

instance (d : Date) : Decidable d.Valid := inferInstanceAs (Decidable (_ ∧ _ ∧ _ ∧ _))

/-- The days from the first of March of the year 0 to the first of January 1970. -/
def epochOffset : Int := 719468

/-- The days from the first of March of the year 0 to that of year `y`. -/
def daysBeforeMarchYear (y : Int) : Int := 365 * y + y / 4 - y / 100 + y / 400

/-- The days from the first of March to the first of the month that is `m` months later. -/
def daysBeforeMonth (m : Nat) : Nat := (153 * m + 2) / 5

def toDays (d : Date) : Int :=
  let y := if d.month ≤ 2 then d.year - 1 else d.year
  let m := if d.month ≤ 2 then d.month + 9 else d.month - 3
  daysBeforeMarchYear y + (daysBeforeMonth m : Nat) + d.day - 1 - epochOffset

def cycleDays : Nat := 146097

def ofDays (n : Int) : Date :=
  let z := n + epochOffset
  let cycle := z / cycleDays
  let dayOfCycle := (z % cycleDays).toNat
  let yearOfCycle :=
    (dayOfCycle - dayOfCycle / 1460 + dayOfCycle / 36524 - dayOfCycle / 146096) / 365
  let dayOfYear := dayOfCycle - (365 * yearOfCycle + yearOfCycle / 4 - yearOfCycle / 100)
  let m := (5 * dayOfYear + 2) / 153
  let month := if m < 10 then m + 3 else m - 9
  let year : Int := yearOfCycle + 400 * cycle
  ⟨if month ≤ 2 then year + 1 else year, month, dayOfYear - daysBeforeMonth m + 1⟩

end Date
end Credentials
