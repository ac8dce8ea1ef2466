import Credentials.Decimal
import Credentials.Text.Quoted
import Credentials.Time.Calendar

/-!
# Instants

Whole seconds of universal time, counted from the start of 1970, in the range of years from -262143
to 262142. Text names an instant by date and time of day with the suffix `Z`.
-/

namespace Credentials

structure Instant where
  epoch : Int
  least_le : -8334601228800 ≤ epoch
  le_greatest : epoch ≤ 8210266876799
deriving DecidableEq

inductive InstantError where
  /-- the text does not end with `Z` -/
  | notUtc (text : String)
  | malformed (text : String)
  | outOfRange (epoch : Int)
deriving DecidableEq

namespace InstantError

def message (e : InstantError) : String :=
  "invalid timestamp: " ++ match e with
    | .notUtc s => s!"timestamp must use Z suffix (UTC only), got: {Text.quoted s}"
    | .malformed s => s!"invalid RFC 3339 timestamp {Text.quoted s}: malformed"
    | .outOfRange n => s!"unix timestamp out of range: {n}"

end InstantError

namespace Instant

def greatest : Instant := ⟨8210266876799, by decide, by decide⟩

def ofEpoch? (n : Int) : Option Instant :=
  if h : -8334601228800 ≤ n ∧ n ≤ 8210266876799 then some ⟨n, h.1, h.2⟩ else none

def ofEpoch (n : Int) : Except InstantError Instant :=
  match ofEpoch? n with
  | some t => .ok t
  | none => .error (.outOfRange n)

/-- A span of seconds. Its milliseconds have to fit in a signed word of 64 bits. -/
def span? (secs : Int) : Option Int :=
  if secs.natAbs ≤ 9223372036854775 then some secs else none

/-- The instant a number of seconds later, if there is one. -/
def add? (t : Instant) (secs : Int) : Option Instant :=
  (span? secs).bind fun d => ofEpoch? (t.epoch + d)

def since (t s : Instant) : Int := t.epoch - s.epoch

def date (t : Instant) : Date := Date.ofDays (t.epoch / 86400)

def secondOfDay (t : Instant) : Nat := (t.epoch % 86400).toNat

/-- Years from 0 to 9999 have four digits; others have a sign as well. -/
def yearText (y : Int) : Bytes :=
  if 0 ≤ y ∧ y ≤ 9999 then Decimal.padded 4 y.toNat
  else (if y < 0 then 0x2d else 0x2b) :: Decimal.padded 4 y.natAbs

def bytes (t : Instant) : Bytes :=
  let d := t.date
  let s := t.secondOfDay
  yearText d.year ++ 0x2d :: Decimal.padded 2 d.month ++ 0x2d :: Decimal.padded 2 d.day
    ++ 0x54 :: Decimal.padded 2 (s / 3600) ++ 0x3a :: Decimal.padded 2 (s / 60 % 60)
    ++ 0x3a :: Decimal.padded 2 (s % 60) ++ [0x5a]

/-- The text of an instant, as in `2026-01-15T12:00:00Z`. -/
def text (t : Instant) : String := Bytes.asciiText t.bytes

def skipFraction : Bytes → Option Bytes
  | 0x2e :: r =>
    match r.span Decimal.isDigit with
    | ([], _) => none
    | (_, r) => some r
  | r => some r

def isDateTimeMark (b : UInt8) : Bool := b == 0x54 || b == 0x74 || b == 0x20

/-- The seconds of a time of day; second 60 is read as second 59. -/
def secondsOf? (h m s : Nat) : Option Nat :=
  if h < 24 ∧ m < 60 ∧ s ≤ 60 then some (h * 3600 + m * 60 + min s 59) else none

/-- The epoch seconds of a text: four digits of the year, two of each other field, and `Z`. -/
def epochOf? : Bytes → Option Int
  | y1 :: y2 :: y3 :: y4 :: 0x2d :: o1 :: o2 :: 0x2d :: d1 :: d2 :: mark ::
      h1 :: h2 :: 0x3a :: m1 :: m2 :: 0x3a :: s1 :: s2 :: r => do
    guard (isDateTimeMark mark)
    let year ← Decimal.nat? [y1, y2, y3, y4]
    let month ← Decimal.nat? [o1, o2]
    let day ← Decimal.nat? [d1, d2]
    let hour ← Decimal.nat? [h1, h2]
    let minute ← Decimal.nat? [m1, m2]
    let second ← Decimal.nat? [s1, s2]
    let rest ← skipFraction r
    guard (rest = [0x5a])
    let date : Date := ⟨year, month, day⟩
    guard date.Valid
    let seconds ← secondsOf? hour minute second
    return date.toDays * 86400 + seconds
  | _ => none

def parse (s : String) : Except InstantError Instant :=
  let b := Bytes.ofText s
  if b.getLast? ≠ some 0x5a then .error (.notUtc s)
  else match (epochOf? b).bind ofEpoch? with
    | some t => .ok t
    | none => .error (.malformed s)

instance : LE Instant := ⟨fun s t => s.epoch ≤ t.epoch⟩

instance : LT Instant := ⟨fun s t => s.epoch < t.epoch⟩

instance (s t : Instant) : Decidable (s ≤ t) := inferInstanceAs (Decidable (s.epoch ≤ t.epoch))

instance (s t : Instant) : Decidable (s < t) := inferInstanceAs (Decidable (s.epoch < t.epoch))

end Instant
end Credentials
