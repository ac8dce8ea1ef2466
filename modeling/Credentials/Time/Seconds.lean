import Credentials.Time.Instant

/-!
# Seconds in words

Differences of time are held in signed words of 64 bits. What has no place in a word is brought to
the nearest end of the range.
-/

namespace Credentials.Seconds

/-- A number of seconds, at most the greatest word. -/
def ofNat (secs : Nat) : Int64 := .ofIntClamp secs

/-- The seconds from one instant to another. -/
def since (t s : Instant) : Int64 := .ofIntClamp (t.since s)

/-- The magnitude of a word; that of the least word is the greatest one. -/
def magnitude (n : Int64) : Int64 := .ofIntClamp n.toInt.natAbs

end Credentials.Seconds
