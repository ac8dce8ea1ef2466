import Credentials.Time.Instant

/-!
# A clock that is set by hand

The clock holds a signed word of 64 bits, and moving it wraps. A reading that names no instant shows
the greatest one.
-/

namespace Credentials

structure Clock where
  reading : Int64
deriving DecidableEq

namespace Clock

def set (t : Instant) : Clock := ⟨Int64.ofInt t.epoch⟩

def advance (c : Clock) (secs : Int64) : Clock := ⟨c.reading + secs⟩

def now (c : Clock) : Instant := (Instant.ofEpoch? c.reading.toInt).getD Instant.greatest

end Clock
end Credentials
