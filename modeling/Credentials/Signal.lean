/-!
# Cancellation

A run may be told to stop. Work on the outside world is a step that changes a world and answers;
guarded work looks at the signal first and is not begun once the signal has fired.
-/

namespace Credentials

inductive Cancelled where
  | mk
deriving DecidableEq

def Cancelled.message : Cancelled → String
  | .mk => "operation cancelled"

/-- A step of a run: it changes the world and answers, or fails with a cause. -/
abbrev Step (W ε α : Type) := ExceptT ε (StateM W) α

namespace Step

variable {W ε ε' α : Type}

/-- The step with its failures described by another type. -/
def mapError (f : ε → ε') (s : Step W ε α) : Step W ε' α :=
  fun w => let (r, w) := s w; (r.mapError f, w)

def ofExcept (r : Except ε α) : Step W ε α := fun w => (r, w)

def look (f : W → α) : Step W ε α := fun w => (.ok (f w), w)

def check (cancelled : W → Bool) (cause : ε) : Step W ε Unit :=
  fun w => if cancelled w then (.error cause, w) else (.ok (), w)

def guarded (cancelled : W → Bool) (cause : ε) (s : Step W ε α) : Step W ε α :=
  fun w => if cancelled w then (.error cause, w) else s w

end Step
end Credentials
