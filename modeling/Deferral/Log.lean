/-
# Deferral.Log -- records of what was done

Operations leave records for those who watch over them. A record has a level, and a
log may be read from some level up. Leaving a record never fails.
-/

namespace Deferral

/-- How much a record matters. -/
inductive Level where
  | debug
  | info
  | warning
deriving DecidableEq, Repr

namespace Level

/-- The name of a level. -/
def name : Level → String
  | debug => "DEBUG"
  | info => "INFO"
  | warning => "WARNING"

end Level

/-- A record of a log. -/
structure LogRecord where
  level : Level
  message : String
deriving DecidableEq, Repr

/-- The records that a message leaves. A message that cannot be put together leaves none, and
that is no failure of what it is about. -/
def recordsOf {ε : Type} (level : Level) : Except ε String → List LogRecord
  | .ok message => [⟨level, message⟩]
  | .error _ => []

end Deferral
