/-!
# Time

Instants are counted in nanoseconds from a start that does not matter, and so are durations.  The
clock counts whole seconds up to `Instant.lastSecond`, so a moment too far in the future cannot be
written down.
-/

namespace CodeAudit

/-- A point in time, in nanoseconds. -/
abbrev Instant := Nat

def Instant.nanosPerSecond : Nat := 1000000000

/-- A length of time, in nanoseconds. -/
structure Duration where
  nanos : Nat
  deriving DecidableEq, Repr, Inhabited

namespace Duration

/-- A number of whole seconds. -/
def ofSeconds (seconds : Nat) : Duration := ⟨seconds * Instant.nanosPerSecond⟩

/-- A number stands for as many seconds; settings give lengths of time in this way. -/
instance : Coe Nat Duration := ⟨ofSeconds⟩

end Duration

namespace Instant

/-- The last second that the clock can count to. -/
def lastSecond : Nat := 0x7fffffffffffffff

/-- The instant some time after another, unless it lies beyond the clock's range. -/
def after? (now : Instant) (d : Duration) : Option Instant :=
  let t := now + d.nanos
  if t / nanosPerSecond ≤ lastSecond then some t else none

/-- Whether at least some time has gone by since `earlier`. -/
def hasPassed (earlier now : Instant) (d : Duration) : Bool := d.nanos ≤ now - earlier

/-- An instant that can be written down lies the given time ahead. -/
theorem eq_of_after?_eq_some {now t : Instant} {d : Duration} (h : after? now d = some t) :
    t = now + d.nanos := by
  simp only [after?] at h
  split at h <;> simp_all

end Instant

end CodeAudit
