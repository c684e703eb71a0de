/-!
Points in time as a system clock counts them: nanoseconds since its epoch, with seconds that fit 64
bits.
-/

namespace Oncall

def nanosPerSecond : Nat := 1000000000

/-- The nanoseconds in as many seconds as signed 64-bit numbers reach. -/
def nanosLimit : Nat := 0x8000000000000000 * nanosPerSecond

structure Instant where
  nanos : Int
  low : -(nanosLimit : Int) ≤ nanos
  high : nanos < nanosLimit

namespace Instant

/-- The instant at a number of nanoseconds, if there is one. -/
def ofNanos? (n : Int) : Option Instant :=
  if h : -(nanosLimit : Int) ≤ n ∧ n < nanosLimit then some ⟨n, h.1, h.2⟩ else none

def epoch : Instant := ⟨0, by decide, by decide⟩

/-- The instant a span of nanoseconds before; none if that is before all instants. -/
def before? (t : Instant) (span : Nat) : Option Instant := ofNanos? (t.nanos - span)

/-- The instant a span of nanoseconds later; an instant past all others is not reached. -/
def after (t : Instant) (span : Nat) : Instant := (ofNanos? (t.nanos + span)).getD t

/-- Whether something changed at `changed` is at most `maxAge` nanoseconds old at `now`. With no
instant that far back, everything is young enough. -/
def isFresh (now changed : Instant) (maxAge : Nat) : Bool :=
  match now.before? maxAge with
  | some cutoff => cutoff.nanos ≤ changed.nanos
  | none => true

end Instant

end Oncall
