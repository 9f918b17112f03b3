/-!
# Clocks

* `Span` — an amount of time;
* `Instant` — what a clock shows, whose seconds are a signed number of 64 bits;
* `Instant.start` — a clock that has counted nothing yet;
* `Instant.after?` — the instant behind a span, if a clock can show it;
* `Instant.left` — the span from one instant to another, which is empty if the other one has
  passed.
-/

namespace Runbook

/-- The number of nanoseconds in a second. -/
def billion : Nat := 1000000000

/-- An amount of time. -/
structure Span where
  seconds : Nat := 0
  nanos : Nat := 0
  nanos_lt : nanos < billion := by decide
deriving DecidableEq

namespace Span

/-- A span in nanoseconds. -/
def total (d : Span) : Nat :=
  d.seconds * billion + d.nanos

/-- The span of so many nanoseconds. -/
def ofNanos (n : Nat) : Span where
  seconds := n / billion
  nanos := n % billion
  nanos_lt := Nat.mod_lt n (by decide)

/-- The span of so many milliseconds. -/
def ofMillis (n : Nat) : Span :=
  ofNanos (n * 1000000)

end Span

/-- One more than the largest number of seconds that a clock shows. -/
def Instant.bound : Int := 9223372036854775808

/-- What a clock shows. -/
@[ext] structure Instant where
  seconds : Int := 0
  nanos : Nat := 0
  seconds_ge : -Instant.bound ≤ seconds := by decide
  seconds_lt : seconds < Instant.bound := by decide
  nanos_lt : nanos < billion := by decide
deriving DecidableEq

namespace Instant

/-- What a clock shows that has counted nothing yet. -/
def start : Instant := {}

/-- An instant in nanoseconds. -/
def total (t : Instant) : Int :=
  t.seconds * billion + t.nanos

/-- The instant of so many nanoseconds, if a clock can show it. -/
def ofNanos? (n : Int) : Option Instant :=
  if h : -bound ≤ n / billion ∧ n / billion < bound then
    some
      { seconds := n / billion
        nanos := (n % billion).toNat
        seconds_ge := h.1
        seconds_lt := h.2
        nanos_lt := by unfold billion; omega }
  else none

/-- The instant behind a span, if a clock can show it. -/
def after? (t : Instant) (d : Span) : Option Instant :=
  ofNanos? (t.total + d.total)

/-- The span that is left at `now` until `t`, which is empty if `t` has passed. -/
def left (t now : Instant) : Span :=
  .ofNanos (t.total - now.total).toNat

end Instant

end Runbook
