import TokenFeedback.Text.Digits

/-!
# Spans of time

A length of time to the nanosecond, and how it is written.

* `Span.text`: the largest unit of seconds, milliseconds, microseconds and nanoseconds that the
  span reaches, with an exact fraction.
* `Span.ticks`: the whole milliseconds that a timer of this length takes. Timers have
  millisecond resolution and never fire early.
-/

namespace TokenFeedback

/-- A length of time: whole seconds, and nanoseconds below one second. -/
structure Span where
  secs : Nat
  nanos : Nat
  deriving Repr, DecidableEq

namespace Span

def zero : Span := ⟨0, 0⟩

def ofMillis (ms : Nat) : Span := ⟨ms / 1000, ms % 1000 * 1000000⟩

def isZero (d : Span) : Bool := d.secs == 0 && d.nanos == 0

/-- The span in nanoseconds. -/
def totalNanos (d : Span) : Nat := d.secs * 1000000000 + d.nanos

/-- Timer ticks (milliseconds) until a timer of this length fires. -/
def ticks (d : Span) : Nat := (d.totalNanos + 999999) / 1000000

/-- The span in its largest unit, such as `1.5s`, `250ms`, `3µs` or `0ns`. -/
def text (d : Span) : String :=
  if d.secs > 0 then s!"{d.secs}" ++ Text.fraction 9 d.nanos ++ "s"
  else if d.nanos ≥ 1000000 then
    s!"{d.nanos / 1000000}" ++ Text.fraction 6 (d.nanos % 1000000) ++ "ms"
  else if d.nanos ≥ 1000 then
    s!"{d.nanos / 1000}" ++ Text.fraction 3 (d.nanos % 1000) ++ "µs"
  else s!"{d.nanos}ns"

end Span

end TokenFeedback
