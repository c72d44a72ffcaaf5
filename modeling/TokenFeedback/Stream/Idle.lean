import TokenFeedback.Stream.Transport

/-!
# Idle timers

A line is a transport whose reader may give up after a silence. Its timer runs from the last
attempt that found something; an attempt that finds nothing at the deadline or later fails.

* `Clock.reaches`: how far the clock can count, which hangs on how long it has run.
* `IdleTimer.start`, `IdleTimer.rearm`: a deadline one idle span from now. A running timer has to
  be able to say when it fires; one that is only started may lie out of sight.
* `Line.read`: an attempt to read. What has arrived by the deadline wins over the deadline.
* `Line.await`: attempts, each as soon as it is worth making, until one succeeds or the caller's
  patience ends.
-/

namespace TokenFeedback

/-- The clock cannot say when a span from now ends. -/
inductive ClockOverflow where
  | mk
  deriving Repr, DecidableEq

def ClockOverflow.message (_ : ClockOverflow) : String :=
  "overflow when adding duration to instant"

/-- The clock that deadlines are set by. -/
structure Clock where
  /-- What it reads at time zero: the milliseconds since its own beginning. -/
  zero : Nat
  deriving Repr, DecidableEq

namespace Clock

/-- The clock of a host that has just come up. -/
def young : Clock := ⟨2000⟩

/-- The seconds that a clock can count, in 63 bits. -/
def range : Nat := 9223372036854775808

/-- What the clock reads at time `now`, in milliseconds. -/
def reading (clock : Clock) (now : Nat) : Nat := clock.zero + now

/-- Can the clock say when the span from time `now` ends? -/
def reaches (clock : Clock) (now : Nat) (d : Span) : Bool :=
  let ms := clock.reading now
  ms / 1000 + (1000000 * (ms % 1000) + d.nanos) / 1000000000 + d.secs < range

end Clock

/-- A timer for silences longer than `after`, the time at which it fires, and the clock that it is
set by. -/
structure IdleTimer where
  clock : Clock
  after : Span
  deadline : Nat
  deriving Repr, DecidableEq

namespace IdleTimer

/-- Thirty years: further than any run. -/
def farAway : Nat := 946080000000

/-- A new timer. A span that the clock cannot reach is taken to be very long. -/
def start (clock : Clock) (now : Nat) (after : Span) : IdleTimer :=
  ⟨clock, after, now + if clock.reaches now after then after.ticks else farAway⟩

/-- The timer with its deadline moved to one span from now. -/
def rearm (timer : IdleTimer) (now : Nat) : Except ClockOverflow IdleTimer :=
  if timer.clock.reaches now timer.after then .ok { timer with deadline := now + timer.after.ticks }
  else .error .mk

/-- The error of an attempt that the timer ends. -/
def error (timer : IdleTimer) : IoError := .idle .timedOut timer.after

end IdleTimer

/-- A transport, perhaps with an idle timer. -/
structure Line where
  transport : Transport
  timer : Option IdleTimer
  deriving Repr, DecidableEq

namespace Line

def plain (t : Transport) : Line := ⟨t, none⟩

/-- The timer starts at once, on a host that has just come up if no other clock is given. -/
def limited (t : Transport) (now : Nat) (after : Span) (clock : Clock := .young) : Line :=
  ⟨t, some (.start clock now after)⟩

/-- What the timer makes of an attempt on the transport. -/
def guarded (timer : IdleTimer) (now : Nat) :
    Poll (Except IoError Bytes) → Except ClockOverflow (Poll (Except IoError Bytes)) × IdleTimer
  | .ready r =>
    match timer.rearm now with
    | .ok timer' => (.ok (.ready r), timer')
    | .error e => (.error e, timer)
  | .pending =>
    if timer.deadline ≤ now then (.ok (.ready (.error timer.error)), timer)
    else (.ok .pending, timer)

/-- An attempt to read at most `room` bytes at time `now`. -/
def read (l : Line) (now room : Nat) :
    Except ClockOverflow (Poll (Except IoError Bytes)) × Line :=
  let (answer, t) := l.transport.read now room
  match l.timer with
  | none => (.ok answer, ⟨t, none⟩)
  | some timer =>
    let (answer', timer') := guarded timer now answer
    (answer', ⟨t, some timer'⟩)

/-- When an attempt that found nothing at time `now` is worth repeating. -/
def wake (l : Line) (now : Nat) : Option Nat :=
  match l.transport.wake now, l.timer with
  | some t, some timer => some (min t timer.deadline)
  | some t, none => some t
  | none, some timer => some timer.deadline
  | none, none => none

theorem eq_of_guarded_eq_data {timer : IdleTimer} {now : Nat}
    {answer : Poll (Except IoError Bytes)} {bytes : Bytes}
    (h : (guarded timer now answer).1 = .ok (.ready (.ok bytes))) :
    answer = .ready (.ok bytes) := by
  cases answer with
  | ready r =>
    simp only [guarded] at h
    generalize timer.rearm now = m at h
    cases m with
    | ok timer' => simpa using h
    | error e => simp at h
  | pending =>
    simp only [guarded] at h
    split at h <;> simp at h

theorem read_size_lt {l : Line} {now room : Nat} {b : UInt8} {bytes : Bytes}
    (h : (l.read now room).1 = .ok (.ready (.ok (b :: bytes)))) :
    (l.read now room).2.transport.size < l.transport.size := by
  have hr : (l.transport.read now room).1 = .ready (.ok (b :: bytes)) := by
    unfold read at h
    cases ht : l.timer with
    | none => simpa [ht] using h
    | some timer => rw [ht] at h; exact eq_of_guarded_eq_data h
  have hl : (l.read now room).2.transport = (l.transport.read now room).2 := by
    unfold read
    cases l.timer <;> rfl
  rw [hl]
  exact Transport.read_size_lt hr

end Line

/-- Repeats an attempt, each time as soon as it is worth repeating, until it succeeds or the time
reaches `limit`; the last argument bounds the attempts. Returns the answer, the time of it, and
what the attempts left behind. -/
def awaitWith {σ α : Type} (attempt : σ → Nat → Except ClockOverflow (Poll α) × σ)
    (wake : σ → Nat → Option Nat) (limit : Nat) :
    Nat → σ → Nat → Except ClockOverflow (Poll α) × Nat × σ
  | 0, s, _ => (.ok .pending, limit, s)
  | tries + 1, s, now =>
    match attempt s now with
    | (.ok .pending, s') =>
      match wake s' now with
      | some t => if t ≤ limit then awaitWith attempt wake limit tries s' t
        else (.ok .pending, limit, s')
      | none => (.ok .pending, limit, s')
    | (answer, s') => (answer, now, s')

/-- Reads as soon as there is something to read, or gives up at time `limit`. Every attempt but
the last two begins an event of the script. -/
def Line.await (l : Line) (room now limit : Nat) :
    Except ClockOverflow (Poll (Except IoError Bytes)) × Nat × Line :=
  awaitWith (fun l now => l.read now room) Line.wake limit (l.transport.left + 3) l now

end TokenFeedback
