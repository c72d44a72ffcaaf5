import TokenFeedback.Bytes
import TokenFeedback.IoError

/-!
# Scripted transports

A transport is known by what it will do: the events that its reader meets, in order. Time is a
count of milliseconds that only the caller moves.

* `Transport.read`: one attempt to read, at a given time, into a given room.
* `Transport.wake`: when an attempt that found nothing is worth repeating.
* `Transport.read_size_lt`: a read that brings bytes uses up the script.
-/

namespace TokenFeedback

/-- The answer of an attempt that need not succeed at once. -/
inductive Poll (α : Type) where
  | ready (value : α)
  | pending
  deriving Repr, DecidableEq

namespace Transport

/-- What a reader of the transport meets next. -/
inductive Event where
  /-- Bytes; what a read leaves stays for the next one. -/
  | data (bytes : Bytes)
  /-- Nothing, for so many milliseconds from the moment that the event is reached. -/
  | wait (ms : Nat)
  /-- A read that fails. -/
  | failure (error : IoError)
  /-- A read of no bytes. -/
  | close
  /-- Nothing, for ever. -/
  | silence
  deriving Repr, DecidableEq

/-- The reads and bytes that an event can still give. -/
def Event.size : Event → Nat
  | .data bytes => bytes.length + 1
  | _ => 1

/-- The reads and bytes that a script can still give. -/
def scriptSize : List Event → Nat
  | [] => 0
  | e :: rest => e.size + scriptSize rest

end Transport

/-- A transport: its script, the end of the wait that is running, and whether it stays open
behind the script (it is silent there) or not (reads bring no bytes). -/
structure Transport where
  events : List Transport.Event
  busyUntil : Nat
  staysOpen : Bool
  deriving Repr, DecidableEq

namespace Transport

def ofEvents (events : List Event) (staysOpen : Bool) : Transport := ⟨events, 0, staysOpen⟩

/-- Adds an event at the end of the script. -/
def append (t : Transport) (e : Event) : Transport := { t with events := t.events ++ [e] }

/-- The script with so many bytes taken from its first event. -/
def afterTaking (bytes : Bytes) (room : Nat) (rest : List Event) : List Event :=
  if (bytes.drop room).isEmpty then rest else .data (bytes.drop room) :: rest

/-- An attempt to read at most `room` bytes at time `now`, on a script whose running wait ends
at `busy`: the answer, and the end of the wait and the script that are left. -/
def readEvents (staysOpen : Bool) (now room : Nat) :
    List Event → Nat → Poll (Except IoError Bytes) × Nat × List Event
  | events, busy =>
    if now < busy then (.pending, busy, events)
    else
      match events with
      | [] => (if staysOpen then .pending else .ready (.ok []), busy, [])
      | .wait ms :: rest => readEvents staysOpen now room rest (now + ms)
      | .data bytes :: rest =>
        (.ready (.ok (bytes.take room)), busy, afterTaking bytes room rest)
      | .failure e :: rest => (.ready (.error e), busy, rest)
      | .close :: rest => (.ready (.ok []), busy, rest)
      | .silence :: rest => (.pending, busy, .silence :: rest)

/-- An attempt to read at most `room` bytes at time `now`. -/
def read (t : Transport) (now room : Nat) : Poll (Except IoError Bytes) × Transport :=
  let (answer, busy, events) := readEvents t.staysOpen now room t.events t.busyUntil
  (answer, { t with events := events, busyUntil := busy })

/-- The end of the wait that is running at time `now`. -/
def wake (t : Transport) (now : Nat) : Option Nat :=
  if now < t.busyUntil then some t.busyUntil else none

/-- How many events are not used up; a wait is used up once it has begun. -/
def left (t : Transport) : Nat := t.events.length

/-- All that the script can still give. -/
def size (t : Transport) : Nat := scriptSize t.events

theorem size_afterTaking_lt {d : Bytes} {room : Nat} (rest : List Event)
    (h : d.take room ≠ []) :
    scriptSize (afterTaking d room rest) < scriptSize (.data d :: rest) := by
  have hl : (d.drop room).length < d.length := by
    have h1 := List.length_pos_iff.2 h
    rw [List.length_take] at h1
    rw [List.length_drop]
    omega
  unfold afterTaking
  split
  · simp only [scriptSize, Event.size]
    omega
  · simp only [scriptSize, Event.size]
    omega

theorem readEvents_size_lt {staysOpen : Bool} {now room : Nat} {events : List Event}
    {busy : Nat} {b : UInt8} {bytes : Bytes}
    (h : (readEvents staysOpen now room events busy).1 = .ready (.ok (b :: bytes))) :
    scriptSize (readEvents staysOpen now room events busy).2.2 < scriptSize events := by
  induction events generalizing busy with
  | nil =>
    unfold readEvents at h
    split at h
    · simp at h
    · cases staysOpen <;> simp at h
  | cons e rest ih =>
    unfold readEvents at h ⊢
    by_cases hb : now < busy
    · simp [hb] at h
    · simp only [hb, if_false] at h ⊢
      cases e with
      | wait ms =>
        rw [scriptSize]
        exact Nat.lt_add_left _ (ih h)
      | data d =>
        have hd : d.take room = b :: bytes := by simpa using h
        exact size_afterTaking_lt rest (by simp [hd])
      | failure e => simp at h
      | close => simp at h
      | silence => simp at h

/-- A read that brings bytes uses up some of the script. -/
theorem read_size_lt {t : Transport} {now room : Nat} {b : UInt8} {bytes : Bytes}
    (h : (t.read now room).1 = .ready (.ok (b :: bytes))) :
    (t.read now room).2.size < t.size :=
  readEvents_size_lt h

end Transport

end TokenFeedback
