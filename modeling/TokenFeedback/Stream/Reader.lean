import TokenFeedback.Stream.Framing
import TokenFeedback.Stream.Idle

/-!
# Reading records from a transport

A reader fills its decoder from a line and hands out the records one by one. An error ends the
records once, a read of no bytes once; either way reading may go on.

* `Reader.poll`: one attempt to get the next item.
* `Reader.fill`: reads until a record is complete or nothing more can be read.
* `Reader.await`: the next item, as soon as there is one.
-/

namespace TokenFeedback

/-- What a reader hands out: a record, an error, or the end. -/
abbrev StreamItem := Option (Except StreamError Record)

/-- A reader of records. `room k` bytes and one more are offered to its `k`-th read. -/
structure Reader where
  line : Line
  decoder : Decoder
  /-- The last read brought no bytes. -/
  atEnd : Bool
  /-- The buffer may hold a record that was not handed out. -/
  unread : Bool
  /-- The last item was an error. -/
  failed : Bool
  room : Nat → Nat
  reads : Nat

namespace Reader

/-- Each read is offered eight kilobytes. -/
def standardRoom : Nat → Nat := fun _ => 8191

def ofLine (line : Line) (room : Nat → Nat) : Reader :=
  ⟨line, .fresh, false, false, false, room, 0⟩

/-- An attempt's answer, the reader that is left, and what it reported. -/
abbrev Attempt := Except ClockOverflow (Poll StreamItem) × Reader × List LogEntry

/-- An item from a stream that has ended: the next record of the buffer, or the end. -/
def handOutLast (r : Reader) : Attempt :=
  match r.decoder.finish with
  | (some record, d, log) =>
    (.ok (.ready (some (.ok record))), { r with decoder := d, unread := true }, log)
  | (none, d, log) => (.ok (.ready none), { r with decoder := d, unread := false }, log)

/-- Reads until a record is complete, the stream ends or breaks off, or nothing has arrived. -/
def fill (r : Reader) (now : Nat) : Attempt :=
  match _h : r.line.read now (r.room r.reads + 1) with
  | (.error e, line) => (.error e, { r with line := line, reads := r.reads + 1 }, [])
  | (.ok .pending, line) => (.ok .pending, { r with line := line, reads := r.reads + 1 }, [])
  | (.ok (.ready (.error e)), line) =>
    (.ok (.ready (some (.error (.ofIo e)))),
      { r with line := line, reads := r.reads + 1, failed := true }, [])
  | (.ok (.ready (.ok [])), line) =>
    if r.atEnd then
      (.ok (.ready none), { r with line := line, reads := r.reads + 1 }, [])
    else
      handOutLast { r with line := line, reads := r.reads + 1, atEnd := true, unread := true }
  | (.ok (.ready (.ok (b :: bytes))), line) =>
    match (r.decoder.feed (b :: bytes)).next with
    | (some record, d, log) =>
      (.ok (.ready (some (.ok record))),
        { r with line := line, reads := r.reads + 1, decoder := d, atEnd := false, unread := true },
        log)
    | (none, d, _) =>
      fill
        { r with line := line, reads := r.reads + 1, decoder := d, atEnd := false, unread := false }
        now
termination_by r.line.transport.size
decreasing_by
  have hr : (r.line.read now (r.room r.reads + 1)).1 = .ok (.ready (.ok (b :: bytes))) := by
    rw [_h]
  have hs := Line.read_size_lt hr
  rw [_h] at hs
  exact hs

/-- An attempt to get the next item at time `now`. -/
def poll (r : Reader) (now : Nat) : Attempt :=
  if r.failed then (.ok (.ready none), { r with failed := false, unread := false }, [])
  else if !r.unread then r.fill now
  else if r.atEnd then r.handOutLast
  else
    match r.decoder.next with
    | (some record, d, log) =>
      (.ok (.ready (some (.ok record))), { r with decoder := d }, log)
    | (none, d, _) => { r with decoder := d, unread := false }.fill now

/-- The next item as soon as there is one, or nothing at time `limit`: the answer, the time of
it, the reader that is left, and what it reported. -/
def await (r : Reader) (now limit : Nat) :
    Except ClockOverflow (Poll StreamItem) × Nat × Reader × List LogEntry :=
  awaitWith
    (fun (r, log) now =>
      let (answer, r', entries) := r.poll now
      (answer, r', log ++ entries))
    (fun (r, _) now => r.line.wake now) limit (r.line.transport.left + 3) (r, []) now

end Reader

end TokenFeedback
