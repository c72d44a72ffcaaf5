import TokenFeedback.Stream.Reader

/-!
# One attempt to fill a reader's buffer

What `Reader.fill` does with each answer that its line can give, what `Reader.poll` does before it
reads, and what `Decoder.next` and `Decoder.finish` do with each outcome of decoding.

* `Line.read_plain`: a line without timer answers as its transport does.
* `Line.read_limited`: what the timer of a line makes of the answer of its transport.
* `Reader.fill_eq`: the answer of the line settles the attempt, or the attempt goes on.
-/

namespace TokenFeedback

namespace Decoder

theorem next_of_some {d next : Decoder} {r : Record} (h : d.decode = (some r, next)) :
    d.next = (some r, next, [r.decodedEntry]) := by
  rw [Decoder.next, h]

theorem next_of_none {d next : Decoder} (h : d.decode = (none, next)) :
    d.next = (none, next, []) := by
  rw [Decoder.next, h]

theorem finish_of_some {d next : Decoder} {r : Record} (h : d.decode = (some r, next)) :
    d.finish = (some r, next, [r.decodedEntry]) := by
  rw [finish, h]

theorem finish_of_none {d next : Decoder} (h : d.decode = (none, next)) :
    d.finish = (none, fresh, if next.hasRemainder then [next.cutOffEntry] else []) := by
  rw [finish, h]

end Decoder

theorem Line.read_plain {l : Line} (h : l.timer = none) (now room : Nat) :
    l.read now room =
      (.ok (l.transport.read now room).1, ⟨(l.transport.read now room).2, none⟩) := by
  rw [read, h]

/-- The end of a span that the clock cannot count from a moment on, it cannot count from later
moments. -/
theorem Clock.reaches_of_le {clock : Clock} {t now : Nat} {d : Span}
    (h : clock.reaches now d = true) (le : t ≤ now) : clock.reaches t d = true := by
  rw [reaches, decide_eq_true_iff, reading] at h ⊢
  have hle : clock.zero + t ≤ clock.zero + now := Nat.add_le_add_left le _
  omega

/-- An attempt to read on a line with a limit on silences. -/
theorem Line.read_limited {l : Line} {clock : Clock} {d : Span} {deadline : Nat}
    (h : l.timer = some ⟨clock, d, deadline⟩) (now room : Nat) :
    l.read now room =
      match l.transport.read now room with
      | (.ready result, left) =>
        if clock.reaches now d then
          (.ok (.ready result), ⟨left, some ⟨clock, d, now + d.ticks⟩⟩)
        else (.error .mk, ⟨left, some ⟨clock, d, deadline⟩⟩)
      | (.pending, left) =>
        if deadline ≤ now then
          (.ok (.ready (.error (.idle .timedOut d))), ⟨left, some ⟨clock, d, deadline⟩⟩)
        else (.ok .pending, ⟨left, some ⟨clock, d, deadline⟩⟩) := by
  rcases hread : l.transport.read now room with ⟨_ | _, left⟩
  · by_cases hr : clock.reaches now d = true
    · simp only [read, hread, h, guarded, IdleTimer.rearm, if_pos hr]
    · simp only [read, hread, h, guarded, IdleTimer.rearm, if_neg hr]
  · by_cases hd : deadline ≤ now
    · simp only [read, hread, h, guarded, if_pos hd]
      rfl
    · simp only [read, hread, h, guarded, if_neg hd]

namespace Reader

/-- **One attempt to fill the buffer**, by the answer that the line gives. -/
theorem fill_eq (r : Reader) (now : Nat) :
    r.fill now =
      match r.line.read now (r.room r.reads + 1) with
      | (.error e, line) => (.error e, { r with line := line, reads := r.reads + 1 }, [])
      | (.ok .pending, line) => (.ok .pending, { r with line := line, reads := r.reads + 1 }, [])
      | (.ok (.ready (.error e)), line) =>
        (.ok (.ready (some (.error (.ofIo e)))),
          { r with line := line, reads := r.reads + 1, failed := true }, [])
      | (.ok (.ready (.ok [])), line) =>
        if r.atEnd then (.ok (.ready none), { r with line := line, reads := r.reads + 1 }, [])
        else handOutLast
          { r with line := line, reads := r.reads + 1, atEnd := true, unread := true }
      | (.ok (.ready (.ok (b :: bytes))), line) =>
        match (r.decoder.feed (b :: bytes)).next with
        | (some record, d, log) =>
          (.ok (.ready (some (.ok record))),
            { r with
              line := line, reads := r.reads + 1, decoder := d, atEnd := false, unread := true },
            log)
        | (none, d, _) =>
          fill
            { r with
              line := line, reads := r.reads + 1, decoder := d, atEnd := false, unread := false }
            now := by
  rw [fill]
  split <;> next h =>
    rw [h]
    try rfl

/-- A poll of a reader that may hold a complete record, in the middle of a stream. -/
theorem poll_of_unread {r : Reader} (failed : r.failed = false) (unread : r.unread = true)
    (atEnd : r.atEnd = false) (now : Nat) :
    r.poll now =
      match r.decoder.next with
      | (some record, d, log) => (.ok (.ready (some (.ok record))), { r with decoder := d }, log)
      | (none, d, _) => { r with decoder := d, unread := false }.fill now := by
  rw [poll, failed, unread, atEnd]
  rfl

end Reader

end TokenFeedback
