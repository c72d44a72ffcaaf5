import TokenFeedback.Record.Decoder

/-!
# Deliveries in small pieces

To feed a decoder takes as long as its buffer is. So pieces that complete no field wait in a
backlog, and are fed together when the awaited field is there.

* `Backlog.accept`: one more piece.
* `Backlog.deliver_eq`: the records come with the same pieces as if each one were fed at once.
-/

namespace TokenFeedback

namespace Decoder

/-- A buffer that is short of the awaited field holds no record, however often it is asked for. -/
theorem decode_of_short {d : Decoder} (h : d.buffer.length < d.state.required) :
    d.decode = (none, d) := by
  have hs : holds d.buffer d.state.required = false := by
    rw [← Bool.not_eq_true, holds_iff]
    omega
  rw [decode, Awaiting.decode_of_short hs]

theorem drain_of_short {d : Decoder} (h : d.buffer.length < d.state.required) :
    d.drain = ([], d) := by
  have hd := decode_of_short h
  rw [drain]
  split
  · next heq =>
    rw [hd] at heq
    rw [(Prod.mk.inj heq).2]
  · next heq =>
    rw [hd] at heq
    cases (Prod.mk.inj heq).1

end Decoder

/-- A decoder and the pieces that wait for it. -/
structure Backlog where
  decoder : Decoder
  /-- The pieces, the newest first. -/
  pieces : List Bytes
  /-- How many bytes the buffer would hold if all of them were fed. -/
  held : Nat
  held_eq : held = (decoder.feed pieces.reverse.flatten).buffer.length

namespace Backlog

def ofDecoder (d : Decoder) : Backlog := ⟨d, [], d.buffer.length, by simp [Decoder.feed]⟩

/-- The decoder with all pieces fed. -/
def whole (b : Backlog) : Decoder := b.decoder.feed b.pieces.reverse.flatten

@[simp] theorem whole_ofDecoder (d : Decoder) : (ofDecoder d).whole = d := by
  simp [ofDecoder, whole, Decoder.feed]

/-- Leaves a piece waiting. -/
def hold (b : Backlog) (chunk : Bytes) : Backlog where
  decoder := b.decoder
  pieces := chunk :: b.pieces
  held := b.held + chunk.length
  held_eq := by
    rw [b.held_eq]
    simp only [Decoder.feed, List.reverse_cons, List.flatten_append, List.length_append,
      List.flatten_singleton]
    omega

@[simp] theorem whole_hold (b : Backlog) (chunk : Bytes) :
    (b.hold chunk).whole = b.whole.feed chunk := by
  simp [hold, whole, Decoder.feed]

/-- One more piece: the records that it completes. -/
def accept (b : Backlog) (chunk : Bytes) : List Record × Backlog :=
  if b.held + chunk.length < b.decoder.state.required then ([], b.hold chunk)
  else
    let (records, d) := (b.whole.feed chunk).drain
    (records, ofDecoder d)

/-- A piece gives the records that it gives when it is fed at once. -/
theorem accept_eq (b : Backlog) (chunk : Bytes) :
    ((b.accept chunk).1, (b.accept chunk).2.whole) = (b.whole.feed chunk).drain := by
  unfold accept
  split
  · next h =>
    rw [whole_hold, Decoder.drain_of_short]
    have hl : (b.whole.feed chunk).buffer.length = b.held + chunk.length := by
      rw [b.held_eq]
      exact List.length_append
    rw [hl]
    exact h
  · simp

/-- Delivers pieces: what every one completed, and the decoder that is left. -/
def deliver : Backlog → List Bytes → List (List Record) × Decoder
  | b, [] => ([], b.whole)
  | b, chunk :: chunks =>
    let (records, b') := b.accept chunk
    let (later, last) := deliver b' chunks
    (records :: later, last)

/-- The records come with the same pieces as if each one were fed at once. -/
theorem deliver_eq (b : Backlog) (chunks : List Bytes) :
    b.deliver chunks = b.whole.deliver chunks := by
  induction chunks generalizing b with
  | nil => rfl
  | cons chunk chunks ih =>
    rw [deliver, Decoder.deliver, ← accept_eq b chunk]
    simp only [ih]

end Backlog

end TokenFeedback
