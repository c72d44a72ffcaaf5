import TokenFeedback.Proofs.Record.Drain

/-!
# Records do not depend on how their bytes arrive

The owner of a decoder feeds it chunks, of any size and also empty ones, and asks for records as
often as it likes in between. Whatever it does, the records that it gets, the state and the buffer
are settled by the bytes alone.

* `Decoder.run`: any order of feeding and asking.
* `Decoder.drain_run`: **after any run, draining gives what one feed of all its bytes gives.**
* `Decoder.deliver_cut`: a stream cut into pieces of any sizes gives the records of the whole.
-/

namespace TokenFeedback

namespace Decoder

/-- What the owner of a decoder does with it. -/
inductive Call where
  /-- More bytes have arrived. -/
  | feed (chunk : Bytes)
  /-- The next record is asked for. -/
  | decode
  deriving Repr, DecidableEq

/-- The bytes that a call delivers. -/
def Call.bytes : Call → Bytes
  | .feed chunk => chunk
  | .decode => []

/-- The bytes that the calls deliver, in one piece. -/
def delivered (calls : List Call) : Bytes := calls.flatMap Call.bytes

/-- The record that a call emits, if it emits one, and the decoder after it. -/
def call (d : Decoder) : Call → List Record × Decoder
  | .feed chunk => ([], d.feed chunk)
  | .decode => (d.decode.1.toList, d.decode.2)

/-- The records that the calls emit, in order, and the decoder after them. -/
def run : Decoder → List Call → List Record × Decoder
  | d, [] => ([], d)
  | d, c :: calls =>
    ((d.call c).1 ++ ((d.call c).2.run calls).1, ((d.call c).2.run calls).2)

/-- One call takes nothing from what draining gives in the end, whatever is fed later. -/
theorem drain_call (d : Decoder) (c : Call) (later : Bytes) :
    (d.feed (c.bytes ++ later)).drain =
      ((d.call c).1 ++ ((d.call c).2.feed later).drain.1,
        ((d.call c).2.feed later).drain.2) := by
  cases c with
  | feed chunk =>
    rw [← feed_feed]
    rfl
  | decode =>
    rcases hd : d.decode with ⟨_ | r, next⟩
    · simp only [call, hd, Call.bytes, List.nil_append, Option.toList_none]
      rw [drain_congr (decode_feed_of_none hd later)]
    · simp only [call, hd, Call.bytes, List.nil_append, Option.toList_some]
      rw [drain_of_some (decode_feed_of_some hd later)]
      rfl

theorem drain_run_feed (d : Decoder) (calls : List Call) (later : Bytes) :
    (d.feed (delivered calls ++ later)).drain =
      ((d.run calls).1 ++ ((d.run calls).2.feed later).drain.1,
        ((d.run calls).2.feed later).drain.2) := by
  -- `later` is there for the first call, which has the bytes of the others behind it
  induction calls generalizing d with
  | nil => rfl
  | cons c calls ih =>
    have hb : delivered (c :: calls) ++ later = c.bytes ++ (delivered calls ++ later) := by
      rw [delivered, List.flatMap_cons, List.append_assoc]
      rfl
    rw [hb, drain_call, ih, run, List.append_assoc]

theorem run_append (d : Decoder) (a b : List Call) :
    d.run (a ++ b) =
      ((d.run a).1 ++ ((d.run a).2.run b).1, ((d.run a).2.run b).2) := by
  induction a generalizing d with
  | nil => rfl
  | cons c a ih => rw [List.cons_append, run, ih, run, List.append_assoc]

/-- **Fragmentation invariance.** Start a decoder in any state, feed it any chunks and ask it for
records at any points in between. The records emitted so far with those that draining adds, the
state and the buffer are what draining gives after one feed of all bytes so far. So as soon as an
asking finds no record, the run itself has given exactly this. -/
theorem drain_run (d : Decoder) (calls : List Call) :
    ((d.run calls).1 ++ (d.run calls).2.drain.1, (d.run calls).2.drain.2) =
        (d.feed (delivered calls)).drain ∧
      ((d.run calls).2.decode.1 = none →
        d.run (calls ++ [.decode]) = (d.feed (delivered calls)).drain) := by
  have h := drain_run_feed d calls []
  rw [List.append_nil, feed_nil] at h
  refine ⟨h.symm, fun hn => ?_⟩
  rcases hd : (d.run calls).2.decode with ⟨record, next⟩
  rw [hd] at hn
  subst hn
  rw [h, drain_of_none hd, run_append]
  simp only [run, call, hd, Option.toList_none, List.nil_append]

/-- Five bytes, an asking too early, a header that completes a record with no token and begins
another, an empty chunk, an asking that finds the record and one that finds no more. -/
theorem drain_run_split_header :
    (fresh.run [.feed [0, 0, 0, 1, 0], .decode, .feed [0, 0, 0], .feed [],
        .decode]).2.decode.1 = none ∧
      fresh.run [.feed [0, 0, 0, 1, 0], .decode, .feed [0, 0, 0], .feed [], .decode, .decode] =
        (fresh.feed [0, 0, 0, 1, 0, 0, 0, 0]).drain := by
  have h : (fresh.run [.feed [0, 0, 0, 1, 0], .decode, .feed [0, 0, 0], .feed [],
      .decode]).2.decode.1 = none := by decide +kernel
  exact ⟨h, (drain_run fresh _).2 h⟩

/-! ### Pieces of one stream -/

/-- Draining after every chunk gives, in one list, what one feed of all chunks gives. -/
theorem deliver_flatten {d : Decoder} (h : d.Stalled) (chunks : List Bytes) :
    ((d.deliver chunks).1.flatten, (d.deliver chunks).2) = (d.feed chunks.flatten).drain := by
  induction chunks generalizing d with
  | nil =>
    rw [List.flatten_nil, feed_nil, drain_of_short h]
    rfl
  | cons chunk chunks ih =>
    have hd := ih (d.feed chunk).drain_stalled
    rw [List.flatten_cons, ← feed_feed, drain_feed (d.feed chunk), ← hd]
    rfl

end Decoder

theorem flatten_cutFrom (sizes : List Nat) (k : Nat) (stream : Bytes) :
    (cutFrom sizes k stream).flatten = stream := by
  fun_induction cutFrom sizes k stream with
  | case1 k => rfl
  | case2 k b rest size ih =>
    rw [List.flatten_cons, ih, List.cons_append, List.take_append_drop]

/-- The pieces of a stream are the stream. -/
theorem flatten_cut (sizes : List Nat) (stream : Bytes) : (cut sizes stream).flatten = stream := by
  unfold cut
  split
  · exact List.flatten_singleton
  · exact flatten_cutFrom sizes 0 stream

/-- **A stream cut into pieces of any sizes gives the records of the whole.** -/
theorem Decoder.deliver_cut (sizes : List Nat) (stream : Bytes) :
    ((fresh.deliver (cut sizes stream)).1.flatten, (fresh.deliver (cut sizes stream)).2) =
      (fresh.feed stream).drain := by
  rw [deliver_flatten fresh_stalled, flatten_cut]

end TokenFeedback
