import TokenFeedback.Proofs.Stream.Fill
import TokenFeedback.Proofs.Stream.Residue

/-!
# Asking a decoder at the end of its stream

While a stream goes on its decoder is asked by `Decoder.next`, and once it has ended by
`Decoder.finish`, which also drops what is left. Dropping has to wait for the last record, or that
record is lost; and it must not be forgotten, or the next stream is read from the wrong place.

* `Decoder.asked`: a decoder that is asked so many times in a row.
* `Decoder.finish_eq`: the end of the stream only adds that what is left is dropped.
* `Decoder.finish_eq_next`: up to the last record the end of the stream makes no difference.
* `Decoder.hasRemainder_drain_iff`: something is left exactly when the bytes end inside a record.
* `Decoder.finish_run`: **what a decoder in any state gives at the end of its stream, what it
  reports, and that it is as new behind it.**
-/

namespace TokenFeedback

namespace Decoder

/-- What a way of asking gives: an answer, the decoder after it, and what it reported. -/
abbrev Asking := Decoder → Option Record × Decoder × List LogEntry

/-- A decoder that is asked so many times in a row: the answers, the decoder after them, and all
that it reported. -/
def asked (ask : Asking) : Nat → Decoder → List (Option Record) × Decoder × List LogEntry
  | 0, d => ([], d, [])
  | n + 1, d =>
    let (answer, next, log) := ask d
    let (answers, last, logs) := asked ask n next
    (answer :: answers, last, log ++ logs)

theorem asked_succ (ask : Asking) (n : Nat) (d : Decoder) :
    asked ask (n + 1) d =
      ((ask d).1 :: (asked ask n (ask d).2.1).1, (asked ask n (ask d).2.1).2.1,
        (ask d).2.2 ++ (asked ask n (ask d).2.1).2.2) :=
  rfl

/-- **A way of asking that changes nothing** once it has answered that there is no record. -/
theorem asked_of_rests {ask : Asking} {d : Decoder} (h : ask d = (none, d, [])) (n : Nat) :
    asked ask n d = (List.replicate n none, d, []) := by
  induction n with
  | zero => rfl
  | succ n ih => rw [asked_succ, h, ih, List.replicate_succ, List.append_nil]

/-- A drained decoder has no record, and asking it changes nothing. -/
theorem next_of_stalled {d : Decoder} (h : d.Stalled) : d.next = (none, d, []) := by
  rcases decode_cases (drain_of_short h) with ⟨-, hd⟩ | ⟨_, _, _, hcons, -⟩
  · exact next_of_none hd
  · cases hcons

/-- **A decoder in which no record is under way is as new**: there, dropping what is left changes
nothing. -/
theorem eq_fresh_iff (d : Decoder) : d = fresh ↔ d.hasRemainder = false := by
  constructor
  · rintro rfl
    rfl
  · intro h
    obtain ⟨state, buffer⟩ := d
    rw [hasRemainder, Bool.or_eq_false_iff, Bool.not_eq_false', Bool.not_eq_false'] at h
    obtain ⟨hstate, hbuffer⟩ := h
    have hb : buffer = [] := List.isEmpty_iff.1 hbuffer
    cases state with
    | expiration => rw [hb]; rfl
    | length e => cases hstate
    | token e n => cases hstate

/-- **The end of the stream only adds that what is left is dropped**, if there is something. -/
theorem finish_eq (d : Decoder) :
    d.finish =
      match d.next with
      | (some r, last, log) => (some r, last, log)
      | (none, last, log) =>
        if last.hasRemainder then (none, fresh, log ++ [last.cutOffEntry])
        else (none, last, log) := by
  rcases hd : d.decode with ⟨_ | r, last⟩
  · rw [finish_of_none hd, next_of_none hd]
    by_cases hr : last.hasRemainder = true
    · simp only [if_pos hr, List.nil_append]
    · have hlast : last = fresh := (eq_fresh_iff last).2 (Bool.not_eq_true _ ▸ hr)
      simp only [if_neg hr]
      rw [hlast]
  · rw [finish_of_some hd, next_of_some hd]

/-- A new decoder has nothing to drop. -/
theorem finish_fresh : fresh.finish = (none, fresh, []) := by
  rw [finish_eq, next_of_stalled fresh_stalled]
  rfl

/-- **Something is left in a drained decoder exactly when its bytes end inside a record**: those of
the unfinished record that it had taken, and those in its buffer. -/
theorem hasRemainder_drain_iff (d : Decoder) :
    d.drain.2.hasRemainder = true ↔ ¬ ∃ records, encodeAll records = .ok d.remainder := by
  have hafter : d.drain.2 = after d.remainder := by
    rw [after, drain_feed_remainder]
  rw [hafter]
  exact hasRemainder_after_iff d.remainder

/-- **Up to the last record the end of the stream makes no difference.** -/
theorem finish_eq_next (d : Decoder) (n : Nat) (h : n ≤ d.drain.1.length) :
    asked finish n d = asked next n d := by
  revert n
  refine drain_induction
    (motive := fun d out => ∀ n ≤ out.1.length, asked finish n d = asked next n d) ?_ ?_ d
  · intro d last _ n hn
    obtain rfl : n = 0 := Nat.le_zero.1 hn
    rfl
  · intro d last r out hd ih n hn
    cases n with
    | zero => rfl
    | succ n =>
      have hn' : n ≤ out.1.length := Nat.le_of_succ_le_succ hn
      rw [asked_succ, asked_succ, finish_of_some hd, next_of_some hd]
      simp only [ih n hn']

/-- The answers up to the last record. -/
theorem answers_next (d : Decoder) (n : Nat) (h : n ≤ d.drain.1.length) :
    (asked next n d).1 = (d.drain.1.take n).map some := by
  revert n
  refine drain_induction
    (motive := fun d out => ∀ n ≤ out.1.length, (asked next n d).1 = (out.1.take n).map some)
    ?_ ?_ d
  · intro d last _ n hn
    obtain rfl : n = 0 := Nat.le_zero.1 hn
    rfl
  · intro d last r out hd ih n hn
    cases n with
    | zero => rfl
    | succ n =>
      have hn' : n ≤ out.1.length := Nat.le_of_succ_le_succ hn
      rw [asked_succ, next_of_some hd, List.take_succ_cons, List.map_cons]
      simp only [ih n hn']

/-- Asking on in the middle of a stream, beyond the last record. -/
theorem asked_next_beyond (d : Decoder) (k : Nat) :
    asked next (d.drain.1.length + k + 1) d =
      (d.drain.1.map some ++ List.replicate (k + 1) none, d.drain.2,
        d.drain.1.map Record.decodedEntry) := by
  refine drain_induction
    (motive := fun d out => asked next (out.1.length + k + 1) d =
      (out.1.map some ++ List.replicate (k + 1) none, out.2, out.1.map Record.decodedEntry)) ?_ ?_ d
  · intro d last hd
    have hrest := asked_of_rests (next_of_stalled (stalled_of_decode_none hd)) k
    rw [List.length_nil, Nat.zero_add, asked_succ, next_of_none hd, hrest, List.replicate_succ]
    rfl
  · intro d last r out hd ih
    have hlen : (r :: out.1).length + k + 1 = (out.1.length + k + 1) + 1 := by
      rw [List.length_cons]
      omega
    rw [hlen, asked_succ, next_of_some hd, ih]
    rfl

/-- Asking on at the end of a stream, beyond the last record: what is left is dropped and reported
at the first answer without record, and from then on nothing changes. -/
theorem asked_finish_beyond (d : Decoder) (k : Nat) :
    asked finish (d.drain.1.length + k + 1) d =
      (d.drain.1.map some ++ List.replicate (k + 1) none, fresh,
        d.drain.1.map Record.decodedEntry ++
          if d.drain.2.hasRemainder then [d.drain.2.cutOffEntry] else []) := by
  refine drain_induction
    (motive := fun d out => asked finish (out.1.length + k + 1) d =
      (out.1.map some ++ List.replicate (k + 1) none, fresh,
        out.1.map Record.decodedEntry ++
          if out.2.hasRemainder then [out.2.cutOffEntry] else [])) ?_ ?_ d
  · intro d last hd
    have hrest := asked_of_rests finish_fresh k
    rw [List.length_nil, Nat.zero_add, asked_succ, finish_of_none hd, hrest, List.replicate_succ,
      List.append_nil]
    rfl
  · intro d last r out hd ih
    have hlen : (r :: out.1).length + k + 1 = (out.1.length + k + 1) + 1 := by
      rw [List.length_cons]
      omega
    rw [hlen, asked_succ, finish_of_some hd, ih]
    rfl

/-- **The end of a stream loses no record and leaves a new decoder.** Take a decoder in any state
and with any buffer, and ask it again and again at the end of its stream.

As long as there are records nothing differs from asking in the middle of the stream: the answers
are the same records in the same order, and the decoder and what it reports are the same. The answer
after the last record is that there is none, as in the middle of the stream, and so are all later
ones; from the first of them on the decoder is a new one, whatever it was. Besides the records, the
run reports one thing if the bytes end inside a record, namely the part that is dropped, and nothing
if they end with a record; then nothing is dropped, and the decoder would have been as new
anyway. -/
theorem finish_run (d : Decoder) :
    (∀ n ≤ d.drain.1.length, asked finish n d = asked next n d ∧
      (asked finish n d).1 = (d.drain.1.take n).map some) ∧
    (∀ k, asked next (d.drain.1.length + k + 1) d =
      (d.drain.1.map some ++ List.replicate (k + 1) none, d.drain.2,
        d.drain.1.map Record.decodedEntry)) ∧
    ∃ dropped, (∀ k, asked finish (d.drain.1.length + k + 1) d =
        (d.drain.1.map some ++ List.replicate (k + 1) none, fresh,
          d.drain.1.map Record.decodedEntry ++ dropped)) ∧
      ((∃ records, encodeAll records = .ok d.remainder) → dropped = [] ∧ d.drain.2 = fresh) ∧
      ((¬ ∃ records, encodeAll records = .ok d.remainder) →
        dropped = [d.drain.2.cutOffEntry]) := by
  refine ⟨fun n hn => ?_, asked_next_beyond d, _, asked_finish_beyond d, fun hwhole => ?_,
    fun hpart => ?_⟩
  · have hsame := finish_eq_next d n hn
    refine ⟨hsame, ?_⟩
    rw [hsame, answers_next d n hn]
  · have hnone : d.drain.2.hasRemainder = false := by
      rw [← Bool.not_eq_true, hasRemainder_drain_iff]
      exact not_not_intro hwhole
    refine ⟨?_, (eq_fresh_iff _).2 hnone⟩
    rw [hnone]
    rfl
  · exact if_pos ((hasRemainder_drain_iff d).2 hpart)

/-- A decoder that awaits a token of no bytes has a record without a buffer; asked at the end it
gives that record first. -/
example :
    asked finish 3 ⟨.token 7 0, []⟩ =
      ([some (.ofWire [] 7), none, none], fresh, [(Record.ofWire [] 7).decodedEntry]) := by
  decide +kernel

end Decoder

end TokenFeedback
