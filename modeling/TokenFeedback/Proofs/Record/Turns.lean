import TokenFeedback.Proofs.Record.Parse

/-!
# The loops of a decoder end

A decoder looks for a record in a loop that takes one field in a turn, and its owner asks for
records in another loop until there is none. Neither the bytes that are left nor the field that is
awaited tells alone that such a loop gets on: a token of no bytes takes nothing off the buffer and
still completes a record.

* `Decoder.decodeWithin`, `Decoder.drainWithin`: the two loops, given up after so many turns.
* `Decoder.decodeWithin_eq`: a turn that does not end the loop leaves fewer fields before the token,
  so three turns are enough.
* `Decoder.six_mul_length_drain_le`: every record uses up six bytes of the unfinished record and
  what is behind it, at the least.
* `Decoder.loops_end`: **both loops end, and they end where nothing can be taken.**
-/

namespace TokenFeedback

namespace Decoder

/-- The decoder after one step, without the bytes that the step took. -/
def advance (d : Decoder) : Decoder :=
  ⟨(d.state.step d.buffer).state, d.buffer.drop (d.state.step d.buffer).consumed⟩

/-- The loop that looks for a record, given up after so many turns. It is over at a record, and at a
turn that has taken nothing and given no record. -/
def decodeWithin : Nat → Decoder → Option (Option Record × Decoder)
  | 0, _ => none
  | turns + 1, d =>
    match (d.state.step d.buffer).record with
    | some r => some (some r, d.advance)
    | none =>
      if (d.state.step d.buffer).consumed = 0 then some (none, d.advance)
      else decodeWithin turns d.advance

/-- The loop that asks for records until there is none, given up after so many askings. In each of
them the decoder has so many turns. -/
def drainWithin (turns : Nat) : Nat → Decoder → Option (List Record × Decoder)
  | 0, _ => none
  | askings + 1, d =>
    match d.decodeWithin turns with
    | none => none
    | some (none, next) => some ([], next)
    | some (some r, next) =>
      (drainWithin turns askings next).map fun out => (r :: out.1, out.2)

/-- No step takes bytes that are not there. -/
theorem consumed_le (d : Decoder) : (d.state.step d.buffer).consumed ≤ d.buffer.length := by
  rcases Nat.lt_or_ge d.buffer.length d.state.required with hshort | hlong
  · rw [Awaiting.step_of_short hshort]
    exact Nat.zero_le _
  · rw [Awaiting.step_consumed hlong]
    exact hlong

/-- One turn of the loop that looks for a record. -/
theorem decode_eq_turn (d : Decoder) :
    d.decode =
      match (d.state.step d.buffer).record with
      | some r => (some r, d.advance)
      | none =>
        if (d.state.step d.buffer).consumed = 0 then (none, d.advance) else d.advance.decode := by
  rw [decode, advance, Awaiting.decode_eq_step]
  rcases d.state.step d.buffer with ⟨next, _ | n, _ | r⟩ <;> rfl

/-- A turn that does not end the loop leaves fewer fields before the token. -/
theorem fieldsBeforeToken_advance_lt {d : Decoder} (hr : (d.state.step d.buffer).record = none)
    (hn : (d.state.step d.buffer).consumed ≠ 0) :
    d.advance.state.fieldsBeforeToken < d.state.fieldsBeforeToken := by
  have hlong : d.state.required ≤ d.buffer.length := by
    refine Nat.not_lt.1 fun hshort => hn ?_
    rw [Awaiting.step_of_short hshort]
  rcases hs : d.state.step d.buffer with ⟨next, n, record⟩
  rw [hs] at hr
  subst hr
  rw [advance, hs]
  exact (Awaiting.step_before_token hlong hs).2

/-- **The loop that looks for a record ends** as soon as it has more turns than there are fields
before the token. -/
theorem decodeWithin_eq {turns : Nat} {d : Decoder} (h : d.state.fieldsBeforeToken < turns) :
    d.decodeWithin turns = some d.decode := by
  induction turns generalizing d with
  | zero => exact absurd h (Nat.not_lt_zero _)
  | succ turns ih =>
    rw [decodeWithin, decode_eq_turn]
    cases hr : (d.state.step d.buffer).record with
    | some r => rfl
    | none =>
      by_cases hn : (d.state.step d.buffer).consumed = 0
      · simp only [if_pos hn]
      · have hless := fieldsBeforeToken_advance_lt hr hn
        simp only [if_neg hn]
        exact ih (Nat.lt_of_lt_of_le hless (Nat.le_of_lt_succ h))

/-- Three turns are enough, whatever field is awaited. -/
theorem decodeWithin_three (turns : Nat) (d : Decoder) :
    d.decodeWithin (turns + 3) = some d.decode := by
  have hfields : d.state.fieldsBeforeToken ≤ 2 := by
    cases d.state with
    | expiration => exact Nat.le_refl 2
    | length e => exact Nat.le_succ 1
    | token e n => exact Nat.zero_le 2
  exact decodeWithin_eq (Nat.lt_of_le_of_lt hfields (Nat.lt_add_left turns (Nat.lt_succ_self 2)))

/-- **The loop that asks for records ends** one asking behind the last record. -/
theorem drainWithin_eq (turns more : Nat) (d : Decoder) :
    drainWithin (turns + 3) (d.drain.1.length + 1 + more) d = some d.drain := by
  refine drain_induction
    (motive := fun d out => drainWithin (turns + 3) (out.1.length + 1 + more) d = some out)
    ?_ ?_ d
  · intro d next h
    have hone : ([] : List Record).length + 1 + more = more + 1 := Nat.add_comm _ _
    rw [hone, drainWithin, decodeWithin_three, h]
  · intro d next r out h ih
    have hone : (r :: out.1).length + 1 + more = (out.1.length + 1 + more) + 1 := by
      rw [List.length_cons]
      omega
    rw [hone, drainWithin, decodeWithin_three, h]
    simp only [ih]
    rfl

/-- The fixed fields of a record are six bytes. -/
theorem six_mul_length_le_wireLength (rs : List Record) : 6 * rs.length ≤ wireLength rs := by
  induction rs with
  | nil => exact Nat.le_refl 0
  | cons r rs ih =>
    have hcons : wireLength (r :: rs) = r.encodedLength + wireLength rs := List.sum_cons
    have hfixed : 6 ≤ r.encodedLength := Nat.le_add_right 6 r.token.length
    rw [List.length_cons, hcons]
    omega

/-- **Every record uses up six bytes** of the unfinished record and what is behind it, at the
least. -/
theorem six_mul_length_drain_le (d : Decoder) : 6 * d.drain.1.length ≤ d.remainder.length := by
  obtain ⟨-, wire, hwire, hparts⟩ := drain_accounts d
  calc 6 * d.drain.1.length
      ≤ wireLength d.drain.1 := six_mul_length_le_wireLength _
    _ = wire.length := (length_of_encodeAll hwire).symm
    _ ≤ (wire ++ d.drain.2.remainder).length := by
        rw [List.length_append]
        exact Nat.le_add_right _ _
    _ = d.remainder.length := by rw [hparts]

theorem length_header_le (s : Awaiting) : s.header.length ≤ 6 := by
  cases s with
  | expiration => exact Nat.zero_le 6
  | length e =>
    rw [Awaiting.header, length_bigEndian]
    decide
  | token e n =>
    rw [Awaiting.header, List.length_append, length_bigEndian, length_bigEndian]

/-- **Both loops end, and they end where nothing can be taken**, from any state and with any buffer.

No step takes bytes that are not there, and the loop that looks for a record is over after three
turns. If it has found none, the buffer is short of the field that is awaited now, and asking again
finds none and changes nothing; if it has found one, the next record is to begin. The loop that asks
for records is over one asking behind the last of them. There is at most one for each six bytes of
the buffer, and one more if its first bytes have been taken already. -/
theorem loops_end (d : Decoder) :
    (d.state.step d.buffer).consumed ≤ d.buffer.length ∧
    (∀ turns, d.decodeWithin (turns + 3) = some d.decode) ∧
    (∀ next, d.decode = (none, next) →
      next.buffer.length < next.state.required ∧ next.decode = (none, next)) ∧
    (∀ r next, d.decode = (some r, next) → next.state = .expiration) ∧
    (∀ turns more, drainWithin (turns + 3) (d.drain.1.length + 1 + more) d = some d.drain) ∧
    d.drain.1.length ≤ 1 + d.buffer.length / 6 ∧
    (d.state = .expiration → d.drain.1.length ≤ d.buffer.length / 6) := by
  have hsix := six_mul_length_drain_le d
  rw [remainder, List.length_append] at hsix
  refine ⟨consumed_le d, fun turns => decodeWithin_three turns d, fun next h => ?_,
    fun r next h => ?_, fun turns more => drainWithin_eq turns more d, ?_, fun hboundary => ?_⟩
  · have hshort : next.Stalled := stalled_of_decode_none h
    exact ⟨hshort, decode_of_short hshort⟩
  · have hsome : (d.state.decode d.buffer).1.isSome = true := by
      rw [show (d.state.decode d.buffer).1 = some r from congrArg Prod.fst h]
      rfl
    rw [← show (d.state.decode d.buffer).2.1 = next.state from congrArg (·.2.state) h]
    exact Awaiting.atBoundary_of_decode hsome
  · have hheader := length_header_le d.state
    omega
  · rw [hboundary, Awaiting.header, List.length_nil] at hsix
    omega

/-- A token of no bytes is awaited: its record takes nothing off the buffer, which holds another
one. -/
example : drainWithin 3 3 ⟨.token 7 0, [0, 0, 0, 9, 0, 0]⟩ =
    some ([.ofWire [] 7, .ofWire [] 9], fresh) := by decide +kernel

end Decoder

end TokenFeedback
