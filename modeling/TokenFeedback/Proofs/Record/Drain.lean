import TokenFeedback.Record.Backlog

/-!
# Steps, records and draining

A decoder goes through its buffer field by field. What holds of one field is carried to a record
by `Awaiting.decode_induction`, and from there to all records of the buffer.

* `Awaiting.decode_eq_step`: decoding is stepping until a record is complete or a step takes
  nothing.
* `Awaiting.decode_append`: bytes that come later change nothing that was decoded before them.
* `Decoder.drain_feed`: draining, feeding and draining again is feeding first and draining once.
* `Decoder.drain_stalled`: a drained decoder is short of the field that it awaits.
-/

namespace TokenFeedback

namespace Awaiting

/-- A step that lacks bytes takes nothing. -/
theorem step_of_short {s : Awaiting} {input : Bytes} (h : input.length < s.required) :
    s.step input = ⟨s, 0, none⟩ := by
  have hs : ¬ holds input s.required = true := by
    rw [holds_iff]
    omega
  unfold step
  rw [if_neg hs]

/-- A step takes exactly the field that it awaits, or it is short of it. -/
theorem step_consumed {s : Awaiting} {input : Bytes} (h : s.required ≤ input.length) :
    (s.step input).consumed = s.required := by
  have hs := (holds_iff input s.required).2 h
  unfold step
  rw [if_pos hs]
  cases s <;> rfl

/-- A step sees no byte behind the field that it awaits. -/
theorem step_append {s : Awaiting} {input : Bytes} (h : s.required ≤ input.length)
    (more : Bytes) : s.step (input ++ more) = s.step input := by
  have hs := (holds_iff input s.required).2 h
  have hm := (holds_iff (input ++ more) s.required).2 (by rw [List.length_append]; omega)
  unfold step
  rw [if_pos hs, if_pos hm]
  cases s with
  | expiration => simp only [List.take_append_of_le_length (show 4 ≤ input.length from h)]
  | length e => simp only [List.take_append_of_le_length (show 2 ≤ input.length from h)]
  | token e n => simp only [List.take_append_of_le_length (show n.toNat ≤ input.length from h)]

/-- **Decoding is stepping** until a record is complete or a step takes nothing. -/
theorem decode_eq_step (s : Awaiting) (input : Bytes) :
    s.decode input =
      match s.step input with
      | ⟨next, n, some r⟩ => (some r, next, input.drop n)
      | ⟨next, 0, none⟩ => (none, next, input)
      | ⟨next, n + 1, none⟩ => next.decode (input.drop (n + 1)) := by
  cases hs : holds input s.required with
  | false =>
    have hl : input.length < s.required := by
      rw [← Nat.not_le, ← holds_iff, hs]
      decide
    rw [decode_of_short hs, step_of_short hl]
  | true =>
    unfold step
    rw [if_pos hs]
    cases s with
    | expiration => exact decode_expiration hs
    | length e => exact decode_length hs
    | token e n => exact decode_token hs

/-- A field before the token has bytes, and fewer fields come after it. -/
theorem step_before_token {s next : Awaiting} {input : Bytes} {n : Nat}
    (h : s.required ≤ input.length) (hs : s.step input = ⟨next, n, none⟩) :
    0 < n ∧ next.fieldsBeforeToken < s.fieldsBeforeToken := by
  unfold step at hs
  rw [if_pos ((holds_iff _ _).2 h)] at hs
  cases s with
  | expiration =>
    obtain ⟨rfl, rfl⟩ : _ ∧ 4 = n := by simpa using hs
    exact ⟨by omega, Nat.lt_succ_self 1⟩
  | length e =>
    obtain ⟨rfl, rfl⟩ : _ ∧ 2 = n := by simpa using hs
    exact ⟨by omega, Nat.lt_succ_self 0⟩
  | token e m => cases hs

/-- **Induction along the fields of one record.** -/
theorem decode_induction {motive : Awaiting → Bytes → Option Record × Awaiting × Bytes → Prop}
    (short : ∀ s input, input.length < s.required → motive s input (none, s, input))
    (field : ∀ s input next n out, s.required ≤ input.length → s.step input = ⟨next, n, none⟩ →
      motive next (input.drop n) out → motive s input out)
    (last : ∀ s input next n r, s.required ≤ input.length → s.step input = ⟨next, n, some r⟩ →
      motive s input (some r, next, input.drop n))
    (s : Awaiting) (input : Bytes) : motive s input (s.decode input) := by
  -- a token of no bytes takes nothing off the input, so the fields are counted and not the bytes
  induction hk : s.fieldsBeforeToken using Nat.strongRecOn generalizing s input with
  | ind k ih =>
    subst hk
    rw [decode_eq_step]
    rcases Nat.lt_or_ge input.length s.required with h | h
    · rw [step_of_short h]
      exact short s input h
    · rcases hs : s.step input with ⟨next, n, _ | r⟩
      · obtain ⟨hpos, hf⟩ := step_before_token h hs
        obtain ⟨m, rfl⟩ : ∃ m, n = m + 1 := ⟨n - 1, by omega⟩
        exact field s input next (m + 1) _ h hs (ih _ hf next (input.drop (m + 1)) rfl)
      · exact last s input next n r h hs

/-- **Later bytes change nothing** that was decoded before them: a record stays, and an
unfinished one goes on from the field that it had reached. -/
theorem decode_append (s : Awaiting) (input more : Bytes) :
    s.decode (input ++ more) =
      match s.decode input with
      | (some r, next, rest) => (some r, next, rest ++ more)
      | (none, next, rest) => next.decode (rest ++ more) := by
  refine decode_induction
    (motive := fun s input out => s.decode (input ++ more) =
      match out with
      | (some r, next, rest) => (some r, next, rest ++ more)
      | (none, next, rest) => next.decode (rest ++ more)) ?_ ?_ ?_ s input
  · intro s input _
    rfl
  · intro s input next n out h hs ih
    have hn : n = s.required := by simpa [hs] using step_consumed h
    have hpos := (step_before_token h hs).1
    obtain ⟨m, rfl⟩ : ∃ m, n = m + 1 := ⟨n - 1, by omega⟩
    rw [decode_eq_step, step_append h, hs]
    simp only
    rw [List.drop_append_of_le_length (by omega)]
    exact ih
  · intro s input next n r h hs
    have hn : n = s.required := by simpa [hs] using step_consumed h
    rw [decode_eq_step, step_append h, hs]
    simp only
    rw [List.drop_append_of_le_length (by omega)]

/-- What decoding leaves without a record is short of the field that it awaits. -/
theorem length_lt_of_decode_none {s : Awaiting} {input : Bytes}
    (h : (s.decode input).1 = none) :
    (s.decode input).2.2.length < (s.decode input).2.1.required := by
  revert h
  refine decode_induction
    (motive := fun _ _ out => out.1 = none → out.2.2.length < out.2.1.required) ?_ ?_ ?_ s input
  · intro s input h _
    exact h
  · intro s input next n out _ _ ih
    exact ih
  · intro s input next n r _ _ h
    cases h

end Awaiting

namespace Decoder

theorem drain_of_none {d next : Decoder} (h : d.decode = (none, next)) : d.drain = ([], next) := by
  rw [drain]
  split
  · next h' => rw [h] at h'; rw [(Prod.mk.inj h').2]
  · next h' => rw [h] at h'; cases (Prod.mk.inj h').1

theorem drain_of_some {d next : Decoder} {r : Record} (h : d.decode = (some r, next)) :
    d.drain = (r :: next.drain.1, next.drain.2) := by
  rw [drain]
  split
  · next h' => rw [h] at h'; cases (Prod.mk.inj h').1
  · next h' =>
    rw [h] at h'
    obtain ⟨hr, hn⟩ := Prod.mk.inj h'
    rw [Option.some.inj hr, hn]

/-- What decoding once does when draining is known: nothing is left, or the first record comes. -/
theorem decode_cases {d e : Decoder} {records : List Record} (h : d.drain = (records, e)) :
    (records = [] ∧ d.decode = (none, e)) ∨
      ∃ r rest next, records = r :: rest ∧ next.drain = (rest, e) ∧ d.decode = (some r, next) := by
  rcases hd : d.decode with ⟨_ | r, next⟩
  · rw [drain_of_none hd] at h
    obtain ⟨rfl, rfl⟩ := Prod.mk.inj h
    exact .inl ⟨rfl, rfl⟩
  · rw [drain_of_some hd] at h
    obtain ⟨rfl, rfl⟩ := Prod.mk.inj h
    exact .inr ⟨r, next.drain.1, next, rfl, rfl, rfl⟩

/-- **Induction along the records of a buffer.** -/
theorem drain_induction {motive : Decoder → List Record × Decoder → Prop}
    (stop : ∀ d next, d.decode = (none, next) → motive d ([], next))
    (record : ∀ d next r out, d.decode = (some r, next) → motive next out →
      motive d (r :: out.1, out.2))
    (d : Decoder) : motive d d.drain := by
  induction hk : Awaiting.pending d.state d.buffer using Nat.strongRecOn generalizing d with
  | ind k ih =>
    subst hk
    rcases hd : d.decode with ⟨_ | r, next⟩
    · rw [drain_of_none hd]
      exact stop d next hd
    · have hs : (d.state.decode d.buffer).1.isSome = true := by
        have := congrArg Prod.fst hd
        simp only [decode] at this
        rw [this]
        rfl
      have hn : next = ⟨(d.state.decode d.buffer).2.1, (d.state.decode d.buffer).2.2⟩ :=
        (congrArg Prod.snd hd).symm
      rw [drain_of_some hd]
      exact record d next r _ hd (ih _ (hn ▸ Awaiting.pending_decode_lt hs) next rfl)

/-- Later bytes leave a decoded record as it was, and fields that were taken without completing a
record need not be taken again. -/
theorem decode_feed (d : Decoder) (chunk : Bytes) :
    (d.feed chunk).decode =
      match d.decode with
      | (some r, next) => (some r, next.feed chunk)
      | (none, next) => (next.feed chunk).decode := by
  have ha := Awaiting.decode_append d.state d.buffer chunk
  simp only [decode, feed]
  rw [ha]
  rcases d.state.decode d.buffer with ⟨_ | r, state, buffer⟩ <;> rfl

theorem decode_feed_of_some {d next : Decoder} {r : Record} (h : d.decode = (some r, next))
    (chunk : Bytes) : (d.feed chunk).decode = (some r, next.feed chunk) := by
  rw [decode_feed, h]

theorem decode_feed_of_none {d next : Decoder} (h : d.decode = (none, next)) (chunk : Bytes) :
    (d.feed chunk).decode = (next.feed chunk).decode := by
  rw [decode_feed, h]

theorem drain_congr {d e : Decoder} (h : d.decode = e.decode) : d.drain = e.drain := by
  rcases hd : d.decode with ⟨_ | r, next⟩
  · rw [drain_of_none hd, drain_of_none (h.symm.trans hd)]
  · rw [drain_of_some hd, drain_of_some (h.symm.trans hd)]

/-- **Draining, feeding and draining again** is feeding first and draining once. -/
theorem drain_feed (d : Decoder) (chunk : Bytes) :
    (d.feed chunk).drain =
      (d.drain.1 ++ (d.drain.2.feed chunk).drain.1, (d.drain.2.feed chunk).drain.2) := by
  refine drain_induction
    (motive := fun d out => (d.feed chunk).drain =
      (out.1 ++ (out.2.feed chunk).drain.1, (out.2.feed chunk).drain.2)) ?_ ?_ d
  · intro d next h
    rw [drain_congr (decode_feed_of_none h chunk)]
    rfl
  · intro d next r out h ih
    rw [drain_of_some (decode_feed_of_some h chunk), ih]
    rfl

@[simp] theorem feed_nil (d : Decoder) : d.feed [] = d := by
  rw [feed, List.append_nil]

theorem feed_feed (d : Decoder) (a b : Bytes) : (d.feed a).feed b = d.feed (a ++ b) := by
  simp only [feed, List.append_assoc]

/-- A decoder is stalled when its buffer is short of the field that it awaits. -/
def Stalled (d : Decoder) : Prop := d.buffer.length < d.state.required

instance (d : Decoder) : Decidable d.Stalled :=
  inferInstanceAs (Decidable (d.buffer.length < d.state.required))

theorem fresh_stalled : fresh.Stalled := by decide

theorem stalled_of_decode_none {d next : Decoder} (h : d.decode = (none, next)) :
    next.Stalled := by
  simp only [decode] at h
  have hn := (Prod.mk.inj h).1
  rw [← (Prod.mk.inj h).2]
  exact Awaiting.length_lt_of_decode_none hn

/-- **A drained decoder is stalled.** -/
theorem drain_stalled (d : Decoder) : d.drain.2.Stalled :=
  drain_induction (motive := fun _ out => out.2.Stalled)
    (fun _ _ h => stalled_of_decode_none h) (fun _ _ _ _ _ ih => ih) d

end Decoder

end TokenFeedback
