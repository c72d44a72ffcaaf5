import TokenFeedback.Proofs.Record.Drain
import TokenFeedback.Proofs.Record.Wire

/-!
# A stream has one parse

Draining takes a stream apart into records, the fields already taken of the next record, and bytes
that are short of the field after them. Every byte is accounted for, and there is no other way to
take the stream apart.

* `Parse`: what it means to take a stream apart.
* `Decoder.drain_accounts`: from any state on, draining loses, adds and moves no byte.
* `Decoder.drain_encodeAll`: draining the wire form of records gives them back.
* `Decoder.drain_eq_iff_parse`: **what draining gives is the only parse.**
-/

namespace TokenFeedback

namespace Awaiting

/-- A step moves the bytes that it takes into the header, or into the record's wire form. -/
theorem step_accounts {s next : Awaiting} {input : Bytes} {n : Nat} {record : Option Record}
    (h : s.required ≤ input.length) (hs : s.step input = ⟨next, n, record⟩) :
    match record with
    | none => next.header = s.header ++ input.take n
    | some r => next = .expiration ∧ r.expiration.nanos = 0 ∧
        r.encode = .ok (s.header ++ input.take n) := by
  unfold step at hs
  rw [if_pos ((holds_iff _ _).2 h)] at hs
  cases s with
  | expiration =>
    have hl : (input.take 4).length = 4 := List.length_take_of_le h
    have hlt := ofBigEndian_lt (input.take 4)
    rw [hl] at hlt
    cases hs
    simp only [header, List.nil_append]
    rw [UInt32.toNat_ofNat_of_lt' hlt]
    conv_rhs => rw [← bigEndian_ofBigEndian (input.take 4), hl]
  | length e =>
    have hl : (input.take 2).length = 2 := List.length_take_of_le h
    have hlt := ofBigEndian_lt (input.take 2)
    rw [hl] at hlt
    cases hs
    simp only [header]
    rw [UInt16.toNat_ofNat_of_lt' hlt]
    conv_rhs => rw [← bigEndian_ofBigEndian (input.take 2), hl]
  | token e m =>
    have hl : (input.take m.toNat).length = m.toNat := List.length_take_of_le h
    cases hs
    exact ⟨rfl, rfl, Record.encode_ofWire hl e⟩

/-- Decoding one record accounts for every byte: those of the record are its wire form, and all
others are in the header or still in the buffer. -/
theorem decode_accounts (s : Awaiting) (input : Bytes) :
    match s.decode input with
    | (none, next, rest) => next.header ++ rest = s.header ++ input
    | (some r, next, rest) => next = .expiration ∧ r.expiration.nanos = 0 ∧
        ∃ wire, r.encode = .ok wire ∧ wire ++ rest = s.header ++ input := by
  refine decode_induction
    (motive := fun s input out => match out with
      | (none, next, rest) => next.header ++ rest = s.header ++ input
      | (some r, next, rest) => next = .expiration ∧ r.expiration.nanos = 0 ∧
          ∃ wire, r.encode = .ok wire ∧ wire ++ rest = s.header ++ input) ?_ ?_ ?_ s input
  · intro s input _
    rfl
  · intro s input next n out h hs ih
    have hh : next.header = s.header ++ input.take n := step_accounts h hs
    have hb : next.header ++ input.drop n = s.header ++ input := by
      rw [hh, List.append_assoc, List.take_append_drop]
    rwa [hb] at ih
  · intro s input next n r h hs
    obtain ⟨hx, hw, he⟩ := step_accounts h hs
    refine ⟨hx, hw, _, he, ?_⟩
    rw [List.append_assoc, List.take_append_drop]

/-- A fresh decoder that is given a header gets to the state that holds it. -/
theorem decode_header (s : Awaiting) (input : Bytes) :
    decode .expiration (s.header ++ input) = s.decode input := by
  have first (e : UInt32) (rest : Bytes) :
      decode .expiration (bigEndian 4 e.toNat ++ rest) = decode (.length e) rest := by
    have ht : (bigEndian 4 e.toNat ++ rest).take 4 = bigEndian 4 e.toNat :=
      List.take_left' (length_bigEndian 4 _)
    have hd : (bigEndian 4 e.toNat ++ rest).drop 4 = rest :=
      List.drop_left' (length_bigEndian 4 _)
    have hh : holds (bigEndian 4 e.toNat ++ rest) 4 = true := by
      rw [holds_iff, List.length_append, length_bigEndian]
      omega
    rw [decode_expiration hh, ht, hd, ofBigEndian_bigEndian 4 _ e.toNat_lt, UInt32.ofNat_toNat]
  have second (e : UInt32) (n : UInt16) (rest : Bytes) :
      decode (.length e) (bigEndian 2 n.toNat ++ rest) = decode (.token e n) rest := by
    have ht : (bigEndian 2 n.toNat ++ rest).take 2 = bigEndian 2 n.toNat :=
      List.take_left' (length_bigEndian 2 _)
    have hd : (bigEndian 2 n.toNat ++ rest).drop 2 = rest :=
      List.drop_left' (length_bigEndian 2 _)
    have hh : holds (bigEndian 2 n.toNat ++ rest) 2 = true := by
      rw [holds_iff, List.length_append, length_bigEndian]
      omega
    rw [decode_length hh, ht, hd, ofBigEndian_bigEndian 2 _ n.toNat_lt, UInt16.ofNat_toNat]
  cases s with
  | expiration => rfl
  | length e => exact first e input
  | token e n => rw [header, List.append_assoc, first, second]

/-- The wire form of a record is decoded as soon as all of it is there. -/
theorem decode_encode {r : Record} {wire : Bytes} (h : r.encode = .ok wire) (rest : Bytes) :
    decode .expiration (wire ++ rest) = (some r.toSecond, .expiration, rest) := by
  obtain ⟨e, n, he, hn, rfl⟩ := (Record.encode_eq_ok_iff r wire).1 h
  have hh : holds (r.token ++ rest) n.toNat = true := by
    rw [holds_iff, List.length_append]
    omega
  rw [List.append_assoc, decode_header, decode_token hh, List.take_left' hn, List.drop_left' hn,
    Record.ofWire_eq_toSecond he]

end Awaiting

namespace Decoder

/-- All bytes of the unfinished record and behind it: those that were taken and those that were
not. -/
def remainder (d : Decoder) : Bytes := d.state.header ++ d.buffer

/-- A record is under way exactly when some of its bytes are there. -/
theorem hasRemainder_iff (d : Decoder) : d.hasRemainder = true ↔ d.remainder ≠ [] := by
  obtain ⟨state, buffer⟩ := d
  have hne (e : UInt32) (rest : Bytes) : bigEndian 4 e.toNat ++ rest ≠ [] := by
    intro h
    have hl := congrArg List.length h
    rw [List.length_append, length_bigEndian, List.length_nil] at hl
    omega
  cases state with
  | expiration => simp [hasRemainder, remainder, Awaiting.atBoundary, Awaiting.header]
  | length e =>
    simpa [hasRemainder, remainder, Awaiting.atBoundary, Awaiting.header] using hne e buffer
  | token e n =>
    simpa [hasRemainder, remainder, Awaiting.atBoundary, Awaiting.header] using
      hne e (bigEndian 2 n.toNat ++ buffer)

/-- Decoding without a record takes no byte off the unfinished record. -/
theorem remainder_of_decode_none {d next : Decoder} (h : d.decode = (none, next)) :
    next.remainder = d.remainder := by
  have ha := Awaiting.decode_accounts d.state d.buffer
  obtain ⟨hr, rfl⟩ := Prod.mk.inj h
  rcases hd : d.state.decode d.buffer with ⟨record, state, buffer⟩
  rw [hd] at ha hr
  subst hr
  exact ha

/-- The bytes of a decoded record are its wire form. -/
theorem remainder_of_decode_some {d next : Decoder} {r : Record} (h : d.decode = (some r, next)) :
    r.expiration.nanos = 0 ∧
      ∃ wire, r.encode = .ok wire ∧ wire ++ next.remainder = d.remainder := by
  have ha := Awaiting.decode_accounts d.state d.buffer
  obtain ⟨hr, rfl⟩ := Prod.mk.inj h
  rcases hd : d.state.decode d.buffer with ⟨record, state, buffer⟩
  rw [hd] at ha hr
  subst hr
  obtain ⟨rfl, hw, he⟩ := ha
  exact ⟨hw, he⟩

/-- **Draining accounts for every byte**, from any state on, and gives whole-second records. -/
theorem drain_accounts (d : Decoder) :
    (∀ r ∈ d.drain.1, r.expiration.nanos = 0) ∧
      ∃ wire, encodeAll d.drain.1 = .ok wire ∧ wire ++ d.drain.2.remainder = d.remainder := by
  refine drain_induction
    (motive := fun d out => (∀ r ∈ out.1, r.expiration.nanos = 0) ∧
      ∃ wire, encodeAll out.1 = .ok wire ∧ wire ++ out.2.remainder = d.remainder) ?_ ?_ d
  · intro d next h
    exact ⟨fun r hr => absurd hr List.not_mem_nil, [], rfl, remainder_of_decode_none h⟩
  · intro d next r out h ih
    obtain ⟨hw, first, he, hf⟩ := remainder_of_decode_some h
    obtain ⟨hws, rest, hes, hrest⟩ := ih
    refine ⟨?_, first ++ rest, ?_, ?_⟩
    · intro x hx
      rcases List.mem_cons.1 hx with rfl | hx
      · exact hw
      · exact hws x hx
    · exact (encodeAll_cons_eq_ok_iff r _ _).2 ⟨first, rest, he, hes, rfl⟩
    · rw [List.append_assoc, hrest, hf]

/-- A fresh decoder that is given what another one holds unfinished goes on as that one does. -/
theorem drain_feed_remainder (d : Decoder) : (fresh.feed d.remainder).drain = d.drain := by
  have hd : (fresh.feed d.remainder).decode = d.decode := by
    simp only [decode, feed, fresh, remainder, List.nil_append]
    rw [Awaiting.decode_header]
  exact drain_congr hd

/-- A fresh decoder that is given what another one holds unfinished gets to where that one is. -/
theorem drain_remainder {d : Decoder} (h : d.Stalled) :
    (fresh.feed d.remainder).drain = ([], d) := by
  rw [drain_feed_remainder, drain_of_short h]

/-- The wire form of a record is drained first, and then what is behind it. -/
theorem drain_encode {r : Record} {wire : Bytes} (h : r.encode = .ok wire) (rest : Bytes) :
    (fresh.feed (wire ++ rest)).drain =
      (r.toSecond :: (fresh.feed rest).drain.1, (fresh.feed rest).drain.2) := by
  have hd : (fresh.feed (wire ++ rest)).decode = (some r.toSecond, fresh.feed rest) := by
    simp only [decode, feed, fresh, List.nil_append]
    rw [Awaiting.decode_encode h]
  exact drain_of_some hd

/-- **Draining the wire form of records gives them back**, to the second, and goes on behind it. -/
theorem drain_encodeAll {rs : List Record} {wire : Bytes} (h : encodeAll rs = .ok wire)
    (rest : Bytes) :
    (fresh.feed (wire ++ rest)).drain =
      (rs.map Record.toSecond ++ (fresh.feed rest).drain.1, (fresh.feed rest).drain.2) := by
  induction rs generalizing wire with
  | nil =>
    rw [← Except.ok.inj h]
    rfl
  | cons r rs ih =>
    obtain ⟨first, later, h1, h2, rfl⟩ := (encodeAll_cons_eq_ok_iff r rs wire).1 h
    rw [List.append_assoc, drain_encode h1, ih h2, List.map_cons, List.cons_append]

end Decoder

/-- A stream taken apart: whole records, then what the decoder holds of the next one, which is
short of its awaited field. -/
structure Parse (stream : Bytes) (records : List Record) (d : Decoder) : Prop where
  /-- The records are as the wire carries them. -/
  whole : ∀ r ∈ records, r.expiration.nanos = 0
  /-- The parts make up the stream. -/
  accounts : ∃ wire, encodeAll records = .ok wire ∧ wire ++ d.state.header ++ d.buffer = stream
  /-- No further field can be taken. -/
  stalled : d.buffer.length < d.state.required

/-- **What draining gives is the only parse of the stream.** -/
theorem Decoder.drain_eq_iff_parse (stream : Bytes) (records : List Record) (d : Decoder) :
    (fresh.feed stream).drain = (records, d) ↔ Parse stream records d := by
  constructor
  · intro h
    obtain ⟨hw, wire, he, hr⟩ := drain_accounts (fresh.feed stream)
    have hs := drain_stalled (fresh.feed stream)
    rw [h] at hw he hr hs
    refine ⟨hw, ⟨wire, he, ?_⟩, hs⟩
    rw [List.append_assoc]
    exact hr
  · rintro ⟨hw, ⟨wire, he, rfl⟩, hs⟩
    have hm : records.map Record.toSecond = records := by
      conv_rhs => rw [← List.map_id records]
      exact List.map_congr_left fun r hr => (Record.toSecond_eq_self_iff r).2 (hw r hr)
    have hd : (fresh.feed (d.state.header ++ d.buffer)).drain = ([], d) := drain_remainder hs
    rw [List.append_assoc, drain_encodeAll he, hd, hm, List.append_nil]

end TokenFeedback
