import TokenFeedback.Record

/-!
# Reading records from a stream

The stream is a run of records with nothing between them. A decoder awaits one field at a time
and takes it once all its bytes are there.

* `Awaiting`: the field that comes next, and what is known of its record.
* `Awaiting.step`: one field of the input, or nothing.
* `Decoder.decode`: the next record of a buffer.
* `Decoder.drain`: all records of a buffer.
* `Awaiting.header`: the bytes of the unfinished record that the decoder holds.
-/

namespace TokenFeedback

/-- The field that a decoder awaits. -/
inductive Awaiting where
  | expiration
  | length (expiration : UInt32)
  | token (expiration : UInt32) (length : UInt16)
  deriving Repr, DecidableEq

namespace Awaiting

/-- The count of bytes of the awaited field. -/
def required : Awaiting → Nat
  | .expiration => 4
  | .length _ => 2
  | .token _ n => n.toNat

/-- Does a record end here? -/
def atBoundary : Awaiting → Bool
  | .expiration => true
  | _ => false

/-- The fields of the unfinished record that were taken already, as they were on the wire. -/
def header : Awaiting → Bytes
  | .expiration => []
  | .length e => bigEndian 4 e.toNat
  | .token e n => bigEndian 4 e.toNat ++ bigEndian 2 n.toNat

/-- The state's name and what it holds. -/
def debugText : Awaiting → String
  | .expiration => "AwaitingExpiration"
  | .length e => Text.outline "AwaitingLength" [("expiration", s!"{e}")]
  | .token e n => Text.outline "AwaitingToken" [("expiration", s!"{e}"), ("length", s!"{n}")]

/-- What one step makes of an input: the next state, the bytes it took, and the record that
these complete. -/
structure Taken where
  state : Awaiting
  consumed : Nat
  record : Option Record

/-- Takes the awaited field from the front of the input, if all of it is there. -/
def step (s : Awaiting) (input : Bytes) : Taken :=
  if holds input s.required then
    match s with
    | .expiration => ⟨.length (UInt32.ofNat (ofBigEndian (input.take 4))), 4, none⟩
    | .length e => ⟨.token e (UInt16.ofNat (ofBigEndian (input.take 2))), 2, none⟩
    | .token e n => ⟨.expiration, n.toNat, some (.ofWire (input.take n.toNat) e)⟩
  else ⟨s, 0, none⟩

/-- How many fields of the record come before its last. -/
def fieldsBeforeToken : Awaiting → Nat
  | .expiration => 2
  | .length _ => 1
  | .token _ _ => 0

/-- Steps through the fields of one record: the record, or nothing if the input ends before it. -/
def decode (s : Awaiting) (input : Bytes) : Option Record × Awaiting × Bytes :=
  if holds input s.required then
    match s with
    | .expiration =>
      decode (.length (UInt32.ofNat (ofBigEndian (input.take 4)))) (input.drop 4)
    | .length e => decode (.token e (UInt16.ofNat (ofBigEndian (input.take 2)))) (input.drop 2)
    | .token e n =>
      (some (.ofWire (input.take n.toNat) e), .expiration, input.drop n.toNat)
  else (none, s, input)
termination_by s.fieldsBeforeToken
decreasing_by all_goals simp [fieldsBeforeToken]

theorem decode_of_short {s : Awaiting} {input : Bytes} (h : holds input s.required = false) :
    decode s input = (none, s, input) := by
  unfold decode
  simp [h]

theorem decode_token {e : UInt32} {n : UInt16} {input : Bytes}
    (h : holds input n.toNat = true) :
    decode (.token e n) input =
      (some (.ofWire (input.take n.toNat) e), .expiration, input.drop n.toNat) := by
  unfold decode
  simp [required, h]

theorem decode_length {e : UInt32} {input : Bytes} (h : holds input 2 = true) :
    decode (.length e) input =
      decode (.token e (UInt16.ofNat (ofBigEndian (input.take 2)))) (input.drop 2) := by
  rw [decode]
  simp [required, h]

theorem decode_expiration {input : Bytes} (h : holds input 4 = true) :
    decode .expiration input =
      decode (.length (UInt32.ofNat (ofBigEndian (input.take 4)))) (input.drop 4) := by
  rw [decode]
  simp [required, h]

/-- The rest of a buffer after decoding, and a unit for every record that was under way: what
draining uses up. -/
def pending (s : Awaiting) (input : Bytes) : Nat :=
  input.length + if s.atBoundary then 0 else 1

theorem length_decode_le (s : Awaiting) (input : Bytes) :
    (decode s input).2.2.length ≤ input.length := by
  fun_induction decode s input with
  | case1 input h ih => simp at ih; omega
  | case2 input e h ih => simp at ih; omega
  | case3 input e n h => simp
  | case4 s input h => simp

theorem atBoundary_of_decode {s : Awaiting} {input : Bytes}
    (h : (decode s input).1.isSome = true) : (decode s input).2.1 = .expiration := by
  fun_induction decode s input with
  | case1 input hr ih => exact ih h
  | case2 input e hr ih => exact ih h
  | case3 input e n hr => rfl
  | case4 s input hr => simp at h

/-- Decoding a record uses up some of what is pending. -/
theorem pending_decode_lt {s : Awaiting} {input : Bytes}
    (h : (decode s input).1.isSome = true) :
    pending (decode s input).2.1 (decode s input).2.2 < pending s input := by
  rw [atBoundary_of_decode h]
  cases s with
  | expiration =>
    have hr : holds input 4 = true := by
      cases hn : holds input 4 with
      | true => rfl
      | false => rw [decode_of_short hn] at h; simp at h
    rw [decode_expiration hr]
    have := length_decode_le (.length (UInt32.ofNat (ofBigEndian (input.take 4)))) (input.drop 4)
    have := (holds_iff _ _).1 hr
    simp [pending, atBoundary] at *
    omega
  | length e =>
    have := length_decode_le (.length e) input
    simp [pending, atBoundary]
    omega
  | token e n =>
    have := length_decode_le (.token e n) input
    simp [pending, atBoundary]
    omega

end Awaiting

/-- A decoder and the bytes that it has been fed and has not yet taken. -/
structure Decoder where
  state : Awaiting
  buffer : Bytes
  deriving Repr, DecidableEq

namespace Decoder

def fresh : Decoder := ⟨.expiration, []⟩

def feed (d : Decoder) (chunk : Bytes) : Decoder := { d with buffer := d.buffer ++ chunk }

/-- The next record, if the buffer holds all of it. -/
def decode (d : Decoder) : Option Record × Decoder :=
  let (record, state, buffer) := d.state.decode d.buffer
  (record, ⟨state, buffer⟩)

/-- Has a record been begun and not finished? -/
def hasRemainder (d : Decoder) : Bool := !d.state.atBoundary || !d.buffer.isEmpty

/-- Decodes until no record is left. -/
def drain (d : Decoder) : List Record × Decoder :=
  match _h : d.decode with
  | (none, d') => ([], d')
  | (some r, d') =>
    let (rs, last) := drain d'
    (r :: rs, last)
termination_by Awaiting.pending d.state d.buffer
decreasing_by
  have hd : (d.state.decode d.buffer).1 = some r := by
    have := congrArg Prod.fst _h
    simpa [decode] using this
  have hr : (d.state.decode d.buffer).1.isSome = true := by simp [hd]
  have hs := Awaiting.pending_decode_lt hr
  have h2 := congrArg Prod.snd _h
  simp only [decode] at h2
  rw [← h2]
  exact hs

end Decoder

/-- The pieces of a stream from the `k`-th on, with the sizes in turn. -/
def cutFrom (sizes : List Nat) (k : Nat) (stream : Bytes) : List Bytes :=
  match stream with
  | [] => []
  | b :: rest =>
    let size := sizes.getD (k % sizes.length) 1 - 1
    (b :: rest.take size) :: cutFrom sizes (k + 1) (rest.drop size)
termination_by stream.length
decreasing_by simp only [List.length_drop, List.length_cons]; omega

/-- Cuts a stream into pieces of the given sizes, over and over. A size of zero counts as one, and
without sizes the stream is one piece. -/
def cut (sizes : List Nat) (stream : Bytes) : List Bytes :=
  if sizes.isEmpty then [stream] else cutFrom sizes 0 stream

namespace Decoder

/-- Feeds the chunks one by one and drains after each: what every chunk completed, and the
decoder that is left. -/
def deliver : Decoder → List Bytes → List (List Record) × Decoder
  | d, [] => ([], d)
  | d, chunk :: chunks =>
    let (records, d') := (d.feed chunk).drain
    let (later, last) := deliver d' chunks
    (records :: later, last)

end Decoder

end TokenFeedback
