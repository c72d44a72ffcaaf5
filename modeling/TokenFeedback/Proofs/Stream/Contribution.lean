import TokenFeedback.Proofs.Record.Drain
import TokenFeedback.Proofs.Stream.Script
import TokenFeedback.Stream.Reader

/-!
# What a script contributes to the items of a reader

A walk along the script of a transport, event by event, that knows nothing of readers: it only
remembers the bytes that came since the stream began or last ended.

* `contributions`: the items that the events are worth, in order.
* `contributions_close`: bytes on the two sides of a zero-byte read are records of two streams.
* `records_contributions`: bytes on the two sides of an error are records of one stream.
* `contributions_read`: what an attempt takes off a script is worth what it brings.
-/

namespace TokenFeedback

/-- The records of a stream. -/
def recordsOf (stream : Bytes) : List Record := (Decoder.fresh.feed stream).drain.1

/-- The decoder that has been given a stream, and drained. -/
def Decoder.after (stream : Bytes) : Decoder := (Decoder.fresh.feed stream).drain.2

theorem Decoder.after_stalled (stream : Bytes) : (after stream).Stalled :=
  drain_stalled _

theorem Decoder.after_nil : after [] = fresh := by
  rw [after, feed_nil, drain_of_short fresh_stalled]

theorem recordsOf_nil : recordsOf [] = [] := by
  rw [recordsOf, Decoder.feed_nil, Decoder.drain_of_short Decoder.fresh_stalled]

/-- More bytes add records and leave those that there are. -/
theorem recordsOf_append (seen chunk : Bytes) :
    recordsOf (seen ++ chunk) = recordsOf seen ++ ((Decoder.after seen).feed chunk).drain.1 := by
  rw [recordsOf, ← Decoder.feed_feed, Decoder.drain_feed]
  rfl

theorem Decoder.after_append (seen chunk : Bytes) :
    after (seen ++ chunk) = ((after seen).feed chunk).drain.2 := by
  rw [after, ← feed_feed, drain_feed]
  rfl

/-- The records whose last byte is in the chunk, when the bytes `seen` came before it. -/
def completed (seen chunk : Bytes) : List Record :=
  (recordsOf (seen ++ chunk)).drop (recordsOf seen).length

theorem completed_eq (seen chunk : Bytes) :
    completed seen chunk = ((Decoder.after seen).feed chunk).drain.1 := by
  rw [completed, recordsOf_append, List.drop_left]

theorem completed_nil (chunk : Bytes) : completed [] chunk = recordsOf chunk := by
  rw [completed, recordsOf_nil]
  rfl

theorem completed_append (seen a b : Bytes) :
    completed seen (a ++ b) = completed seen a ++ completed (seen ++ a) b := by
  rw [completed_eq, completed_eq, completed_eq, Decoder.after_append, ← Decoder.feed_feed,
    Decoder.drain_feed]

theorem recordsOf_append_completed (seen chunk : Bytes) :
    recordsOf (seen ++ chunk) = recordsOf seen ++ completed seen chunk := by
  rw [completed_eq, recordsOf_append]

/-- Records as the items of a reader. -/
def handedOut (records : List Record) : List StreamItem :=
  records.map fun r => some (.ok r)

theorem handedOut_append (a b : List Record) : handedOut (a ++ b) = handedOut a ++ handedOut b :=
  List.map_append

/-- The records among the items of a reader. -/
def recordsAmong (items : List StreamItem) : List Record :=
  items.filterMap fun
    | some (.ok r) => some r
    | _ => none

theorem recordsAmong_append (a b : List StreamItem) :
    recordsAmong (a ++ b) = recordsAmong a ++ recordsAmong b :=
  List.filterMap_append

theorem recordsAmong_handedOut (records : List Record) :
    recordsAmong (handedOut records) = records := by
  induction records with
  | nil => rfl
  | cons r rs ih => exact congrArg (r :: ·) ih

open Transport (Event)

/-- What the events of a script contribute to the items of a reader, when the bytes `seen` came
since the stream began. Data gives the records that it completes; an error gives itself and one
end; a read of no bytes gives one end, and the stream begins anew; a wait gives nothing. -/
def contributions : Bytes → List Event → List StreamItem
  | _, [] => []
  | _, .close :: rest => none :: contributions [] rest
  | _, .data [] :: rest => none :: contributions [] rest
  | seen, .data (b :: bytes) :: rest =>
    handedOut (completed seen (b :: bytes)) ++ contributions (seen ++ b :: bytes) rest
  | seen, .failure e :: rest => some (.error (.ofIo e)) :: none :: contributions seen rest
  | seen, .wait _ :: rest => contributions seen rest
  | _, .silence :: _ => []

theorem contributions_data {chunk : Bytes} (h : chunk ≠ []) (seen : Bytes) (rest : List Event) :
    contributions seen (.data chunk :: rest) =
      handedOut (completed seen chunk) ++ contributions (seen ++ chunk) rest := by
  cases chunk with
  | nil => exact absurd rfl h
  | cons b bytes => rfl

/-- Data in two pieces is worth what it is worth in one. -/
theorem contributions_data_append {a b : Bytes} (ha : a ≠ []) (hb : b ≠ []) (seen : Bytes)
    (rest : List Event) :
    contributions seen (.data (a ++ b) :: rest) =
      contributions seen (.data a :: .data b :: rest) := by
  rw [contributions_data (List.append_ne_nil_of_left_ne_nil ha b), contributions_data ha,
    contributions_data hb, completed_append, handedOut_append, List.append_assoc,
    List.append_assoc]

/-- Waits are worth nothing. -/
theorem contributions_waits (seen : Bytes) (waits : List Nat) (rest : List Event) :
    contributions seen (waits.map .wait ++ rest) = contributions seen rest := by
  induction waits with
  | nil => rfl
  | cons ms waits ih => exact ih

/-! ### Stretches of a script -/

/-- An event that lets the stream go on: it neither ends it nor is silent for ever. -/
def Transport.Event.Continues : Event → Prop
  | .data bytes => bytes ≠ []
  | .wait _ => True
  | .failure _ => True
  | .close => False
  | .silence => False

/-- The bytes that a stretch of a script delivers. -/
def bytesOf (part : List Event) : Bytes :=
  part.flatMap fun
    | .data bytes => bytes
    | _ => []

theorem contributions_append {part : List Event} (h : ∀ e ∈ part, e.Continues) (seen : Bytes)
    (rest : List Event) :
    contributions seen (part ++ rest) =
      contributions seen part ++ contributions (seen ++ bytesOf part) rest := by
  induction part generalizing seen with
  | nil => rw [bytesOf, List.flatMap_nil, List.append_nil]; rfl
  | cons e part ih =>
    have he := h e List.mem_cons_self
    have hp := ih fun x hx => h x (List.mem_cons_of_mem _ hx)
    cases e with
    | data bytes =>
      have hb : bytesOf (.data bytes :: part) = bytes ++ bytesOf part := List.flatMap_cons
      rw [List.cons_append, contributions_data he, contributions_data he, hp, hb,
        List.append_assoc, List.append_assoc]
    | wait ms => exact hp seen
    | failure e => exact congrArg (fun items => some (.error (.ofIo e)) :: none :: items) (hp seen)
    | close => exact absurd he id
    | silence => exact absurd he id

/-- **A zero-byte read parts two streams**: behind it bytes are decoded from a record boundary. -/
theorem contributions_close {part : List Event} (h : ∀ e ∈ part, e.Continues)
    (rest : List Event) :
    contributions [] (part ++ .close :: rest) =
      contributions [] part ++ none :: contributions [] rest := by
  rw [contributions_append h]
  rfl

/-- **Errors and waits do not part a stream**: its records are those of all its bytes. -/
theorem records_contributions {part : List Event} (h : ∀ e ∈ part, e.Continues) (seen : Bytes) :
    recordsOf seen ++ recordsAmong (contributions seen part) =
      recordsOf (seen ++ bytesOf part) := by
  induction part generalizing seen with
  | nil => rw [bytesOf, List.flatMap_nil, List.append_nil]; exact List.append_nil _
  | cons e part ih =>
    have he := h e List.mem_cons_self
    have hp := ih fun x hx => h x (List.mem_cons_of_mem _ hx)
    cases e with
    | data bytes =>
      have hb : bytesOf (.data bytes :: part) = bytes ++ bytesOf part := List.flatMap_cons
      rw [contributions_data he, recordsAmong_append, recordsAmong_handedOut, hb,
        ← List.append_assoc, ← recordsOf_append_completed, hp, List.append_assoc]
    | wait ms => exact hp seen
    | failure e => exact hp seen
    | close => exact absurd he id
    | silence => exact absurd he id

/-! ### Attempts to read -/

/-- **What an attempt takes off a script is worth what it brings.** -/
theorem contributions_read (t : Transport) (now room n : Nat) (seen : Bytes) :
    match t.read now (room + 1) with
    | (.pending, left) =>
      contributions seen (t.ahead n) = contributions seen (left.ahead n)
    | (.ready (.error e), left) =>
      contributions seen (t.ahead n) =
        some (.error (.ofIo e)) :: none :: contributions seen (left.ahead n)
    | (.ready (.ok []), left) => ∃ m, n ≤ m ∧
      contributions seen (t.ahead (n + 1)) = none :: contributions [] (left.ahead m)
    | (.ready (.ok (b :: bytes)), left) =>
      contributions seen (t.ahead n) = handedOut (completed seen (b :: bytes)) ++
        contributions (seen ++ b :: bytes) (left.ahead n) := by
  obtain ⟨hstays, waits, rest, hevents, -, hm⟩ := Transport.read_cases t now (room + 1)
  have hw (k : Nat) : contributions seen (t.ahead k) =
      contributions seen (rest ++ Transport.closes t.staysOpen k) := by
    rw [Transport.ahead, hevents, List.append_assoc, contributions_waits]
  rcases hread : t.read now (room + 1) with ⟨answer, left⟩
  rw [hread] at hstays hm
  simp only at hstays hm
  have ha (k : Nat) : left.ahead k = left.events ++ Transport.closes t.staysOpen k := by
    rw [Transport.ahead, hstays]
  cases hm with
  | waiting _ he => exact (hw n).trans (by rw [ha, he])
  | silence he => exact (hw n).trans (by rw [ha, he])
  | idle _ he => exact (hw n).trans (by rw [ha, he])
  | failure _ he => exact (hw n).trans (by rw [ha, he]; rfl)
  | close _ he => exact ⟨n + 1, by omega, (hw (n + 1)).trans (by rw [ha, he]; rfl)⟩
  | closed hs _ he =>
    refine ⟨n, Nat.le_refl n, (hw (n + 1)).trans ?_⟩
    rw [ha, he, ← hstays, hs]
    rfl
  | @data bytes later _ he =>
    cases bytes with
    | nil => exact ⟨n + 1, by omega, (hw (n + 1)).trans (by rw [ha, he]; rfl)⟩
    | cons b bytes =>
      have hne : (b :: bytes).take (room + 1) ≠ [] := by simp
      refine (hw n).trans ?_
      rw [ha, he, Transport.afterTaking]
      split
      · next hdrop =>
        have hall : (b :: bytes).take (room + 1) = b :: bytes := by
          rw [List.take_of_length_le]
          exact List.drop_eq_nil_iff.1 (List.isEmpty_iff.1 hdrop)
        rw [← List.take_succ_cons, hall]
        rfl
      · next hdrop =>
        -- what there is no room for stays ahead, and is worth the rest of the event
        have hne' : (b :: bytes).drop (room + 1) ≠ [] := fun h => hdrop (List.isEmpty_iff.2 h)
        have hsplit := contributions_data_append hne hne' seen
          (later ++ Transport.closes t.staysOpen n)
        rw [List.take_append_drop] at hsplit
        rw [List.cons_append, hsplit, contributions_data hne]
        rfl

/-- An attempt that finds nothing when no wait is running begins one, or the script is worth nothing
any more. -/
theorem size_lt_of_read_pending {t : Transport} {now room : Nat}
    (h : (t.read now room).1 = .pending) (hb : t.busyUntil ≤ now) (seen : Bytes) (n : Nat) :
    contributions seen ((t.read now room).2.ahead n) = [] ∨ (t.read now room).2.size < t.size := by
  obtain ⟨-, waits, rest, hevents, hbusy, hm⟩ := Transport.read_cases t now room
  rw [h] at hm
  cases hm with
  | waiting hw he =>
    right
    have hpos : 0 < waits.length := by
      rw [List.length_pos_iff]
      intro hnil
      have := hbusy hnil
      omega
    rw [Transport.size, Transport.size, hevents, he, Transport.scriptSize_waits]
    omega
  | silence he => exact .inl (by rw [Transport.ahead, he]; rfl)
  | idle hs he => exact .inl (by rw [Transport.ahead, he, hs]; rfl)

end TokenFeedback
