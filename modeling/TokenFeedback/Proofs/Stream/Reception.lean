import TokenFeedback.Proofs.Stream.Residue
import TokenFeedback.Proofs.Stream.Fill

/-!
# What a reader has received

A reader with a limit on silences, polled at any times, up to the first end, error or timeout. At
each poll it holds the records of the bytes that it has received and has not handed out; it never
loses one, and what it has received is the beginning of what its transport brings.

* `Transport.bytesAhead`, `Transport.fate`: the bytes that a transport brings, and what is behind
  them.
* `Reader.Receives`: what a reader has received and handed out.
* `Reader.poll_gets`: **all that a poll can do**: the clock cannot count, or nothing has come, or it
  hands out the next record, or all records are handed out and the stream is at its end.
-/

namespace TokenFeedback

open Transport (Event)

/-- What is behind the bytes that a transport brings. -/
inductive Fate where
  /-- A read of no bytes. -/
  | hangsUp
  | breaks (e : IoError)
  | silent

namespace Transport

/-- The bytes that a script brings before anything else happens. -/
def scriptBytes : List Event → Bytes
  | .data (b :: bytes) :: rest => b :: bytes ++ scriptBytes rest
  | .wait _ :: rest => scriptBytes rest
  | _ => []

/-- What happens in a script behind its first bytes. -/
def scriptFate (staysOpen : Bool) : List Event → Fate
  | [] => if staysOpen then .silent else .hangsUp
  | .data (_ :: _) :: rest => scriptFate staysOpen rest
  | .wait _ :: rest => scriptFate staysOpen rest
  | .data [] :: _ => .hangsUp
  | .close :: _ => .hangsUp
  | .failure e :: _ => .breaks e
  | .silence :: _ => .silent

def bytesAhead (t : Transport) : Bytes := scriptBytes t.events

def fate (t : Transport) : Fate := scriptFate t.staysOpen t.events

theorem scriptBytes_waits (waits : List Nat) (rest : List Event) :
    scriptBytes (waits.map .wait ++ rest) = scriptBytes rest := by
  induction waits with
  | nil => rfl
  | cons ms waits ih => exact ih

theorem scriptFate_waits (staysOpen : Bool) (waits : List Nat) (rest : List Event) :
    scriptFate staysOpen (waits.map .wait ++ rest) = scriptFate staysOpen rest := by
  induction waits with
  | nil => rfl
  | cons ms waits ih => exact ih

theorem scriptBytes_data {bytes : Bytes} (h : bytes ≠ []) (rest : List Event) :
    scriptBytes (.data bytes :: rest) = bytes ++ scriptBytes rest := by
  cases bytes with
  | nil => exact absurd rfl h
  | cons b bytes => rfl

theorem scriptFate_data {bytes : Bytes} (h : bytes ≠ []) (staysOpen : Bool) (rest : List Event) :
    scriptFate staysOpen (.data bytes :: rest) = scriptFate staysOpen rest := by
  cases bytes with
  | nil => exact absurd rfl h
  | cons b bytes => rfl

/-- What an attempt to read takes off the bytes that are ahead, and what is left. -/
inductive Takes (t left : Transport) : Poll (Except IoError Bytes) → Prop
  | nothing (ahead : left.bytesAhead = t.bytesAhead) (fate : left.fate = t.fate)
      (size : left.size ≤ t.size) : Takes t left .pending
  | bytes {b bytes} (ahead : t.bytesAhead = b :: bytes ++ left.bytesAhead)
      (fate : left.fate = t.fate) (size : left.size + (b :: bytes).length ≤ t.size) :
      Takes t left (.ready (.ok (b :: bytes)))
  | hangsUp (none : t.bytesAhead = []) (fate : t.fate = .hangsUp) : Takes t left (.ready (.ok []))
  | breaks {e} (none : t.bytesAhead = []) (fate : t.fate = .breaks e) :
      Takes t left (.ready (.error e))

/-- **An attempt to read takes the bytes that are ahead in order**, and meets what is behind them
when none is left. -/
theorem read_takes (t : Transport) (now room : Nat) :
    t.Takes (t.read now (room + 1)).2 (t.read now (room + 1)).1 := by
  obtain ⟨hstays, waits, rest, hevents, -, hm⟩ := read_cases t now (room + 1)
  have hbytes : t.bytesAhead = scriptBytes rest := by
    rw [bytesAhead, hevents, scriptBytes_waits]
  have hfate : t.fate = scriptFate t.staysOpen rest := by
    rw [fate, hevents, scriptFate_waits]
  have hsize : t.size = waits.length + scriptSize rest := by
    rw [size, hevents, scriptSize_waits]
  generalize t.read now (room + 1) = out at hstays hm
  obtain ⟨answer, left⟩ := out
  simp only at hstays hm ⊢
  -- an attempt that finds nothing leaves what is behind the waits that it has passed
  have hnothing (he : left.events = rest) : t.Takes left .pending := by
    refine .nothing ?_ ?_ ?_
    · rw [hbytes, bytesAhead, he]
    · rw [hfate, fate, he, hstays]
    · rw [hsize, size, he]
      exact Nat.le_add_left _ _
  cases hm with
  | waiting _ he => exact hnothing he
  | silence he => exact hnothing he
  | idle _ he => exact hnothing he
  | failure _ _ => exact .breaks hbytes hfate
  | close _ _ => exact .hangsUp hbytes hfate
  | closed hs _ _ => exact .hangsUp hbytes (hfate.trans (by rw [← hstays, hs]; rfl))
  | @data bytes later _ he =>
    cases bytes with
    | nil => exact .hangsUp hbytes hfate
    | cons b bytes =>
      have hne : (b :: bytes).take (room + 1) ≠ [] := by simp
      have hlen : scriptSize (.data (b :: bytes) :: later) =
          (b :: bytes).length + 1 + scriptSize later := rfl
      have htake : ((b :: bytes).take (room + 1)).length + ((b :: bytes).drop (room + 1)).length =
          (b :: bytes).length := by
        rw [← List.length_append, List.take_append_drop]
      rw [afterTaking] at he
      rw [List.take_succ_cons]
      split at he
      · next hdrop =>
        have hall : (b :: bytes).take (room + 1) = b :: bytes := by
          rw [List.take_of_length_le]
          exact List.drop_eq_nil_iff.1 (List.isEmpty_iff.1 hdrop)
        refine .bytes ?_ ?_ ?_
        · rw [hbytes, scriptBytes_data (List.cons_ne_nil b bytes), bytesAhead, he,
            ← List.take_succ_cons, hall]
        · rw [hfate, scriptFate_data (List.cons_ne_nil b bytes), fate, he, hstays]
        · rw [hsize, hlen, size, he, ← List.take_succ_cons, hall]
          omega
      · next hdrop =>
        have hne' : (b :: bytes).drop (room + 1) ≠ [] := fun h => hdrop (List.isEmpty_iff.2 h)
        have hlen' : scriptSize (.data ((b :: bytes).drop (room + 1)) :: later) =
            ((b :: bytes).drop (room + 1)).length + 1 + scriptSize later := rfl
        refine .bytes ?_ ?_ ?_
        · rw [hbytes, scriptBytes_data (List.cons_ne_nil b bytes), bytesAhead, he,
            scriptBytes_data hne', ← List.append_assoc, ← List.take_succ_cons,
            List.take_append_drop]
        · rw [hfate, scriptFate_data (List.cons_ne_nil b bytes), fate, he, scriptFate_data hne',
            hstays]
        · rw [hsize, hlen, size, he, hlen', ← List.take_succ_cons]
          omega

/-- Whether there is something to read does not hang on the room for it. -/
theorem read_pending {t : Transport} {now room : Nat} (h : (t.read now room).1 = .pending)
    (room' : Nat) : (t.read now room').1 = .pending := by
  have key (events : List Event) (busy : Nat) :
      (readEvents t.staysOpen now room events busy).1 = .pending →
        (readEvents t.staysOpen now room' events busy).1 = .pending := by
    induction events generalizing busy with
    | nil =>
      unfold readEvents
      split
      · exact id
      · exact id
    | cons e rest ih =>
      unfold readEvents
      split
      · exact id
      · cases e with
        | wait ms => exact ih (now + ms)
        | data bytes => exact fun h => (by cases h)
        | failure e => exact fun h => (by cases h)
        | close => exact fun h => (by cases h)
        | silence => exact id
  exact key t.events t.busyUntil h

end Transport

/-- Bytes that are fed come behind those that a decoder holds. -/
theorem Decoder.remainder_feed (d : Decoder) (chunk : Bytes) :
    (d.feed chunk).remainder = d.remainder ++ chunk := by
  rw [remainder, feed, remainder, List.append_assoc]

namespace Reader

/-- The records of a reader that it has not handed out. -/
inductive Holds (r : Reader) (received : Bytes) (given : List Record) : Prop
  | none (unread : r.unread = false) (decoder : r.decoder = .after received)
      (all : given = recordsOf received)
  | some {held} (unread : r.unread = true) (decoder : r.decoder.drain = (held, .after received))
      (all : given ++ held = recordsOf received)

/-- **What a reader has received and handed out**, of what the transport `t` brings. -/
structure Receives (t : Transport) (clock : Clock) (limit : Span) (r : Reader) (received : Bytes)
    (given : List Record) : Prop where
  failed : r.failed = false
  atEnd : r.atEnd = false
  timer : ∃ deadline, r.line.timer = .some ⟨clock, limit, deadline⟩
  ahead : received ++ r.line.transport.bytesAhead = t.bytesAhead
  fate : r.line.transport.fate = t.fate
  holds : r.Holds received given

/-- A new reader has received nothing. -/
theorem receives_new (t : Transport) (now : Nat) (clock : Clock) (limit : Span)
    (room : Nat → Nat) :
    (ofLine (.limited t now limit clock) room).Receives t clock limit [] [] :=
  ⟨rfl, rfl, ⟨_, rfl⟩, List.nil_append _, rfl,
    .none rfl Decoder.after_nil.symm recordsOf_nil.symm⟩

/-- What a reader can still use up: what its transport can give, and the bytes of the records that
it holds. -/
def todo (r : Reader) : Nat := 2 * r.line.transport.size + r.decoder.remainder.length

/-- Is there something to read at time `now`? -/
def Readable (r : Reader) (now : Nat) : Prop :=
  ∃ room result, (r.line.transport.read now room).1 = .ready result

/-- The deadline of a reader was moved at time `now`, or nothing has come since `before`. -/
def Rearmed (clock : Clock) (limit : Span) (now : Nat) (before r : Reader) : Prop :=
  r.line.timer = some ⟨clock, limit, now + limit.ticks⟩ ∨
    r.line.timer = before.line.timer ∧
      r.line.transport.bytesAhead = before.line.transport.bytesAhead

/-- Is the deadline of a reader over, and nothing there to be read? -/
def Overdue (r : Reader) (clock : Clock) (limit : Span) (now : Nat) : Prop :=
  ∃ deadline, r.line.timer = some ⟨clock, limit, deadline⟩ ∧ deadline ≤ now ∧ ¬ r.Readable now

/-- **All that a poll at time `now` can do**, when `given` was handed out before. -/
inductive Gets (t : Transport) (clock : Clock) (limit : Span) (now : Nat) (before : Reader)
    (given : List Record) : Attempt → Prop
  | overflows {r log} (ready : before.Readable now) (far : clock.reaches now limit = false) :
      Gets t clock limit now before given (.error .mk, r, log)
  /-- Nothing has come. The deadline is as before if nothing was used up, and it is not over. -/
  | pending {r received} (left : r.Receives t clock limit received given)
      (timed : Rearmed clock limit now before r)
      (fewer : r.todo < before.todo ∨ r.todo = before.todo ∧ r.line.timer = before.line.timer)
      (early : ∀ timer, r.line.timer = some timer → now < timer.deadline) :
      Gets t clock limit now before given (.ok .pending, r, [])
  | record {r received x} (left : r.Receives t clock limit received (given ++ [x]))
      (timed : Rearmed clock limit now before r) (fewer : r.todo < before.todo) :
      Gets t clock limit now before given (.ok (.ready (some (.ok x))), r, [x.decodedEntry])
  | ends {r received} (all : given = recordsOf received) (bytes : received = t.bytesAhead)
      (fate : t.fate = .hangsUp) (decoder : r.decoder = .fresh) :
      Gets t clock limit now before given (.ok (.ready none), r,
        if (Decoder.after received).hasRemainder then [(Decoder.after received).cutOffEntry]
        else [])
  | breaks {r received e} (all : given = recordsOf received) (bytes : received = t.bytesAhead)
      (fate : t.fate = .breaks e) (decoder : r.decoder = .after received) :
      Gets t clock limit now before given (.ok (.ready (some (.error (.ofIo e)))), r, [])
  /-- With a limit of no length this may come at once behind a read. -/
  | silent {r received} (all : given = recordsOf received) (decoder : r.decoder = .after received)
      (overdue : 0 < limit.ticks → before.Overdue clock limit now ∧
        received ++ before.line.transport.bytesAhead = t.bytesAhead) :
      Gets t clock limit now before given (.ok (.ready (some (.error (.idleTimeout limit)))), r, [])

/-- What was read on the way belongs to the poll. -/
theorem Gets.trans {t : Transport} {clock : Clock} {limit : Span} {now : Nat} {before r : Reader}
    {given : List Record} {out : Attempt} (h : Gets t clock limit now r given out)
    (reach : clock.reaches now limit = true)
    (timer : r.line.timer = some ⟨clock, limit, now + limit.ticks⟩) (less : r.todo < before.todo) :
    Gets t clock limit now before given out := by
  have htimed {r' : Reader} (timed : Rearmed clock limit now r r') :
      Rearmed clock limit now before r' :=
    .inl (timed.elim id fun same => same.1.trans timer)
  cases h with
  | overflows ready far => exact absurd (far.symm.trans reach) Bool.false_ne_true
  | pending left timed fewer early =>
    refine .pending left (htimed timed) (.inl ?_) early
    obtain hlt | ⟨heq, -⟩ := fewer
    · exact Nat.lt_trans hlt less
    · exact heq ▸ less
  | record left timed fewer => exact .record left (htimed timed) (Nat.lt_trans fewer less)
  | ends all bytes fate decoder => exact .ends all bytes fate decoder
  | breaks all bytes fate decoder => exact .breaks all bytes fate decoder
  | silent all decoder overdue =>
    -- the deadline was moved just now
    refine .silent all decoder fun positive => ?_
    obtain ⟨⟨deadline, htimer, hle, -⟩, -⟩ := overdue positive
    obtain rfl := (IdleTimer.mk.inj (Option.some.inj (htimer.symm.trans timer))).2.2
    omega

/-- What is decoded in vain changes nothing for the poll. -/
theorem Gets.of_eq {t : Transport} {clock : Clock} {limit : Span} {now : Nat} {before r : Reader}
    {given : List Record} {out : Attempt} (h : Gets t clock limit now r given out)
    (line : r.line = before.line) (same : r.todo = before.todo) :
    Gets t clock limit now before given out := by
  cases h with
  | overflows ready far =>
    rw [Readable, line] at ready
    exact .overflows ready far
  | pending left timed fewer early =>
    rw [Rearmed, line] at timed
    rw [same, line] at fewer
    exact .pending left timed fewer early
  | record left timed fewer =>
    rw [Rearmed, line] at timed
    exact .record left timed (same ▸ fewer)
  | ends all bytes fate decoder => exact .ends all bytes fate decoder
  | breaks all bytes fate decoder => exact .breaks all bytes fate decoder
  | silent all decoder overdue =>
    rw [Overdue, Readable, line] at overdue
    exact .silent all decoder overdue

/-- **One attempt to fill the buffer** of a reader that has handed out all records that it has. -/
theorem fill_gets {t : Transport} {clock : Clock} {limit : Span} {r : Reader} {received : Bytes}
    {given : List Record} {deadline : Nat} (failed : r.failed = false) (atEnd : r.atEnd = false)
    (timer : r.line.timer = .some ⟨clock, limit, deadline⟩)
    (ahead : received ++ r.line.transport.bytesAhead = t.bytesAhead)
    (fate : r.line.transport.fate = t.fate) (unread : r.unread = false)
    (decoder : r.decoder = .after received) (all : given = recordsOf received) (now : Nat) :
    Gets t clock limit now r given (r.fill now) := by
  -- an attempt reads on only behind a read that brought bytes, which uses up some of the script
  induction hk : r.line.transport.size using Nat.strongRecOn generalizing r received deadline with
  | ind k ih =>
    subst hk
    have hline := Line.read_limited timer now (r.room r.reads + 1)
    have htakes := r.line.transport.read_takes now (r.room r.reads)
    rcases hread : r.line.transport.read now (r.room r.reads + 1) with ⟨answer, left⟩
    rw [hread] at hline htakes
    simp only at hline htakes
    -- an answer comes through if the clock can count the next deadline
    have hready {result : Except IoError Bytes} (h : answer = .ready result) : r.Readable now :=
      ⟨_, result, (congrArg Prod.fst hread).trans h⟩
    rw [fill_eq, hline]
    cases htakes with
    | nothing hahead hfate hsize =>
      have hquiet := Transport.read_pending (congrArg Prod.fst hread)
      dsimp only
      by_cases hdue : deadline ≤ now
      · rw [if_pos hdue]
        refine .silent all decoder fun _ => ⟨⟨deadline, timer, hdue, ?_⟩, ahead⟩
        rintro ⟨room, result, hready⟩
        cases hready.symm.trans (hquiet room)
      · rw [if_neg hdue]
        refine .pending ⟨failed, atEnd, ⟨deadline, rfl⟩, hahead.symm ▸ ahead, hfate.trans fate,
          .none unread decoder all⟩ (.inr ⟨timer.symm, hahead⟩) ?_ fun timer' ht => ?_
        · have htodo : 2 * left.size + r.decoder.remainder.length ≤ r.todo := by
            rw [todo]
            omega
          rcases Nat.lt_or_eq_of_le htodo with hlt | heq
          · exact .inl hlt
          · exact .inr ⟨heq, timer.symm⟩
        · obtain rfl := Option.some.inj ht
          exact Nat.not_le.1 hdue
    | breaks hnone hfate =>
      dsimp only
      by_cases reach : clock.reaches now limit = true
      · rw [if_pos reach]
        refine .breaks all ?_ (fate ▸ hfate) decoder
        rw [← ahead, hnone, List.append_nil]
      · rw [if_neg reach]
        exact .overflows (hready rfl) (Bool.eq_false_iff.2 reach)
    | hangsUp hnone hfate =>
      dsimp only
      by_cases reach : clock.reaches now limit = true
      · rw [if_pos reach]
        dsimp only
        rw [atEnd, if_neg Bool.false_ne_true]
        -- nothing is complete when a read is made, so the end comes at once
        have hd : r.decoder.decode = (.none, .after received) := by
          rcases Decoder.decode_cases (Decoder.drain_of_short (Decoder.after_stalled received)) with
            ⟨-, hnone⟩ | ⟨_, _, _, hcons, -⟩
          · rw [decoder, hnone]
          · cases hcons
        rw [handOutLast, Decoder.finish_of_none hd]
        refine .ends all ?_ (fate ▸ hfate) rfl
        rw [← ahead, hnone, List.append_nil]
      · rw [if_neg reach]
        exact .overflows (hready rfl) (Bool.eq_false_iff.2 reach)
    | @bytes b bytes hahead hfate hsize =>
      dsimp only
      by_cases reach : clock.reaches now limit = true
      · rw [if_pos reach]
        dsimp only
        have hfed : (r.decoder.feed (b :: bytes)).drain =
            (completed received (b :: bytes), .after (received ++ b :: bytes)) := by
          rw [decoder, completed_eq, Decoder.after_append]
        have hgiven : given ++ completed received (b :: bytes) =
            recordsOf (received ++ b :: bytes) := by
          rw [all, recordsOf_append_completed]
        have hahead' : (received ++ b :: bytes) ++ left.bytesAhead = t.bytesAhead := by
          rw [List.append_assoc, ← hahead, ahead]
        have hheld := congrArg List.length (r.decoder.remainder_feed (b :: bytes))
        rw [List.length_append] at hheld
        rw [List.length_cons] at hsize hheld
        rcases Decoder.decode_cases hfed with ⟨hnil, hd⟩ | ⟨record, later, d, hcons, hnext, hd⟩
        · -- no record is complete, so the reader goes on reading
          rw [Decoder.next_of_none hd]
          rw [hnil, List.append_nil] at hgiven
          have hrest := congrArg List.length (Decoder.remainder_of_decode_none hd)
          have hgo := ih left.size (by omega) (r := {
            r with
              line := ⟨left, .some ⟨clock, limit, now + limit.ticks⟩⟩, reads := r.reads + 1,
              decoder := .after (received ++ b :: bytes), atEnd := false, unread := false })
            failed rfl rfl hahead' (hfate.trans fate) rfl rfl hgiven rfl
          refine hgo.trans reach rfl ?_
          rw [todo, todo]
          dsimp only
          omega
        · rw [Decoder.next_of_some hd]
          rw [hcons] at hgiven
          obtain ⟨-, wire, -, hwire⟩ := Decoder.remainder_of_decode_some hd
          have hrest := congrArg List.length hwire
          rw [List.length_append] at hrest
          refine .record ⟨failed, rfl, ⟨_, rfl⟩, hahead', hfate.trans fate, .some rfl hnext ?_⟩
            (.inl rfl) ?_
          · rw [List.append_assoc]
            exact hgiven
          · rw [todo, todo]
            dsimp only
            omega
      · rw [if_neg reach]
        exact .overflows (hready rfl) (Bool.eq_false_iff.2 reach)

/-- **All that a poll can do.** -/
theorem poll_gets {t : Transport} {clock : Clock} {limit : Span} {r : Reader} {received : Bytes}
    {given : List Record} (h : r.Receives t clock limit received given) (now : Nat) :
    Gets t clock limit now r given (r.poll now) := by
  obtain ⟨deadline, timer⟩ := h.timer
  cases h.holds with
  | none unread decoder all =>
    have hp : r.poll now = r.fill now := by
      rw [poll, h.failed, unread]
      rfl
    rw [hp]
    exact fill_gets h.failed h.atEnd timer h.ahead h.fate unread decoder all now
  | some unread decoder all =>
    rw [poll_of_unread h.failed unread h.atEnd]
    rcases Decoder.decode_cases decoder with ⟨rfl, hd⟩ | ⟨record, later, d, rfl, hnext, hd⟩
    · rw [Decoder.next_of_none hd]
      rw [List.append_nil] at all
      have hgets := fill_gets (r := { r with decoder := .after received, unread := false }) h.failed
        h.atEnd timer h.ahead h.fate rfl rfl all now
      refine hgets.of_eq rfl ?_
      rw [todo, todo, ← Decoder.remainder_of_decode_none hd]
    · rw [Decoder.next_of_some hd]
      obtain ⟨-, wire, hwire, hrest⟩ := Decoder.remainder_of_decode_some hd
      refine .record ⟨h.failed, h.atEnd, ⟨deadline, timer⟩, h.ahead, h.fate,
        .some unread hnext ?_⟩ (.inr ⟨rfl, rfl⟩) ?_
      · rw [List.append_assoc]
        exact all
      · have hlen := congrArg List.length hrest
        rw [List.length_append, Record.length_of_encode hwire, Record.encodedLength] at hlen
        rw [todo, todo]
        dsimp only
        omega

end Reader

end TokenFeedback
