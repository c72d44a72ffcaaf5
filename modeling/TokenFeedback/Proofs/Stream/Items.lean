import TokenFeedback.Proofs.Stream.Contribution
import TokenFeedback.Proofs.Stream.Fill

/-!
# The items of a reader

A reader hands out what the script of its transport contributes, item by item, whenever it is
polled and whatever room it offers to each read. It reads only when no complete record is left
in its buffer, and that is what keeps errors and ends in their place.

* `Reader.Owes`: the phases of a reader, and what it has still to hand out in each.
* `Reader.fill_serves`, `Reader.poll_serves`: a poll hands out the first item that is owed, or none.
* `Reader.items_along_script`: **polls hand out what the script contributes, in order and all of
  it.**
-/

namespace TokenFeedback

open Transport (Event)

namespace Reader

/-- **The phases of a reader without timer**, and what it has still to hand out when `script` is
ahead of it. In each, `seen` are the bytes that it has taken since the stream began. -/
inductive Owes (r : Reader) (script : List Event) : List StreamItem → Prop
  /-- It is going to read, and holds no complete record. -/
  | reading {seen} (failed : r.failed = false) (unread : r.unread = false)
      (decoder : r.decoder = .after seen) (atEnd : r.atEnd = true → seen = []) :
      Owes r script (contributions seen script)
  /-- It has handed out an error, and the end after it is next. -/
  | broken {seen} (failed : r.failed = true) (decoder : r.decoder = .after seen)
      (atEnd : r.atEnd = true → seen = []) :
      Owes r script (none :: contributions seen script)
  /-- It hands out the complete records that it holds. -/
  | holding {seen records} (failed : r.failed = false) (unread : r.unread = true)
      (atEnd : r.atEnd = false) (decoder : r.decoder.drain = (records, .after seen)) :
      Owes r script (handedOut records ++ contributions seen script)
  /-- It hands out the last records of a stream that has ended. -/
  | ending {d records} (failed : r.failed = false) (unread : r.unread = true)
      (atEnd : r.atEnd = true) (decoder : r.decoder.drain = (records, d)) :
      Owes r script (handedOut records ++ none :: contributions [] script)

/-- What a reader without timer owes when up to `n` reads go behind its script. -/
structure Owed (r : Reader) (n : Nat) (owed : List StreamItem) : Prop where
  plain : r.line.timer = none
  phase : r.Owes (r.line.transport.ahead n) owed

/-- A good attempt at a reader that owes `owed`, when `before` is its transport: it hands out the
first item that is owed, or nothing. Nothing comes although no wait is running only if a wait
begins, or nothing is owed. -/
inductive Serves (before : Transport) (now n : Nat) (owed : List StreamItem) : Attempt → Prop
  | item {x rest r log m} (le : n ≤ m) (first : owed = x :: rest) (left : Owed r m rest) :
      Serves before now n owed (.ok (.ready x), r, log)
  | pending {r log} (left : Owed r (n + 1) owed)
      (progress : before.busyUntil ≤ now → owed = [] ∨ r.line.transport.size < before.size) :
      Serves before now n owed (.ok .pending, r, log)

/-- What is read on the way belongs to the attempt. -/
theorem Serves.trans {before t : Transport} {now n : Nat} {owed : List StreamItem} {out : Attempt}
    (h : Serves t now n owed out) (free : t.busyUntil ≤ now) (size : t.size ≤ before.size) :
    Serves before now n owed out := by
  cases h with
  | item le first left => exact .item le first left
  | pending left progress =>
    refine .pending left fun _ => ?_
    rcases progress free with hnil | hlt
    · exact .inl hnil
    · exact .inr (Nat.lt_of_lt_of_le hlt size)

/-- The end of a stream is handed out once its last records are. -/
theorem handOutLast_serves {before : Transport} {r : Reader} {records : List Record} {d : Decoder}
    (plain : r.line.timer = none) (failed : r.failed = false) (atEnd : r.atEnd = true)
    (decoder : r.decoder.drain = (records, d)) (now n m : Nat) (le : n ≤ m) :
    Serves before now n (handedOut records ++ none :: contributions [] (r.line.transport.ahead m))
      r.handOutLast := by
  rcases Decoder.decode_cases decoder with ⟨rfl, hd⟩ | ⟨record, later, next, rfl, hnext, hd⟩
  · rw [handOutLast, Decoder.finish_of_none hd]
    exact .item le rfl ⟨plain, .reading failed rfl Decoder.after_nil.symm fun _ => rfl⟩
  · rw [handOutLast, Decoder.finish_of_some hd]
    exact .item le rfl ⟨plain, .ending failed rfl atEnd hnext⟩

/-- **One attempt to fill the buffer** hands out the first item of what the script contributes. -/
theorem fill_serves {r : Reader} {seen : Bytes} (plain : r.line.timer = none)
    (failed : r.failed = false) (unread : r.unread = false) (decoder : r.decoder = .after seen)
    (atEnd : r.atEnd = true → seen = []) (now n : Nat) :
    Serves r.line.transport now n (contributions seen (r.line.transport.ahead (n + 1)))
      (r.fill now) := by
  -- an attempt reads on only behind a read that brought bytes, which uses up some of the script
  induction hk : r.line.transport.size using Nat.strongRecOn generalizing r seen with
  | ind k ih =>
    subst hk
    have hline := Line.read_plain plain now (r.room r.reads + 1)
    have hworth (m : Nat) := contributions_read r.line.transport now (r.room r.reads) m seen
    rcases hread : r.line.transport.read now (r.room r.reads + 1) with ⟨answer, left⟩
    simp only [hread] at hline hworth
    cases answer with
    | pending =>
      rw [fill_eq, hline, hworth (n + 1)]
      refine .pending ⟨rfl, .reading failed unread decoder atEnd⟩ fun hb => ?_
      have hp := size_lt_of_read_pending (congrArg Prod.fst hread) hb seen (n + 1)
      rwa [hread] at hp
    | ready result =>
      rcases result with e | bytes
      · rw [fill_eq, hline, hworth (n + 1)]
        exact .item (Nat.le_succ n) rfl ⟨rfl, .broken rfl decoder atEnd⟩
      rcases bytes with _ | ⟨b, bytes⟩
      · obtain ⟨m, hle, hw⟩ := hworth n
        rw [fill_eq, hline, hw]
        dsimp only
        split
        · next he =>
          have hd : r.decoder = .after [] := by rw [decoder, atEnd he]
          exact .item hle rfl ⟨rfl, .reading failed unread hd fun _ => rfl⟩
        · -- nothing is complete when a read is made, so the end comes at once
          have hd : r.decoder.drain = ([], .after seen) := by
            rw [decoder, Decoder.drain_of_short (Decoder.after_stalled seen)]
          exact handOutLast_serves (r := {
            r with
              line := ⟨left, none⟩, reads := r.reads + 1, atEnd := true, unread := true })
            rfl failed rfl hd now n m hle
      · have hfed : (r.decoder.feed (b :: bytes)).drain =
            (completed seen (b :: bytes), .after (seen ++ b :: bytes)) := by
          rw [decoder, completed_eq, Decoder.after_append]
        rw [fill_eq, hline, hworth (n + 1)]
        dsimp only
        rcases Decoder.decode_cases hfed with ⟨hnil, hd⟩ | ⟨record, later, d, hcons, hnext, hd⟩
        · -- no record is complete, so the reader goes on reading
          rw [Decoder.next_of_none hd, hnil]
          have hlt := Transport.read_size_lt (congrArg Prod.fst hread)
          have hfree := Transport.free_of_read_ready (congrArg Prod.fst hread)
          rw [hread] at hlt hfree
          have hgo := ih _ hlt (r := {
            r with
              line := ⟨left, none⟩, reads := r.reads + 1,
              decoder := .after (seen ++ b :: bytes), atEnd := false, unread := false })
            rfl failed rfl rfl (fun he => absurd he Bool.false_ne_true) rfl
          exact hgo.trans hfree (Nat.le_of_lt hlt)
        · rw [Decoder.next_of_some hd, hcons]
          exact .item (Nat.le_succ n) rfl ⟨rfl, .holding failed rfl rfl hnext⟩

/-- **One poll** hands out the first item that is owed. -/
theorem poll_serves {r : Reader} {n : Nat} {owed : List StreamItem} (h : Owed r (n + 1) owed)
    (now : Nat) : Serves r.line.transport now n owed (r.poll now) := by
  obtain ⟨plain, phase⟩ := h
  cases phase with
  | reading failed unread decoder atEnd =>
    have hp : r.poll now = r.fill now := by
      rw [poll, failed, unread]
      rfl
    rw [hp]
    exact fill_serves plain failed unread decoder atEnd now n
  | broken failed decoder atEnd =>
    have hp : r.poll now =
        (.ok (.ready none), { r with failed := false, unread := false }, []) := by
      rw [poll, failed]
      rfl
    rw [hp]
    exact .item (Nat.le_succ n) rfl ⟨plain, .reading rfl rfl decoder atEnd⟩
  | holding failed unread atEnd decoder =>
    rw [poll_of_unread failed unread atEnd]
    rcases Decoder.decode_cases decoder with ⟨rfl, hd⟩ | ⟨record, later, d, rfl, hnext, hd⟩
    · rw [Decoder.next_of_none hd]
      exact fill_serves (r := { r with decoder := .after _, unread := false }) plain failed rfl rfl
        (fun he => absurd (atEnd.symm.trans he) Bool.false_ne_true) now n
    · rw [Decoder.next_of_some hd]
      exact .item (Nat.le_succ n) rfl ⟨plain, .holding failed unread atEnd hnext⟩
  | ending failed unread atEnd decoder =>
    have hp : r.poll now = r.handOutLast := by
      rw [poll, failed, unread, atEnd]
      rfl
    rw [hp]
    exact handOutLast_serves plain failed atEnd decoder now n (n + 1) (Nat.le_succ n)

/-! ### Polls one after another -/

/-- The items that polls at the given times hand out, in order. -/
def items : Reader → List Nat → Except ClockOverflow (List StreamItem)
  | _, [] => .ok []
  | r, now :: times =>
    match r.poll now with
    | (.error e, _, _) => .error e
    | (.ok .pending, r', _) => items r' times
    | (.ok (.ready item), r', _) =>
      match items r' times with
      | .error e => .error e
      | .ok later => .ok (item :: later)

/-- Polls hand out what is owed, in order. -/
theorem items_prefix {r : Reader} {n : Nat} {owed : List StreamItem} (h : Owed r n owed)
    (times : List Nat) (hn : times.length ≤ n) :
    ∃ got, r.items times = .ok got ∧ got <+: owed := by
  induction times generalizing r n owed with
  | nil => exact ⟨[], rfl, List.nil_prefix⟩
  | cons now times ih =>
    rw [List.length_cons] at hn
    obtain ⟨n, rfl⟩ : ∃ m, n = m + 1 := ⟨n - 1, by omega⟩
    have hs := poll_serves h now
    rw [items]
    rcases hp : r.poll now with ⟨answer, r', log⟩
    rw [hp] at hs
    cases hs with
    | @item x _ _ _ _ le first left =>
      obtain ⟨got, hgot, hpre⟩ := ih left (by omega)
      refine ⟨x :: got, by simp only [hgot], ?_⟩
      rw [first]
      exact List.cons_prefix_cons.2 ⟨rfl, hpre⟩
    | pending left _ => exact ih left (by omega)

/-- However far in what is owed an item stands, some polls get to it. -/
theorem exists_items {r : Reader} {n m : Nat} {owed : List StreamItem} (h : Owed r n owed)
    (hm : m ≤ n) : ∃ times, r.items times = .ok (owed.take m) := by
  induction m generalizing r n owed with
  | zero => exact ⟨[], rfl⟩
  | succ m ih =>
    obtain ⟨n, rfl⟩ : ∃ l, n = l + 1 := ⟨n - 1, by omega⟩
    -- polls that bring nothing use up waits of the script
    induction hk : r.line.transport.size using Nat.strongRecOn generalizing r with
    | ind k ihk =>
      subst hk
      have hs := poll_serves h r.line.transport.busyUntil
      rcases hp : r.poll r.line.transport.busyUntil with ⟨answer, r', log⟩
      rw [hp] at hs
      cases hs with
      | item le first left =>
        obtain ⟨times, ht⟩ := ih left (by omega)
        refine ⟨r.line.transport.busyUntil :: times, ?_⟩
        rw [items, hp, first]
        simp only [ht, List.take_succ_cons]
      | pending left progress =>
        rcases progress (Nat.le_refl _) with hnil | hlt
        · exact ⟨[], by rw [hnil]; rfl⟩
        · obtain ⟨times, ht⟩ := ihk _ hlt left rfl
          refine ⟨r.line.transport.busyUntil :: times, ?_⟩
          rw [items, hp]
          exact ht

/-- A new reader owes what the whole script contributes. -/
theorem owed_ofLine (events : List Event) (staysOpen : Bool) (room : Nat → Nat) (n : Nat) :
    Owed (ofLine (.plain (.ofEvents events staysOpen)) room) n
      (contributions [] (events ++ Transport.closes staysOpen n)) :=
  ⟨rfl, .reading rfl rfl Decoder.after_nil.symm fun _ => rfl⟩

/-- **Polls hand out what the script contributes, in order and all of it.** Take any script, with a
transport that behind it stays open or brings reads of no bytes for ever, any room offered to each
read and polls at any times: no poll fails, and the items that they hand out are a prefix of what
the events contribute. Some polls get to any item of it. Behind a read of no bytes the contributions
are those of a new stream; up to it, whatever errors and waits there are, their records are the
records of all bytes together. -/
theorem items_along_script (events : List Event) (staysOpen : Bool) (room : Nat → Nat) :
    (∀ times, ∃ got,
        (ofLine (.plain (.ofEvents events staysOpen)) room).items times = .ok got ∧
          got <+: contributions [] (events ++ Transport.closes staysOpen times.length)) ∧
      (∀ m, ∃ times, (ofLine (.plain (.ofEvents events staysOpen)) room).items times =
        .ok ((contributions [] (events ++ Transport.closes staysOpen m)).take m)) ∧
      ∀ part rest, (∀ e ∈ part, e.Continues) →
        contributions [] (part ++ .close :: rest) =
            contributions [] part ++ none :: contributions [] rest ∧
          recordsAmong (contributions [] part) = recordsOf (bytesOf part) := by
  refine ⟨fun times => ?_, fun m => ?_, fun part rest h => ⟨contributions_close h rest, ?_⟩⟩
  · exact items_prefix (owed_ofLine events staysOpen room times.length) times (Nat.le_refl _)
  · exact exists_items (owed_ofLine events staysOpen room m) (Nat.le_refl m)
  · have hr := records_contributions h []
    have hnil : recordsOf [] = [] := by
      rw [recordsOf, Decoder.feed_nil, Decoder.drain_of_short Decoder.fresh_stalled]
    rwa [hnil] at hr

/-- An error before the last byte of a header, which completes a record all the same, and a read of
no bytes, behind which a new stream begins. -/
theorem items_along_script_error_in_header :
    contributions [] [.data [0, 0, 0, 1, 0], .failure (.system 104), .data [0], .close, .data [7]] =
        contributions [] [.data [0, 0, 0, 1, 0], .failure (.system 104), .data [0]] ++
          none :: contributions [] [.data [7]] ∧
      recordsAmong (contributions [] [.data [0, 0, 0, 1, 0], .failure (.system 104), .data [0]]) =
        [⟨[], .ofWire 1⟩] := by
  have hpart : ∀ e ∈ [Event.data [0, 0, 0, 1, 0], .failure (.system 104), .data [0]],
      e.Continues := by
    simp [Transport.Event.Continues]
  obtain ⟨-, -, hstretch⟩ := items_along_script [] true standardRoom
  obtain ⟨hclose, hrecords⟩ := hstretch _ [.data [7]] hpart
  refine ⟨hclose, hrecords.trans ?_⟩
  decide +kernel

end Reader

end TokenFeedback
