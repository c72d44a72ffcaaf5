import TokenFeedback.Proofs.Stream.Fill
import TokenFeedback.Proofs.Stream.Outlook
import TokenFeedback.Proofs.Stream.Residue

/-!
# Readers that give up after a silence

A reader is polled as soon as that is worth it, and the clock stands still while it works. With or
without a limit on silences it then hands out what the outlook says, when the outlook says it.

* `Reader.Expects`: the phases of a reader on the clock, and what is ahead of it in each.
* `Reader.poll_obtains`, `Reader.await_obtains`: a poll, and polls until there is an item, hand out
  the first item that is ahead.
* `Reader.awaitItems`: items one after another, each with its time.
* `Reader.idle_ends_items`: **a limit on silences changes nothing before a silence that is longer,
  and ends the items there, at the limit.**
-/

namespace TokenFeedback

open Transport (Event)

/-- The timer of a line that has read last at time `last`. -/
def timerSince (clock : Clock) (idle : Option Span) (last : Nat) : Option IdleTimer :=
  match idle with
  | none => none
  | some d => some ⟨clock, d, last + d.ticks⟩

theorem Transport.read_busy {t : Transport} {now : Nat} (h : now < t.busyUntil) (room : Nat) :
    (t.read now room).1 = .pending := by
  show (readEvents t.staysOpen now room t.events t.busyUntil).1 = .pending
  unfold readEvents
  rw [if_pos h]

namespace Line

variable {l : Line} {clock : Clock} {idle : Option Span} {last now room : Nat} {left : Transport}

/-- A read that is answered starts the timer anew. -/
theorem read_ready (timer : l.timer = timerSince clock idle last)
    (reach : ∀ d ∈ idle, clock.reaches now d = true) {result : Except IoError Bytes}
    (h : l.transport.read now room = (.ready result, left)) :
    l.read now room = (.ok (.ready result), ⟨left, timerSince clock idle now⟩) := by
  cases idle with
  | none => rw [read_plain timer, h]; rfl
  | some d =>
    rw [read_limited timer, h]
    exact if_pos (reach d rfl)

/-- A read that finds nothing before the deadline. -/
theorem read_pending (timer : l.timer = timerSince clock idle last)
    (before : ∀ d ∈ idle, now < last + d.ticks)
    (h : l.transport.read now room = (.pending, left)) :
    l.read now room = (.ok .pending, ⟨left, timerSince clock idle last⟩) := by
  cases idle with
  | none => rw [read_plain timer, h]; rfl
  | some d =>
    rw [read_limited timer, h]
    exact if_neg (Nat.not_le.2 (before d rfl))

/-- A read that finds nothing at the deadline. -/
theorem read_overdue {d : Span} (timer : l.timer = timerSince clock (some d) last)
    (due : last + d.ticks ≤ now) (h : l.transport.read now room = (.pending, left)) :
    l.read now room =
      (.ok (.ready (.error (.idle .timedOut d))), ⟨left, timerSince clock (some d) last⟩) := by
  rw [read_limited timer, h]
  exact if_pos due

end Line

namespace Reader

variable {clock : Clock}

/-- **The phases of a reader on the clock**, and what is ahead of it when it is polled at time `now`
and up to `n` more reads go behind its script. -/
inductive Expects (clock : Clock) (idle : Option Span) (now n : Nat) (r : Reader) : Outlook → Prop
  /-- It is going to read, and holds no complete record. -/
  | reading {seen last} (failed : r.failed = false) (unread : r.unread = false)
      (decoder : r.decoder = .after seen) (atEnd : r.atEnd = true → seen = [])
      (timer : r.line.timer = timerSince clock idle last) (since : last ≤ now)
      (patient : Patient idle last now) (free : r.line.transport.busyUntil ≤ now) :
      Expects clock idle now n r
        (outlook idle r.line.transport.staysOpen seen last now (r.line.transport.ahead n))
  /-- It has handed out an error, and the end after it is next. -/
  | broken {seen} (failed : r.failed = true) (decoder : r.decoder = .after seen)
      (atEnd : r.atEnd = true → seen = []) (timer : r.line.timer = timerSince clock idle now)
      (free : r.line.transport.busyUntil ≤ now) :
      Expects clock idle now n r
        ((outlook idle r.line.transport.staysOpen seen now now (r.line.transport.ahead n)).behind
          [(now, none)])
  /-- It hands out the complete records that it holds. -/
  | holding {seen records} (failed : r.failed = false) (unread : r.unread = true)
      (atEnd : r.atEnd = false) (decoder : r.decoder.drain = (records, .after seen))
      (timer : r.line.timer = timerSince clock idle now) (free : r.line.transport.busyUntil ≤ now) :
      Expects clock idle now n r
        ((outlook idle r.line.transport.staysOpen seen now now (r.line.transport.ahead n)).behind
          (allAt now (handedOut records)))

/-- A reader that is going to give up at time `now`: nothing has come by then. -/
structure Doomed (clock : Clock) (d : Span) (last now : Nat) (seen : Bytes) (r : Reader) :
    Prop where
  failed : r.failed = false
  unread : r.unread = false
  decoder : r.decoder = .after seen
  timer : r.line.timer = timerSince clock (some d) last
  due : last + d.ticks = now
  quiet : ∀ room, (r.line.transport.read now room).1 = .pending

/-- What an attempt at time `now` may obtain, when `before` is the transport and `o` is ahead. -/
inductive Obtains (clock : Clock) (idle : Option Span) (now n : Nat) (before : Transport)
    (o : Outlook) : Attempt → Prop
  | item {x o' r log m} (le : n ≤ m) (first : o = o'.behind [(now, x)])
      (more : ∀ e, x = some (.error e) → o'.items ≠ []) (left : Expects clock idle now m r o') :
      Obtains clock idle now n before o (.ok (.ready x), r, log)
  | gaveUp {d r log} (alone : o.items = [(now, some (.error (.idleTimeout d)))])
      (decoder : r.decoder = .after o.stream) :
      Obtains clock idle now n before o (.ok (.ready (some (.error (.idleTimeout d)))), r, log)
  /-- A wait has begun, within the limit. -/
  | sleeps {t r log} (wake : r.line.wake now = some t) (later : now < t)
      (left : Expects clock idle t (n + 1) r o) (fewer : r.line.transport.left < before.left) :
      Obtains clock idle now n before o (.ok .pending, r, log)
  /-- Nothing comes before the limit. -/
  | dozes {d last seen t r log} (limit : idle = some d) (wake : r.line.wake now = some t)
      (later : now < t) (all : o = givenUp idle seen last) (left : Doomed clock d last t seen r) :
      Obtains clock idle now n before o (.ok .pending, r, log)
  /-- Nothing comes, and there is no limit. -/
  | rests {r log} (wake : r.line.wake now = none) (nothing : o.items = []) :
      Obtains clock idle now n before o (.ok .pending, r, log)

/-- What is read on the way belongs to the attempt. -/
theorem Obtains.trans {idle : Option Span} {now n : Nat} {before t : Transport} {o : Outlook}
    {out : Attempt} (h : Obtains clock idle now n t o out) (fewer : t.left ≤ before.left) :
    Obtains clock idle now n before o out := by
  cases h with
  | item le first more left => exact .item le first more left
  | gaveUp alone decoder => exact .gaveUp alone decoder
  | sleeps wake later left hf => exact .sleeps wake later left (Nat.lt_of_lt_of_le hf fewer)
  | dozes limit wake later all left => exact .dozes limit wake later all left
  | rests wake nothing => exact .rests wake nothing

/-- A reader that finds nothing gives up, dozes, sleeps or rests. -/
theorem pending_obtains {idle : Option Span} {r : Reader} {seen : Bytes} {last now n : Nat}
    (failed : r.failed = false) (unread : r.unread = false) (decoder : r.decoder = .after seen)
    (atEnd : r.atEnd = true → seen = []) (timer : r.line.timer = timerSince clock idle last)
    (since : last ≤ now) (patient : Patient idle last now) {left : Transport} {o : Outlook}
    (hread : r.line.transport.read now (r.room r.reads + 1) = (.pending, left))
    (h : OnTime idle seen last now n r.line.transport left .pending o) :
    Obtains clock idle now n r.line.transport o (r.fill now) := by
  -- at the deadline the reader gives up
  have hdue (d : Span) (hd : idle = some d) (hnow : now = last + d.ticks)
      (ho : o = givenUp idle seen last) :
      Obtains clock idle now n r.line.transport o (r.fill now) := by
    subst hd
    rw [fill_eq, Line.read_overdue timer (Nat.le_of_eq hnow.symm) hread, ho]
    refine .gaveUp ?_ decoder
    rw [hnow]
    rfl
  cases idle with
  | none =>
    have hno : ∀ d ∈ (none : Option Span), now < last + d.ticks := fun _ hd => (by cases hd)
    have hline := Line.read_pending timer hno hread
    rw [fill_eq, hline]
    cases h with
    | waits later fewer within beyond =>
      rw [within (.none last _)]
      refine .sleeps ?_ later (.reading failed unread decoder atEnd rfl
        (Nat.le_trans since (Nat.le_of_lt later)) (.none last _) (Nat.le_refl _)) fewer
      simp only [Line.wake, Transport.wake, if_pos later, timerSince]
    | silent free quiet =>
      refine .rests ?_ rfl
      simp only [Line.wake, Transport.wake, if_neg (Nat.not_lt.2 free), timerSince]
  | some d =>
    rcases Nat.eq_or_lt_of_le (patient d rfl) with hnow | hlt
    · refine hdue d rfl hnow ?_
      cases h with
      | waits later fewer within beyond =>
        refine beyond fun hp => ?_
        have := hp d rfl
        omega
      | silent free quiet => rfl
    · have hbefore : ∀ d' ∈ some d, now < last + d'.ticks := fun _ hd => (by cases hd; exact hlt)
      have hline := Line.read_pending timer hbefore hread
      rw [fill_eq, hline]
      cases h with
      | waits later fewer within beyond =>
        by_cases hp : Patient (some d) last left.busyUntil
        · rw [within hp]
          refine .sleeps ?_ later (.reading failed unread decoder atEnd rfl
            (Nat.le_trans since (Nat.le_of_lt later)) hp (Nat.le_refl _)) fewer
          simp only [Line.wake, Transport.wake, if_pos later, timerSince,
            Nat.min_eq_left (hp d rfl)]
        · -- the wait is longer than the limit, so the timer fires first
          rw [patient_some, Nat.not_le] at hp
          refine .dozes rfl ?_ hlt (beyond fun h => absurd (h d rfl) (Nat.not_le.2 hp))
            ⟨failed, unread, decoder, rfl, rfl, fun room => Transport.read_busy hp room⟩
          simp only [Line.wake, Transport.wake, if_pos later, timerSince,
            Nat.min_eq_right (Nat.le_of_lt hp)]
      | silent free quiet =>
        refine .dozes rfl ?_ hlt rfl
          ⟨failed, unread, decoder, rfl, rfl, quiet _ (Nat.le_of_lt hlt)⟩
        simp only [Line.wake, Transport.wake, if_neg (Nat.not_lt.2 free), timerSince]

/-- **One attempt to fill the buffer** obtains the first item that is ahead. -/
theorem fill_obtains {idle : Option Span} {r : Reader} {seen : Bytes} {last now n : Nat}
    (failed : r.failed = false) (unread : r.unread = false) (decoder : r.decoder = .after seen)
    (atEnd : r.atEnd = true → seen = []) (timer : r.line.timer = timerSince clock idle last)
    (since : last ≤ now) (patient : Patient idle last now) (free : r.line.transport.busyUntil ≤ now)
    (reach : ∀ d ∈ idle, clock.reaches (outlook idle r.line.transport.staysOpen seen last now
      (r.line.transport.ahead (n + 1))).last d = true) :
    Obtains clock idle now n r.line.transport
      (outlook idle r.line.transport.staysOpen seen last now (r.line.transport.ahead (n + 1)))
      (r.fill now) := by
  -- an attempt reads on only behind a read that brought bytes, which uses up some of the script
  induction hk : r.line.transport.size using Nat.strongRecOn generalizing r seen last with
  | ind k ih =>
    subst hk
    have htime := outlook_read patient free (r.room r.reads) n seen
    rcases hread : r.line.transport.read now (r.room r.reads + 1) with ⟨answer, left⟩
    rw [hread] at htime
    simp only at htime
    generalize outlook idle r.line.transport.staysOpen seen last now
      (r.line.transport.ahead (n + 1)) = o at htime reach ⊢
    -- a completed read is not behind the last one, so its deadline can be counted
    have hreach {seen' : Bytes} {script : List Event}
        (h : o.last = (outlook idle left.staysOpen seen' now now script).last) :
        ∀ d ∈ idle, clock.reaches now d = true := fun d hd =>
      Clock.reaches_of_le (reach d hd)
        (h ▸ le_last_outlook idle left.staysOpen seen' (Nat.le_refl now) script)
    cases htime with
    | waits later fewer within beyond =>
      exact pending_obtains failed unread decoder atEnd timer since patient hread
        (.waits later fewer within beyond)
    | silent free quiet =>
      exact pending_obtains failed unread decoder atEnd timer since patient hread
        (.silent free quiet)
    | fails hfree fewer =>
      rw [fill_eq, Line.read_ready timer (hreach rfl) hread]
      refine .item (Nat.le_succ n) ?_ (fun _ _ => List.cons_ne_nil _ _)
        (.broken rfl decoder atEnd rfl hfree)
      rw [Outlook.behind_behind]
      rfl
    | ends hfree fewer le =>
      rw [fill_eq, Line.read_ready timer (hreach rfl) hread]
      dsimp only
      split
      · next he =>
        have hd : r.decoder = .after [] := by rw [decoder, atEnd he]
        exact .item le rfl (fun _ h => (by cases h))
          (.reading failed unread hd (fun _ => rfl) rfl (Nat.le_refl now) (.self idle now) hfree)
      · -- nothing is complete when a read is made, so the end comes at once
        have hd : r.decoder.decode = (none, .after seen) := by
          rcases Decoder.decode_cases (Decoder.drain_of_short (Decoder.after_stalled seen)) with
            ⟨-, hnone⟩ | ⟨_, _, _, hcons, -⟩
          · rw [decoder, hnone]
          · cases hcons
        rw [handOutLast, Decoder.finish_of_none hd]
        exact .item le rfl (fun _ h => (by cases h))
          (.reading failed rfl Decoder.after_nil.symm (fun _ => rfl) rfl (Nat.le_refl now)
            (.self idle now) hfree)
    | @brings b bytes hfree fewer =>
      have hfed : (r.decoder.feed (b :: bytes)).drain =
          (completed seen (b :: bytes), .after (seen ++ b :: bytes)) := by
        rw [decoder, completed_eq, Decoder.after_append]
      rw [fill_eq, Line.read_ready timer (hreach rfl) hread]
      dsimp only
      rcases Decoder.decode_cases hfed with ⟨hnil, hd⟩ | ⟨record, later, d, hcons, hnext, hd⟩
      · -- no record is complete, so the reader goes on reading
        rw [Decoder.next_of_none hd, hnil]
        have hlt := Transport.read_size_lt (congrArg Prod.fst hread)
        rw [hread] at hlt
        have hgo := ih _ hlt (r := {
          r with
            line := ⟨left, timerSince clock idle now⟩, reads := r.reads + 1,
            decoder := .after (seen ++ b :: bytes), atEnd := false, unread := false })
          failed rfl rfl (fun he => absurd he Bool.false_ne_true) rfl (Nat.le_refl now)
          (.self idle now) hfree reach rfl
        exact hgo.trans fewer
      · rw [Decoder.next_of_some hd, hcons]
        refine .item (Nat.le_succ n) ?_ (fun _ h => (by cases h))
          (.holding failed rfl rfl hnext rfl hfree)
        rw [Outlook.behind_behind]
        rfl

/-- A reader that is going to give up does so. -/
theorem Doomed.poll {d : Span} {last now : Nat} {seen : Bytes} {r : Reader}
    (h : Doomed clock d last now seen r) :
    ∃ r', r.poll now = (.ok (.ready (some (.error (.idleTimeout d)))), r', []) ∧
      r'.decoder = .after seen := by
  have hp : r.poll now = r.fill now := by
    rw [Reader.poll, h.failed, h.unread]
    rfl
  rcases hread : r.line.transport.read now (r.room r.reads + 1) with ⟨answer, left⟩
  obtain rfl : answer = .pending := by
    rw [← h.quiet (r.room r.reads + 1), hread]
  rw [hp, fill_eq, Line.read_overdue h.timer (Nat.le_of_eq h.due) hread]
  exact ⟨_, rfl, h.decoder⟩

/-- **One poll** obtains the first item that is ahead. -/
theorem poll_obtains {idle : Option Span} {r : Reader} {now n : Nat} {o : Outlook}
    (h : Expects clock idle now (n + 1) r o) (reach : ∀ d ∈ idle, clock.reaches o.last d = true) :
    Obtains clock idle now n r.line.transport o (r.poll now) := by
  cases h with
  | reading failed unread decoder atEnd timer since patient free =>
    have hp : r.poll now = r.fill now := by
      rw [poll, failed, unread]
      rfl
    rw [hp]
    exact fill_obtains failed unread decoder atEnd timer since patient free reach
  | broken failed decoder atEnd timer free =>
    have hp : r.poll now =
        (.ok (.ready none), { r with failed := false, unread := false }, []) := by
      rw [poll, failed]
      rfl
    rw [hp]
    exact .item (Nat.le_succ n) rfl (fun _ h => (by cases h))
      (.reading rfl rfl decoder atEnd timer (Nat.le_refl now) (.self idle now) free)
  | holding failed unread atEnd decoder timer free =>
    rw [poll_of_unread failed unread atEnd]
    rcases Decoder.decode_cases decoder with ⟨rfl, hd⟩ | ⟨record, later, d, rfl, hnext, hd⟩
    · rw [Decoder.next_of_none hd]
      exact fill_obtains (r := { r with decoder := .after _, unread := false }) failed rfl rfl
        (fun he => absurd (atEnd.symm.trans he) Bool.false_ne_true) timer (Nat.le_refl now)
        (.self idle now) free reach
    · rw [Decoder.next_of_some hd]
      refine .item (Nat.le_succ n) ?_ (fun _ h => (by cases h))
        (.holding failed unread atEnd hnext timer free)
      rw [Outlook.behind_behind]
      rfl

/-! ### Polls until there is an item -/

/-- What awaiting the first item that is ahead brings: the item, at its time. -/
inductive Awaits (clock : Clock) (idle : Option Span) (n : Nat) (o : Outlook) :
    Except ClockOverflow (Poll StreamItem) × Nat × Reader × List LogEntry → Prop
  | item {t x o' r log m} (le : n ≤ m) (first : o = o'.behind [(t, x)])
      (more : ∀ e, x = some (.error e) → o'.items ≠ []) (left : Expects clock idle t m r o') :
      Awaits clock idle n o (.ok (.ready x), t, r, log)
  | gaveUp {t d r log} (alone : o.items = [(t, some (.error (.idleTimeout d)))])
      (decoder : r.decoder = .after o.stream) :
      Awaits clock idle n o (.ok (.ready (some (.error (.idleTimeout d)))), t, r, log)

/-- No item that is ahead comes before the next poll. -/
theorem Expects.le_of_mem {idle : Option Span} {now n : Nat} {r : Reader} {o : Outlook}
    (h : Expects clock idle now n r o) : ∀ x ∈ o.items, now ≤ x.1 := by
  have hnow (items : List StreamItem) : ∀ x ∈ allAt now items, now ≤ x.1 := by
    intro x hx
    obtain ⟨item, -, rfl⟩ := List.mem_map.1 hx
    exact Nat.le_refl now
  have hlater (seen : Bytes) := le_of_mem_outlook idle r.line.transport.staysOpen seen
    (.self idle now) (r.line.transport.ahead n)
  cases h with
  | reading _ _ _ _ _ _ patient _ => exact le_of_mem_outlook idle _ _ patient _
  | broken => exact fun x hx => (List.mem_append.1 hx).elim (hnow [none] x) (hlater _ x)
  | holding => exact fun x hx => (List.mem_append.1 hx).elim (hnow _ x) (hlater _ x)

/-- **Polls, each as soon as it is worth it**, obtain the first item that is ahead when its time
comes. Every poll but the last two begins a wait of the script. -/
theorem awaitWith_awaits {idle : Option Span} {n limit : Nat} {o : Outlook}
    {attempt : Reader × List LogEntry → Nat →
      Except ClockOverflow (Poll StreamItem) × Reader × List LogEntry}
    {wake : Reader × List LogEntry → Nat → Option Nat}
    (hattempt : ∀ s now, attempt s now =
      ((s.1.poll now).1, (s.1.poll now).2.1, s.2 ++ (s.1.poll now).2.2))
    (hwake : ∀ s now, wake s now = s.1.line.wake now)
    (reach : ∀ d ∈ idle, clock.reaches o.last d = true)
    (due : ∃ x rest, o.items = x :: rest ∧ x.1 ≤ limit) {tries now : Nat} {r : Reader}
    (log : List LogEntry) (h : Expects clock idle now (n + 1) r o)
    (htries : r.line.transport.left + 2 ≤ tries) :
    Awaits clock idle n o (awaitWith attempt wake limit tries (r, log) now) := by
  obtain ⟨x, rest, hx, hle⟩ := due
  induction tries generalizing r log now with
  | zero => omega
  | succ tries ih =>
    have hpoll := poll_obtains h reach
    rw [awaitWith, hattempt]
    rcases hout : r.poll now with ⟨answer, r', entries⟩
    rw [hout] at hpoll
    cases hpoll with
    | item le first more left => exact .item le first more left
    | gaveUp alone decoder => exact .gaveUp alone decoder
    | @sleeps t _ _ hw later left fewer =>
      have ht : t ≤ limit := Nat.le_trans (left.le_of_mem x (hx ▸ List.mem_cons_self)) hle
      simp only [hwake, hw, if_pos ht]
      exact ih (log ++ entries) left (by omega)
    | @dozes d last seen t _ _ limited hw later all left =>
      subst limited
      have hitem : x = (t, some (.error (.idleTimeout d))) := by
        rw [← left.due]
        rw [all] at hx
        exact (List.cons.inj hx).1.symm
      have ht : t ≤ limit := by
        rw [hitem] at hle
        exact hle
      obtain ⟨last', hp, hd⟩ := left.poll
      obtain ⟨tries, rfl⟩ : ∃ m, tries = m + 1 := ⟨tries - 1, by omega⟩
      simp only [hwake, hw, if_pos ht]
      rw [awaitWith, hattempt, hp]
      refine .gaveUp ?_ (all ▸ hd)
      rw [← left.due, all]
      rfl
    | rests hw nothing =>
      rw [nothing] at hx
      cases hx

/-- **Awaiting an item** brings the first that is ahead when its time comes. -/
theorem await_awaits {idle : Option Span} {now n limit : Nat} {r : Reader} {o : Outlook}
    (h : Expects clock idle now (n + 1) r o) (reach : ∀ d ∈ idle, clock.reaches o.last d = true)
    (due : ∃ x rest, o.items = x :: rest ∧ x.1 ≤ limit) :
    Awaits clock idle n o (r.await now limit) :=
  awaitWith_awaits (fun _ _ => rfl) (fun _ _ => rfl) reach due [] h (Nat.le_succ _)

/-! ### Items one after another -/

/-- Items awaited one after another from time `now` on, each with its time, and the reader that is
left. Fewer come when one does not come by time `limit`. -/
def awaitItems (limit : Nat) :
    Nat → Reader → Nat → Except ClockOverflow (List (Nat × StreamItem) × Reader)
  | 0, r, _ => .ok ([], r)
  | n + 1, r, now =>
    match r.await now limit with
    | (.error e, _, _, _) => .error e
    | (.ok .pending, _, r', _) => .ok ([], r')
    | (.ok (.ready item), t, r', _) =>
      match awaitItems limit n r' t with
      | .error e => .error e
      | .ok (later, last) => .ok ((t, item) :: later, last)

/-- **Awaited items are those that are ahead, each at its time**; and a reader that gives up at last
holds what its last stream has left. -/
theorem awaitItems_eq {idle : Option Span} {now n m limit : Nat} {r : Reader} {o : Outlook}
    (h : Expects clock idle now n r o) (reach : ∀ d ∈ idle, clock.reaches o.last d = true)
    (hn : m ≤ n)
    (hm : m ≤ o.items.length) (hl : ∀ x ∈ o.items.take m, x.1 ≤ limit) :
    ∃ last, r.awaitItems limit m now = .ok (o.items.take m, last) ∧
      (m = o.items.length → ∀ t d, o.items.getLast? = some (t, some (.error (.idleTimeout d))) →
        last.decoder = .after o.stream) := by
  induction m generalizing n now r o with
  | zero =>
    refine ⟨r, rfl, fun hlen t d hlast => ?_⟩
    rw [List.length_eq_zero_iff.1 hlen.symm] at hlast
    cases hlast
  | succ m ih =>
    obtain ⟨n, rfl⟩ : ∃ l, n = l + 1 := ⟨n - 1, by omega⟩
    obtain ⟨x, rest, hx⟩ := List.exists_cons_of_length_pos (Nat.lt_of_lt_of_le (Nat.succ_pos m) hm)
    have hfirst : x ∈ o.items.take (m + 1) := by
      rw [hx, List.take_succ_cons]
      exact List.mem_cons_self
    have hawait : Awaits clock idle n o (r.await now limit) :=
      await_awaits h reach ⟨x, rest, hx, hl x hfirst⟩
    rw [awaitItems]
    rcases hout : r.await now limit with ⟨answer, t, r', log⟩
    rw [hout] at hawait
    cases hawait with
    | @item _ x' o' _ _ k le first more left =>
      subst first
      have hitems : (o'.behind [(t, x')]).items = (t, x') :: o'.items := rfl
      rw [hitems, List.length_cons, Nat.succ_le_succ_iff] at hm
      rw [hitems, List.take_succ_cons] at hl
      obtain ⟨last, hgot, hlast⟩ := ih left reach (by omega) hm fun y hy =>
        hl y (List.mem_cons_of_mem _ hy)
      refine ⟨last, ?_, fun hlen t' d' hl' => ?_⟩
      · rw [hitems, List.take_succ_cons]
        simp only [hgot]
      · rw [hitems] at hlen hl'
        rcases hempty : o'.items with _ | ⟨y, ys⟩
        · rw [hempty] at hl'
          obtain ⟨-, hx'⟩ := Prod.mk.inj (Option.some.inj hl')
          exact absurd hempty (more _ hx')
        · refine hlast (Nat.succ.inj hlen) t' d' ?_
          rwa [hempty, List.getLast?_cons_cons, ← hempty] at hl'
    | @gaveUp _ d _ _ alone decoder =>
      rw [alone] at hm
      obtain rfl : m = 0 := Nat.le_zero.1 (Nat.succ_le_succ_iff.1 hm)
      refine ⟨r', ?_, fun _ _ _ _ => decoder⟩
      rw [alone]
      rfl

/-! ### Readers with and without a limit -/

/-- A new reader without a limit on silences. -/
theorem expects_plain (clock : Clock) (events : List Event) (staysOpen : Bool)
    (room : Nat → Nat) (start n : Nat) :
    Expects clock none start n (ofLine (.plain (.ofEvents events staysOpen)) room)
      (outlook none staysOpen [] start start (events ++ Transport.closes staysOpen n)) :=
  .reading rfl rfl Decoder.after_nil.symm (fun _ => rfl) rfl (Nat.le_refl start) (.self none start)
    (Nat.zero_le start)

/-- A new reader with a limit on silences, whose first deadline the clock can count. -/
theorem expects_limited (events : List Event) (staysOpen : Bool) (room : Nat → Nat) (start n : Nat)
    {d : Span} (reach : clock.reaches start d = true) :
    Expects clock (some d) start n
      (ofLine (.limited (.ofEvents events staysOpen) start d clock) room)
      (outlook (some d) staysOpen [] start start (events ++ Transport.closes staysOpen n)) := by
  have htimer : some (IdleTimer.start clock start d) = timerSince clock (some d) start := by
    rw [IdleTimer.start, if_pos reach]
    rfl
  exact .reading rfl rfl Decoder.after_nil.symm (fun _ => rfl) htimer (Nat.le_refl start)
    (.self (some d) start) (Nat.zero_le start)

/-- The errors among the contributions of a script are those of its failing reads. -/
theorem error_of_mem_contributions {seen : Bytes} {script : List Event} {e : StreamError}
    (h : some (.error e) ∈ contributions seen script) :
    ∃ io, .failure io ∈ script ∧ e = .ofIo io := by
  induction script generalizing seen with
  | nil => exact absurd h List.not_mem_nil
  | cons event rest ih =>
    have hgo {seen : Bytes} (h : some (.error e) ∈ contributions seen rest) :
        ∃ io, .failure io ∈ event :: rest ∧ e = .ofIo io := by
      obtain ⟨io, hio, he⟩ := ih h
      exact ⟨io, List.mem_cons_of_mem _ hio, he⟩
    cases event with
    | close =>
      rcases List.mem_cons.1 h with h | h
      · cases h
      · exact hgo h
    | failure io =>
      rcases List.mem_cons.1 h with h | h
      · exact ⟨io, List.mem_cons_self, Except.error.inj (Option.some.inj h)⟩
      rcases List.mem_cons.1 h with h | h
      · cases h
      · exact hgo h
    | silence => exact absurd h List.not_mem_nil
    | wait ms => exact hgo h
    | data bytes =>
      cases bytes with
      | nil =>
        rcases List.mem_cons.1 h with h | h
        · cases h
        · exact hgo h
      | cons b bytes =>
        rcases List.mem_append.1 h with h | h
        · obtain ⟨_, -, h⟩ := List.mem_map.1 h
          cases h
        · exact hgo h

/-- The errors ahead of a reader without limit are errors of the transport. -/
theorem error_of_mem_outlook {events script : List Event} {staysOpen : Bool} {start : Nat}
    (honest : ∀ e, .failure e ∈ events → e.silent? = none)
    (hscript : ∀ e, .failure e ∈ script → .failure e ∈ events) {t : Nat} {e : StreamError}
    (h : (t, some (.error e)) ∈ (outlook none staysOpen [] start start script).items) :
    ∃ io, .failure io ∈ events ∧ e = .io io := by
  have hc : some (.error e) ∈ contributions [] script := by
    rw [← items_outlook staysOpen [] start start script]
    exact List.mem_map.2 ⟨_, h, rfl⟩
  obtain ⟨io, hio, rfl⟩ := error_of_mem_contributions hc
  refine ⟨io, hscript io hio, ?_⟩
  rw [StreamError.ofIo, honest io (hscript io hio)]

/-- A reader without a limit, up to any point of the script or behind it. -/
theorem awaitItems_plain {events part : List Event} {staysOpen : Bool} {m : Nat}
    (h : part <+: events ++ Transport.closes staysOpen m) (room : Nat → Nat) (start : Nat)
    {limit : Nat}
    (hm : m ≤ (outlook none staysOpen [] start start part).items.length)
    (hlimit : (outlook none staysOpen [] start start part).last ≤ limit) :
    ∃ last, (ofLine (.plain (.ofEvents events staysOpen)) room).awaitItems limit m start =
      .ok ((outlook none staysOpen [] start start part).items.take m, last) := by
  obtain ⟨rest, hrest⟩ := h
  have hex := expects_plain .young events staysOpen room start m
  rw [← hrest] at hex
  have hpre := items_outlook_prefix staysOpen [] start start part rest
  have hitems : (outlook none staysOpen [] start start part).items.take m =
      (outlook none staysOpen [] start start (part ++ rest)).items.take m := by
    conv_lhs => rw [List.prefix_iff_eq_take.1 hpre, List.take_take, Nat.min_eq_left hm]
  rw [hitems]
  obtain ⟨last, hgot, -⟩ := awaitItems_eq hex (fun _ hd => (by cases hd)) (Nat.le_refl m)
    (Nat.le_trans hm hpre.length_le) fun x hx => by
      rw [← hitems] at hx
      exact Nat.le_trans
        (le_last_of_mem_outlook staysOpen [] part x (List.mem_of_mem_take hx)) hlimit
  exact ⟨last, hgot⟩

/-- A reader with a limit that a silence exceeds. -/
theorem awaitItems_of_silence {events part : List Event} {staysOpen : Bool} {d : Span}
    (h : beforeSilence? d.ticks staysOpen 0 events = some part) (room : Nat → Nat) (start : Nat) :
    let o := outlook none staysOpen [] start start part
    clock.reaches o.last d = true → ∀ limit, o.last + d.ticks ≤ limit →
      ∀ m ≤ o.items.length + 1, ∃ last,
        (ofLine (.limited (.ofEvents events staysOpen) start d clock) room).awaitItems limit m
            start =
          .ok ((o.endedBy d).items.take m, last) ∧
        (m = o.items.length + 1 → last.decoder = .after o.stream) := by
  intro o reach limit hlimit m hm
  have hstart : clock.reaches start d = true :=
    Clock.reaches_of_le reach (le_last_outlook none staysOpen [] (Nat.le_refl start) part)
  have hex := expects_limited events staysOpen room start m hstart
  have hahead : outlook (some d) staysOpen [] start start
      (events ++ Transport.closes staysOpen m) = o.endedBy d :=
    outlook_of_silence ((beforeSilence_append_closes _ _ _ _ _).trans h) [] start
  rw [hahead] at hex
  have hlen : (o.endedBy d).items.length = o.items.length + 1 := List.length_append
  have hreach : ∀ d' ∈ some d, clock.reaches (o.endedBy d).last d' = true :=
    fun _ hd => (by cases hd; exact reach)
  obtain ⟨last, hgot, hlast⟩ := awaitItems_eq hex hreach (Nat.le_refl m) (hlen ▸ hm) fun x hx => by
    rcases List.mem_append.1 (List.mem_of_mem_take hx) with hx | hx
    · exact Nat.le_trans (le_last_of_mem_outlook staysOpen [] part x hx)
        (Nat.le_trans (Nat.le_add_right _ _) hlimit)
    · rw [List.mem_singleton.1 hx]
      exact hlimit
  exact ⟨last, hgot, fun hmax => hlast (hmax.trans hlen.symm) _ d List.getLast?_concat⟩

/-- A reader with a limit that no silence exceeds. -/
theorem awaitItems_of_no_silence {events : List Event} {staysOpen : Bool} {d : Span}
    (h : beforeSilence? d.ticks staysOpen 0 events = none) (room : Nat → Nat) (start n : Nat) :
    let o := outlook none staysOpen [] start start (events ++ Transport.closes staysOpen n)
    clock.reaches o.last d = true → ∀ limit, o.last ≤ limit → n ≤ o.items.length ∧ ∃ last,
      (ofLine (.limited (.ofEvents events staysOpen) start d clock) room).awaitItems limit n start =
        .ok (o.items.take n, last) := by
  intro o reach limit hlimit
  have hstart : clock.reaches start d = true :=
    Clock.reaches_of_le reach (le_last_outlook none staysOpen [] (Nat.le_refl start) _)
  have hex := expects_limited events staysOpen room start n hstart
  have hahead : outlook (some d) staysOpen [] start start
      (events ++ Transport.closes staysOpen n) = o :=
    outlook_of_no_silence ((beforeSilence_append_closes _ _ _ _ _).trans h) [] start
  rw [hahead] at hex
  have hlen : n ≤ o.items.length := le_length_outlook_closes h [] start start n
  obtain ⟨last, hgot, -⟩ := awaitItems_eq hex
    (fun _ hd => (by cases hd; exact reach)) (Nat.le_refl n) hlen fun x hx =>
      Nat.le_trans (le_last_of_mem_outlook staysOpen [] _ x (List.mem_of_mem_take hx)) hlimit
  exact ⟨hlen, last, hgot⟩

/-- **A limit on silences changes nothing before a silence that is longer, and ends the items
there.** Take any script whose errors do not themselves report a silence, and a limit whose
deadlines the clock can count; a silence lasts from one completed read to the next, or from the
creation of the reader, and is longer than the limit if it takes more whole milliseconds than the
limit rounded up.

If there is such a silence, a reader with the limit hands out the items of the events before it at
the times at which a reader without it does: all records whose last byte is among them, and their
errors as errors of the transport. Next, at the time of the last completed read and the limit, it
hands out the timeout; a record is under way in it then exactly when the bytes that came since the
stream began or last ended are no list of whole records. If there is no such silence, the two
readers hand out the same items at the same times for ever. -/
theorem idle_ends_items (events : List Event) (staysOpen : Bool) (room : Nat → Nat) (start : Nat)
    (d : Span) (clock : Clock) (honest : ∀ e, .failure e ∈ events → e.silent? = none) :
    let plain := ofLine (.plain (.ofEvents events staysOpen)) room
    let limited := ofLine (.limited (.ofEvents events staysOpen) start d clock) room
    (∀ part, beforeSilence? d.ticks staysOpen 0 events = some part →
      let o := outlook none staysOpen [] start start part
      clock.reaches o.last d = true → ∀ limit, o.last + d.ticks ≤ limit →
        o.items.map Prod.snd = contributions [] part ∧
        (∀ t e, (t, some (.error e)) ∈ o.items → ∃ io, .failure io ∈ part ∧ e = .io io) ∧
        (∀ n ≤ o.items.length, ∃ last last',
          plain.awaitItems limit n start = .ok (o.items.take n, last) ∧
          limited.awaitItems limit n start = .ok (o.items.take n, last')) ∧
        ∃ last, limited.awaitItems limit (o.items.length + 1) start =
            .ok (o.items ++ [(o.last + d.ticks, some (.error (.idleTimeout d)))], last) ∧
          (last.decoder.hasRemainder = true ↔ ¬ ∃ records, encodeAll records = .ok o.stream)) ∧
    (beforeSilence? d.ticks staysOpen 0 events = none → ∀ n,
      let o := outlook none staysOpen [] start start (events ++ Transport.closes staysOpen n)
      clock.reaches o.last d = true → ∀ limit, o.last ≤ limit →
        (∀ t e, (t, some (.error e)) ∈ o.items → ∃ io, .failure io ∈ events ∧ e = .io io) ∧
        n ≤ o.items.length ∧ ∃ last last',
          plain.awaitItems limit n start = .ok (o.items.take n, last) ∧
          limited.awaitItems limit n start = .ok (o.items.take n, last')) := by
  intro plain limited
  refine ⟨?_, ?_⟩
  · intro part h o reach limit hlimit
    have hpre := isPrefix_of_beforeSilence h
    have hlimited := awaitItems_of_silence h room start reach limit hlimit
    refine ⟨items_outlook staysOpen [] start start part, fun t e he => ?_, fun n hn => ?_, ?_⟩
    · exact error_of_mem_outlook (fun e he => honest e (hpre.subset he)) (fun _ he => he) he
    · obtain ⟨last, hplain⟩ := awaitItems_plain (hpre.trans (List.prefix_append _ _)) room start hn
        (Nat.le_trans (Nat.le_add_right _ _) hlimit)
      obtain ⟨last', hgot, -⟩ := hlimited n (Nat.le_succ_of_le hn)
      rw [Outlook.endedBy, List.take_append_of_le_length hn] at hgot
      exact ⟨last, last', hplain, hgot⟩
    · obtain ⟨last, hgot, hdecoder⟩ := hlimited _ (Nat.le_refl _)
      have hall : (o.endedBy d).items.length ≤ o.items.length + 1 :=
        Nat.le_of_eq List.length_append
      rw [List.take_of_length_le hall] at hgot
      refine ⟨last, hgot, ?_⟩
      rw [hdecoder rfl]
      exact hasRemainder_after_iff o.stream
  · intro h n o reach limit hlimit
    obtain ⟨hlen, last', hgot⟩ := awaitItems_of_no_silence h room start n reach limit hlimit
    obtain ⟨last, hplain⟩ := awaitItems_plain (List.prefix_refl _) room start hlen hlimit
    refine ⟨fun t e he => error_of_mem_outlook honest (fun e he => ?_) he, hlen, last, last',
      hplain, hgot⟩
    rcases List.mem_append.1 he with he | he
    · exact he
    · rw [Transport.closes] at he
      split at he
      · exact absurd he List.not_mem_nil
      · cases (List.mem_replicate.1 he).2

/-- A script with two silences within a limit of five milliseconds, the second begun by an error in
the middle of a record, and a third that goes on past the limit. -/
def lateBytes : List Event :=
  [.data [0, 0, 0, 1, 0], .wait 5, .data [0, 9], .failure (.custom .timedOut "late"), .wait 3,
    .wait 3, .data [7]]

/-- The record and the error come before the silence that is too long, and the byte behind it does
not. -/
theorem idle_ends_items_late_bytes :
    (∀ e, .failure e ∈ lateBytes → e.silent? = none) ∧
      ∃ last, (ofLine (.limited (.ofEvents lateBytes true) 10 ⟨0, 5000000⟩)
          standardRoom).awaitItems 20 4 10 =
        .ok ([(15, some (.ok (.ofWire [] 1))), (15, some (.error (.io (.custom .timedOut "late")))),
          (15, none), (20, some (.error (.idleTimeout ⟨0, 5000000⟩)))], last) ∧
        last.decoder.hasRemainder = true := by
  have honest : ∀ e, .failure e ∈ lateBytes → e.silent? = none := by
    intro e he
    simp only [lateBytes, List.mem_cons, reduceCtorEq, Event.failure.injEq, List.not_mem_nil,
      false_or, or_false] at he
    rw [he]
    rfl
  obtain ⟨hsilence, -⟩ := idle_ends_items lateBytes true standardRoom 10 ⟨0, 5000000⟩ .young
    honest
  obtain ⟨-, -, -, last, hgot, hrest⟩ := hsilence (lateBytes.take 5) (by decide +kernel)
    (by decide +kernel) 20 (by decide +kernel)
  have hitems : (outlook none true [] 10 10 (lateBytes.take 5)).items =
      [(15, some (.ok (.ofWire [] 1))), (15, some (.error (.io (.custom .timedOut "late")))),
        (15, none)] := by decide +kernel
  have hlast : (outlook none true [] 10 10 (lateBytes.take 5)).last + (Span.mk 0 5000000).ticks =
      20 := by decide +kernel
  rw [hlast, hitems] at hgot
  refine ⟨honest, last, hgot, hrest.2 ((hasRemainder_after_iff _).1 ?_)⟩
  decide +kernel

/-- **A silence longer than the limit is borne up to the next whole millisecond**: two milliseconds
of silence do not end the items of a reader whose limit is one millisecond and a nanosecond. -/
theorem awaitItems_between_ticks :
    (Span.mk 0 1000001).totalNanos < 2 * 1000000 ∧
      ∃ last, (ofLine (.limited (.ofEvents [.wait 2, .data [0, 0, 0, 1, 0, 0]] true) 0
          ⟨0, 1000001⟩) standardRoom).awaitItems 10 1 0 =
        .ok ([(2, some (.ok (.ofWire [] 1)))], last) := by
  refine ⟨by decide +kernel, ?_⟩
  have hall : beforeSilence? (Span.mk 0 1000001).ticks true 0 [.wait 2, .data [0, 0, 0, 1, 0, 0]] =
      some [.wait 2, .data [0, 0, 0, 1, 0, 0]] := by decide +kernel
  have hreach : Clock.young.reaches
      (outlook none true [] 0 0 [.wait 2, .data [0, 0, 0, 1, 0, 0]]).last ⟨0, 1000001⟩ = true := by
    decide +kernel
  obtain ⟨last, hgot, -⟩ := awaitItems_of_silence hall standardRoom 0 hreach 10 (by decide +kernel)
    1 (by decide +kernel)
  have hitems : ((outlook none true [] 0 0 [.wait 2, .data [0, 0, 0, 1, 0, 0]]).endedBy
      ⟨0, 1000001⟩).items.take 1 = [(2, some (.ok (.ofWire [] 1)))] := by decide +kernel
  rw [hitems] at hgot
  exact ⟨last, hgot⟩

end Reader

end TokenFeedback
