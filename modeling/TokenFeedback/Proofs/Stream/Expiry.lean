import TokenFeedback.Proofs.Stream.Contribution
import TokenFeedback.Proofs.Stream.Fill

/-!
# Reads through an idle timer

A line with an idle timer is read as soon as there is something to read, as a line without timer is.
It only ends a read that finds nothing up to the deadline, and what it does not find then stays in
the script.

* `Transport.comes`: what comes of a script, and when.
* `Line.await_plain`: a read of a line without timer waits for what comes of its script.
* `Line.await_timed`: **the same read through a timer**: the same answer at the same time, or the
  error at the deadline.
* `Line.Reads`: what reads one after another are to give, told by the line without timer.
* `Line.reads_limited`: **they give that**, bring the bytes of the script in order, and take no time
  once the deadline is over.
-/

namespace TokenFeedback

open Transport (Event)

namespace Transport

/-- What comes of a script that is asked from time `now` on for at most `room` bytes, and when it
comes. The waits add up, and of a silence comes nothing. -/
def comesFrom (staysOpen : Bool) (room : Nat) :
    Nat → List Event → Option (Nat × Except IoError Bytes)
  | now, [] => if staysOpen then none else some (now, .ok [])
  | now, .wait ms :: rest => comesFrom staysOpen room (now + ms) rest
  | now, .data bytes :: _ => some (now, .ok (bytes.take room))
  | now, .failure e :: _ => some (now, .error e)
  | now, .close :: _ => some (now, .ok [])
  | _, .silence :: _ => none

/-- What comes of a transport, in which a wait may be running, and when. -/
def comes (t : Transport) (now room : Nat) : Option (Nat × Except IoError Bytes) :=
  comesFrom t.staysOpen room (max now t.busyUntil) t.events

theorem comes_of_free {t : Transport} {now : Nat} (h : t.busyUntil ≤ now) (room : Nat) :
    t.comes now room = comesFrom t.staysOpen room now t.events := by
  rw [comes, Nat.max_eq_left h]

/-- Nothing comes before it is asked for, or before the running wait is over. -/
theorem le_of_comes {t : Transport} {now room time : Nat} {answer : Except IoError Bytes}
    (h : t.comes now room = some (time, answer)) : now ≤ time ∧ t.busyUntil ≤ time := by
  have key (events : List Event) (now : Nat)
      (h : comesFrom t.staysOpen room now events = some (time, answer)) : now ≤ time := by
    induction events generalizing now with
    | nil =>
      rw [comesFrom] at h
      split at h
      · cases h
      · exact Nat.le_of_eq (Prod.mk.inj (Option.some.inj h)).1
    | cons e rest ih =>
      cases e with
      | wait ms =>
        have := ih (now + ms) h
        omega
      | data bytes => exact Nat.le_of_eq (Prod.mk.inj (Option.some.inj h)).1
      | failure e => exact Nat.le_of_eq (Prod.mk.inj (Option.some.inj h)).1
      | close => exact Nat.le_of_eq (Prod.mk.inj (Option.some.inj h)).1
      | silence => cases h
  have := key t.events (max now t.busyUntil) h
  omega

/-- The bytes that an answer brings. -/
def brought : Except IoError Bytes → Bytes
  | .ok bytes => bytes
  | .error _ => []

/-- What an attempt to read at time `now` does to what comes of a transport. -/
inductive Asked (t : Transport) (now room : Nat) (left : Transport) :
    Poll (Except IoError Bytes) → Prop
  | answered {answer} (comes : t.comes now room = some (now, answer))
      (bytes : bytesOf t.events = brought answer ++ bytesOf left.events) :
      Asked t now room left (.ready answer)
  /-- A wait is not over, perhaps one that has only begun. -/
  | waits (later : now < left.busyUntil)
      (same : left.comes left.busyUntil room = t.comes now room)
      (bytes : bytesOf t.events = bytesOf left.events) (le : left.left ≤ t.left)
      (begun : t.busyUntil ≤ now → left.left < t.left) : Asked t now room left .pending
  | silent (free : left.busyUntil ≤ now) (never : t.comes now room = none)
      (bytes : bytesOf t.events = bytesOf left.events)
      (quiet : ∀ later, now ≤ later → left.read later room = (.pending, left)) :
      Asked t now room left .pending

theorem bytesOf_afterTaking (bytes : Bytes) (room : Nat) (rest : List Event) :
    bytesOf (.data bytes :: rest) = bytes.take room ++ bytesOf (afterTaking bytes room rest) := by
  rw [afterTaking]
  split
  · next h =>
    have hall : bytes.take room = bytes :=
      List.take_of_length_le (List.drop_eq_nil_iff.1 (List.isEmpty_iff.1 h))
    rw [hall]
    rfl
  · calc bytesOf (.data bytes :: rest)
        = (bytes.take room ++ bytes.drop room) ++ bytesOf rest := by
          rw [List.take_append_drop]
          rfl
      _ = bytes.take room ++ bytesOf (.data (bytes.drop room) :: rest) := List.append_assoc _ _ _

/-- **One attempt to read.** -/
theorem read_asked (t : Transport) (now room : Nat) :
    Asked t now room (t.read now room).2 (t.read now room).1 := by
  obtain ⟨events, busy, stays⟩ := t
  simp only [read]
  induction events generalizing busy with
  | nil =>
    unfold readEvents
    by_cases hb : now < busy
    · rw [if_pos hb]
      refine .waits hb ?_ rfl (Nat.le_refl _) fun hf => absurd hb (Nat.not_lt.2 hf)
      simp only [comes, Nat.max_self, Nat.max_eq_right (Nat.le_of_lt hb)]
    · rw [if_neg hb]
      have hfree := Nat.not_lt.1 hb
      cases stays with
      | true =>
        refine .silent hfree rfl rfl fun later hl => ?_
        simp only [read]
        unfold readEvents
        rw [if_neg (Nat.not_lt.2 (Nat.le_trans hfree hl))]
        rfl
      | false =>
        refine .answered ?_ rfl
        rw [comes_of_free hfree]
        rfl
  | cons e rest ih =>
    unfold readEvents
    by_cases hb : now < busy
    · rw [if_pos hb]
      refine .waits hb ?_ rfl (Nat.le_refl _) fun hf => absurd hb (Nat.not_lt.2 hf)
      simp only [comes, Nat.max_self, Nat.max_eq_right (Nat.le_of_lt hb)]
    · rw [if_neg hb]
      have hfree := Nat.not_lt.1 hb
      cases e with
      | wait ms =>
        -- the attempt goes on behind the wait, as if it had found that wait running
        have hcomes : comes ⟨.wait ms :: rest, busy, stays⟩ now room =
            comes ⟨rest, now + ms, stays⟩ now room := by
          rw [comes_of_free hfree, comes, Nat.max_eq_right (Nat.le_add_right now ms)]
          rfl
        have hbytes : bytesOf (.wait ms :: rest) = bytesOf rest := rfl
        simp only
        have hgo := ih (now + ms)
        generalize readEvents stays now room rest (now + ms) = out at hgo ⊢
        obtain ⟨answer, busy', events'⟩ := out
        cases hgo with
        | answered hc hbs => exact .answered (hcomes.trans hc) (hbytes.trans hbs)
        | waits later same hbs le begun =>
          exact .waits later (same.trans hcomes.symm) (hbytes.trans hbs) (Nat.le_succ_of_le le)
            fun _ => Nat.lt_succ_of_le le
        | silent free never hbs quiet =>
          exact .silent free (hcomes.trans never) (hbytes.trans hbs) quiet
      | data bytes =>
        refine .answered ?_ (bytesOf_afterTaking bytes room rest)
        rw [comes_of_free hfree]
        rfl
      | failure e =>
        refine .answered ?_ rfl
        rw [comes_of_free hfree]
        rfl
      | close =>
        refine .answered ?_ rfl
        rw [comes_of_free hfree]
        rfl
      | silence =>
        refine .silent hfree ?_ rfl fun later hl => ?_
        · rw [comes_of_free hfree]
          rfl
        · simp only [read]
          unfold readEvents
          rw [if_neg (Nat.not_lt.2 (Nat.le_trans hfree hl))]

/-- While a wait is running an attempt finds nothing and changes nothing. -/
theorem read_of_busy {t : Transport} {now : Nat} (h : now < t.busyUntil) (room : Nat) :
    t.read now room = (.pending, t) := by
  simp only [read]
  unfold readEvents
  rw [if_pos h]

end Transport

namespace Line

/-- Attempts to read, each as soon as it is worth making, at most so many. -/
def awaitIn (tries room limit : Nat) (l : Line) (now : Nat) :
    Except ClockOverflow (Poll (Except IoError Bytes)) × Nat × Line :=
  awaitWith (fun l now => l.read now room) wake limit tries l now

section

variable {tries room limit now : Nat} {l left : Line}

theorem awaitIn_ready {answer : Except IoError Bytes}
    (h : l.read now room = (.ok (.ready answer), left)) :
    awaitIn (tries + 1) room limit l now = (.ok (.ready answer), now, left) := by
  rw [awaitIn, awaitWith, h]

theorem awaitIn_overflow {e : ClockOverflow} (h : l.read now room = (.error e, left)) :
    awaitIn (tries + 1) room limit l now = (.error e, now, left) := by
  rw [awaitIn, awaitWith, h]

theorem awaitIn_again (h : l.read now room = (.ok .pending, left)) {t : Nat}
    (hwake : left.wake now = some t) (ht : t ≤ limit) :
    awaitIn (tries + 1) room limit l now = awaitIn tries room limit left t := by
  rw [awaitIn, awaitWith, h]
  simp only [hwake, if_pos ht]
  rfl

theorem awaitIn_late (h : l.read now room = (.ok .pending, left)) {t : Nat}
    (hwake : left.wake now = some t) (ht : limit < t) :
    awaitIn (tries + 1) room limit l now = (.ok .pending, limit, left) := by
  rw [awaitIn, awaitWith, h]
  simp only [hwake, if_neg (Nat.not_le.2 ht)]

theorem awaitIn_asleep (h : l.read now room = (.ok .pending, left)) (hwake : left.wake now = none) :
    awaitIn (tries + 1) room limit l now = (.ok .pending, limit, left) := by
  rw [awaitIn, awaitWith, h]
  simp only [hwake]

end

theorem wake_plain (t : Transport) (now : Nat) : (plain t).wake now = t.wake now := by
  rw [wake, plain]
  cases t.wake now <;> rfl

theorem plain_read {t left : Transport} {now room : Nat} {answer : Poll (Except IoError Bytes)}
    (h : t.read now room = (answer, left)) :
    (plain t).read now room = (.ok answer, plain left) := by
  rw [read_plain rfl, plain, h]
  rfl

/-! ### Without a timer -/

/-- What waiting up to time `limit` for a read of the transport itself gives. -/
inductive Alone (t : Transport) (now room limit : Nat) :
    Except ClockOverflow (Poll (Except IoError Bytes)) × Nat × Line → Prop
  | answered {time answer left} (comes : t.comes now room = some (time, answer))
      (early : time ≤ limit)
      (bytes : bytesOf t.events = Transport.brought answer ++ bytesOf left.events) :
      Alone t now room limit (.ok (.ready answer), time, .plain left)
  | pending {left} (late : ∀ time answer, t.comes now room = some (time, answer) → limit < time)
      (bytes : bytesOf t.events = bytesOf left.events) :
      Alone t now room limit (.ok .pending, limit, .plain left)

/-- The attempts that are needed: each but the last two begins a wait, or finds one running. -/
def needed (t : Transport) (now : Nat) : Nat := t.left + 2 + if now < t.busyUntil then 1 else 0

/-- After an attempt that finds a wait, at the end of that wait, one attempt less is needed. -/
theorem needed_lt {t left : Transport} {now : Nat} (le : left.left ≤ t.left)
    (begun : t.busyUntil ≤ now → left.left < t.left) :
    needed left left.busyUntil < needed t now := by
  rw [needed, needed, if_neg (Nat.lt_irrefl _)]
  by_cases hb : now < t.busyUntil
  · rw [if_pos hb]
    omega
  · have := begun (Nat.not_lt.1 hb)
    rw [if_neg hb]
    omega

theorem awaitIn_plain {tries room limit now : Nat} {t : Transport} (hnow : now ≤ limit)
    (htries : needed t now ≤ tries) :
    Alone t now room limit (awaitIn tries room limit (.plain t) now) := by
  induction tries generalizing t now with
  | zero =>
    rw [needed] at htries
    omega
  | succ tries ih =>
    have hasked := t.read_asked now room
    rcases hread : t.read now room with ⟨answer, left⟩
    rw [hread] at hasked
    simp only at hasked
    have hplain := plain_read hread
    cases hasked with
    | answered comes bytes =>
      rw [awaitIn_ready hplain]
      exact .answered comes hnow bytes
    | waits later same bytes le begun =>
      have hwake : (plain left).wake now = some left.busyUntil := by
        rw [wake_plain, Transport.wake, if_pos later]
      rcases Nat.lt_or_ge limit left.busyUntil with hlate | hin
      · rw [awaitIn_late hplain hwake hlate]
        refine .pending (fun time answer hc => ?_) bytes
        rw [← same] at hc
        have := (Transport.le_of_comes hc).1
        omega
      · have hless := needed_lt le begun
        have hgo := ih hin (t := left) (by omega)
        rw [awaitIn_again hplain hwake hin]
        generalize awaitIn tries room limit (plain left) left.busyUntil = out at hgo ⊢
        cases hgo with
        | answered comes early bytes' =>
          exact .answered (same.symm.trans comes) early (bytes.trans bytes')
        | pending late bytes' =>
          exact .pending (fun time answer hc => late time answer (same.trans hc))
            (bytes.trans bytes')
    | silent free never bytes quiet =>
      have hwake : (plain left).wake now = none := by
        rw [wake_plain, Transport.wake, if_neg (Nat.not_lt.2 free)]
      rw [awaitIn_asleep hplain hwake]
      refine .pending (fun time answer hc => ?_) bytes
      rw [never] at hc
      cases hc

/-! ### With a timer -/

/-- What a timer makes of waiting up to its deadline, or for one attempt if that is over, for a read
of the transport itself: an answer starts it anew, and without one it ends the read. -/
def timed (timer : IdleTimer) :
    Except ClockOverflow (Poll (Except IoError Bytes)) × Nat × Line →
      Except ClockOverflow (Poll (Except IoError Bytes)) × Nat × Line
  | (.ok (.ready answer), time, l) =>
    match timer.rearm time with
    | .ok timer' => (.ok (.ready answer), time, ⟨l.transport, some timer'⟩)
    | .error e => (.error e, time, ⟨l.transport, some timer⟩)
  | (.ok .pending, time, l) => (.ok (.ready (.error timer.error)), time, ⟨l.transport, some timer⟩)
  | (.error e, time, l) => (.error e, time, ⟨l.transport, some timer⟩)

section

variable {timer : IdleTimer} {t left : Transport} {now room : Nat}

/-- An attempt that is answered starts the timer anew, if the clock can count. -/
theorem awaitIn_timed_ready {tries limit : Nat} {answer : Except IoError Bytes}
    (h : t.read now room = (.ready answer, left)) :
    awaitIn (tries + 1) room limit ⟨t, some timer⟩ now =
      timed timer (.ok (.ready answer), now, .plain left) := by
  have hline : (Line.mk t (some timer)).read now room =
      ((guarded timer now (.ready answer)).1,
        ⟨left, some (guarded timer now (.ready answer)).2⟩) := by
    rw [read, h]
  rw [guarded] at hline
  rw [timed]
  rcases hr : timer.rearm now with e | timer'
  · rw [hr] at hline
    exact awaitIn_overflow hline
  · rw [hr] at hline
    exact awaitIn_ready hline

/-- An attempt that finds nothing when the deadline is over ends the read. -/
theorem awaitIn_timed_due {tries limit : Nat} (h : t.read now room = (.pending, left))
    (due : timer.deadline ≤ now) :
    awaitIn (tries + 1) room limit ⟨t, some timer⟩ now =
      timed timer (.ok .pending, now, .plain left) := by
  refine awaitIn_ready ?_
  rw [read, h]
  simp only [guarded, if_pos due]
  rfl

/-- An attempt that finds nothing before the deadline. -/
theorem read_timed_early (h : t.read now room = (.pending, left)) (early : now < timer.deadline) :
    (Line.mk t (some timer)).read now room = (.ok .pending, ⟨left, some timer⟩) := by
  rw [read, h]
  simp only [guarded, if_neg (Nat.not_le.2 early)]

end

/-- **Waiting for a read through a timer** is waiting up to its deadline for a read of the transport
itself, and what the timer makes of it. -/
theorem awaitIn_timed {timer : IdleTimer} {tries room start limit now : Nat} {t : Transport}
    (hlimit : max start timer.deadline ≤ limit) (hstart : start ≤ now)
    (hdue : now ≤ max start timer.deadline) (htries : needed t now ≤ tries) :
    awaitIn tries room limit ⟨t, some timer⟩ now =
      timed timer (awaitIn tries room (max start timer.deadline) (.plain t) now) := by
  induction tries generalizing t now with
  | zero =>
    rw [needed] at htries
    omega
  | succ tries ih =>
    have hasked := t.read_asked now room
    rcases hread : t.read now room with ⟨answer, left⟩
    rw [hread] at hasked
    simp only at hasked
    have hplain := plain_read hread
    cases hasked with
    | answered comes bytes => rw [awaitIn_ready hplain, awaitIn_timed_ready hread]
    | waits later same bytes le begun =>
      have hwait : (plain left).wake now = some left.busyUntil := by
        rw [wake_plain, Transport.wake, if_pos later]
      rcases Nat.lt_or_ge now timer.deadline with hearly | hover
      · have hwake : (Line.mk left (some timer)).wake now =
            some (min left.busyUntil timer.deadline) := by
          simp only [wake, Transport.wake, if_pos later]
        have hquiet := read_timed_early hread hearly
        rcases Nat.lt_or_ge timer.deadline left.busyUntil with hlong | hshort
        · -- the wait outlasts the deadline, where one more attempt finds nothing
          rw [Nat.min_eq_right (Nat.le_of_lt hlong)] at hwake
          obtain ⟨more, rfl⟩ : ∃ m, tries = m + 1 := by
            rw [needed] at htries
            exact ⟨tries - 1, by omega⟩
          have hmax : max start timer.deadline = timer.deadline := by omega
          rw [awaitIn_again hquiet hwake (by omega), awaitIn_late hplain hwait (by omega), hmax,
            awaitIn_timed_due (Transport.read_of_busy hlong room) (Nat.le_refl _)]
        · rw [Nat.min_eq_left hshort] at hwake
          have hless := needed_lt le begun
          rw [awaitIn_again hquiet hwake (by omega), awaitIn_again hplain hwait (by omega)]
          exact ih (by omega) (by omega) (by omega)
      · have hmax : max start timer.deadline = now := by omega
        rw [awaitIn_timed_due hread hover, hmax, awaitIn_late hplain hwait later]
    | silent free never bytes quiet =>
      have hnone : (plain left).wake now = none := by
        rw [wake_plain, Transport.wake, if_neg (Nat.not_lt.2 free)]
      rw [awaitIn_asleep hplain hnone]
      rcases Nat.lt_or_ge now timer.deadline with hearly | hover
      · have hwake : (Line.mk left (some timer)).wake now = some timer.deadline := by
          simp only [wake, Transport.wake, if_neg (Nat.not_lt.2 free)]
        obtain ⟨more, rfl⟩ : ∃ m, tries = m + 1 := by
          rw [needed] at htries
          exact ⟨tries - 1, by omega⟩
        have hmax : max start timer.deadline = timer.deadline := by omega
        rw [awaitIn_again (read_timed_early hread hearly) hwake (by omega), hmax,
          awaitIn_timed_due (quiet timer.deadline (Nat.le_of_lt hearly)) (Nat.le_refl _)]
      · have hmax : max start timer.deadline = now := by omega
        rw [awaitIn_timed_due hread hover, hmax]

theorem needed_le (t : Transport) (now : Nat) : needed t now ≤ t.left + 3 := by
  rw [needed]
  split <;> omega

/-- **A read of a line without timer** waits for what comes of its script. -/
theorem await_plain (t : Transport) {now limit : Nat} (h : now ≤ limit) (room : Nat) :
    Alone t now room limit ((plain t).await room now limit) :=
  awaitIn_plain h (needed_le t now)

/-- **The same read through a timer**, by a caller who waits for as long as the timer does. -/
theorem await_timed (t : Transport) (timer : IdleTimer) (room start limit : Nat)
    (h : max start timer.deadline ≤ limit) :
    (Line.mk t (some timer)).await room start limit =
      timed timer ((plain t).await room start (max start timer.deadline)) :=
  awaitIn_timed h (Nat.le_refl start) (Nat.le_max_left _ _) (needed_le t start)

/-! ### Reads one after another -/

/-- A read that a caller wants: how long it pauses before, and how much room it offers. -/
structure Request where
  pause : Nat
  room : Nat

/-- Reads one after another from time `now` on, each waited for as long as `patience`: what they
give and when, and the line that is left. -/
def readEach (patience : Nat) : List Request → Line → Nat →
    Except ClockOverflow (List (Poll (Except IoError Bytes) × Nat) × Line)
  | [], l, _ => .ok ([], l)
  | r :: rs, l, now =>
    match l.await r.room (now + r.pause) (now + r.pause + patience) with
    | (.error e, _, _) => .error e
    | (.ok answer, time, l') =>
      match readEach patience rs l' time with
      | .error e => .error e
      | .ok (later, last) => .ok ((answer, time) :: later, last)

/-- A read that was made: when it began, when it ended and with what, and whether the timer ended
it. -/
structure Reading where
  start : Nat
  time : Nat
  answer : Except IoError Bytes
  expired : Bool

/-- **What reads through a timer are to give**, one after another, when the last answer of the
transport came at time `last`, or the timer was made then: what reads of the transport itself give,
if that comes by the deadline, and else, at the deadline or at once if it is over, a timeout. -/
inductive Reads (d : Span) :
    Nat → Nat → Transport → List Request → List Reading → Nat → Transport → Prop
  | done {last now t} : Reads d last now t [] [] last t
  | passes {last now t r rs time answer left readings last' final}
      (comes : t.comes (now + r.pause) r.room = some (time, answer))
      (early : time ≤ max (now + r.pause) (last + d.ticks))
      (alone : (plain t).await r.room (now + r.pause) (max (now + r.pause) (last + d.ticks)) =
        (.ok (.ready answer), time, .plain left))
      (later : Reads d time time left rs readings last' final) :
      Reads d last now t (r :: rs) (⟨now + r.pause, time, answer, false⟩ :: readings) last' final
  | expires {last now t r rs due left readings last' final}
      (at_deadline : due = max (now + r.pause) (last + d.ticks))
      (late : ∀ time answer, t.comes (now + r.pause) r.room = some (time, answer) → due < time)
      (alone : (plain t).await r.room (now + r.pause) due = (.ok .pending, due, .plain left))
      (later : Reads d last due left rs readings last' final) :
      Reads d last now t (r :: rs)
        (⟨now + r.pause, due, .error (.idle .timedOut d), true⟩ :: readings) last' final

namespace Reads

variable {d : Span} {last now last' : Nat} {t final : Transport} {requests : List Request}
  {readings : List Reading}

/-- Every read gives something. -/
theorem exists_readings (d : Span) (last now : Nat) (t : Transport) (requests : List Request) :
    ∃ readings last' final, Reads d last now t requests readings last' final := by
  induction requests generalizing last now t with
  | nil => exact ⟨[], last, t, .done⟩
  | cons r rs ih =>
    have halone := await_plain t (Nat.le_max_left (now + r.pause) (last + d.ticks)) r.room
    rcases hout : (plain t).await r.room (now + r.pause)
      (max (now + r.pause) (last + d.ticks)) with ⟨answer, time, l⟩
    rw [hout] at halone
    cases halone with
    | @answered _ answer left comes early bytes =>
      obtain ⟨readings, last', final, hlater⟩ := ih time time left
      exact ⟨_, last', final, .passes comes early hout hlater⟩
    | @pending left late bytes =>
      obtain ⟨readings, last', final, hlater⟩ :=
        ih last (max (now + r.pause) (last + d.ticks)) left
      exact ⟨_, last', final, .expires rfl late hout hlater⟩

/-- **The line with the timer gives it**, as long as the clock can count the deadlines. -/
theorem readEach_eq {patience : Nat} (h : Reads d last now t requests readings last' final)
    (hlast : last ≤ now) (hpatience : d.ticks ≤ patience)
    {clock : Clock} (reach : ∀ x ∈ readings, x.expired = false → clock.reaches x.time d = true) :
    readEach patience requests ⟨t, some ⟨clock, d, last + d.ticks⟩⟩ now =
      .ok (readings.map fun x => (.ready x.answer, x.time),
        ⟨final, some ⟨clock, d, last' + d.ticks⟩⟩) := by
  induction h with
  | done => rfl
  | @passes last now t r rs time answer left readings last' final comes early alone later ih =>
    have hread := await_timed t ⟨clock, d, last + d.ticks⟩ r.room (now + r.pause)
      (now + r.pause + patience) (by simp only; omega)
    have hreach : clock.reaches time d = true := reach _ List.mem_cons_self rfl
    have hgo := ih (Nat.le_refl time) fun x hx => reach x (List.mem_cons_of_mem _ hx)
    simp only at hread
    rw [alone, timed, IdleTimer.rearm] at hread
    simp only [if_pos hreach] at hread
    rw [readEach, hread]
    simp only [plain, hgo, List.map_cons]
  | @expires last now t r rs due left readings last' final hdue late alone later ih =>
    have hread := await_timed t ⟨clock, d, last + d.ticks⟩ r.room (now + r.pause)
      (now + r.pause + patience) (by simp only; omega)
    have hgo := ih (by omega) fun x hx => reach x (List.mem_cons_of_mem _ hx)
    simp only at hread
    rw [← hdue, alone, timed, IdleTimer.error] at hread
    rw [readEach, hread]
    simp only [plain, hgo, List.map_cons]

/-- **No byte of the script is lost or moved**: what the reads bring, and then what is left. -/
theorem bytes (h : Reads d last now t requests readings last' final) :
    bytesOf t.events =
      (readings.flatMap fun x => Transport.brought x.answer) ++ bytesOf final.events := by
  induction h with
  | done => rfl
  | @passes last now t r rs time answer left readings last' final comes early alone later ih =>
    have halone := await_plain t (Nat.le_max_left (now + r.pause) (last + d.ticks)) r.room
    rw [alone] at halone
    cases halone with
    | answered _ _ bytes => rw [List.flatMap_cons, List.append_assoc, ← ih, bytes]
  | @expires last now t r rs due left readings last' final hdue late alone later ih =>
    have halone := await_plain t (Nat.le_max_left (now + r.pause) (last + d.ticks)) r.room
    rw [← hdue, alone] at halone
    cases halone with
    | pending _ bytes =>
      rw [List.flatMap_cons, bytes, ih]
      rfl

/-- A read that begins when the deadline is over takes no time. -/
theorem head_at_once {x : Reading} {later : List Reading}
    (h : Reads d last now t requests (x :: later) last' final) (due : last + d.ticks ≤ now) :
    x.time = x.start := by
  cases h with
  | @passes _ _ _ r _ _ _ _ _ _ _ comes early _ _ =>
    have := (Transport.le_of_comes comes).1
    simp only
    omega
  | expires hdue _ _ _ =>
    simp only
    omega

/-- **The deadline stays over** once it is: behind a timeout no read takes time, up to the first
that is answered and that one too. -/
theorem at_once (h : Reads d last now t requests readings last' final) {front back : List Reading}
    {x y : Reading} (hsplit : readings = front ++ x :: y :: back) (hx : x.expired = true) :
    y.time = y.start := by
  induction h generalizing front with
  | done => simp at hsplit
  | passes comes early alone later ih =>
    cases front with
    | nil =>
      obtain ⟨rfl, -⟩ := List.cons.inj hsplit
      cases hx
    | cons z front => exact ih (List.cons.inj hsplit).2
  | @expires last now t r rs due left readings last' final hdue late alone later ih =>
    cases front with
    | nil =>
      obtain ⟨-, rfl⟩ := List.cons.inj hsplit
      exact later.head_at_once (by omega)
    | cons z front => exact ih (List.cons.inj hsplit).2

end Reads

/-- **Reads through a timer**, one after another, whatever the rooms that they offer and the pauses
between them: each gives what the transport itself gives, when it gives it, or a timeout at the
deadline, if the transport has nothing up to then. The timeouts take no byte of the script, and
behind one the reads take no time up to the first that the transport answers. -/
theorem reads_limited (t : Transport) (created : Nat) (d : Span) (requests : List Request)
    {patience : Nat} (hpatience : d.ticks ≤ patience) {clock : Clock}
    (reach : clock.reaches created d = true) :
    (∃ readings last final, Reads d created created t requests readings last final) ∧
      ∀ readings last final, Reads d created created t requests readings last final →
        ((∀ x ∈ readings, x.expired = false → clock.reaches x.time d = true) →
          readEach patience requests (.limited t created d clock) created =
            .ok (readings.map fun x => (.ready x.answer, x.time),
              ⟨final, some ⟨clock, d, last + d.ticks⟩⟩)) ∧
        bytesOf t.events =
          (readings.flatMap fun x => Transport.brought x.answer) ++ bytesOf final.events ∧
        ∀ front x y back, readings = front ++ x :: y :: back → x.expired = true →
          y.time = y.start := by
  refine ⟨Reads.exists_readings d created created t requests, fun readings last final h =>
    ⟨fun hreach => ?_, h.bytes, fun front x y back => h.at_once⟩⟩
  have hstart : Line.limited t created d clock = ⟨t, some ⟨clock, d, created + d.ticks⟩⟩ := by
    rw [limited, IdleTimer.start, if_pos reach]
  rw [hstart]
  exact h.readEach_eq (Nat.le_refl created) hpatience hreach

/-- A wait that outlasts two timeouts, an answer that has no room and one on the deadline. -/
theorem reads_limited_two_timeouts :
    (Span.mk 0 5000000).ticks ≤ 5 ∧ Clock.young.reaches 0 ⟨0, 5000000⟩ = true ∧
      readEach 5 [⟨0, 8⟩, ⟨0, 8⟩, ⟨7, 0⟩, ⟨5, 1⟩, ⟨0, 8⟩]
        (.limited (.ofEvents [.wait 12, .data [7, 8], .close] true) 0 ⟨0, 5000000⟩) 0 =
      .ok ([(.ready (.error (.idle .timedOut ⟨0, 5000000⟩)), 5),
        (.ready (.error (.idle .timedOut ⟨0, 5000000⟩)), 5), (.ready (.ok []), 12),
        (.ready (.ok [7]), 17), (.ready (.ok [8]), 17)],
        ⟨⟨[.close], 12, true⟩, some ⟨.young, ⟨0, 5000000⟩, 22⟩⟩) := by
  have hticks : (Span.mk 0 5000000).ticks = 5 := by decide +kernel
  have hreach : Clock.young.reaches 0 ⟨0, 5000000⟩ = true := by decide +kernel
  have hreads : Reads ⟨0, 5000000⟩ 0 0 (.ofEvents [.wait 12, .data [7, 8], .close] true)
      [⟨0, 8⟩, ⟨0, 8⟩, ⟨7, 0⟩, ⟨5, 1⟩, ⟨0, 8⟩]
      [⟨0, 5, .error (.idle .timedOut ⟨0, 5000000⟩), true⟩,
        ⟨5, 5, .error (.idle .timedOut ⟨0, 5000000⟩), true⟩, ⟨12, 12, .ok [], false⟩,
        ⟨17, 17, .ok [7], false⟩, ⟨17, 17, .ok [8], false⟩] 17 ⟨[.close], 12, true⟩ := by
    refine .expires (by rw [hticks]; rfl) ?_ rfl
      (.expires (by rw [hticks]; rfl) ?_ rfl
        (.passes rfl (Nat.le_max_left _ _) rfl
          (.passes rfl (Nat.le_max_left _ _) rfl
            (.passes rfl (Nat.le_max_left _ _) rfl .done))))
    · intro time answer h
      cases h
      decide
    · intro time answer h
      cases h
      decide
  obtain ⟨-, hall⟩ := reads_limited (.ofEvents [.wait 12, .data [7, 8], .close] true) 0 ⟨0, 5000000⟩
    [⟨0, 8⟩, ⟨0, 8⟩, ⟨7, 0⟩, ⟨5, 1⟩, ⟨0, 8⟩] (Nat.le_of_eq hticks) hreach
  refine ⟨Nat.le_of_eq hticks, hreach, (hall _ _ _ hreads).1 ?_⟩
  decide +kernel

/-- **The deadline lies on a whole millisecond**: a read bears two milliseconds of silence under a
limit of one millisecond and a nanosecond. -/
theorem await_between_ticks :
    (Span.mk 0 1000001).totalNanos < 2 * 1000000 ∧
      ∃ left, (limited (.ofEvents [.wait 2, .data [7]] true) 0 ⟨0, 1000001⟩).await 8 0 10 =
        (.ok (.ready (.ok [7])), 2, left) :=
  ⟨by decide +kernel, _, rfl⟩

end Line

end TokenFeedback
