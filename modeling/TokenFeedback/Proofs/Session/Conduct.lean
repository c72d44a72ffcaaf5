import TokenFeedback.Proofs.Session.Deadline
import TokenFeedback.Proofs.Session.Story

/-!
# Sessions that have shaken hands

Behind the handshake a session reads until its stream ends, and then winds up. If nobody cancels it,
the observer is calm and the clock can count, every step keeps to this: the records that it has are
those of the bytes that it has received, and each step but a rest brings it nearer to its return.

* `EndsBy`: how a stream comes to its end.
* `discards`: what is reported of bytes that belong to no record.
* `Stage.Conducts`: what holds of a session behind its handshake, at each stage.
* `Stage.todo`, `Stage.due?`: what is left to do, and by when it goes on.
* `Stage.step_conducts`: **a step keeps to what holds at each stage, and gets on or rests.**
* `World.Turn.conducts`: so does a turn.
-/

namespace TokenFeedback

/-- Does an entry say that a part of a record is thrown away? -/
def LogEntry.isDiscard : LogEntry → Bool
  | .event _ message _ =>
    message == "stream ended mid-record, discarding partial record" ||
      message == "discarding incomplete record at end of session"
  | .span _ _ _ => false

/-- The report of what is left in a decoder: the decoder makes it if the peer hung up, and the
session if not. -/
def discardOf (d : Decoder) : StreamEnd → LogEntry
  | .peerClosed => d.cutOffEntry
  | .idleTimeout => Stage.discardEntry d
  | .transportError => Stage.discardEntry d

/-- What is reported of the bytes of a stream that belong to no record. -/
def discards (received : Bytes) (ending : StreamEnd) : List LogEntry :=
  if residueOf received = [] then [] else [discardOf (.after received) ending]

theorem discards_eq (received : Bytes) (ending : StreamEnd) :
    discards received ending =
      if (Decoder.after received).hasRemainder then [discardOf (.after received) ending]
      else [] := by
  have hiff := (Decoder.after received).hasRemainder_iff
  unfold discards residueOf
  by_cases h : (Decoder.after received).remainder = []
  · rw [if_pos h, if_neg fun hr => hiff.1 hr h]
  · rw [if_neg h, if_pos (hiff.2 h)]

/-- **How a stream comes to its end**: the stream of a session on the transport `t`, of which the
session has received so many bytes. `had` says which readers the session had at which times. -/
inductive EndsBy (had : Nat → Reader → Prop) (t : Transport) (limit : Span) (received : Bytes) :
    StreamEnd → Prop
  /-- A read brings no bytes. -/
  | hungUp (all : received = t.bytesAhead) (fate : t.fate = .hangsUp) :
      EndsBy had t limit received .peerClosed
  /-- A read fails. -/
  | broke {e} (all : received = t.bytesAhead) (fate : t.fate = .breaks e)
      (loud : e.silent? = none) : EndsBy had t limit received .transportError
  /-- A read fails and says that it was for a silence. -/
  | reported {e after} (all : received = t.bytesAhead) (fate : t.fate = .breaks e)
      (silent : e.silent? = some after) : EndsBy had t limit received .idleTimeout
  /-- For as long as the limit nothing has come, and there is nothing to read. -/
  | fellSilent {since now r r'} (earlier : had since r) (last : had now r')
      (nothing : r'.line.transport.bytesAhead = r.line.transport.bytesAhead)
      (ahead : received ++ r'.line.transport.bytesAhead = t.bytesAhead)
      (long : since + limit.ticks ≤ now) (quiet : ¬ r'.Readable now) :
      EndsBy had t limit received .idleTimeout

/-- A reader has received bytes of `t`, the last of them at a time when the session had it. -/
structure Reader.Listens (had : Nat → Reader → Prop) (t : Transport) (clock : Clock) (limit : Span)
    (r : Reader) (given : List Record) : Prop where
  receives : ∃ received, r.Receives t clock limit received given
  since : ∃ since r₀, had since r₀ ∧ r.line.timer = some ⟨clock, limit, since + limit.ticks⟩ ∧
    r.line.transport.bytesAhead = r₀.line.transport.bytesAhead

/-- What a poll at time `now` leaves goes on listening, if the session has it then. -/
theorem Reader.Listens.of_rearmed {had : Nat → Reader → Prop} {t : Transport} {clock : Clock}
    {limit : Span} {now : Nat} {before r : Reader} {given given' : List Record} {received : Bytes}
    (h : before.Listens had t clock limit given) (left : r.Receives t clock limit received given')
    (timed : Rearmed clock limit now before r) (has : had now r) :
    r.Listens had t clock limit given' := by
  refine ⟨⟨received, left⟩, ?_⟩
  obtain htimer | ⟨htimer, hahead⟩ := timed
  · exact ⟨now, r, has, htimer, rfl⟩
  · obtain ⟨since, r₀, hr₀, htimer₀, hahead₀⟩ := h.since
    exact ⟨since, r₀, hr₀, htimer.trans htimer₀, hahead.trans hahead₀⟩

/-- A line with a timer is worth reading again when the timer fires, if not before. -/
theorem Line.wake_le {l : Line} {timer : IdleTimer} (h : l.timer = some timer) (now : Nat) :
    ∃ wake, l.wake now = some wake ∧ wake ≤ timer.deadline := by
  unfold Line.wake
  rw [h]
  cases l.transport.wake now with
  | none => exact ⟨_, rfl, Nat.le_refl _⟩
  | some t => exact ⟨_, rfl, Nat.min_le_right _ _⟩

namespace Stage

/-- The reader of a session at this stage. -/
def reader? : Stage → Option Reader
  | streaming r _ _ => some r
  | delivering r _ _ _ => some r
  | _ => none

/-- Does a session at this stage set a deadline if it goes on at time `now`? -/
def SetsDeadline (now : Nat) : Stage → Prop
  | shaken _ => True
  | stage => stage.Readable now

/-- **What holds of a session behind its handshake**, with what it has told and the parts of records
that it has reported. -/
inductive Conducts (had : Nat → Reader → Prop) (link : Link) (clock : Clock) (limit : Span) :
    Stage → List Callback → List LogEntry → Prop
  | shaken {told} : Conducts had link clock limit (.shaken link) told []
  | streaming {r b told} (listens : r.Listens had link.stream clock limit b.records) :
      Conducts had link clock limit (.streaming r b link) told []
  | delivering {r b record told}
      (listens : r.Listens had link.stream clock limit (b.records ++ [record])) :
      Conducts had link clock limit (.delivering r b record link) told []
  | closing {due b ending received told} (ended : EndsBy had link.stream limit received ending)
      (all : b.records = recordsOf received) (closes : due = none → link.shutdown = .never) :
      Conducts had link clock limit (.closing due b ending) told (discards received ending)
  | closed {b ending received told} (ended : EndsBy had link.stream limit received ending)
      (all : b.records = recordsOf received) :
      Conducts had link clock limit (.closed b ending) told (discards received ending)
  | ended {b ending received told} (ended : EndsBy had link.stream limit received ending)
      (all : b.records = recordsOf received) :
      Conducts had link clock limit (.ended b ending) told (discards received ending)
  | done {ending received told} (ended : EndsBy had link.stream limit received ending)
      (last : told.getLast? = some (.streamEnd ending (recordsOf received).length)) :
      Conducts had link clock limit (.done (.ok (recordsOf received))) told
        (discards received ending)

/-- What is left to do for a session behind its handshake. A record that is held is delivered before
the next one is read. -/
def todo : Stage → Nat
  | shaken link => 4 * link.stream.size + 5
  | streaming r _ _ => 2 * r.todo + 4
  | delivering r _ _ _ => 2 * r.todo + 5
  | closing _ _ _ => 3
  | closed _ _ => 2
  | ended _ _ => 1
  | _ => 0

/-- When a session behind its handshake can go on, at the latest: at once, if it does not wait, and
never, if it waits for ever or is over. -/
def due? : Stage → Option Nat
  | streaming r _ _ => r.line.timer.map IdleTimer.deadline
  | closing due _ _ => due.map Prod.fst
  | done _ => none
  | _ => some 0

/-- The stage that comes of a step. -/
def Progress.next : Progress → Stage
  | .moves _ _ next => next
  | .sleeps _ _ stage => stage
  | .breaks message _ => .panicked (.text message)

/-- A session that sleeps from time `now` on has got on before, or else it is too early for it to go
on; and its turn comes again when it can go on. -/
structure Rests (now : Nat) (before : Stage) (wake : Option Nat) (stage : Stage) : Prop where
  fewer : stage.todo < before.todo ∨ stage.todo = before.todo ∧ stage.due? = before.due?
  early : ∀ t, stage.due? = some t → now < t
  turn : ∀ t, stage.due? = some t → ∃ t', wake = some t' ∧ t' ≤ t

/-- What comes of a step at time `now` that keeps to something: it gets on, or rests. -/
inductive Progress.Keeps (P : Stage → List Callback → List LogEntry → Prop) (now : Nat)
    (before : Stage) (told : List Callback) (noted : List LogEntry) : Progress → Prop
  | moves {notice log next}
      (h : P next (told ++ notice.toList) (noted ++ log.filter LogEntry.isDiscard))
      (fewer : next.todo < before.todo) : Keeps P now before told noted (.moves notice log next)
  | sleeps {wake log stage} (h : P stage told (noted ++ log.filter LogEntry.isDiscard))
      (rests : before.Rests now wake stage) :
      Keeps P now before told noted (.sleeps wake log stage)

variable {had : Nat → Reader → Prop} {link : Link} {clock : Clock} {limit : Span} {now : Nat}
  {told : List Callback} {noted : List LogEntry}

/-- A step that reports no part of a record. -/
theorem Progress.Keeps.gets_on {before next : Stage} {notice : Option Callback}
    {log : List LogEntry} (h : next.Conducts had link clock limit (told ++ notice.toList) noted)
    (fewer : next.todo < before.todo) (plain : log.filter LogEntry.isDiscard = []) :
    (Progress.moves notice log next).Keeps (Conducts had link clock limit) now before told
      noted := by
  refine .moves ?_ fewer
  rw [plain, List.append_nil]
  exact h

/-- The stream has ended, and the part of a record that is left is reported. -/
theorem windUp_keeps {before : Stage} {r : Reader} {b : Batch} {received : Bytes}
    {ending : StreamEnd} {log : List LogEntry}
    (ended : EndsBy had link.stream limit received ending) (all : b.records = recordsOf received)
    (fewer : 3 < before.todo)
    (noted : (log ++ if r.decoder.hasRemainder then [discardEntry r.decoder] else []).filter
      LogEntry.isDiscard = discards received ending) :
    (windUp now r b link ending log).Keeps (Conducts had link clock limit) now before told [] := by
  unfold windUp
  refine .moves ?_ fewer
  rw [List.nil_append, noted]
  refine .closing ended all fun hdue => ?_
  cases hshut : link.shutdown with
  | never => rfl
  | after ms value =>
    rw [hshut] at hdue
    cases hdue

@[simp] theorem isDiscard_discardOf (d : Decoder) (ending : StreamEnd) :
    (discardOf d ending).isDiscard = true := by
  cases ending <;> simp [discardOf, Decoder.cutOffEntry, discardEntry, LogEntry.isDiscard]

@[simp] theorem isDiscard_readFailedEntry (e : StreamError) :
    (readFailedEntry e).isDiscard = false := by
  simp [readFailedEntry, LogEntry.isDiscard]

@[simp] theorem isDiscard_shutdownFailedEntry (e : IoError) :
    (shutdownFailedEntry e).isDiscard = false := by
  simp [shutdownFailedEntry, LogEntry.isDiscard]

@[simp] theorem isDiscard_decodedEntry (x : Record) : x.decodedEntry.isDiscard = false := by
  simp [Record.decodedEntry, LogEntry.isDiscard]

/-- What is reported of a residue are parts of records. -/
theorem filter_discards (received : Bytes) (ending : StreamEnd) :
    (discards received ending).filter LogEntry.isDiscard = discards received ending := by
  unfold discards
  split
  · rfl
  · rw [List.filter_cons_of_pos (isDiscard_discardOf _ ending)]
    rfl

/-- **A read keeps to what holds of a session that has its stream.** -/
theorem read_keeps {r : Reader} {b : Batch} (h : r.Listens had link.stream clock limit b.records)
    (positive : 0 < limit.ticks) (reach : r.Readable now → clock.reaches now limit = true)
    (has : had now r) (hasNext : ∀ r', (read now r b link).next.reader? = some r' → had now r') :
    (read now r b link).Keeps (Conducts had link clock limit) now (.streaming r b link) told
      [] := by
  obtain ⟨received₀, receives⟩ := h.receives
  have hgets := Reader.poll_gets receives now
  have hfew : 3 < (streaming r b link).todo := Nat.lt_add_left _ (by decide)
  unfold read at hasNext ⊢
  generalize r.poll now = out at hgets hasNext
  cases hgets with
  | overflows ready far => exact absurd (far.symm.trans (reach ready)) Bool.false_ne_true
  | @pending r' received left timed fewer early =>
    have hlistens := h.of_rearmed left timed (hasNext r' rfl)
    refine .sleeps (.streaming hlistens) ⟨?_, fun t ht => ?_, fun t ht => ?_⟩
    · obtain hlt | ⟨heq, htimer⟩ := fewer
      · left
        rw [todo, todo]
        omega
      · right
        exact ⟨congrArg (2 * · + 4) heq, congrArg (Option.map IdleTimer.deadline) htimer⟩
    · obtain ⟨timer, htimer, rfl⟩ := Option.map_eq_some_iff.1 ht
      exact early timer htimer
    · obtain ⟨timer, htimer, rfl⟩ := Option.map_eq_some_iff.1 ht
      exact Line.wake_le htimer now
  | @record r' received x left timed fewer =>
    have hlistens := h.of_rearmed left timed (hasNext r' rfl)
    refine .gets_on (.delivering hlistens) ?_ ?_
    · rw [todo, todo]
      omega
    · simp
  | @ends r' received all bytes fate decoder =>
    -- the decoder has reported what was left, and nothing is left of it
    refine windUp_keeps (.hungUp bytes fate) all hfew ?_
    have hnone : r'.decoder.hasRemainder = false := by
      rw [decoder]
      rfl
    rw [hnone, if_neg Bool.false_ne_true, List.append_nil, ← filter_discards, discards_eq]
    rfl
  | @breaks r' received e all bytes fate decoder =>
    cases hsilent : e.silent? with
    | some after =>
      have herr : StreamError.ofIo e = .idleTimeout after := by
        rw [StreamError.ofIo, hsilent]
      rw [herr]
      refine windUp_keeps (.reported bytes fate hsilent) all hfew ?_
      rw [decoder, List.nil_append, ← filter_discards, discards_eq]
      rfl
    | none =>
      have herr : StreamError.ofIo e = .io e := by
        rw [StreamError.ofIo, hsilent]
      rw [herr]
      refine windUp_keeps (.broke bytes fate hsilent) all hfew ?_
      have hfailed : [readFailedEntry (.io e)].filter LogEntry.isDiscard = [] := by simp
      rw [decoder, List.nil_append, List.filter_append, hfailed, ← filter_discards, discards_eq]
      rfl
  | @silent r' received all decoder overdue =>
    obtain ⟨⟨deadline, htimer, hle, hquiet⟩, hahead⟩ := overdue positive
    obtain ⟨since, r₀, hr₀, htimer₀, hahead₀⟩ := h.since
    obtain rfl := (IdleTimer.mk.inj (Option.some.inj (htimer.symm.trans htimer₀))).2.2
    refine windUp_keeps (.fellSilent hr₀ has hahead₀ hahead hle hquiet) all hfew ?_
    rw [decoder, List.nil_append, ← filter_discards, discards_eq]
    rfl

/-- **A step keeps to what holds of a session behind its handshake, and gets on or rests.** -/
theorem step_conducts {stage : Stage} (k : Connection) (other : Link)
    (h : stage.Conducts had link k.clock k.config.idle told noted)
    (positive : 0 < k.config.idle.ticks)
    (reach : stage.SetsDeadline now → k.clock.reaches now k.config.idle = true)
    (has : ∀ r, stage.reader? = some r → had now r)
    (hasNext : ∀ r, (stage.step k now other).next.reader? = some r → had now r) :
    (stage.step k now other).Keeps (Conducts had link k.clock k.config.idle) now stage told
      noted := by
  cases h with
  | shaken =>
    have hopened := hasNext _ rfl
    refine .gets_on (.streaming ⟨⟨[], Reader.receives_new link.stream now k.clock k.config.idle _⟩,
      now, _, hopened, ?_, rfl⟩) ?_ rfl
    · -- the clock can count the first deadline, so it is set as every other
      rw [Reader.ofLine, Line.limited, IdleTimer.start, if_pos (reach trivial)]
    · have hnew : (Reader.ofLine (.limited link.stream now k.config.idle k.clock)
          Reader.standardRoom).todo = 2 * link.stream.size := rfl
      rw [openStream, todo, todo, hnew]
      omega
  | @streaming r b _ listens => exact read_keeps listens positive reach (has r rfl) hasNext
  | @delivering r b record _ listens =>
    refine .gets_on (.streaming ?_) (Nat.lt_succ_self _) rfl
    rw [Batch.records_push]
    exact listens
  | @closing due b ending received _ ended all closes =>
    rw [step]
    cases due with
    | none =>
      refine .sleeps ?_ ⟨.inr ⟨rfl, rfl⟩, fun t ht => (by cases ht), fun t ht => (by cases ht)⟩
      rw [List.filter_nil, List.append_nil]
      exact .closing ended all closes
    | some d =>
      rw [await]
      by_cases hd : d.1 ≤ now
      · rw [if_pos hd]
        exact .gets_on (.closed ended all) (Nat.lt_succ_self 2) (by simp)
      · rw [if_neg hd]
        refine .sleeps ?_ ⟨.inr ⟨rfl, rfl⟩, fun t ht => ?_, fun t ht => ⟨d.1, rfl, ?_⟩⟩
        · rw [List.filter_nil, List.append_nil]
          exact .closing ended all closes
        · obtain rfl := Option.some.inj ht
          exact Nat.not_le.1 hd
        · obtain rfl := Option.some.inj ht
          exact Nat.le_refl _
  | @closed b ending received _ ended all =>
    exact .gets_on (.ended ended all) (Nat.lt_succ_self 1) rfl
  | @ended b ending received _ ended all =>
    refine .gets_on ?_ (Nat.lt_succ_self 0) rfl
    rw [all]
    refine .done ended ?_
    rw [← all]
    exact List.getLast?_concat
  | @done ending received _ ended last =>
    refine .sleeps ?_ ⟨.inr ⟨rfl, rfl⟩, fun t ht => (by cases ht), fun t ht => (by cases ht)⟩
    rw [List.filter_nil, List.append_nil]
    exact .done ended last

/-- A session behind its handshake does not wait for the lock. -/
theorem Conducts.begun {stage : Stage} (h : stage.Conducts had link clock limit told noted) :
    stage ≠ .fresh ∧ stage ≠ .queued := by
  constructor
  · rintro rfl
    cases h
  · rintro rfl
    cases h

/-- A session that can go on at some time is not over. -/
theorem Conducts.isOver_of_due {stage : Stage} (h : stage.Conducts had link clock limit told noted)
    {t : Nat} (due : stage.due? = some t) : stage.isOver = false := by
  cases h with
  | done => cases due
  | shaken => rfl
  | streaming => rfl
  | delivering => rfl
  | closing => rfl
  | closed => rfl
  | ended => rfl

/-- A session has returned, or it can go on at some time, if the far side lets it close the
channel. -/
theorem Conducts.done_or_due {stage : Stage} (h : stage.Conducts had link clock limit told noted)
    (closes : link.shutdown ≠ .never) :
    (∃ records, stage = .done (.ok records)) ∨ ∃ t, stage.due? = some t := by
  cases h with
  | shaken => exact .inr ⟨0, rfl⟩
  | streaming listens =>
    obtain ⟨since, -, -, htimer, -⟩ := listens.since
    exact .inr ⟨_, congrArg (Option.map IdleTimer.deadline) htimer⟩
  | delivering => exact .inr ⟨0, rfl⟩
  | @closing due b ending received _ _ _ hnever =>
    cases due with
    | none => exact absurd (hnever rfl) closes
    | some d => exact .inr ⟨d.1, rfl⟩
  | closed => exact .inr ⟨0, rfl⟩
  | ended => exact .inr ⟨0, rfl⟩
  | done => exact .inl ⟨_, rfl⟩

/-- A session that keeps to this tells of no failure. -/
theorem Conducts.failures {stage : Stage} (h : stage.Conducts had link clock limit told noted)
    (tells : stage.Told told) : told.filterMap Callback.failure? = [] := by
  have hrunning (htold : stage.told? = some told) : told.filterMap Callback.failure? = [] := by
    obtain ⟨records, hpre⟩ := prefix_of_told htold
    have hnil := hpre.filterMap Callback.failure?
    rwa [failures_streamed, List.prefix_nil] at hnil
  cases tells with
  | running htold => exact hrunning htold
  | ended =>
    rw [List.filterMap_append, failures_streamed]
    rfl
  | done story =>
    cases h with
    | done => exact story.failures
  | failing => cases h
  | failed => cases h
  | panicked => cases h
  | dropped => cases h

end Stage

/-! ### Calls -/

/-- **What holds of a call behind its handshake**: it keeps to what holds at its stage, and while it
sleeps its turn comes when it can go on. -/
structure Call.Conducts (had : Nat → Reader → Prop) (link : Link) (clock : Clock) (limit : Span)
    (call : Call) (told : List Callback) (noted : List LogEntry) : Prop where
  stage : call.stage.Conducts had link clock limit told noted
  turn : call.awake = false → ∀ t, call.stage.due? = some t → ∃ t', call.wake = some t' ∧ t' ≤ t

/-- What a turn at time `now` does for a call: it gets on, or its turn begins, or it rests as it is
too early to go on. -/
inductive Call.Advances (now : Nat) (call call' : Call) : Prop
  | gets_on (fewer : call'.stage.todo < call.stage.todo)
  | wakes (asleep : call.awake = false) (awake : call'.awake = true)
      (stage : call'.stage = call.stage)
  | rests (todo : call'.stage.todo = call.stage.todo) (due : call'.stage.due? = call.stage.due?)
      (early : ∀ t, call.stage.due? = some t → now < t)

namespace World

/-- **A turn of a call behind its handshake keeps to what holds there**, if the call is not
cancelled or given up, its observer is calm and the clock can count. -/
theorem Turn.conducts {s : Setting} {w : World} {c : Nat} {a : Action} {call call' : Call}
    {more : List Callback} {entries : List LogEntry} {had : Nat → Reader → Prop} {link : Link}
    {told : List Callback} {noted : List LogEntry}
    (turn : Turn s w c call a call' more entries)
    (h : call.Conducts had link (s.connection call.line).clock
      (s.connection call.line).config.idle told noted)
    (positive : 0 < (s.connection call.line).config.idle.ticks)
    (calm : ∀ callback p, s.reaction w.notices callback ≠ .panics p)
    (plain : ∀ callback, (s.report callback).filter LogEntry.isDiscard = [])
    (wanted : w.isCancelled call = false) (kept : call.aborted = false) (owned : a ≠ .drop c)
    (reach : a = .step c → call.stage.SetsDeadline w.now →
      (s.connection call.line).clock.reaches w.now (s.connection call.line).config.idle = true)
    (has : ∀ r, call.stage.reader? = some r → had w.now r)
    (hasNext : ∀ r, call'.stage.reader? = some r → had w.now r) :
    call'.Conducts had link (s.connection call.line).clock (s.connection call.line).config.idle
        (told ++ more) (noted ++ entries.filter LogEntry.isDiscard) ∧
      call.Advances w.now call' := by
  have hstep (ha : a = .step c)
      (hnext : ∀ r, (call.stage.step (s.connection call.line) w.now
        (s.network w.dialled)).next.reader? = some r → had w.now r) :=
    call.stage.step_conducts _ (s.network w.dialled) h.stage positive (reach ha) has hnext
  have hbegun := h.stage.begun
  -- behind a move, only a call that is over is asleep
  have hover {next : Stage} {told' : List Callback} {noted' : List LogEntry}
      (hs : next.Conducts had link (s.connection call.line).clock
        (s.connection call.line).config.idle told' noted')
      (ha : (!next.isOver) = false) (t : Nat) (ht : next.due? = some t) :
      ∃ t', none = some t' ∧ t' ≤ t := by
    rw [hs.isOver_of_due ht] at ha
    cases ha
  cases turn with
  | wakes asleep runs _ _ =>
    have hopening : opening s call = [] := by
      unfold opening
      split
      · next fresh => exact absurd fresh hbegun.1
      · rfl
    rw [List.append_nil, hopening, List.filter_nil, List.append_nil]
    exact ⟨⟨h.stage, fun ha => (by cases ha)⟩, .wakes asleep rfl rfl⟩
  | cancelled _ _ _ unwanted => exact absurd (wanted.symm.trans unwanted) Bool.false_ne_true
  | queues _ fresh => exact absurd fresh hbegun.1
  | enters _ waits =>
    obtain fresh | queued := waits
    · exact absurd fresh hbegun.1
    · exact absurd queued hbegun.2
  | rests _ queued => exact absurd queued hbegun.2
  | @moves log next awake step =>
    rw [step] at hstep
    cases hstep rfl hasNext with
    | moves hs fewer =>
      exact ⟨⟨hs, fun ha t ht => hover hs ha t ht⟩, .gets_on fewer⟩
  | @tells callback log next awake step calm =>
    rw [step] at hstep
    cases hstep rfl hasNext with
    | moves hs fewer =>
      rw [List.filter_append, plain, List.nil_append]
      exact ⟨⟨hs, fun ha t ht => hover hs ha t ht⟩, .gets_on fewer⟩
  | struck _ _ panics => exact absurd panics (calm _ _)
  | @sleeps wake log stage awake begun admitted step =>
    rw [step] at hstep
    cases hstep rfl hasNext with
    | sleeps hs rests =>
      rw [List.append_nil]
      refine ⟨⟨hs, fun _ => rests.turn⟩, ?_⟩
      obtain hlt | ⟨htodo, hdue⟩ := rests.fewer
      · exact .gets_on hlt
      · exact .rests htodo hdue fun t ht => rests.early t (hdue.trans ht)
  | breaks _ step =>
    rw [step] at hstep
    cases hstep rfl fun r hr => (by cases hr)
  | dropped given =>
    obtain rfl | ⟨rfl, left⟩ := given
    · exact absurd rfl owned
    · exact absurd (kept.symm.trans left) Bool.false_ne_true

end World

end TokenFeedback
