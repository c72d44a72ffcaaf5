import TokenFeedback.Proofs.Session.Turn
import TokenFeedback.Proofs.Stream.Reception

/-!
# Sessions and the clock

A session moves its deadline whenever it has read something. Where the clock cannot count so far,
the session breaks down; this is the only way in which it does, as long as the observer is calm.

* `Stage.Streams`: what the reader of a session has received, at any stage.
* `Stage.step_streams`: a step breaks down only when something is read whose deadline the clock
  cannot count.
* `World.panics_only_out_of_reach`: **the sessions of a calm observer break down only there.**
* `World.longest_limit_passes_and_panics`: settings with the longest limit pass every check, and
  their sessions break down at the first read.
-/

namespace TokenFeedback

namespace Stage

/-- Is a session at this stage where it reads, with something to read at time `now`? -/
def Readable (now : Nat) : Stage → Prop
  | streaming r _ _ => r.Readable now
  | _ => False

/-- What the reader of a session has received, and what of it the session has got. -/
def Streams (clock : Clock) (limit : Span) : Stage → Prop
  | streaming r b link => ∃ received, r.Receives link.stream clock limit received b.records
  | delivering r b record link =>
    ∃ received, r.Receives link.stream clock limit received (b.records ++ [record])
  | _ => True

/-- What comes of a step at time `now`: its readers go on, and it breaks down only when something is
read whose deadline the clock cannot count. -/
inductive Progress.Streams (clock : Clock) (limit : Span) (now : Nat) (stage : Stage) :
    Progress → Prop
  | moves {notice log next} (h : next.Streams clock limit) (whole : ∀ p, next ≠ .panicked p) :
      Streams clock limit now stage (.moves notice log next)
  | sleeps {wake log stage'} (h : stage'.Streams clock limit)
      (whole : ∀ p, stage' = .panicked p → stage = .panicked p) :
      Streams clock limit now stage (.sleeps wake log stage')
  | breaks {log} (ready : stage.Readable now) (far : clock.reaches now limit = false) :
      Streams clock limit now stage (.breaks (ClockOverflow.message .mk) log)

variable {clock : Clock} {limit : Span}

theorem await_streams {α : Type} {now : Nat} {due : Due α} {stage : Stage}
    {next : α → Progress} (h : stage.Streams clock limit)
    (ready : ∀ a, (next a).Streams clock limit now stage) :
    (await now due stage next).Streams clock limit now stage := by
  cases due with
  | none => exact .sleeps h fun _ => id
  | some d =>
    rw [await]
    split
    · exact ready d.2
    · exact .sleeps h fun _ => id

theorem read_streams {r : Reader} {b : Batch} {link : Link} {received : Bytes}
    (h : r.Receives link.stream clock limit received b.records) (now : Nat) :
    (read now r b link).Streams clock limit now (.streaming r b link) := by
  have hgets := Reader.poll_gets h now
  rw [read]
  generalize r.poll now = out at hgets
  cases hgets with
  | overflows ready far => exact .breaks ready far
  | pending left => exact .sleeps ⟨_, left⟩ fun _ hp => (by cases hp)
  | record left => exact .moves ⟨_, left⟩ fun _ hp => (by cases hp)
  | ends => exact .moves trivial fun _ hp => (by cases hp)
  | breaks =>
    dsimp only
    split
    · exact .moves trivial fun _ hp => (by cases hp)
    · exact .moves trivial fun _ hp => (by cases hp)
  | silent => exact .moves trivial fun _ hp => (by cases hp)

/-- **All that a step does to readers.** -/
theorem step_streams (k : Connection) (now : Nat) (link : Link) {stage : Stage}
    (h : stage.Streams k.clock k.config.idle) :
    (stage.step k now link).Streams k.clock k.config.idle now stage := by
  cases stage with
  | admitted => exact .moves trivial fun _ hp => (by cases hp)
  | connecting due link =>
    refine await_streams trivial fun answer => ?_
    cases answer with
    | ok _ => exact .moves trivial fun _ hp => (by cases hp)
    | error e => exact .moves trivial fun _ hp => (by cases hp)
  | connected link =>
    rw [step]
    split
    · exact .moves trivial fun _ hp => (by cases hp)
    · exact .moves trivial fun _ hp => (by cases hp)
  | handshaking due link =>
    refine await_streams trivial fun answer => ?_
    cases answer with
    | ok _ => exact .moves trivial fun _ hp => (by cases hp)
    | error e => exact .moves trivial fun _ hp => (by cases hp)
  | shaken link =>
    exact .moves ⟨[], Reader.receives_new link.stream now k.clock k.config.idle _⟩
      fun _ hp => (by cases hp)
  | streaming r b link =>
    obtain ⟨received, h⟩ := h
    exact read_streams h now
  | delivering r b record link =>
    obtain ⟨received, h⟩ := h
    exact .moves ⟨received, h⟩ fun _ hp => (by cases hp)
  | closing due b ending =>
    exact await_streams trivial fun _ => .moves trivial fun _ hp => (by cases hp)
  | closed b ending => exact .moves trivial fun _ hp => (by cases hp)
  | ended b ending => exact .moves trivial fun _ hp => (by cases hp)
  | failing e => exact .moves trivial fun _ hp => (by cases hp)
  | failed e => exact .moves trivial fun _ hp => (by cases hp)
  | fresh => exact .sleeps trivial fun _ => id
  | queued => exact .sleeps trivial fun _ => id
  | done result => exact .sleeps trivial fun _ => id
  | panicked p => exact .sleeps trivial fun _ => id
  | dropped => exact .sleeps trivial fun _ => id

end Stage

namespace World

/-- Somewhere in a run a call had something to read whose deadline the clock could not count. -/
def Overreaches (s : Setting) (actions : List Action) (c line : Nat) : Prop :=
  ∃ n before, (run s start (actions.take n)).calls[c]? = some before ∧ before.line = line ∧
    before.stage.Readable (run s start (actions.take n)).now ∧
    (s.connection line).clock.reaches (run s start (actions.take n)).now
      (s.connection line).config.idle = false

/-- What holds of the readers of a call, and of a call that has broken down. -/
structure Whole (s : Setting) (actions : List Action) (c : Nat) (call : Call) : Prop where
  streams : call.stage.Streams (s.connection call.line).clock (s.connection call.line).config.idle
  whole : ∀ p, call.stage = .panicked p →
    p = .text (ClockOverflow.message .mk) ∧ Overreaches s actions c call.line

/-- A turn of a call of a calm observer keeps this. -/
theorem Turn.whole {s : Setting}
    (calm : ∀ earlier callback p, s.reaction earlier callback ≠ .panics p)
    {actions : List Action} {n c : Nat} {a : Action} {call call' : Call} {more : List Callback}
    {entries : List LogEntry} (has : (run s start (actions.take n)).calls[c]? = some call)
    (h : Whole s actions c call)
    (turn : Turn s (run s start (actions.take n)) c call a call' more entries) :
    Whole s actions c call' := by
  have hstep := call.stage.step_streams (s.connection call.line) (run s start (actions.take n)).now
    (s.network (run s start (actions.take n)).dialled) h.streams
  cases turn with
  | wakes => exact ⟨h.streams, h.whole⟩
  | cancelled => exact ⟨trivial, fun p hp => (by cases hp)⟩
  | queues => exact ⟨trivial, fun p hp => (by cases hp)⟩
  | enters => exact ⟨trivial, fun p hp => (by cases hp)⟩
  | rests => exact ⟨h.streams, h.whole⟩
  | moves awake step =>
    rw [step] at hstep
    cases hstep with
    | moves hs whole => exact ⟨hs, fun p hp => absurd hp (whole p)⟩
  | tells awake step =>
    rw [step] at hstep
    cases hstep with
    | moves hs whole => exact ⟨hs, fun p hp => absurd hp (whole p)⟩
  | struck awake step panics => exact absurd panics (calm _ _ _)
  | sleeps awake begun admitted step =>
    rw [step] at hstep
    cases hstep with
    | sleeps hs whole => exact ⟨hs, fun p hp => h.whole p (whole p hp)⟩
  | breaks awake step =>
    rw [step] at hstep
    cases hstep with
    | breaks ready far =>
      refine ⟨trivial, fun p hp => ⟨(Stage.panicked.inj hp).symm, n, call, has, rfl, ready, far⟩⟩
  | dropped => exact ⟨trivial, fun p hp => (by cases hp)⟩

/-- **The sessions of a calm observer break down only where the clock cannot count**: a session that
has broken down had something to read at a time from which the clock cannot count the limit on
silences. So none does while the clock can count the limit from the time that it shows. -/
theorem panics_only_out_of_reach (s : Setting)
    (calm : ∀ earlier callback p, s.reaction earlier callback ≠ .panics p) (actions : List Action)
    {c : Nat} {call : Call} (has : (run s start actions).calls[c]? = some call) :
    (∀ p, call.stage = .panicked p →
      p = .text (ClockOverflow.message .mk) ∧ Overreaches s actions c call.line) ∧
      ((s.connection call.line).clock.reaches (run s start actions).now
          (s.connection call.line).config.idle = true →
        ∀ p, call.stage ≠ .panicked p) := by
  have hall := run_calls (s := s) (P := fun c call _ => Whole s actions c call)
    (fun _ _ _ => ⟨trivial, fun _ hp => (by cases hp)⟩) (fun _ _ _ h => ⟨h.streams, h.whole⟩)
    actions (fun _ _ _ _ _ _ _ _ has h turn => turn.whole calm has h) actions.length
  rw [List.take_length] at hall
  have hwhole := hall.calls c call has
  refine ⟨hwhole.whole, fun reach p hp => ?_⟩
  obtain ⟨-, n, before, -, -, -, far⟩ := hwhole.whole p hp
  have hfar := Clock.reaches_of_le reach (now_take_le s start actions n)
  exact Bool.false_ne_true (far.symm.trans hfar)

/-- A step that reads something whose deadline the clock cannot count breaks the session down. -/
theorem step_panics {s : Setting} {w : World} {c : Nat} {call : Call} {r : Reader} {b : Batch}
    {link : Link} {clock : Clock} {limit : Span} {deadline : Nat}
    {result : Except IoError Bytes}
    (has : w.calls[c]? = some call) (awake : call.awake = true)
    (stage : call.stage = .streaming r b link) (failed : r.failed = false)
    (unread : r.unread = false) (timer : r.line.timer = some ⟨clock, limit, deadline⟩)
    (ready : (r.line.transport.read w.now (r.room r.reads + 1)).1 = .ready result)
    (far : clock.reaches w.now limit = false) :
    ∃ call', (w.step s c).calls[c]? = some call' ∧ call'.line = call.line ∧
      call'.stage = .panicked (.text (ClockOverflow.message .mk)) := by
  have hpoll : ∃ r', r.poll w.now = (.error .mk, r', []) := by
    have hp : r.poll w.now = r.fill w.now := by
      rw [Reader.poll, failed, unread]
      rfl
    have hline := Line.read_limited timer w.now (r.room r.reads + 1)
    rcases hread : r.line.transport.read w.now (r.room r.reads + 1) with ⟨answer, left⟩
    rw [hread] at hline ready
    dsimp only at ready
    rw [ready] at hline
    dsimp only at hline
    rw [if_neg (Bool.eq_false_iff.1 far)] at hline
    rw [hp, Reader.fill_eq, hline]
    exact ⟨_, rfl⟩
  obtain ⟨r', hpoll⟩ := hpoll
  have hstep : call.stage.step (s.connection call.line) w.now (s.network w.dialled) =
      .breaks (ClockOverflow.message .mk) [] := by
    rw [stage, Stage.step, Stage.read, hpoll]
  obtain ⟨has', turn, calls, -, -, -⟩ := step_took (s := s) has awake
  obtain rfl := Option.some.inj (has'.symm.trans has)
  refine ⟨_, by rw [calls, List.getElem?_set_self (List.getElem?_eq_some_iff.1 has).1], ?_⟩
  cases turn with
  | queues _ fresh => cases stage.symm.trans fresh
  | enters _ waits =>
    obtain waits | waits := waits
    · cases stage.symm.trans waits
    · cases stage.symm.trans waits
  | rests _ waits => cases stage.symm.trans waits
  | moves _ step => cases hstep.symm.trans step
  | tells _ step => cases hstep.symm.trans step
  | struck _ step => cases hstep.symm.trans step
  | sleeps _ _ _ step => cases hstep.symm.trans step
  | breaks _ step =>
    obtain ⟨rfl, -⟩ := Stage.Progress.breaks.inj (hstep.symm.trans step)
    exact ⟨rfl, rfl⟩
  | dropped given asleep => exact absurd (asleep.symm.trans awake) Bool.false_ne_true

/-- Settings with the longest limit that there is. -/
def longestLimit : Config := ⟨⟨"localhost", 2196⟩, ⟨18446744073709551615, 999999999⟩, .standard⟩

/-- A calm observer, and a far side that is there at once and sends a record. -/
def promptSetting : Setting :=
  ⟨fun _ => ⟨longestLimit, .prepared .anyone .standard, .young⟩,
    fun _ => .streaming (.ofEvents [.data [0, 0, 0, 1, 0, 0]] true), Callback.entries,
    fun _ _ => .quiet⟩

/-- One call, up to its first read. -/
def firstRead : List Action :=
  [.begin 0 none, .poll 0, .step 0, .step 0, .step 0, .step 0, .step 0, .step 0, .step 0]

/-- The first read of a session with the longest limit breaks it down. -/
theorem panicked_of_longest_limit :
    ∃ call, (run promptSetting start firstRead).calls[0]? = some call ∧ call.line = 0 ∧
      call.stage = .panicked (.text (ClockOverflow.message .mk)) := by
  have hread : firstRead = firstRead.take 8 ++ [.step 0] := rfl
  have hhas : (run promptSetting start (firstRead.take 8)).calls[0]? =
      some ⟨0, none, Stage.openStream (promptSetting.connection 0) 0 (promptSetting.network 0),
        true, none, false⟩ := by
    rfl
  rw [hread, run_concat]
  exact step_panics hhas rfl rfl rfl rfl rfl rfl (by decide +kernel)

/-- A calm observer is told of a session that had something to read out of reach of the clock. -/
theorem overreaches_of_longest_limit :
    (∀ earlier callback p, promptSetting.reaction earlier callback ≠ .panics p) ∧
      Overreaches promptSetting firstRead 0 0 := by
  have calm : ∀ earlier callback p, promptSetting.reaction earlier callback ≠ .panics p :=
    fun _ _ _ h => (by cases h)
  refine ⟨calm, ?_⟩
  obtain ⟨call, has, line, stage⟩ := panicked_of_longest_limit
  have hout := (panics_only_out_of_reach promptSetting calm firstRead has).1 _ stage
  rw [line] at hout
  exact hout.2

/-- **Settings with the longest limit pass every check**, and yet their session breaks down, with an
observer that does nothing, as soon as there is something to read. -/
theorem longest_limit_passes_and_panics :
    longestLimit.validate = .ok () ∧
      (Connection.build longestLimit (some .anyone)).1 = .ok (promptSetting.connection 0) ∧
      (∀ earlier callback, promptSetting.reaction earlier callback = .quiet) ∧
      ∃ call, (run promptSetting start firstRead).calls[0]? = some call ∧
        call.stage = .panicked (.text "overflow when adding duration to instant") := by
  obtain ⟨call, has, -, stage⟩ := panicked_of_longest_limit
  exact ⟨by decide +kernel, by decide +kernel, fun _ _ => rfl, call, has, stage⟩

end World

end TokenFeedback
