import TokenFeedback.Proofs.Session.Conduct
import TokenFeedback.Proofs.Session.Prompt

/-!
# Sessions that have shaken hands return

A schedule says which action comes when, for ever. A call that has shaken hands and is not
cancelled returns under every fair schedule, if its far side lets it close the channel; and whenever
it returns, what it returns accounts for every byte that it has received.

* `World.along`: the worlds of a schedule.
* `World.Goes.act`: **an action keeps to what holds of a call behind its handshake.**
* `World.Goes.gets_on`: under a fair schedule less is left to do, sooner or later.
* `Accounted`: what a session that returns has received, told and reported.
* `World.returns_what_it_received`: **a call that has shaken hands never fails, and accounts for
  what it has received.**
-/

namespace TokenFeedback

/-- The observer breaks no session off, and reports nothing that reads like a part of a record
thrown away. -/
structure Setting.Calm (s : Setting) : Prop where
  calm : ∀ earlier callback p, s.reaction earlier callback ≠ .panics p
  plain : ∀ callback, (s.report callback).filter LogEntry.isDiscard = []

/-- **The account of a session that returns these records**: records and residue are what it has
received up to the end of its stream, the residue is a part of one more record, the observer was
told of just these records and of the end, and the residue is reported once, if there is one. -/
inductive Accounted (had : Nat → Reader → Prop) (t : Transport) (limit : Span)
    (told : List Callback) (log : List LogEntry) (records : List Record) : Prop
  | intro {received wire residue : Bytes} {ending : StreamEnd}
      (ended : EndsBy had t limit received ending) (encoded : encodeAll records = .ok wire)
      (all : wire ++ residue = received)
      (part : ∃ (r : Record) (missing : Bytes), missing ≠ [] ∧ r.encode = .ok (residue ++ missing))
      (tells : told = streamed records ++ [.phase .terminated, .streamEnd ending records.length])
      (notes : log.filter LogEntry.isDiscard =
        if residue = [] then [] else [discardOf (.after received) ending])

/-- A session that is over has returned, and its account is in order. -/
theorem Stage.Conducts.accounted {had : Nat → Reader → Prop} {link : Link} {clock : Clock}
    {limit : Span} {stage : Stage} {told : List Callback} {log : List LogEntry}
    (h : stage.Conducts had link clock limit told (log.filter LogEntry.isDiscard))
    (tells : stage.Told told) (returned : stage.isOver = true) :
    ∃ records, stage = .done (.ok records) ∧
      Accounted had link.stream limit told log records := by
  generalize hnoted : log.filter LogEntry.isDiscard = noted at h
  cases h with
  | @done ending received _ ended last =>
    obtain ⟨wire, encoded, all⟩ := recordsOf_accounts received
    have hpart := (Decoder.after_stalled received).exists_completion
    refine ⟨_, rfl, .intro ended encoded all hpart ?_ hnoted⟩
    cases tells with
    | running htold => cases htold
    | done story =>
      cases story with
      | succeeded _ ending' =>
        -- the end that was told is the one that came
        rw [List.getLast?_append] at last
        obtain ⟨rfl, -⟩ := Callback.streamEnd.inj (Option.some.inj last)
        rfl
  | shaken => cases returned
  | streaming => cases returned
  | delivering => cases returned
  | closing => cases returned
  | closed => cases returned
  | ended => cases returned

/-- The limit on silences of settings that pass every check is a time. -/
theorem Config.ticks_pos {config : Config} (h : config.validate = .ok ()) :
    0 < config.idle.ticks := by
  have hfault : config.fault? = none := by
    unfold Config.validate at h
    split at h
    · cases h
    · assumption
  have hidle : config.idle.isZero = false := by
    rw [Bool.eq_false_iff]
    intro hzero
    unfold Config.fault? at hfault
    rw [if_pos hzero] at hfault
    split at hfault
    · cases hfault
    · split at hfault
      · cases hfault
      · cases hfault
  rw [Span.isZero, Bool.and_eq_false_iff] at hidle
  rw [Span.ticks, Span.totalNanos]
  simp only [beq_eq_false_iff_ne] at hidle
  omega

namespace World

/-- The world after so many actions of a schedule. -/
def along (s : Setting) (w : World) (schedule : Nat → Action) : Nat → World
  | 0 => w
  | n + 1 => (along s w schedule n).act s (schedule n)

/-- What a call has reported after so many actions of a schedule. -/
def reports (s : Setting) (w : World) (schedule : Nat → Action) (c : Nat) : Nat → List LogEntry
  | 0 => []
  | n + 1 => reports s w schedule c n ++ (along s w schedule n).reported s c (schedule n)

/-- Had a call this reader at this time? -/
def HadReader (s : Setting) (w : World) (schedule : Nat → Action) (c time : Nat) (r : Reader) :
    Prop :=
  ∃ n call, (along s w schedule n).calls[c]? = some call ∧ call.stage.reader? = some r ∧
    (along s w schedule n).now = time

/-- Nobody cancels a call, leaves it behind or gives it up. -/
structure Undisturbed (s : Setting) (w : World) (schedule : Nat → Action) (c : Nat) : Prop where
  wanted : ∀ n call, (along s w schedule n).calls[c]? = some call →
    (along s w schedule n).isCancelled call = false
  kept : ∀ n call, (along s w schedule n).calls[c]? = some call → call.aborted = false
  owned : ∀ n, schedule n ≠ .drop c

/-- The clock can count every deadline that a call sets. -/
def Countable (s : Setting) (w : World) (schedule : Nat → Action) (c : Nat) : Prop :=
  ∀ n call, (along s w schedule n).calls[c]? = some call → schedule n = .step c →
    call.stage.SetsDeadline (along s w schedule n).now →
    (s.connection call.line).clock.reaches (along s w schedule n).now
      (s.connection call.line).config.idle = true

/-- A schedule is fair to a call: its turn begins some time after there is reason for it, it makes
its step some time after its turn began, and the time goes on. -/
structure Fair (s : Setting) (w : World) (schedule : Nat → Action) (c : Nat) : Prop where
  polls : ∀ n call, (along s w schedule n).calls[c]? = some call →
    (along s w schedule n).isDue c call = true → ∃ m, n ≤ m ∧ schedule m = .poll c
  steps : ∀ n call, (along s w schedule n).calls[c]? = some call → call.awake = true →
    ∃ m, n ≤ m ∧ schedule m = .step c
  time : ∀ t, ∃ n, t ≤ (along s w schedule n).now

/-- The worlds of a schedule behind a run are worlds of runs. -/
theorem along_eq_run (s : Setting) (w : World) (schedule : Nat → Action) (n : Nat) :
    along s w schedule n = run s w ((List.range n).map schedule) := by
  induction n with
  | zero => rfl
  | succ n ih => rw [along, ih, List.range_succ, List.map_append, List.map_singleton, run_concat]

theorem now_along_le (s : Setting) (w : World) (schedule : Nat → Action) {n m : Nat} (h : n ≤ m) :
    (along s w schedule n).now ≤ (along s w schedule m).now := by
  induction h with
  | refl => exact Nat.le_refl _
  | step _ ih => exact Nat.le_trans ih (now_le_act s _ _)

/-- After `n` actions a call is as it has to be behind its handshake. -/
structure Goes (s : Setting) (w : World) (schedule : Nat → Action) (c : Nat) (link : Link)
    (clock : Clock) (limit : Span) (n : Nat) (call : Call) : Prop where
  has : (along s w schedule n).calls[c]? = some call
  host : (s.connection call.line).clock = clock
  idle : (s.connection call.line).config.idle = limit
  conducts : call.Conducts (HadReader s w schedule c) link clock limit
    ((along s w schedule n).callbacks c) ((reports s w schedule c n).filter LogEntry.isDiscard)

/-- There is reason to give the call its turn when its turn has come again. -/
theorem Goes.isDue {s : Setting} {w : World} {schedule : Nat → Action} {c : Nat} {link : Link}
    {clock : Clock} {limit : Span} {n : Nat} {call : Call}
    (h : Goes s w schedule c link clock limit n call)
    (kept : call.aborted = false) (asleep : call.awake = false) {t : Nat}
    (due : call.stage.due? = some t) (late : t ≤ (along s w schedule n).now) :
    (along s w schedule n).isDue c call = true := by
  have hstage := h.conducts.stage
  obtain ⟨begun, admitted⟩ := hstage.begun
  obtain ⟨t', hwake, hle⟩ := h.conducts.turn asleep t due
  rw [isDue_of_asleep asleep (hstage.isOver_of_due due) kept begun admitted hwake,
    decide_eq_true (Nat.le_trans hle late), Bool.or_true]

/-- What is left to do for a call grows in no action. -/
theorem todo_le_of_act {now : Nat} {call call' : Call}
    (h : call' = call ∨ call.Advances now call') : call'.stage.todo ≤ call.stage.todo := by
  obtain rfl | hadvances := h
  · exact Nat.le_refl _
  · cases hadvances with
    | gets_on fewer => exact Nat.le_of_lt fewer
    | wakes _ _ stage => exact Nat.le_of_eq (congrArg Stage.todo stage)
    | rests todo => exact Nat.le_of_eq todo

section
variable {s : Setting} {w : World} {schedule : Nat → Action} {c : Nat} {link : Link}
  {clock : Clock} {limit : Span} {n : Nat} {call : Call} (observer : s.Calm)
  (undisturbed : Undisturbed s w schedule c) (countable : Countable s w schedule c)
  (positive : 0 < limit.ticks)

include observer undisturbed countable positive

/-- A turn keeps to what holds of a call behind its handshake. -/
theorem Goes.turn (h : Goes s w schedule c link clock limit n call) {call' : Call}
    {told : List Callback}
    (turn : Turn s (along s w schedule n) c call (schedule n) call' told
      ((along s w schedule n).reported s c (schedule n)))
    (has : (along s w schedule (n + 1)).calls[c]? = some call')
    (htold : (along s w schedule (n + 1)).callbacks c =
      (along s w schedule n).callbacks c ++ told)
    (now : (along s w schedule (n + 1)).now = (along s w schedule n).now) :
    Goes s w schedule c link clock limit (n + 1) call' ∧
      call.Advances (along s w schedule n).now call' := by
  obtain ⟨hline, -, -⟩ := turn.kept
  obtain ⟨hhas, rfl, rfl, hconducts⟩ := h
  obtain ⟨hgoes, hadvances⟩ := turn.conducts hconducts positive (observer.calm _) observer.plain
    (undisturbed.wanted n call hhas) (undisturbed.kept n call hhas) (undisturbed.owned n)
    (countable n call hhas) (fun r hr => ⟨n, call, hhas, hr, rfl⟩)
    (fun r hr => ⟨n + 1, call', has, hr, now⟩)
  refine ⟨⟨has, by rw [hline], by rw [hline], ?_⟩, hadvances⟩
  rw [htold, reports, List.filter_append]
  exact hgoes

/-- **An action keeps to what holds of a call behind its handshake.** -/
theorem Goes.act (h : Goes s w schedule c link clock limit n call) :
    ∃ call', Goes s w schedule c link clock limit (n + 1) call' ∧
      (call' = call ∨ call.Advances (along s w schedule n).now call') := by
  obtain ⟨call', told, fares, has, htold⟩ := act_fares s h.has (schedule n)
  have hkept := undisturbed.kept (n + 1) call' has
  generalize hreported : (along s w schedule n).reported s c (schedule n) = entries at fares
  cases fares with
  | same =>
    refine ⟨call, ⟨has, h.host, h.idle, ?_⟩, .inl rfl⟩
    rw [List.append_nil] at htold
    rw [reports, hreported, List.append_nil, along, htold]
    exact h.conducts
  | left whose => exact absurd hkept.symm Bool.false_ne_true
  | turn turn now =>
    rw [← hreported] at turn
    obtain ⟨hgoes, hadvances⟩ :=
      h.turn observer undisturbed countable positive turn has htold now
    exact ⟨call', hgoes, .inr hadvances⟩

/-- A call whose turn it is gets on in its step, if it is not too early. -/
theorem Goes.step (h : Goes s w schedule c link clock limit n call) (awake : call.awake = true)
    (steps : schedule n = .step c) {t : Nat} (due : call.stage.due? = some t)
    (late : t ≤ (along s w schedule n).now) :
    ∃ call', Goes s w schedule c link clock limit (n + 1) call' ∧
      call'.stage.todo < call.stage.todo := by
  have htook := step_took (s := s) h.has awake
  obtain ⟨call', told, turn, has, htold, now⟩ := htook.turn (a := .step c) rfl h.has
  rw [← steps] at turn has htold now
  obtain ⟨hgoes, hadvances⟩ :=
    h.turn observer undisturbed countable positive turn has htold now
  refine ⟨call', hgoes, ?_⟩
  cases hadvances with
  | gets_on fewer => exact fewer
  | wakes asleep => exact absurd (asleep.symm.trans awake) Bool.false_ne_true
  | rests _ _ early => exact absurd (early t due) (Nat.not_lt.2 late)

/-- A call that is polled while it sleeps has its turn. -/
theorem Goes.poll (h : Goes s w schedule c link clock limit n call) (asleep : call.awake = false)
    (runs : call.stage.isOver = false) (polls : schedule n = .poll c) :
    ∃ call', Goes s w schedule c link clock limit (n + 1) call' ∧ call'.awake = true ∧
      call'.stage = call.stage := by
  have htook := poll_took (s := s) h.has asleep runs (undisturbed.kept n call h.has)
  obtain ⟨call', told, turn, has, htold, now⟩ := htook.turn (a := .poll c) rfl h.has
  have hwanted := undisturbed.wanted n call h.has
  refine ⟨call', ?_, ?_⟩
  · rw [← polls] at turn has htold now
    exact (h.turn observer undisturbed countable positive turn has htold now).1
  · generalize (along s w schedule n).reported s c (.poll c) = entries at turn
    cases turn with
    | wakes => exact ⟨rfl, rfl⟩
    | cancelled _ _ _ unwanted => exact absurd (hwanted.symm.trans unwanted) Bool.false_ne_true
    | dropped given =>
      obtain hgiven | ⟨hgiven, -⟩ := given
      · cases hgiven
      · cases hgiven

/-- A call that can go on at time `t` can do so until it has got on; and once the time has come, it
does not lose its turn before. -/
theorem Goes.stays (h : Goes s w schedule c link clock limit n call) {t : Nat}
    (due : call.stage.due? = some t) {m : Nat} (le : n ≤ m) :
    ∃ call', Goes s w schedule c link clock limit m call' ∧
      (call'.stage.todo < call.stage.todo ∨
        call'.stage.todo = call.stage.todo ∧ call'.stage.due? = some t ∧
          (call.awake = true → t ≤ (along s w schedule n).now → call'.awake = true)) := by
  induction le with
  | refl => exact ⟨call, h, .inr ⟨rfl, due, fun awake _ => awake⟩⟩
  | @step m le ih =>
    obtain ⟨mid, hmid, hleft⟩ := ih
    obtain ⟨call', hgoes, hact⟩ := hmid.act observer undisturbed countable positive
    refine ⟨call', hgoes, ?_⟩
    obtain hlt | ⟨heq, hdue, hkeeps⟩ := hleft
    · left
      have hle := todo_le_of_act hact
      omega
    · obtain rfl | hadvances := hact
      · exact .inr ⟨heq, hdue, hkeeps⟩
      · cases hadvances with
        | gets_on fewer => exact .inl (heq ▸ fewer)
        | wakes _ awake stage => exact .inr ⟨stage ▸ heq, stage ▸ hdue, fun _ _ => awake⟩
        | rests todo due' early =>
          -- where the time has come, it is not too early: time does not go back
          refine .inr ⟨todo.trans heq, due'.trans hdue, fun _ late => ?_⟩
          have hnow := now_along_le s w schedule le
          have hearly := early t hdue
          omega

/-- A call whose turn it is gets on, if it is not too early. -/
theorem Goes.gets_on_awake (h : Goes s w schedule c link clock limit n call)
    (awake : call.awake = true) {t : Nat} (due : call.stage.due? = some t) (late : t ≤ (along s w schedule n).now)
    (fair : Fair s w schedule c) :
    ∃ m call', Goes s w schedule c link clock limit m call' ∧
      call'.stage.todo < call.stage.todo := by
  obtain ⟨m, hle, hsteps⟩ := fair.steps n call h.has awake
  obtain ⟨mid, hmid, hlt | ⟨heq, hdue, hkeeps⟩⟩ :=
    h.stays observer undisturbed countable positive due hle
  · exact ⟨m, mid, hmid, hlt⟩
  · have hawake := hkeeps awake late
    have hlate := Nat.le_trans late (now_along_le s w schedule hle)
    obtain ⟨call', hgoes, hfewer⟩ :=
      hmid.step observer undisturbed countable positive hawake hsteps hdue hlate
    exact ⟨m + 1, call', hgoes, heq ▸ hfewer⟩

/-- **A call that can go on at some time gets on**, sooner or later. -/
theorem Goes.gets_on (h : Goes s w schedule c link clock limit n call) {t : Nat}
    (due : call.stage.due? = some t) (fair : Fair s w schedule c) :
    ∃ m call', Goes s w schedule c link clock limit m call' ∧
      call'.stage.todo < call.stage.todo := by
  obtain ⟨k, hk⟩ := fair.time t
  -- the time has come
  have hlate : t ≤ (along s w schedule (max n k)).now :=
    Nat.le_trans hk (now_along_le s w schedule (Nat.le_max_right n k))
  obtain ⟨early, hearly, hlt | ⟨heq, hdue, -⟩⟩ :=
    h.stays observer undisturbed countable positive due (Nat.le_max_left n k)
  · exact ⟨_, early, hearly, hlt⟩
  rw [← heq]
  cases hawake : early.awake with
  | true =>
    exact hearly.gets_on_awake observer undisturbed countable positive hawake hdue hlate fair
  | false =>
    -- its turn begins
    have hreason := hearly.isDue (undisturbed.kept _ early hearly.has) hawake hdue hlate
    obtain ⟨m, hle, hpolls⟩ := fair.polls _ early hearly.has hreason
    have hlate' := Nat.le_trans hlate (now_along_le s w schedule hle)
    obtain ⟨mid, hmid, hlt | ⟨heq', hdue', -⟩⟩ :=
      hearly.stays observer undisturbed countable positive hdue hle
    · exact ⟨m, mid, hmid, hlt⟩
    rw [← heq']
    cases hawake' : mid.awake with
    | true =>
      exact hmid.gets_on_awake observer undisturbed countable positive hawake' hdue' hlate' fair
    | false =>
      obtain ⟨woken, hwoken, hawoken, hstage⟩ := hmid.poll observer undisturbed countable positive
        hawake' (hmid.conducts.stage.isOver_of_due hdue') hpolls
      have hlate'' := Nat.le_trans hlate' (now_along_le s w schedule (Nat.le_succ m))
      rw [← hstage] at hdue' ⊢
      exact hwoken.gets_on_awake observer undisturbed countable positive hawoken hdue' hlate'' fair

/-- **A call behind its handshake returns** under a fair schedule, if its far side lets it close the
channel. -/
theorem Goes.returns (h : Goes s w schedule c link clock limit n call)
    (closes : link.shutdown ≠ .never) (fair : Fair s w schedule c) :
    ∃ m call', Goes s w schedule c link clock limit m call' ∧
      ∃ records, call'.stage = .done (.ok records) := by
  -- by what is left to do
  induction htodo : call.stage.todo using Nat.strongRecOn generalizing n call with
  | ind k ih =>
    subst htodo
    obtain hdone | ⟨t, hdue⟩ := h.conducts.stage.done_or_due closes
    · exact ⟨n, call, h, hdone⟩
    · obtain ⟨m, call', hgoes, hfewer⟩ :=
        h.gets_on observer undisturbed countable positive hdue fair
      exact ih _ hfewer hgoes rfl

/-- After any count of actions a call is as it has to be behind its handshake. -/
theorem Goes.along (h : Goes s w schedule c link clock limit 0 call) (n : Nat) :
    ∃ call', Goes s w schedule c link clock limit n call' := by
  induction n with
  | zero => exact ⟨call, h⟩
  | succ n ih =>
    obtain ⟨mid, hmid⟩ := ih
    obtain ⟨call', hgoes, -⟩ := hmid.act observer undisturbed countable positive
    exact ⟨call', hgoes⟩

end

/-- A call that has shaken hands is as it has to be. -/
theorem goes_of_shaken {s : Setting} {before : List Action} {c : Nat} {call : Call} {link : Link}
    (schedule : Nat → Action) (has : (run s start before).calls[c]? = some call)
    (shaken : call.stage = .shaken link) :
    Goes s (run s start before) schedule c link (s.connection call.line).clock
      (s.connection call.line).config.idle 0 call := by
  have hsound := sound_of_run s before has
  refine ⟨has, rfl, rfl, ?_, fun asleep => ?_⟩
  · rw [shaken]
    exact .shaken
  · -- there is something to do, so it is not asleep
    have hrests := hsound.rests asleep
    rw [shaken] at hrests
    cases hrests

/-- **A call that has shaken hands never fails, and accounts for what it has received.** It is not
cancelled, its observer is calm, and the clock can count its deadlines; its transport may do what it
likes. Then it neither breaks down nor tells of a failure, and once it is over it has returned
records, and these and the residue are the bytes that it has received up to the end of its stream.

It does return, under every schedule that is fair to it, if its far side lets it close the
channel. -/
theorem returns_what_it_received (s : Setting) (observer : s.Calm) (before : List Action) {c : Nat}
    {call : Call} {link : Link} (has : (run s start before).calls[c]? = some call)
    (shaken : call.stage = .shaken link)
    (valid : (s.connection call.line).config.validate = .ok ()) (schedule : Nat → Action)
    (undisturbed : Undisturbed s (run s start before) schedule c)
    (countable : Countable s (run s start before) schedule c) :
    let w := run s start before
    let limit := (s.connection call.line).config.idle
    (∀ n, ∃ call', (along s w schedule n).calls[c]? = some call' ∧
      (∀ p, call'.stage ≠ .panicked p) ∧
      (∀ e, .failure e ∉ (along s w schedule n).callbacks c) ∧
      (call'.stage.isOver = true → ∃ records, call'.stage = .done (.ok records) ∧
        Accounted (HadReader s w schedule c) link.stream limit
          ((along s w schedule n).callbacks c) (reports s w schedule c n) records)) ∧
      (link.shutdown ≠ .never → Fair s w schedule c →
        ∃ n records, (along s w schedule n).result? c = some (.ok records)) := by
  intro w limit
  have hgoes : Goes s w schedule c link (s.connection call.line).clock limit 0 call :=
    goes_of_shaken schedule has shaken
  have hpositive : 0 < limit.ticks := Config.ticks_pos valid
  refine ⟨fun n => ?_, fun closes fair => ?_⟩
  · obtain ⟨call', hn⟩ := hgoes.along observer undisturbed countable hpositive n
    have htells : call'.stage.Told ((along s w schedule n).callbacks c) := by
      have hrun : along s w schedule n = run s start (before ++ (List.range n).map schedule) := by
        rw [along_eq_run, run, run, List.foldl_append]
        rfl
      have hhas := hn.has
      rw [hrun] at hhas ⊢
      exact (sound_of_run s _ hhas).tells
    have hstage := hn.conducts.stage
    refine ⟨call', hn.has, fun p hp => ?_, fun e he => ?_, hstage.accounted htells⟩
    · rw [hp] at hstage
      cases hstage
    · have hmem := List.mem_filterMap.2 ⟨_, he, (rfl : (Callback.failure e).failure? = some e)⟩
      rw [hstage.failures htells] at hmem
      cases hmem
  · obtain ⟨n, call', hn, records, hdone⟩ :=
      hgoes.returns observer undisturbed countable hpositive closes fair
    refine ⟨n, records, ?_⟩
    rw [result?, hn.has]
    dsimp only
    rw [hdone]

/-! ### A session that is cut off in the middle of a record -/

/-- A calm observer, and a far side that sends a record and two bytes of the next one, and breaks
off five milliseconds later. -/
def cutOffSetting : Setting :=
  ⟨fun _ => ⟨⟨⟨"localhost", 2196⟩, ⟨1, 0⟩, .standard⟩, .prepared .anyone .standard, .young⟩,
    fun _ => .streaming
      (.ofEvents [.data [0, 0, 0, 1, 0, 0, 0, 0], .wait 5, .failure (.system 104)] true),
    Callback.entries, fun _ _ => .quiet⟩

/-- One call, up to its handshake. -/
def greeting : List Action :=
  [.begin 0 none, .poll 0, .step 0, .step 0, .step 0, .step 0, .step 0]

/-- The call reads, rests while there is nothing to read, and returns; then the time goes on. -/
def untilCutOff (n : Nat) : Action :=
  [.step 0, .step 0, .step 0, .step 0, .wait 5, .poll 0, .step 0, .step 0, .step 0, .step 0].getD n
    (.wait 1000)

/-- The world after so many actions. -/
def cutOff (n : Nat) : World := along cutOffSetting (run cutOffSetting start greeting) untilCutOff n

theorem untilCutOff_of_le {n : Nat} (h : 10 ≤ n) : untilCutOff n = .wait 1000 := by
  rw [untilCutOff, List.getD_eq_getElem?_getD, List.getElem?_eq_none h]
  rfl

/-- Behind the return only the time changes. -/
theorem cutOff_add (k : Nat) :
    cutOff (10 + k) = { cutOff 10 with now := (cutOff 10).now + 1000 * k } := by
  induction k with
  | zero => rfl
  | succ k ih =>
    have hact : cutOff (10 + k + 1) = (cutOff (10 + k)).act cutOffSetting (.wait 1000) := by
      rw [← untilCutOff_of_le (Nat.le_add_right 10 k)]
      rfl
    rw [← Nat.add_assoc, hact, ih, Nat.mul_succ, ← Nat.add_assoc]
    rfl

theorem calls_cutOff (n : Nat) : (cutOff n).calls = (cutOff (min n 10)).calls := by
  by_cases h : n ≤ 10
  · rw [Nat.min_eq_left h]
  · obtain ⟨k, rfl⟩ := Nat.exists_eq_add_of_le (Nat.le_of_not_le h)
    rw [Nat.min_eq_right (Nat.le_add_right 10 k), cutOff_add]

/-- The call is nobody's to cancel; it has its turn up to its return, and it is asleep and not over
only up to its poll. -/
theorem call_cutOff {n : Nat} {call : Call} (has : (cutOff n).calls[0]? = some call) :
    call.handle = none ∧ call.aborted = false ∧ (call.awake = true → n ≤ 9) ∧
      (call.awake = false → call.stage.isOver = false → n ≤ 5) := by
  have hall : ∀ m < 11, ((cutOff m).calls[0]?).all (fun call =>
      call.handle.isNone && !call.aborted && (!call.awake || m ≤ 9) &&
        (call.awake || call.stage.isOver || m ≤ 5)) = true := by
    decide +kernel
  have hn := hall (min n 10) (by omega)
  rw [← calls_cutOff, has, Option.all_some] at hn
  simp only [Bool.and_eq_true, Bool.or_eq_true, Bool.not_eq_true', decide_eq_true_eq,
    Option.isNone_iff_eq_none] at hn
  obtain ⟨⟨⟨handle, aborted⟩, awake⟩, asleep⟩ := hn
  refine ⟨handle, aborted, fun h => ?_, fun h hover => ?_⟩
  · obtain hfalse | hle := awake
    · exact absurd (hfalse.symm.trans h) Bool.false_ne_true
    · omega
  · obtain (htrue | htrue) | hle := asleep
    · exact absurd (h.symm.trans htrue) Bool.false_ne_true
    · exact absurd (hover.symm.trans htrue) Bool.false_ne_true
    · omega

theorem undisturbed_cutOff :
    Undisturbed cutOffSetting (run cutOffSetting start greeting) untilCutOff 0 := by
  refine ⟨fun n call has => ?_, fun n call has => (call_cutOff has).2.1, fun n => ?_⟩
  · rw [isCancelled, (call_cutOff has).1]
  · by_cases h : 10 ≤ n
    · rw [untilCutOff_of_le h]
      exact fun h => (by cases h)
    · have hall : ∀ m < 10, untilCutOff m ≠ .drop 0 := by decide
      exact hall n (by omega)

theorem countable_cutOff :
    Countable cutOffSetting (run cutOffSetting start greeting) untilCutOff 0 := by
  intro n call _ steps _
  by_cases h : 10 ≤ n
  · rw [untilCutOff_of_le h] at steps
    cases steps
  · have hall : ∀ m < 10, Clock.young.reaches (cutOff m).now ⟨1, 0⟩ = true := by decide +kernel
    exact hall n (by omega)

theorem fair_cutOff : Fair cutOffSetting (run cutOffSetting start greeting) untilCutOff 0 := by
  refine ⟨fun n call has due => ?_, fun n call has awake => ?_, fun t => ?_⟩
  · unfold isDue at due
    simp only [Bool.and_eq_true, Bool.not_eq_true'] at due
    exact ⟨5, (call_cutOff has).2.2.2 due.1.1.1 due.1.1.2, rfl⟩
  · exact ⟨9, (call_cutOff has).2.2.1 awake, rfl⟩
  · refine ⟨10 + t, ?_⟩
    have hnow := congrArg World.now (cutOff_add t)
    rw [cutOff] at hnow
    dsimp only at hnow
    omega

/-- A session that is cut off in the middle of a record returns the record before it. -/
theorem returns_what_it_received_cut_off :
    let w := run cutOffSetting start greeting
    Fair cutOffSetting w untilCutOff 0 ∧
      (∃ n records, (cutOff n).result? 0 = some (.ok records)) ∧
      Accounted (HadReader cutOffSetting w untilCutOff 0) (cutOffSetting.network 0).stream ⟨1, 0⟩
        ((cutOff 10).callbacks 0) (reports cutOffSetting w untilCutOff 0 10) [.ofWire [] 1] := by
  have observer : cutOffSetting.Calm := by
    refine ⟨fun _ _ _ h => (by cases h), fun callback => ?_⟩
    cases callback with
    | phase p => rfl
    | token r => rfl
    | streamEnd ending n => rfl
    | failure e =>
      have hentries : cutOffSetting.report (.failure e) = Callback.entries (.failure e) := rfl
      rw [hentries, Callback.entries]
      split
      · rfl
      · rfl
  have hgreeted : (run cutOffSetting start greeting).calls[0]? =
      some ⟨0, none, .shaken (cutOffSetting.network 0), true, none, false⟩ := by
    rfl
  obtain ⟨keeps, returns⟩ := returns_what_it_received cutOffSetting observer greeting hgreeted rfl
    (by decide +kernel) untilCutOff undisturbed_cutOff countable_cutOff
  refine ⟨fair_cutOff, returns (fun h => (by cases h)) fair_cutOff, ?_⟩
  obtain ⟨call, has, -, -, returned⟩ := keeps 10
  have hresult : (cutOff 10).result? 0 = some (.ok [.ofWire [] 1]) := by decide +kernel
  rw [cutOff, result?, has] at hresult
  dsimp only at hresult
  split at hresult
  · next result hstage =>
    obtain rfl := Option.some.inj hresult
    rw [hstage] at returned
    obtain ⟨records, hdone, haccount⟩ := returned rfl
    obtain rfl := Except.ok.inj (Stage.done.inj hdone)
    exact haccount
  · cases hresult

end World

end TokenFeedback
