import TokenFeedback.Proofs.Session.Bridge

/-!
# The end of a session in the observer's log

A session whose observer is calm tells of its end just if it returns. If it is left behind by its
caller and given up, or if the clock cannot count a deadline, the observer has heard a beginning
without an end.

* `Stage.isCut`: the session was given up, or has broken down.
* `Call.CutShort`: what is told of such a session.
* `World.end_reported_iff_returned`: **the end is told once if the session returns, and else
  never.**
* `World.end_unreported`: both happen.
-/

namespace TokenFeedback

namespace Stage

/-- Was the session given up, or has it broken down? -/
def isCut : Stage → Bool
  | panicked _ => true
  | dropped => true
  | _ => false

/-- A session that goes on is cut only while it reads, and says nothing then. -/
theorem isCut_step {stage : Stage} (k : Connection) (now : Nat) (link : Link)
    (cut : (stage.step k now link).next.isCut = true) :
    (stage.step k now link).told = [] ∧ ((stage.step k now link).next = stage ∨
      (∃ p, (stage.step k now link).next = .panicked p) ∧
        ∃ r b l, stage = .streaming r b l) := by
  have hnot {α : Type} {due : Due α} {stage : Stage} {next : α → Progress}
      (waits : stage.isCut = false) (ready : ∀ a, (next a).next.isCut = false)
      (cut : (await now due stage next).next.isCut = true) : False := by
    have hgoes : (await now due stage next).next.isCut = false :=
      await_next (P := fun stage => stage.isCut = false) waits fun _ answer _ _ => ready answer
    exact Bool.false_ne_true (hgoes.symm.trans cut)
  cases stage with
  | connecting due link =>
    refine (hnot rfl (fun answer => ?_) cut).elim
    cases answer <;> rfl
  | connected link =>
    rw [step] at cut
    split at cut <;> cases cut
  | handshaking due link =>
    refine (hnot rfl (fun answer => ?_) cut).elim
    cases answer <;> rfl
  | closing due b ending => exact (hnot rfl (fun _ => rfl) cut).elim
  | streaming r b link =>
    rw [step, read] at cut ⊢
    split at cut
    · exact ⟨rfl, .inr ⟨⟨_, rfl⟩, r, b, link, rfl⟩⟩
    · cases cut
    · cases cut
    · cases cut
    · split at cut <;> cases cut
  | panicked p => exact ⟨rfl, .inl rfl⟩
  | dropped => exact ⟨rfl, .inl rfl⟩
  | fresh => cases cut
  | queued => cases cut
  | admitted => cases cut
  | shaken link => cases cut
  | delivering r b record link => cases cut
  | closed b ending => cases cut
  | ended b ending => cases cut
  | failing e => cases cut
  | failed e => cases cut
  | done result => cases cut

end Stage

/-- **What is told of a session that is cut short**: a part of what is told of a stream, without any
end. Only a session that was left behind is given up. -/
structure Call.CutShort (call : Call) (told : List Callback) : Prop where
  told : call.stage.isCut = true → ∃ records, told <+: streamed records
  left : call.stage = .dropped → call.aborted = true

namespace World

variable {s : Setting} {w : World} {c : Nat} {call call' : Call} {a : Action}

/-- A turn of a call of a calm observer keeps this. -/
theorem Turn.cutShort {told more : List Callback} {entries : List LogEntry}
    (calm : ∀ earlier callback p, s.reaction earlier callback ≠ .panics p) (owned : a ≠ .drop c)
    (turn : Turn s w c call a call' more entries) (sound : call.Sound told)
    (h : call.CutShort told) : call'.CutShort (told ++ more) := by
  by_cases hstep : a = .step c
  · subst hstep
    by_cases hwaits : call.stage.standing = .outside ∨ call.stage.standing = .waiting
    · -- it waits for the lock, or has it
      have hcut : call'.stage.isCut = false := by
        obtain h | h := turn.waits hwaits
        · rw [Stage.eq_queued_of_standing h]
          rfl
        · rw [Stage.eq_admitted_of_standing h]
          rfl
      refine ⟨fun cut => absurd (hcut.symm.trans cut) Bool.false_ne_true, fun dropped => ?_⟩
      rw [dropped] at hcut
      cases hcut
    · obtain ⟨rfl, hnext | ⟨callback, p, -, panics⟩⟩ := turn.goes_on
        (fun h => hwaits (.inl (by rw [h]; rfl))) (fun h => hwaits (.inr (by rw [h]; rfl)))
      · have hcut := call.stage.isCut_step (s.connection call.line) w.now (s.network w.dialled)
        refine ⟨fun cut => ?_, fun dropped => ?_⟩
        · rw [hnext] at cut
          obtain ⟨htold, hsame | ⟨-, r, b, l, hstage⟩⟩ := hcut cut
          · rw [htold, List.append_nil]
            exact h.told (hsame ▸ cut)
          · rw [htold, List.append_nil, sound.tells.eq_of_told? (by rw [hstage]; rfl)]
            exact ⟨b.records, List.prefix_refl _⟩
        · rw [hnext] at dropped
          obtain ⟨-, hsame | ⟨⟨p, hp⟩, -⟩⟩ := hcut (by rw [dropped]; rfl)
          · exact turn.kept.2.2.trans (h.left (hsame.symm.trans dropped))
          · cases hp.symm.trans dropped
      · exact absurd panics (calm _ _ _)
  · have haborted := turn.kept.2.2
    obtain ⟨rfl, -⟩ := turn.stays hstep
    rw [List.append_nil]
    cases turn with
    | wakes => exact ⟨h.told, h.left⟩
    | cancelled => exact ⟨fun cut => (by cases cut), fun dropped => (by cases dropped)⟩
    | dropped given asleep runs =>
      refine ⟨fun _ => ?_, fun _ => ?_⟩
      · obtain finished | part := sound.tells.isOver_or_prefix (sound.rests asleep)
        · exact absurd (runs.symm.trans finished) Bool.false_ne_true
        · exact part
      · obtain rfl | ⟨-, left⟩ := given
        · exact absurd rfl owned
        · exact left
    | queues => exact absurd rfl hstep
    | enters => exact absurd rfl hstep
    | rests => exact absurd rfl hstep
    | moves => exact absurd rfl hstep
    | sleeps => exact absurd rfl hstep
    | breaks => exact absurd rfl hstep

/-- What holds of calls and of what they have told may be weakened. -/
theorem All.imp {P Q : Nat → Call → List Callback → Prop} (h : All P w)
    (imp : ∀ c call told, P c call told → Q c call told) : All Q w :=
  ⟨fun c call has => imp c call _ (h.calls c call has), h.notices⟩

/-- **What is told of a session that is cut short**, at any time of any run in which its owner does
not give it up. -/
theorem cutShort_of_run (calm : ∀ earlier callback p, s.reaction earlier callback ≠ .panics p)
    (actions : List Action) (has : (run s start actions).calls[c]? = some call)
    (owned : .drop c ∉ actions) : call.CutShort ((run s start actions).callbacks c) := by
  have hall : All (fun c call told =>
      call.Sound told ∧ (.drop c ∉ actions → call.CutShort told)) (run s start actions) := by
    refine run_induction (P := fun w actions => All (fun c call told =>
      call.Sound told ∧ (.drop c ∉ actions → call.CutShort told)) w) ?_ ?_ actions
    · exact ⟨fun c call hc => (by cases hc), fun n hn => absurd hn List.not_mem_nil⟩
    · intro actions a h
      have hbefore := h.imp (Q := fun c call told =>
          call.Sound told ∧ (.drop c ∉ actions ++ [a] → call.CutShort told))
        fun c call told hc =>
          ⟨hc.1, fun howned => hc.2 fun hmem => howned (List.mem_append_left _ hmem)⟩
      refine hbefore.act ?_ ?_ ?_
      · intro c line handle
        exact ⟨⟨.running rfl, fun _ => rfl⟩,
          fun _ => ⟨fun cut => (by cases cut), fun dropped => (by cases dropped)⟩⟩
      · intro c call told ⟨sound, short⟩
        exact ⟨⟨sound.tells, sound.rests⟩,
          fun howned => ⟨(short howned).told, fun _ => rfl⟩⟩
      · intro c call call' told more entries _ ⟨sound, short⟩ turn
        refine ⟨turn.sound sound, fun howned => ?_⟩
        have hother : a ≠ .drop c := fun ha =>
          howned (List.mem_append_right _ (List.mem_singleton.2 ha.symm))
        exact turn.cutShort calm hother sound (short howned)
  exact (hall.calls c call has).2 owned

/-! ### The end -/

/-- A session that returns has told once that it terminated. -/
theorem count_terminated_of_story {told : List Callback}
    {result : Except SessionError (List Record)} (h : Story told result) :
    told.count (.phase .terminated) = 1 := by
  cases h with
  | succeeded records ending =>
    have hnone := List.count_eq_zero.2
      (terminated_notMem (List.prefix_refl (streamed records)))
    rw [List.count_append, hnone]
    rfl
  | @failed e told before =>
    obtain ⟨records, hpre⟩ := before.isPrefix
    have hnone := List.count_eq_zero.2 (terminated_notMem hpre)
    rw [List.count_append, hnone]
    rfl

/-- **The end of a session is told once if the session returns, and else never.** Let the observer
be calm, let a task do the session for a caller, and let nobody but the caller give the task up.
When the task is over,

* either the session has returned: that it terminated was told once, and its failure as well, if it
  has failed; and a caller that was told of a cancellation had a session that was cancelled, or left
  it behind;
* or no end was told at all: the session was left behind by its caller and given up, or it has
  broken down where the clock could not count the limit on silences. -/
theorem end_reported_iff_returned (s : Setting)
    (calm : ∀ earlier callback p, s.reaction earlier callback ≠ .panics p) (actions : List Action)
    {b : Nat} {bridge : Bridge} (waits : (run s start actions).bridges[b]? = some bridge)
    (owned : .drop bridge.call ∉ actions) {call : Call}
    (has : (run s start actions).calls[bridge.call]? = some call)
    (finished : call.stage.isOver = true) :
    let told := (run s start actions).callbacks bridge.call
    (∃ result, call.stage = .done result ∧ told.count (.phase .terminated) = 1 ∧
      told.filterMap Callback.failure? = failuresOf result ∧
      (bridge.answer = some (.error .cancelled) →
        result = .error .cancelled ∨ call.aborted = true)) ∨
    told.count (.phase .terminated) = 0 ∧ told.filterMap Callback.failure? = [] ∧
      (call.stage = .dropped ∧ call.aborted = true ∧
          bridge.answer = some (.error .cancelled) ∨
        call.stage = .panicked (.text (ClockOverflow.message .mk)) ∧
          Overreaches s actions bridge.call call.line) := by
  intro told
  obtain ⟨call', has', hanswers⟩ := (bridged_of_run s actions).answers b bridge waits
  obtain rfl := Option.some.inj (has'.symm.trans has)
  have hsound := sound_of_run s actions has
  have hshort := cutShort_of_run calm actions has owned
  -- a session that is cut short has told no end
  have hcut (cut : call'.stage.isCut = true) :
      told.count (.phase .terminated) = 0 ∧ told.filterMap Callback.failure? = [] := by
    obtain ⟨records, hpre⟩ := hshort.told cut
    have hnil := hpre.filterMap Callback.failure?
    rw [failures_streamed, List.prefix_nil] at hnil
    exact ⟨List.count_eq_zero.2 (terminated_notMem hpre), hnil⟩
  cases hstage : call'.stage with
  | done result =>
    left
    have htells := hsound.tells
    rw [hstage] at htells
    have hstory : Story told result := by
      cases htells with
      | running h => cases h
      | done story => exact story
    refine ⟨result, rfl, count_terminated_of_story hstory, hstory.failures, fun answer => ?_⟩
    cases hanswers with
    | waits unanswered => cases unanswered.symm.trans answer
    | tells answer' finished' =>
      rw [hstage] at finished'
      obtain ⟨rfl, -⟩ := Prod.mk.inj (Option.some.inj finished')
      exact .inl (Option.some.inj (answer'.symm.trans answer))
    | left _ aborted => exact .inr aborted
  | dropped =>
    right
    obtain ⟨hcount, hfailures⟩ := hcut (by rw [hstage]; rfl)
    have haborted := hshort.left hstage
    refine ⟨hcount, hfailures, .inl ⟨rfl, haborted, ?_⟩⟩
    cases hanswers with
    | waits _ kept => exact absurd (kept.symm.trans haborted) Bool.false_ne_true
    | tells _ _ kept => exact absurd (kept.symm.trans haborted) Bool.false_ne_true
    | left answer => exact answer
  | panicked p =>
    right
    obtain ⟨hcount, hfailures⟩ := hcut (by rw [hstage]; rfl)
    have hall := run_calls (s := s) (P := fun c call _ => Whole s actions c call)
      (fun _ _ _ => ⟨trivial, fun _ hp => (by cases hp)⟩) (fun _ _ _ h => ⟨h.streams, h.whole⟩)
      actions (fun _ _ _ _ _ _ _ _ has h turn => turn.whole calm has h) actions.length
    rw [List.take_length] at hall
    obtain ⟨rfl, far⟩ := (hall.calls bridge.call call' has).whole p hstage
    exact ⟨hcount, hfailures, .inr ⟨rfl, far⟩⟩
  | _ =>
    rw [hstage] at finished
    cases finished

/-! ### Sessions whose end is told, and others -/

/-- The task connects when its caller is cancelled, and sees this before the caller looks. -/
def cancelledConnecting : List Action :=
  [.spawn 0 0, .poll 0, .step 0, .step 0, .step 0, .cancel 0, .poll 0, .step 0, .step 0, .look 0]

/-- A task that sees itself that it is cancelled tells of its end. -/
theorem end_reported_iff_returned_cancelled :
    let w := run slowToConnect start cancelledConnecting
    (w.bridges[0]?).isSome = true ∧ .drop 0 ∉ cancelledConnecting ∧
      w.callbacks 0 = [.phase .connecting, .phase .terminated, .failure .cancelled] ∧
      (w.callbacks 0).count (.phase .terminated) = 1 ∧
      (w.callbacks 0).filterMap Callback.failure? = [.cancelled] := by
  intro w
  have hbridge : w.bridges[0]? = some ⟨0, 0, some (.error .cancelled)⟩ := rfl
  have hcall : w.calls[0]? =
      some ⟨0, some 0, .done (.error .cancelled), false, none, false⟩ := rfl
  have hreports := end_reported_iff_returned slowToConnect (fun _ _ _ h => (by cases h))
    cancelledConnecting hbridge (by decide) hcall rfl
  refine ⟨rfl, by decide, rfl, ?_⟩
  obtain ⟨result, hdone, hcount, hfailures, -⟩ | ⟨-, -, ⟨h, -⟩ | ⟨h, -⟩⟩ := hreports
  · obtain rfl := Stage.done.inj hdone
    exact ⟨hcount, hfailures⟩
  · cases h
  · cases h

/-- A task whose session has the longest limit on silences, up to its first read. -/
def spawnedRead : List Action :=
  [.spawn 0 0, .poll 0, .step 0, .step 0, .step 0, .step 0, .step 0, .step 0, .step 0]

/-- **Sessions without an end.** A task that its caller leaves behind while it connects, and one
that reads where the clock cannot count: both have told that they connect, both are over, nobody
else has given them up, and neither has told an end. -/
theorem end_unreported :
    (∃ call, (run slowToConnect start (leftConnecting ++ [.dispose 0])).calls[0]? = some call ∧
      call.stage.isOver = true ∧
      (run slowToConnect start (leftConnecting ++ [.dispose 0])).callbacks 0 =
        [.phase .connecting]) ∧
    ∃ call, (run promptSetting start spawnedRead).calls[0]? = some call ∧
      call.stage.isOver = true ∧
      (run promptSetting start spawnedRead).callbacks 0 =
        [.phase .connecting, .phase .handshaking, .phase .streaming] := by
  refine ⟨⟨_, rfl, rfl, rfl⟩, ?_⟩
  have hread : spawnedRead = spawnedRead.take 8 ++ [.step 0] := rfl
  have hhas : (run promptSetting start (spawnedRead.take 8)).calls[0]? =
      some ⟨0, some 0, Stage.openStream (promptSetting.connection 0) 0 (promptSetting.network 0),
        true, none, false⟩ := by
    rfl
  obtain ⟨call, has, -, stage⟩ := step_panics (s := promptSetting) hhas rfl rfl rfl rfl rfl rfl
    (by decide +kernel)
  refine ⟨call, ?_, by rw [stage]; rfl, ?_⟩
  · rw [hread, run_concat]
    exact has
  · decide +kernel

end World

end TokenFeedback
