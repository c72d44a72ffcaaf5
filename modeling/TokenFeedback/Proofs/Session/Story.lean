import TokenFeedback.Proofs.Session.Turn

/-!
# What the observer is told of a session

A session tells its observer of the phases that it enters, of its records, and of its end. Whatever
the far side does, and whenever the session is cancelled, what it has told fits the stage that it is
at; and a session that returns has told one of a few stories.

* `Story`: the stories of sessions that return, with what they return.
* `Story.phases`, `Story.failures`, `Story.streaming_before_token`: what all stories have in common.
* `Stage.Told`: what has been told at each stage; `Stage.step_tells`: a step keeps to it.
* `World.sound_of_run`: **so does every call, at any time of any run.**
-/

namespace TokenFeedback

/-- The notices of a session that has its stream and has told of these records. -/
def streamed (records : List Record) : List Callback :=
  [.phase .connecting, .phase .handshaking, .phase .streaming] ++ records.map .token

/-- What the observer may be told before a session fails. -/
inductive Precedes : SessionError → List Callback → Prop
  | connect (address : String) (io : IoError) :
      Precedes (.connect address io) [.phase .connecting]
  | pipeline (reason : String) : Precedes (.pipeline reason) [.phase .connecting]
  | handshake (cause : TrustError) :
      Precedes (.handshake cause) [.phase .connecting, .phase .handshaking]
  | cancelled {part records} (h : part <+: streamed records) : Precedes .cancelled part

/-- **What the observer is told of a session that returns**, and what the session returns. -/
inductive Story : List Callback → Except SessionError (List Record) → Prop
  | succeeded (records : List Record) (ending : StreamEnd) :
      Story (streamed records ++ [.phase .terminated, .streamEnd ending records.length])
        (.ok records)
  | failed {e told} (before : Precedes e told) :
      Story (told ++ [.phase .terminated, .failure e]) (.error e)

/-! ### What stories have in common -/

/-- The phase that a notice tells of. -/
def Callback.phase? : Callback → Option Phase
  | .phase p => some p
  | _ => none

/-- The failure that a notice tells of. -/
def Callback.failure? : Callback → Option SessionError
  | .failure e => some e
  | _ => none

/-- The failures that a session returns. -/
def failuresOf : Except SessionError (List Record) → List SessionError
  | .ok _ => []
  | .error e => [e]

theorem Precedes.isPrefix {e : SessionError} {told : List Callback} (h : Precedes e told) :
    ∃ records, told <+: streamed records := by
  cases h with
  | connect => exact ⟨[], _, rfl⟩
  | pipeline => exact ⟨[], _, rfl⟩
  | handshake => exact ⟨[], _, rfl⟩
  | cancelled h => exact ⟨_, h⟩

theorem phases_streamed (records : List Record) :
    (streamed records).filterMap Callback.phase? = [.connecting, .handshaking, .streaming] := by
  have htokens : (records.map Callback.token).filterMap Callback.phase? = [] := by
    rw [List.filterMap_map]
    exact List.filterMap_eq_nil_iff.2 fun _ _ => rfl
  rw [streamed, List.filterMap_append, htokens]
  rfl

theorem failures_streamed (records : List Record) :
    (streamed records).filterMap Callback.failure? = [] := by
  have htokens : (records.map Callback.token).filterMap Callback.failure? = [] := by
    rw [List.filterMap_map]
    exact List.filterMap_eq_nil_iff.2 fun _ _ => rfl
  rw [streamed, List.filterMap_append, htokens]
  rfl

/-- While the stream goes on, and before, nothing is told of an end. -/
theorem terminated_notMem {part : List Callback} {records : List Record}
    (h : part <+: streamed records) : .phase .terminated ∉ part := by
  intro hm
  have hp := List.mem_filterMap.2 ⟨_, h.subset hm, (rfl : Callback.phase? (.phase .terminated) = _)⟩
  rw [phases_streamed] at hp
  exact absurd hp (by decide)

/-- **A failure is told once if the session returns it, and else there is none.** -/
theorem Story.failures {told : List Callback} {result : Except SessionError (List Record)}
    (h : Story told result) :
    told.filterMap Callback.failure? = failuresOf result := by
  cases h with
  | succeeded records ending =>
    rw [List.filterMap_append, failures_streamed]
    rfl
  | failed before =>
    obtain ⟨records, hpre⟩ := before.isPrefix
    have hnil := hpre.filterMap Callback.failure?
    rw [failures_streamed, List.prefix_nil] at hnil
    rw [List.filterMap_append, hnil]
    rfl

namespace Stage

/-- What a session that goes well has told before it has terminated. -/
def told? : Stage → Option (List Callback)
  | fresh => some []
  | queued => some []
  | admitted => some []
  | connecting _ _ => some [.phase .connecting]
  | connected _ => some [.phase .connecting]
  | handshaking _ _ => some [.phase .connecting, .phase .handshaking]
  | shaken _ => some [.phase .connecting, .phase .handshaking]
  | streaming _ b _ => some (streamed b.records)
  | delivering _ b _ _ => some (streamed b.records)
  | closing _ b _ => some (streamed b.records)
  | closed b _ => some (streamed b.records)
  | _ => none

/-- **What has been told at each stage.** -/
inductive Told : Stage → List Callback → Prop
  | running {stage told} (h : stage.told? = some told) : Told stage told
  | ended {b ending} : Told (.ended b ending) (streamed b.records ++ [.phase .terminated])
  | failing {e told} (before : Precedes e told) : Told (.failing e) told
  | failed {e told} (before : Precedes e told) : Told (.failed e) (told ++ [.phase .terminated])
  | done {result told} (story : Story told result) : Told (.done result) told
  | panicked {p told} : Told (.panicked p) told
  | dropped {told} : Told .dropped told

/-- May it be that there is nothing to do at this stage, for the time being or for good? -/
def mayRest : Stage → Bool
  | admitted => false
  | connected _ => false
  | shaken _ => false
  | delivering _ _ _ _ => false
  | closed _ _ => false
  | ended _ _ => false
  | failing _ => false
  | failed _ => false
  | _ => true

theorem mayRest_of_isOver {stage : Stage} (h : stage.isOver = true) : stage.mayRest = true := by
  cases stage <;> first | rfl | cases h

/-- A session that goes well has told a part of what it tells of its stream. -/
theorem prefix_of_told {stage : Stage} {told : List Callback} (h : stage.told? = some told) :
    ∃ records, told <+: streamed records := by
  cases stage with
  | fresh => exact ⟨[], Option.some.inj h ▸ List.nil_prefix⟩
  | queued => exact ⟨[], Option.some.inj h ▸ List.nil_prefix⟩
  | admitted => exact ⟨[], Option.some.inj h ▸ List.nil_prefix⟩
  | connecting => exact ⟨[], Option.some.inj h ▸ ⟨_, rfl⟩⟩
  | connected => exact ⟨[], Option.some.inj h ▸ ⟨_, rfl⟩⟩
  | handshaking => exact ⟨[], Option.some.inj h ▸ ⟨_, rfl⟩⟩
  | shaken => exact ⟨[], Option.some.inj h ▸ ⟨_, rfl⟩⟩
  | streaming r b => exact ⟨b.records, Option.some.inj h ▸ List.prefix_refl _⟩
  | delivering r b => exact ⟨b.records, Option.some.inj h ▸ List.prefix_refl _⟩
  | closing due b => exact ⟨b.records, Option.some.inj h ▸ List.prefix_refl _⟩
  | closed b => exact ⟨b.records, Option.some.inj h ▸ List.prefix_refl _⟩
  | ended => cases h
  | failing => cases h
  | failed => cases h
  | done => cases h
  | panicked => cases h
  | dropped => cases h

theorem Told.eq_of_told? {stage : Stage} {told told' : List Callback} (h : stage.Told told)
    (h' : stage.told? = some told') : told = told' := by
  cases h with
  | running h => exact Option.some.inj (h.symm.trans h')
  | ended => cases h'
  | failing => cases h'
  | failed => cases h'
  | done => cases h'
  | panicked => cases h'
  | dropped => cases h'

/-- A session that rests is over, or has told a part of what it tells of its stream. -/
theorem Told.isOver_or_prefix {stage : Stage} {told : List Callback} (h : stage.Told told)
    (rests : stage.mayRest = true) :
    stage.isOver = true ∨ ∃ records, told <+: streamed records := by
  cases h with
  | running h => exact .inr (prefix_of_told h)
  | ended => cases rests
  | failing => cases rests
  | failed => cases rests
  | done => exact .inl rfl
  | panicked => exact .inl rfl
  | dropped => exact .inl rfl

/-- What comes of a step when `told` has been told: it keeps to what is told at each stage, and it
sleeps only where there may be nothing to do. -/
inductive Progress.Tells (told : List Callback) : Progress → Prop
  | moves {notice log next} (h : next.Told (told ++ notice.toList)) :
      Tells told (.moves notice log next)
  | sleeps {wake log stage} (h : stage.Told told) (rests : stage.mayRest = true) :
      Tells told (.sleeps wake log stage)
  | breaks {message log} : Tells told (.breaks message log)

/-- A step that says nothing to the observer. -/
theorem Progress.Tells.silent {told : List Callback} {log : List LogEntry} {next : Stage}
    (h : next.Told told) : Progress.Tells told (.moves none log next) :=
  .moves ((List.append_nil told).symm ▸ h)

theorem await_tells {α : Type} {now : Nat} {due : Due α} {stage : Stage} {next : α → Progress}
    {told : List Callback} (h : stage.told? = some told) (rests : stage.mayRest = true)
    (ready : ∀ a, (next a).Tells told) : (await now due stage next).Tells told := by
  have hsleeps (wake : Option Nat) : Progress.Tells told (.sleeps wake [] stage) :=
    .sleeps (.running h) rests
  cases due with
  | none => exact hsleeps none
  | some d =>
    rw [await]
    split
    · exact ready d.2
    · exact hsleeps (some d.1)

theorem read_tells (now : Nat) (r : Reader) (b : Batch) (link : Link) :
    (read now r b link).Tells (streamed b.records) := by
  unfold read
  split
  · exact .breaks
  · exact .sleeps (.running rfl) rfl
  · exact .silent (.running rfl)
  · exact .silent (.running rfl)
  · split
    · exact .silent (.running rfl)
    · exact .silent (.running rfl)

theorem streamed_push (b : Batch) (r : Record) :
    streamed b.records ++ [.token r] = streamed (b.push r).records := by
  rw [Batch.records_push, streamed, streamed, List.map_append, List.append_assoc]
  rfl

/-- **A step keeps to what is told at each stage.** -/
theorem step_tells (k : Connection) (now : Nat) (link : Link) {stage : Stage}
    {told : List Callback} (h : stage.Told told) : (stage.step k now link).Tells told := by
  cases h with
  | running h =>
    cases stage with
    | fresh => exact .sleeps (.running h) rfl
    | queued => exact .sleeps (.running h) rfl
    | admitted =>
      obtain rfl := Option.some.inj h
      exact .moves (.running rfl)
    | connecting due link =>
      refine await_tells h rfl fun answer => ?_
      obtain rfl := Option.some.inj h
      cases answer with
      | ok _ => exact .silent (.running rfl)
      | error e => exact .silent (.failing (.connect _ e))
    | connected link =>
      obtain rfl := Option.some.inj h
      rw [step]
      split
      · exact .moves (.running rfl)
      · exact .silent (.failing (.pipeline _))
    | handshaking due link =>
      refine await_tells h rfl fun answer => ?_
      obtain rfl := Option.some.inj h
      cases answer with
      | ok _ => exact .silent (.running rfl)
      | error e => exact .silent (.failing (.handshake _))
    | shaken link =>
      obtain rfl := Option.some.inj h
      exact .moves (.running rfl)
    | streaming r b link =>
      obtain rfl := Option.some.inj h
      exact read_tells now r b link
    | delivering r b record link =>
      obtain rfl := Option.some.inj h
      exact .moves (.running (congrArg some (streamed_push b record).symm))
    | closing due b ending =>
      refine await_tells h rfl fun answer => ?_
      exact .silent (.running h)
    | closed b ending =>
      obtain rfl := Option.some.inj h
      exact .moves .ended
    | ended => cases h
    | failing => cases h
    | failed => cases h
    | done => cases h
    | panicked => cases h
    | dropped => cases h
  | @ended b ending =>
    refine .moves (.done ?_)
    rw [List.append_assoc]
    exact .succeeded b.records ending
  | failing before => exact .moves (.failed before)
  | failed before =>
    refine .moves (.done ?_)
    rw [List.append_assoc]
    exact .failed before
  | done story => exact .sleeps (.done story) rfl
  | panicked => exact .sleeps .panicked rfl
  | dropped => exact .sleeps .dropped rfl

end Stage

/-! ### Calls of a run -/

/-- **What holds of every call at any time**, and of what it has told. -/
structure Call.Sound (call : Call) (told : List Callback) : Prop where
  tells : call.stage.Told told
  /-- It sleeps only where there may be nothing to do. -/
  rests : call.awake = false → call.stage.mayRest = true

namespace World

/-- A turn keeps what holds of calls. -/
theorem Turn.sound {s : Setting} {w : World} {c : Nat} {a : Action} {call call' : Call}
    {told more : List Callback} {entries : List LogEntry}
    (turn : Turn s w c call a call' more entries) (h : call.Sound told) :
    call'.Sound (told ++ more) := by
  -- behind a move, only a call that is over is asleep
  have hawake {stage : Stage} (hstage : (!stage.isOver) = false) : stage.mayRest = true :=
    Stage.mayRest_of_isOver (by simpa using hstage)
  have htells := call.stage.step_tells (s.connection call.line) w.now (s.network w.dialled) h.tells
  cases turn with
  | wakes asleep runs kept wanted =>
    rw [List.append_nil]
    exact ⟨h.tells, fun ha => (by cases ha)⟩
  | cancelled asleep runs kept unwanted =>
    rw [List.append_nil]
    obtain hover | ⟨records, hpre⟩ := h.tells.isOver_or_prefix (h.rests asleep)
    · exact absurd (runs.symm.trans hover) Bool.false_ne_true
    · exact ⟨.failing (.cancelled hpre), fun ha => (by cases ha)⟩
  | queues awake fresh =>
    rw [List.append_nil, h.tells.eq_of_told? (congrArg Stage.told? fresh)]
    exact ⟨.running rfl, fun _ => rfl⟩
  | enters awake waits =>
    have htold : call.stage.told? = some [] :=
      waits.elim (congrArg Stage.told?) (congrArg Stage.told?)
    rw [List.append_nil, h.tells.eq_of_told? htold]
    exact ⟨.running rfl, fun ha => absurd (ha.symm.trans awake) Bool.false_ne_true⟩
  | rests awake waits =>
    rw [List.append_nil]
    exact ⟨h.tells, fun _ => congrArg Stage.mayRest waits⟩
  | moves awake step =>
    rw [step] at htells
    cases htells with
    | moves ht => exact ⟨ht, fun ha => hawake ha⟩
  | tells awake step calm =>
    rw [step] at htells
    cases htells with
    | moves ht => exact ⟨ht, fun ha => hawake ha⟩
  | struck awake step panics => exact ⟨.panicked, fun _ => rfl⟩
  | sleeps awake begun admitted step =>
    rw [step] at htells
    rw [List.append_nil]
    cases htells with
    | sleeps ht hr => exact ⟨ht, fun _ => hr⟩
  | breaks awake step =>
    rw [List.append_nil]
    exact ⟨.panicked, fun _ => rfl⟩
  | dropped given asleep runs =>
    rw [List.append_nil]
    exact ⟨.dropped, fun _ => rfl⟩

/-- **What holds of calls at any time.** -/
theorem sound_of_run (s : Setting) (actions : List Action) {c : Nat} {call : Call}
    (has : (run s start actions).calls[c]? = some call) :
    call.Sound ((run s start actions).callbacks c) := by
  have hall := run_calls (s := s) (P := fun _ call told => call.Sound told)
    (fun _ _ _ => ⟨.running rfl, fun _ => rfl⟩) (fun _ _ _ h => ⟨h.tells, h.rests⟩) actions
    (fun _ _ _ _ _ _ _ _ _ h turn => turn.sound h) actions.length
  rw [List.take_length] at hall
  exact hall.calls c call has

end World

end TokenFeedback
