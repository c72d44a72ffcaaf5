import TokenFeedback.Proofs.Session.Flight

/-!
# Callers that have a task do the work

A caller that cannot wait itself looks now and then at the task that does its work. If it finds the
task over, it returns what came of it; if not, and if it was cancelled, it leaves the task behind
and returns at once. A task that was left behind has no further turn, and is given up when the
runtime gets to it.

* `Bridge.Answers`: what a caller knows of its task.
* `World.Bridged`, `World.Bridged.act`: **every action keeps what callers know.**
* `World.left_behind`: a task that was left behind between two turns stays as it is, up to its end.
* `World.LetGo`: a call is over, and has neither transport nor lock.
* `World.cancelled_lets_go`: what is left of a call whose caller was told that it is cancelled.
* `World.cancelled_holds_on`: that may be more than nothing.
-/

namespace TokenFeedback

/-- **What a caller knows of its task.** -/
inductive Bridge.Answers (bridge : Bridge) (call : Call) : Prop
  | waits (answer : bridge.answer = none) (kept : call.aborted = false)
  | tells {result log} (answer : bridge.answer = some result)
      (finished : World.outcome? call.stage = some (result, log)) (kept : call.aborted = false)
  | left (answer : bridge.answer = some (.error .cancelled)) (aborted : call.aborted = true)

namespace World

variable {s : Setting} {w : World} {c : Nat} {call call' : Call} {a : Action}
  {told : List Callback} {entries : List LogEntry}

/-! ### Turns leave callers alone -/

theorem move_bridges (w : World) (c : Nat) (call : Call) (next : Stage) :
    (w.move c call next).bridges = w.bridges := by
  unfold move
  split <;> rfl

theorem tell_bridges (s : Setting) (w : World) (c : Nat) (callback : Callback) :
    (tell s w c callback).1.bridges = w.bridges := by
  unfold tell
  split <;> rfl

theorem apply_bridges (s : Setting) (w : World) (c : Nat) (call : Call)
    (progress : Stage.Progress) : (w.apply s c call progress).bridges = w.bridges := by
  cases progress with
  | moves notice log next =>
    cases notice with
    | none => exact move_bridges w c call next
    | some callback =>
      have hbridges := tell_bridges s w c callback
      rw [apply]
      rcases htell : tell s w c callback with ⟨mid, _ | p⟩
      · rw [htell] at hbridges
        obtain ⟨dialled, hcount⟩ := countDial_eq mid next
        dsimp only
        rw [note, move_bridges, hcount]
        exact hbridges
      · rw [htell] at hbridges
        exact (move_bridges mid c call _).trans hbridges
  | sleeps wake log stage => rfl
  | breaks message log => exact move_bridges _ c call _

theorem drop_bridges (w : World) (c : Nat) : (w.drop c).bridges = w.bridges := by
  unfold drop
  split
  · rfl
  · split
    · rfl
    · exact move_bridges w c _ _

/-- No turn of a call has to do with those who wait for it. -/
theorem turn_bridges (whose : a.turnOf? = some c) : (w.act s a).bridges = w.bridges := by
  cases a with
  | poll c =>
    rw [act, poll]
    split
    · rfl
    · split
      · rfl
      · split
        · exact move_bridges _ c _ _
        · rfl
  | step c =>
    rw [act, step]
    split
    · rfl
    · split
      · rfl
      · split
        · unfold enter
          dsimp only
          split <;> rfl
        · split <;> rfl
        · exact apply_bridges s w c _ _
  | drop c => exact drop_bridges w c
  | dispose c =>
    rw [act, dispose]
    split
    · rfl
    · split
      · exact drop_bridges w c
      · rfl
  | begin => cases whose
  | spawn => cases whose
  | look => cases whose
  | addHandle => cases whose
  | cancel => cases whose
  | wait => cases whose

theorem isOver_of_outcome? {stage : Stage}
    {outcome : Except SessionError (List Record) × List LogEntry}
    (h : outcome? stage = some outcome) : stage.isOver = true := by
  cases stage <;> first | rfl | cases h

/-- A call that is over stays as it is. -/
theorem Turn.same_of_isOver (turn : Turn s w c call a call' told entries)
    (finished : call.stage.isOver = true) : call'.stage = call.stage ∧ told = [] := by
  have hsleeps := Stage.step_of_isOver finished
  have hruns (runs : call.stage.isOver = false) : False :=
    Bool.false_ne_true (runs.symm.trans finished)
  cases turn with
  | wakes => exact ⟨rfl, rfl⟩
  | cancelled _ runs => exact (hruns runs).elim
  | queues _ fresh =>
    rw [fresh] at finished
    cases finished
  | enters _ waits =>
    obtain h | h := waits <;> rw [h] at finished <;> cases finished
  | rests => exact ⟨rfl, rfl⟩
  | moves _ step => cases (hsleeps _ _ _).symm.trans step
  | tells _ step => cases (hsleeps _ _ _).symm.trans step
  | struck _ step => cases (hsleeps _ _ _).symm.trans step
  | sleeps _ _ _ step =>
    obtain ⟨-, -, rfl⟩ := Stage.Progress.sleeps.inj ((hsleeps _ _ _).symm.trans step)
    exact ⟨rfl, rfl⟩
  | breaks _ step => cases (hsleeps _ _ _).symm.trans step
  | dropped _ _ runs => exact (hruns runs).elim

/-! ### What callers know -/

/-- **What holds of callers and their tasks.** -/
structure Bridged (w : World) : Prop where
  answers : ∀ (b : Nat) (bridge : Bridge), w.bridges[b]? = some bridge →
    ∃ call, w.calls[bridge.call]? = some call ∧ bridge.Answers call
  /-- A task has one caller. -/
  distinct : ∀ (b b' : Nat) (bridge bridge' : Bridge), w.bridges[b]? = some bridge →
    w.bridges[b']? = some bridge' → bridge.call = bridge'.call → b = b'
  /-- Only callers leave calls behind. -/
  left : ∀ (c : Nat) (call : Call), w.calls[c]? = some call → call.aborted = true →
    ∃ (b : Nat) (bridge : Bridge), w.bridges[b]? = some bridge ∧ bridge.call = c

/-- A turn changes nothing about what a caller knows. -/
theorem Turn.answers {bridge : Bridge} (turn : Turn s w c call a call' told entries)
    (h : bridge.Answers call) : bridge.Answers call' := by
  have haborted := turn.kept.2.2
  cases h with
  | waits answer kept => exact .waits answer (haborted.trans kept)
  | tells answer finished kept =>
    have hsame := (turn.same_of_isOver (isOver_of_outcome? finished)).1
    exact .tells answer (hsame ▸ finished) (haborted.trans kept)
  | left answer aborted => exact .left answer (haborted.trans aborted)

theorem Bridged.turn (h : Bridged w) (took : Took s w c a (w.act s a))
    (whose : a.turnOf? = some c) : Bridged (w.act s a) := by
  have hbridges := turn_bridges (s := s) (w := w) whose
  obtain ⟨has, turn, calls, -, -, -⟩ := took
  rename_i call call' told entries
  have hlt := (List.getElem?_eq_some_iff.1 has).1
  refine ⟨fun b bridge hb => ?_, ?_, fun c' call'' has' aborted => ?_⟩
  · rw [hbridges] at hb
    obtain ⟨before, hbefore, hanswers⟩ := h.answers b bridge hb
    by_cases hc : c = bridge.call
    · subst hc
      obtain rfl := Option.some.inj (hbefore.symm.trans has)
      exact ⟨call', by rw [calls, List.getElem?_set_self hlt], turn.answers hanswers⟩
    · exact ⟨before, by rw [calls, List.getElem?_set_ne hc, hbefore], hanswers⟩
  · rw [hbridges]
    exact h.distinct
  · rw [hbridges]
    by_cases hc : c = c'
    · subst hc
      rw [calls, List.getElem?_set_self hlt] at has'
      obtain rfl := Option.some.inj has'
      exact h.left c call has (turn.kept.2.2.symm.trans aborted)
    · rw [calls, List.getElem?_set_ne hc] at has'
      exact h.left c' call'' has' aborted

/-- Nobody knows of a new call, and nobody has left it behind. -/
theorem Bridged.joins (h : Bridged w) (line : Nat) (handle : Option Nat) :
    Bridged (w.begin line handle) := by
  refine ⟨fun b bridge hb => ?_, h.distinct, fun c call has aborted => ?_⟩
  · obtain ⟨call, has, hanswers⟩ := h.answers b bridge hb
    refine ⟨call, ?_, hanswers⟩
    rw [begin, List.getElem?_append_left (List.getElem?_eq_some_iff.1 has).1]
    exact has
  · rw [begin] at has
    by_cases hlt : c < w.calls.length
    · rw [List.getElem?_append_left hlt] at has
      exact h.left c call has aborted
    · rw [List.getElem?_append_right (Nat.not_lt.1 hlt)] at has
      rw [List.mem_singleton.1 (List.mem_of_getElem? has)] at aborted
      cases aborted

/-- A caller that has a task begin knows that it waits. -/
theorem Bridged.spawns (h : Bridged w) (line handle : Nat) : Bridged (w.spawn line handle) := by
  have hjoins := h.joins line (some handle)
  have hmade (b : Nat) (bridge : Bridge) (hb : w.bridges[b]? = some bridge) :
      bridge.call < w.calls.length := by
    obtain ⟨call, has, -⟩ := h.answers b bridge hb
    exact (List.getElem?_eq_some_iff.1 has).1
  -- a caller is an old one or the new one
  have hold (b : Nat) (bridge : Bridge) (hb : (w.spawn line handle).bridges[b]? = some bridge) :
      w.bridges[b]? = some bridge ∨
        b = w.bridges.length ∧ bridge = ⟨w.calls.length, handle, none⟩ := by
    have hb' : (w.bridges ++ [⟨w.calls.length, handle, none⟩])[b]? = some bridge := hb
    by_cases hlt : b < w.bridges.length
    · rw [List.getElem?_append_left hlt] at hb'
      exact .inl hb'
    · rw [List.getElem?_append_right (Nat.not_lt.1 hlt)] at hb'
      have hzero := (List.getElem?_eq_some_iff.1 hb').1
      rw [List.length_singleton] at hzero
      exact .inr ⟨by omega, List.mem_singleton.1 (List.mem_of_getElem? hb')⟩
  refine ⟨fun b bridge hb => ?_, fun b b' bridge bridge' hb hb' same => ?_,
    fun c call has aborted => ?_⟩
  · obtain hb | ⟨-, rfl⟩ := hold b bridge hb
    · exact hjoins.answers b bridge hb
    · exact ⟨_, List.getElem?_concat_length, .waits rfl rfl⟩
  · obtain hb | ⟨rfl, rfl⟩ := hold b bridge hb <;> obtain hb' | ⟨rfl, rfl⟩ := hold b' bridge' hb'
    · exact h.distinct b b' bridge bridge' hb hb' same
    · exact absurd (hmade b bridge hb) (by rw [same]; exact Nat.lt_irrefl _)
    · exact absurd (hmade b' bridge' hb') (by rw [← same]; exact Nat.lt_irrefl _)
    · rfl
  · obtain ⟨b, bridge, hb, hcall⟩ := hjoins.left c call has aborted
    refine ⟨b, bridge, ?_, hcall⟩
    exact (List.getElem?_append_left (List.getElem?_eq_some_iff.1 hb).1).trans hb

/-- A caller that gets an answer. -/
theorem Bridged.answered (h : Bridged w) {w' : World} {b : Nat} {bridge : Bridge}
    {result : Except SessionError (List Record)} (hb : w.bridges[b]? = some bridge)
    (bridges : w'.bridges = w.bridges.set b { bridge with answer := some result })
    (has : w.calls[bridge.call]? = some call) (calls : w'.calls = w.calls.set bridge.call call')
    (answers : Bridge.Answers { bridge with answer := some result } call') : Bridged w' := by
  have hlt := (List.getElem?_eq_some_iff.1 hb).1
  have hltc := (List.getElem?_eq_some_iff.1 has).1
  -- the callers are the same
  have hold (b' : Nat) (bridge' : Bridge) (hb' : w'.bridges[b']? = some bridge') :
      b' = b ∧ bridge' = { bridge with answer := some result } ∨
        b' ≠ b ∧ w.bridges[b']? = some bridge' := by
    rw [bridges] at hb'
    by_cases hbb : b = b'
    · subst hbb
      rw [List.getElem?_set_self hlt] at hb'
      exact .inl ⟨rfl, (Option.some.inj hb').symm⟩
    · rw [List.getElem?_set_ne hbb] at hb'
      exact .inr ⟨Ne.symm hbb, hb'⟩
  have hcalls (b' : Nat) (bridge' : Bridge) (hb' : w'.bridges[b']? = some bridge') :
      ∃ before : Bridge, w.bridges[b']? = some before ∧ before.call = bridge'.call := by
    obtain ⟨rfl, rfl⟩ | ⟨-, hb'⟩ := hold b' bridge' hb'
    · exact ⟨bridge, hb, rfl⟩
    · exact ⟨bridge', hb', rfl⟩
  refine ⟨fun b' bridge' hb' => ?_, fun b₁ b₂ bridge₁ bridge₂ hb₁ hb₂ same => ?_,
    fun c call'' has' aborted => ?_⟩
  · obtain ⟨rfl, rfl⟩ | ⟨hne, hb'⟩ := hold b' bridge' hb'
    · exact ⟨call', by rw [calls, List.getElem?_set_self hltc], answers⟩
    · obtain ⟨before, hbefore, hanswers⟩ := h.answers b' bridge' hb'
      refine ⟨before, ?_, hanswers⟩
      rw [calls, List.getElem?_set_ne, hbefore]
      intro hcall
      exact hne (h.distinct b' b bridge' bridge hb' hb hcall.symm)
  · obtain ⟨before₁, hbefore₁, hcall₁⟩ := hcalls b₁ bridge₁ hb₁
    obtain ⟨before₂, hbefore₂, hcall₂⟩ := hcalls b₂ bridge₂ hb₂
    exact h.distinct b₁ b₂ before₁ before₂ hbefore₁ hbefore₂
      (hcall₁.trans (same.trans hcall₂.symm))
  · -- whoever was left behind before has a caller, and this one has one as well
    have hcaller : ∃ (b' : Nat) (before : Bridge),
        w.bridges[b']? = some before ∧ before.call = c := by
      by_cases hc : bridge.call = c
      · exact ⟨b, bridge, hb, hc⟩
      · rw [calls, List.getElem?_set_ne hc] at has'
        exact h.left c call'' has' aborted
    obtain ⟨b', before, hb', hcall⟩ := hcaller
    by_cases hbb : b = b'
    · subst hbb
      obtain rfl := Option.some.inj (hb.symm.trans hb')
      exact ⟨b, { bridge with answer := some result },
        by rw [bridges, List.getElem?_set_self hlt], hcall⟩
    · exact ⟨b', before, by rw [bridges, List.getElem?_set_ne hbb, hb'], hcall⟩

/-- A caller who looks knows what it has seen, and whom it leaves behind. -/
theorem Bridged.look (h : Bridged w) (b : Nat) : Bridged (w.look b) := by
  unfold World.look
  split
  · exact h
  · next bridge hb =>
    obtain ⟨call, has, hanswers⟩ := h.answers b bridge hb
    split
    · exact h
    · next unanswered =>
      have hkept : call.aborted = false := by
        cases hanswers with
        | waits _ kept => exact kept
        | tells _ _ kept => exact kept
        | left answer =>
          rw [answer] at unanswered
          exact absurd rfl unanswered
      rw [has, Option.bind_some]
      split
      · next result log finished =>
        refine h.answered hb rfl has ?_ (.tells rfl finished hkept)
        obtain ⟨hlt, hcall⟩ := List.getElem?_eq_some_iff.1 has
        exact (hcall ▸ (List.set_getElem_self hlt).symm :)
      · split
        · have hleft : Bridge.Answers { bridge with answer := some (.error .cancelled) }
              { call with aborted := true } := .left rfl rfl
          refine h.answered hb ?_ has ?_ hleft
          · rw [answer, abort]
            dsimp only [note]
            rw [has]
            rfl
          · rw [answer, abort]
            dsimp only [note]
            rw [has]
            rfl
        · exact h

/-- **Every action keeps what callers know.** -/
theorem Bridged.act (h : Bridged w) (s : Setting) (a : Action) : Bridged (w.act s a) := by
  -- a turn changes its call, or nothing
  have hturn {c : Nat} (whose : a.turnOf? = some c) (changes : Changes s w a (w.act s a)) :
      Bridged (w.act s a) := by
    cases changes with
    | nothing calls =>
      have hbridges := turn_bridges (s := s) (w := w) whose
      refine ⟨?_, ?_, ?_⟩
      · rw [hbridges, calls]
        exact h.answers
      · rw [hbridges]
        exact h.distinct
      · rw [hbridges, calls]
        exact h.left
    | turn whose took => exact h.turn took whose
    | joins nobody => cases nobody.symm.trans whose
    | answers look =>
      rw [look] at whose
      cases whose
  cases a with
  | begin line handle => exact h.joins line handle
  | spawn line handle => exact h.spawns line handle
  | look b => exact h.look b
  | poll c => exact hturn rfl (act_changes s w _)
  | step c => exact hturn rfl (act_changes s w _)
  | drop c => exact hturn rfl (act_changes s w _)
  | dispose c => exact hturn rfl (act_changes s w _)
  | addHandle => exact ⟨h.answers, h.distinct, h.left⟩
  | cancel handle => exact ⟨h.answers, h.distinct, h.left⟩
  | wait ms => exact ⟨h.answers, h.distinct, h.left⟩

/-- **What holds of callers and their tasks holds at any time.** -/
theorem bridged_of_run (s : Setting) (actions : List Action) : Bridged (run s start actions) := by
  refine run_induction (P := fun w _ => Bridged w) ?_ (fun _ a h => h.act s a) actions
  refine ⟨fun b bridge hb => ?_, fun b b' bridge bridge' hb => ?_, fun c call has => ?_⟩
  · cases hb
  · cases hb
  · cases has

/-! ### Tasks that were left behind -/

/-- A call that was left behind between two turns can only be given up. -/
theorem Turn.dropped_of_left (turn : Turn s w c call a call' told entries)
    (aborted : call.aborted = true) (asleep : call.awake = false) :
    call'.stage = .dropped ∧ call'.awake = false ∧ told = [] := by
  have hkept (kept : call.aborted = false) : False :=
    Bool.false_ne_true (kept.symm.trans aborted)
  have hawake (awake : call.awake = true) : False :=
    Bool.false_ne_true (asleep.symm.trans awake)
  cases turn with
  | wakes _ _ kept => exact (hkept kept).elim
  | cancelled _ _ kept => exact (hkept kept).elim
  | queues awake => exact (hawake awake).elim
  | enters awake => exact (hawake awake).elim
  | rests awake => exact (hawake awake).elim
  | moves awake => exact (hawake awake).elim
  | tells awake => exact (hawake awake).elim
  | struck awake => exact (hawake awake).elim
  | sleeps awake => exact (hawake awake).elim
  | breaks awake => exact (hawake awake).elim
  | dropped => exact ⟨rfl, rfl, rfl⟩

/-- Whoever was left behind stays left behind. -/
theorem aborted_of_run (has : w.calls[c]? = some call) (aborted : call.aborted = true)
    (later : List Action) :
    ∃ call', (run s w later).calls[c]? = some call' ∧ call'.aborted = true := by
  induction later using List.reverseRecOn with
  | nil => exact ⟨call, has, aborted⟩
  | append_singleton later a ih =>
    obtain ⟨mid, hmid, haborted⟩ := ih
    rw [run_concat]
    obtain ⟨call', told, fares, has', -⟩ := act_fares s hmid a
    generalize (run s w later).reported s c a = entries at fares
    cases fares with
    | same => exact ⟨mid, has', haborted⟩
    | left => exact ⟨_, has', rfl⟩
    | turn turn _ => exact ⟨call', has', turn.kept.2.2.trans haborted⟩

/-- **A task that was left behind between two turns stays as it is**, and says nothing, until it is
given up. -/
theorem left_behind (has : w.calls[c]? = some call) (aborted : call.aborted = true)
    (asleep : call.awake = false) (later : List Action) :
    ∃ call', (run s w later).calls[c]? = some call' ∧ call'.aborted = true ∧
      call'.awake = false ∧ (call'.stage = call.stage ∨ call'.stage = .dropped) ∧
      (run s w later).callbacks c = w.callbacks c := by
  induction later using List.reverseRecOn with
  | nil => exact ⟨call, has, aborted, asleep, .inl rfl, rfl⟩
  | append_singleton later a ih =>
    obtain ⟨mid, hmid, haborted, hasleep, hstage, htold⟩ := ih
    rw [run_concat]
    obtain ⟨call', told, fares, has', htold'⟩ := act_fares s hmid a
    generalize (run s w later).reported s c a = entries at fares
    cases fares with
    | same =>
      exact ⟨mid, has', haborted, hasleep, hstage,
        htold'.trans ((List.append_nil _).trans htold)⟩
    | left =>
      exact ⟨_, has', rfl, hasleep, hstage, htold'.trans ((List.append_nil _).trans htold)⟩
    | turn turn _ =>
      obtain ⟨hdropped, hawake, rfl⟩ := turn.dropped_of_left haborted hasleep
      exact ⟨call', has', turn.kept.2.2.trans haborted, hawake, .inr hdropped,
        htold'.trans ((List.append_nil _).trans htold)⟩

/-- **A call is over, and has neither transport nor lock**, nor a place in the queue. -/
def LetGo (w : World) (c : Nat) : Prop :=
  ∃ call, w.calls[c]? = some call ∧ call.stage.isOver = true ∧
    call.stage.holdsTransport = false ∧ ∀ line, c ∉ (w.locks line).members

theorem Guarded.letGo (h : Guarded w) (has : w.calls[c]? = some call)
    (finished : call.stage.isOver = true) : LetGo w c := by
  have hgone := Stage.standing_of_isOver finished
  refine ⟨call, has, finished, ?_, fun line hc => ?_⟩
  · cases hstage : call.stage <;> first | rfl | (rw [hstage] at finished; cases finished)
  · have huses := ((h.member line c).1 hc).2
    rw [standing_of_has has, hgone] at huses
    cases huses

/-- The runtime gets to a task that was left behind. -/
theorem Guarded.letGo_of_dispose (h : Guarded w) (has : w.calls[c]? = some call)
    (aborted : call.aborted = true) (asleep : call.awake = false) :
    LetGo (w.act s (.dispose c)) c := by
  have hguarded : Guarded (w.act s (.dispose c)) := (act_heeds s w (.dispose c)).guarded h
  cases finished : call.stage.isOver with
  | true =>
    have hsame : w.act s (.dispose c) = w := by
      rw [act, dispose, has]
      dsimp only
      rw [aborted, if_pos rfl, drop, has]
      dsimp only
      rw [finished, Bool.or_true, if_pos rfl]
    rw [hsame]
    exact h.letGo has finished
  | false =>
    have hdropped : (w.act s (.dispose c)).calls[c]? =
        some { call with stage := .dropped, awake := false, wake := none } := by
      have hruns : ¬ (call.awake || call.stage.isOver) = true := by
        rw [asleep, finished]
        exact Bool.false_ne_true
      rw [act, dispose, has]
      dsimp only
      rw [if_pos aborted, drop, has]
      dsimp only
      rw [if_neg hruns, move_calls]
      exact List.getElem?_set_self (List.getElem?_eq_some_iff.1 has).1
    exact hguarded.letGo hdropped rfl

/-- **What is left of a call whose caller was told that it is cancelled.** Who waits itself for a
call is told so when the call is over and has neither transport nor lock. Who has a task do the work
is told so then, or when it leaves the task behind; and a task that was left behind has no further
turn: between its turns it stays as it is whatever happens, and as soon as the runtime gets to it,
it is over as well and has neither transport nor lock. -/
theorem cancelled_lets_go (s : Setting) (actions : List Action) :
    let w := run s start actions
    (∀ c, w.result? c = some (.error .cancelled) → LetGo w c) ∧
    ∀ (b : Nat) (bridge : Bridge), w.bridges[b]? = some bridge →
      bridge.answer = some (.error .cancelled) →
      LetGo w bridge.call ∨
        ∃ call, w.calls[bridge.call]? = some call ∧ call.aborted = true ∧
          ∀ later, ∃ call', (run s w later).calls[bridge.call]? = some call' ∧
            (call.awake = false → call'.stage = call.stage ∨ call'.stage = .dropped) ∧
            (call'.awake = false →
              LetGo ((run s w later).act s (.dispose bridge.call)) bridge.call) := by
  intro w
  have hguarded : Guarded w := guarded_of_run s actions
  refine ⟨fun c hresult => ?_, fun b bridge hb answer => ?_⟩
  · obtain ⟨call, has, hdone⟩ := done_of_result? hresult
    refine hguarded.letGo has ?_
    rw [hdone]
    rfl
  · obtain ⟨call, has, hanswers⟩ := (bridged_of_run s actions).answers b bridge hb
    cases hanswers with
    | waits unanswered => cases unanswered.symm.trans answer
    | tells _ finished => exact .inl (hguarded.letGo has (isOver_of_outcome? finished))
    | left _ aborted =>
      refine .inr ⟨call, has, aborted, fun later => ?_⟩
      obtain ⟨call', has', haborted⟩ := aborted_of_run (s := s) has aborted later
      refine ⟨call', has', fun asleep => ?_, fun asleep => ?_⟩
      · obtain ⟨call'', has'', -, -, hstage, -⟩ := left_behind (s := s) has aborted asleep later
        obtain rfl := Option.some.inj (has''.symm.trans has')
        exact hstage
      · have hlater : Guarded (run s w later) := by
          have hall := guarded_of_run s (actions ++ later)
          rwa [run, List.foldl_append] at hall
        exact hlater.letGo_of_dispose has' haborted asleep

/-! ### A caller that is faster than its task -/

/-- The far side takes five milliseconds to connect. -/
def slowToConnect : Setting :=
  ⟨fun _ => ⟨.standard .sandbox, .prepared .anyone .standard, .young⟩,
    fun _ => ⟨.after 5 (.ok ()), .never, .ofEvents [] true, .never⟩, Callback.entries,
    fun _ _ => .quiet⟩

/-- The task connects when its caller is cancelled, and the caller looks before the task does. -/
def leftConnecting : List Action :=
  [.spawn 0 0, .poll 0, .step 0, .step 0, .step 0, .cancel 0, .look 0]

/-- When the runtime gets to the task that was left behind, nothing is left of it. -/
theorem cancelled_lets_go_slow_to_connect :
    ∃ bridge, (run slowToConnect start leftConnecting).bridges[0]? = some bridge ∧
      bridge.answer = some (.error .cancelled) ∧
      LetGo (run slowToConnect start (leftConnecting ++ [.wait 1, .dispose 0])) 0 := by
  have hbridge : (run slowToConnect start leftConnecting).bridges[0]? =
      some ⟨0, 0, some (.error .cancelled)⟩ := rfl
  refine ⟨_, hbridge, rfl, ?_⟩
  obtain ⟨-, blocking⟩ := cancelled_lets_go slowToConnect leftConnecting
  obtain ⟨call, has, finished, -⟩ | ⟨call, has, -, later⟩ := blocking 0 _ hbridge rfl
  · -- the task is not over
    obtain rfl := Option.some.inj (has.symm.trans
      (rfl : (run slowToConnect start leftConnecting).calls[0]? = some _))
    cases finished
  · obtain ⟨call', has', -, letGo⟩ := later [.wait 1]
    obtain rfl := Option.some.inj (has'.symm.trans
      (rfl : (run slowToConnect start (leftConnecting ++ [.wait 1])).calls[0]? = some _))
    exact letGo rfl

/-- **A caller may be told that it is cancelled while its task connects and has the lock.** -/
theorem cancelled_holds_on :
    ∃ bridge call, (run slowToConnect start leftConnecting).bridges[0]? = some bridge ∧
      bridge.answer = some (.error .cancelled) ∧
      (run slowToConnect start leftConnecting).calls[bridge.call]? = some call ∧
      call.stage.holdsTransport = true ∧
      ((run slowToConnect start leftConnecting).locks call.line).holder? = some bridge.call :=
  ⟨_, _, rfl, rfl, rfl, rfl, rfl⟩

end World

end TokenFeedback
