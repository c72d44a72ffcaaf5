import TokenFeedback.Session.World

/-!
# What an action does

An action gives one call its turn, or adds a call, or leaves one behind, or does nothing to any of
them. What a turn does to its call hangs on the call's own stage; the other calls are untouched.

* `World.Turn`: **all that a turn can do to a call**, with the notices that it makes and the entries
  that it reports.
* `World.act_changes`: all that an action can do to a world.
* `World.callbacks`, `World.reported`: what the observer was told by a call, and what the call
  reports in an action.
* `World.run_calls`: what holds of a new call, and is kept by its turns, holds of the calls of any
  run.
-/

namespace TokenFeedback

namespace World

/-- **All that a turn can do to a call** of a world: the call as it is left, its notices, and the
entries of its report. -/
inductive Turn (s : Setting) (w : World) (c : Nat) (call : Call) :
    Action → Call → List Callback → List LogEntry → Prop
  /-- Its turn begins. -/
  | wakes (asleep : call.awake = false) (runs : call.stage.isOver = false)
      (kept : call.aborted = false) (wanted : w.isCancelled call = false) :
      Turn s w c call (.poll c) { call with awake := true, wake := none } [] (opening s call)
  /-- Its turn begins, and it was cancelled. -/
  | cancelled (asleep : call.awake = false) (runs : call.stage.isOver = false)
      (kept : call.aborted = false) (unwanted : w.isCancelled call = true) :
      Turn s w c call (.poll c)
        { call with stage := .failing .cancelled, awake := true, wake := none } []
        (opening s call ++ [cancelledEntry])
  /-- It asks for the lock in vain. -/
  | queues (awake : call.awake = true) (fresh : call.stage = .fresh) :
      Turn s w c call (.step c) { call with stage := .queued, awake := false } [] []
  /-- It gets the lock, or finds that it has it. -/
  | enters (awake : call.awake = true) (waits : call.stage = .fresh ∨ call.stage = .queued) :
      Turn s w c call (.step c) { call with stage := .admitted } [] []
  /-- It goes on waiting for the lock. -/
  | rests (awake : call.awake = true) (waits : call.stage = .queued) :
      Turn s w c call (.step c) { call with awake := false } [] []
  | moves {log next} (awake : call.awake = true)
      (step : call.stage.step (s.connection call.line) w.now (s.network w.dialled) =
        .moves none log next) :
      Turn s w c call (.step c)
        { call with stage := next, awake := !next.isOver, wake := none } [] log
  | tells {callback log next} (awake : call.awake = true)
      (step : call.stage.step (s.connection call.line) w.now (s.network w.dialled) =
        .moves (some callback) log next)
      (calm : ∀ p, s.reaction w.notices callback ≠ .panics p) :
      Turn s w c call (.step c)
        { call with stage := next, awake := !next.isOver, wake := none } [callback]
        (s.report callback ++ log)
  /-- The observer breaks it off. -/
  | struck {callback log next p} (awake : call.awake = true)
      (step : call.stage.step (s.connection call.line) w.now (s.network w.dialled) =
        .moves (some callback) log next)
      (panics : s.reaction w.notices callback = .panics p) :
      Turn s w c call (.step c)
        { call with stage := .panicked p, awake := false, wake := none } [callback]
        (s.report callback)
  | sleeps {wake log stage} (awake : call.awake = true) (begun : call.stage ≠ .fresh)
      (admitted : call.stage ≠ .queued)
      (step : call.stage.step (s.connection call.line) w.now (s.network w.dialled) =
        .sleeps wake log stage) :
      Turn s w c call (.step c) { call with stage := stage, awake := false, wake := wake } [] log
  | breaks {message log} (awake : call.awake = true)
      (step : call.stage.step (s.connection call.line) w.now (s.network w.dialled) =
        .breaks message log) :
      Turn s w c call (.step c)
        { call with stage := .panicked (.text message), awake := false, wake := none } [] log
  /-- It is given up. -/
  | dropped {a} (given : a = .drop c ∨ a = .dispose c ∧ call.aborted = true)
      (asleep : call.awake = false) (runs : call.stage.isOver = false) :
      Turn s w c call a { call with stage := .dropped, awake := false, wake := none } [] []

/-- A call stays what it was made as. -/
theorem Turn.kept {s : Setting} {w : World} {c : Nat} {call call' : Call} {a : Action}
    {told : List Callback} {entries : List LogEntry} (turn : Turn s w c call a call' told entries) :
    call'.line = call.line ∧ call'.handle = call.handle ∧ call'.aborted = call.aborted := by
  cases turn <;> exact ⟨rfl, rfl, rfl⟩

/-- The call whose turn an action is. -/
def Action.turnOf? : Action → Option Nat
  | .poll c => some c
  | .step c => some c
  | .drop c => some c
  | .dispose c => some c
  | _ => none

/-- A call has had a turn. -/
inductive Took (s : Setting) (w : World) (c : Nat) (a : Action) (w' : World) : Prop
  | intro {call call' told entries} (has : w.calls[c]? = some call)
      (turn : Turn s w c call a call' told entries) (calls : w'.calls = w.calls.set c call')
      (notices : w'.notices = w.notices ++ told.map (Notice.mk c)) (log : w'.log = w.log ++ entries)
      (now : w'.now = w.now)

/-- **All that an action can do to a world**, as far as it shows in the calls, the notices, the log
and the time. -/
inductive Changes (s : Setting) (w : World) (a : Action) (w' : World) : Prop
  | nothing (calls : w'.calls = w.calls) (notices : w'.notices = w.notices) (log : w'.log = w.log)
      (now : w.now ≤ w'.now)
  | turn {c} (whose : a.turnOf? = some c) (took : Took s w c a w')
  /-- There is one more call. -/
  | joins {line handle} (whose : a.turnOf? = none)
      (calls : w'.calls = w.calls ++ [⟨line, handle, .fresh, false, none, false⟩])
      (notices : w'.notices = w.notices) (now : w'.now = w.now)
  /-- Whoever waited for a call has an answer, and may have left the call behind. -/
  | answers {b} (whose : a = .look b)
      (calls : w'.calls = w.calls ∨
        ∃ c call, w.calls[c]? = some call ∧ w'.calls = w.calls.set c { call with aborted := true })
      (notices : w'.notices = w.notices) (now : w'.now = w.now)

/-! ### Parts of the world that an operation leaves alone -/

variable (w : World) (c : Nat) (call : Call) (next : Stage)

@[simp] theorem move_calls : (w.move c call next).calls =
    w.calls.set c { call with stage := next, awake := !next.isOver, wake := none } := by
  unfold move
  split <;> rfl

@[simp] theorem move_notices : (w.move c call next).notices = w.notices := by
  unfold move
  split <;> rfl

@[simp] theorem move_log : (w.move c call next).log = w.log := by
  unfold move
  split <;> rfl

@[simp] theorem move_now : (w.move c call next).now = w.now := by
  unfold move
  split <;> rfl

variable {w c call} {s : Setting}

/-- A call that sleeps and runs gets its turn. -/
theorem poll_took (has : w.calls[c]? = some call) (asleep : call.awake = false)
    (runs : call.stage.isOver = false) (kept : call.aborted = false) :
    Took s w c (.poll c) (w.poll s c) := by
  have hopen : ¬ (call.awake || call.stage.isOver || call.aborted) = true := by
    rw [asleep, runs, kept]
    exact Bool.false_ne_true
  rw [poll, has]
  dsimp only
  rw [if_neg hopen]
  split
  · next unwanted =>
    refine ⟨has, .cancelled asleep runs kept unwanted, ?_, ?_, ?_, ?_⟩
    · exact move_calls _ c call _
    · exact (move_notices _ c call _).trans (List.append_nil _).symm
    · exact (congrArg (· ++ [cancelledEntry]) (move_log _ c call _)).trans
        (List.append_assoc _ _ _)
    · exact move_now _ c call _
  · next wanted =>
    exact ⟨has, .wakes asleep runs kept (Bool.eq_false_iff.2 wanted), rfl,
      (List.append_nil _).symm, rfl, rfl⟩

/-- A call that has not begun asks for the lock. -/
theorem enter_took (has : w.calls[c]? = some call) (awake : call.awake = true)
    (fresh : call.stage = .fresh) : Took s w c (.step c) (w.enter c call) := by
  unfold enter
  dsimp only
  split
  · exact ⟨has, .enters awake (.inl fresh), rfl, (List.append_nil _).symm,
      (List.append_nil _).symm, rfl⟩
  · exact ⟨has, .queues awake fresh, rfl, (List.append_nil _).symm, (List.append_nil _).symm, rfl⟩

/-- What a notice leaves alone, and how it ends. -/
theorem tell_cases (s : Setting) (w : World) (c : Nat) (callback : Callback) :
    (tell s w c callback).1.calls = w.calls ∧
      (tell s w c callback).1.notices = w.notices ++ [⟨c, callback⟩] ∧
      (tell s w c callback).1.log = w.log ++ s.report callback ∧
      (tell s w c callback).1.now = w.now ∧
      ((tell s w c callback).2 = none ∧ (∀ p, s.reaction w.notices callback ≠ .panics p) ∨
        ∃ p, (tell s w c callback).2 = some p ∧ s.reaction w.notices callback = .panics p) := by
  unfold tell
  cases h : s.reaction w.notices callback with
  | quiet => exact ⟨rfl, rfl, rfl, rfl, .inl ⟨rfl, fun p hp => (by cases hp)⟩⟩
  | cancels handle => exact ⟨rfl, rfl, rfl, rfl, .inl ⟨rfl, fun p hp => (by cases hp)⟩⟩
  | panics p => exact ⟨rfl, rfl, rfl, rfl, .inr ⟨p, rfl, rfl⟩⟩

theorem countDial_eq (w : World) (next : Stage) :
    ∃ dialled, w.countDial next = { w with dialled := dialled } := by
  unfold countDial
  split
  · exact ⟨_, rfl⟩
  · exact ⟨w.dialled, rfl⟩

/-- A call that has the lock or needs it no more makes its next step. -/
theorem apply_took (has : w.calls[c]? = some call) (awake : call.awake = true)
    (begun : call.stage ≠ .fresh) (admitted : call.stage ≠ .queued) :
    Took s w c (.step c) (w.apply s c call
      (call.stage.step (s.connection call.line) w.now (s.network w.dialled))) := by
  generalize step : call.stage.step (s.connection call.line) w.now (s.network w.dialled) = progress
  cases progress with
  | sleeps wake log stage =>
    exact ⟨has, .sleeps awake begun admitted step, rfl, (List.append_nil _).symm, rfl, rfl⟩
  | breaks message log =>
    exact ⟨has, .breaks awake step, move_calls _ c call _,
      (move_notices _ c call _).trans (List.append_nil _).symm, move_log _ c call _,
      move_now _ c call _⟩
  | moves notice log next =>
    cases notice with
    | none =>
      exact ⟨has, .moves awake step, move_calls _ c call _,
        (move_notices _ c call _).trans (List.append_nil _).symm,
        congrArg (· ++ log) (move_log _ c call _), move_now _ c call _⟩
    | some callback =>
      obtain ⟨hcalls, hnotices, hlog, hnow, hend⟩ := tell_cases s w c callback
      rw [apply]
      rcases htell : tell s w c callback with ⟨w', answer⟩
      rw [htell] at hcalls hnotices hlog hnow hend
      dsimp only at hcalls hnotices hlog hnow hend
      obtain ⟨rfl, calm⟩ | ⟨p, rfl, panics⟩ := hend
      · obtain ⟨dialled, hd⟩ := countDial_eq w' next
        dsimp only
        refine ⟨has, .tells awake step calm, ?_, ?_, ?_, ?_⟩
        · rw [hd, note, move_calls, hcalls]
        · rw [hd, note, move_notices, hnotices]
          rfl
        · rw [hd, note, move_log, hlog, List.append_assoc]
        · rw [hd, note, move_now, hnow]
      · dsimp only
        refine ⟨has, .struck awake step panics, ?_, ?_, ?_, ?_⟩
        · rw [move_calls, hcalls]
          rfl
        · rw [move_notices, hnotices]
          rfl
        · rw [move_log, hlog]
        · rw [move_now, hnow]

/-- A call whose turn it is makes its next step. -/
theorem step_took (has : w.calls[c]? = some call) (awake : call.awake = true) :
    Took s w c (.step c) (w.step s c) := by
  have hturn : ¬ (!call.awake) = true := by
    rw [awake]
    exact Bool.false_ne_true
  rw [step, has]
  dsimp only
  rw [if_neg hturn]
  split
  · next fresh => exact enter_took has awake fresh
  · next queued =>
    split
    · exact ⟨has, .enters awake (.inr queued), rfl, (List.append_nil _).symm,
        (List.append_nil _).symm, rfl⟩
    · exact ⟨has, .rests awake queued, rfl, (List.append_nil _).symm, (List.append_nil _).symm, rfl⟩
  · next begun admitted => exact apply_took has awake begun admitted

theorem poll_changes (s : Setting) (w : World) (c : Nat) : Changes s w (.poll c) (w.poll s c) := by
  cases has : w.calls[c]? with
  | none =>
    rw [poll, has]
    exact .nothing rfl rfl rfl (Nat.le_refl _)
  | some call =>
    by_cases h : (call.awake || call.stage.isOver || call.aborted) = true
    · rw [poll, has]
      dsimp only
      rw [if_pos h]
      exact .nothing rfl rfl rfl (Nat.le_refl _)
    · simp only [Bool.or_eq_true, not_or, Bool.not_eq_true] at h
      exact .turn rfl (poll_took has h.1.1 h.1.2 h.2)

theorem step_changes (s : Setting) (w : World) (c : Nat) : Changes s w (.step c) (w.step s c) := by
  cases has : w.calls[c]? with
  | none =>
    rw [step, has]
    exact .nothing rfl rfl rfl (Nat.le_refl _)
  | some call =>
    cases awake : call.awake with
    | false =>
      rw [step, has]
      dsimp only
      rw [awake]
      exact .nothing rfl rfl rfl (Nat.le_refl _)
    | true => exact .turn rfl (step_took has awake)

theorem drop_changes {a : Action} (s : Setting) (has : w.calls[c]? = some call)
    (given : a = .drop c ∨ a = .dispose c ∧ call.aborted = true) : Changes s w a (w.drop c) := by
  have whose : a.turnOf? = some c := by
    obtain rfl | ⟨rfl, -⟩ := given
    · rfl
    · rfl
  rw [drop, has]
  dsimp only
  split
  · exact .nothing rfl rfl rfl (Nat.le_refl _)
  · next h =>
    simp only [Bool.or_eq_true, not_or, Bool.not_eq_true] at h
    exact .turn whose ⟨has, .dropped given h.1 h.2, move_calls w c call _,
      (move_notices w c call _).trans (List.append_nil _).symm,
      (move_log w c call _).trans (List.append_nil _).symm, move_now w c call _⟩

theorem look_changes (s : Setting) (w : World) (b : Nat) : Changes s w (.look b) (w.look b) := by
  unfold look
  split
  · exact .nothing rfl rfl rfl (Nat.le_refl _)
  · next bridge _ =>
    split
    · exact .nothing rfl rfl rfl (Nat.le_refl _)
    · split
      · exact .answers rfl (.inl rfl) rfl rfl
      · split
        · unfold abort
          split
          · exact .answers rfl (.inl rfl) rfl rfl
          · next call has => exact .answers rfl (.inr ⟨bridge.call, call, has, rfl⟩) rfl rfl
        · exact .nothing rfl rfl rfl (Nat.le_refl _)

/-- **All that an action can do.** -/
theorem act_changes (s : Setting) (w : World) (a : Action) : Changes s w a (w.act s a) := by
  cases a with
  | begin line handle => exact .joins rfl rfl rfl rfl
  | spawn line handle => exact .joins rfl rfl rfl rfl
  | poll c => exact poll_changes s w c
  | step c => exact step_changes s w c
  | drop c =>
    cases has : w.calls[c]? with
    | none =>
      rw [act, drop, has]
      exact .nothing rfl rfl rfl (Nat.le_refl _)
    | some call => exact drop_changes s has (.inl rfl)
  | dispose c =>
    rw [act, dispose]
    split
    · exact .nothing rfl rfl rfl (Nat.le_refl _)
    · next call has =>
      split
      · next left => exact drop_changes s has (.inr ⟨rfl, left⟩)
      · exact .nothing rfl rfl rfl (Nat.le_refl _)
  | look b => exact look_changes s w b
  | addHandle => exact .nothing rfl rfl rfl (Nat.le_refl _)
  | cancel h => exact .nothing rfl rfl rfl (Nat.le_refl _)
  | wait ms => exact .nothing rfl rfl rfl (Nat.le_add_right _ _)

/-! ### One call among others -/

/-- What the observer was told by a call. -/
def callbacks (w : World) (c : Nat) : List Callback :=
  (w.notices.filter fun n => n.call = c).map Notice.callback

/-- A call that was told what to return has returned. -/
theorem done_of_result? {result : Except SessionError (List Record)}
    (h : w.result? c = some result) :
    ∃ call, w.calls[c]? = some call ∧ call.stage = .done result := by
  unfold result? at h
  split at h
  · next call has =>
    split at h
    · next hdone =>
      obtain rfl := Option.some.inj h
      exact ⟨call, has, hdone⟩
    · cases h
  · cases h

/-- What a call reports in an action. -/
def reported (s : Setting) (w : World) (c : Nat) (a : Action) : List LogEntry :=
  if a.turnOf? = some c then (w.act s a).log.drop w.log.length else []

/-- **What an action does to one call**: nothing, or it is left behind, or it has its turn. -/
inductive Fares (s : Setting) (w : World) (a : Action) (c : Nat) (call : Call) :
    Call → List Callback → List LogEntry → Prop
  | same : Fares s w a c call call [] []
  | left {b} (whose : a = .look b) : Fares s w a c call { call with aborted := true } [] []
  | turn {call' told entries} (turn : Turn s w c call a call' told entries)
      (now : (w.act s a).now = w.now) : Fares s w a c call call' told entries

theorem filter_map_mk (c c' : Nat) (told : List Callback) :
    ((told.map (Notice.mk c')).filter fun n => n.call = c).map Notice.callback =
      if c' = c then told else [] := by
  split
  · next h =>
    subst h
    rw [List.filter_eq_self.2, List.map_map]
    · exact List.map_id told
    · intro n hn
      obtain ⟨_, -, rfl⟩ := List.mem_map.1 hn
      exact decide_eq_true rfl
  · next h =>
    rw [List.filter_eq_nil_iff.2, List.map_nil]
    intro n hn
    obtain ⟨_, -, rfl⟩ := List.mem_map.1 hn
    simpa using h

/-- What a call does in its turn, what it tells and what it reports. -/
theorem Took.turn {a : Action} (h : Took s w c a (w.act s a)) (whose : a.turnOf? = some c)
    (has : w.calls[c]? = some call) :
    ∃ call' told, Turn s w c call a call' told (w.reported s c a) ∧
      (w.act s a).calls[c]? = some call' ∧ (w.act s a).callbacks c = w.callbacks c ++ told ∧
      (w.act s a).now = w.now := by
  obtain ⟨has', turn, calls, notices, log, now⟩ := h
  obtain rfl := Option.some.inj (has'.symm.trans has)
  have hlt : c < w.calls.length := (List.getElem?_eq_some_iff.1 has).1
  rw [reported, if_pos whose, log, List.drop_left, callbacks, notices, List.filter_append,
    List.map_append, filter_map_mk, if_pos rfl, calls, List.getElem?_set_self hlt]
  exact ⟨_, _, turn, rfl, rfl, now⟩

/-- A turn of a call does nothing to the other calls. -/
theorem Took.other {a : Action} {c' : Nat} (h : Took s w c' a (w.act s a))
    (whose : a.turnOf? = some c') (other : c' ≠ c) :
    w.reported s c a = [] ∧ (w.act s a).calls[c]? = w.calls[c]? ∧
      (w.act s a).callbacks c = w.callbacks c ++ [] := by
  obtain ⟨-, -, calls, notices, -, -⟩ := h
  have hwhose : a.turnOf? ≠ some c := fun h => other (Option.some.inj (whose.symm.trans h))
  rw [reported, if_neg hwhose, calls, List.getElem?_set_ne other, callbacks, notices,
    List.filter_append, List.map_append, filter_map_mk, if_neg other]
  exact ⟨rfl, rfl, rfl⟩

/-- **What an action does to one call**, to what it has told and to its report. -/
theorem act_fares (s : Setting) (has : w.calls[c]? = some call) (a : Action) :
    ∃ call' told, Fares s w a c call call' told (w.reported s c a) ∧
      (w.act s a).calls[c]? = some call' ∧ (w.act s a).callbacks c = w.callbacks c ++ told := by
  have hlt : c < w.calls.length := (List.getElem?_eq_some_iff.1 has).1
  -- an action that is nobody's turn reports nothing
  have hnone (whose : a.turnOf? = none) : w.reported s c a = [] := by
    rw [reported, whose]
    exact if_neg (Option.some_ne_none c).symm
  have htold (notices : (w.act s a).notices = w.notices) :
      (w.act s a).callbacks c = w.callbacks c ++ [] := by
    rw [callbacks, notices, List.append_nil, callbacks]
  cases act_changes s w a with
  | nothing calls notices log now =>
    refine ⟨call, [], ?_, by rw [calls, has], htold notices⟩
    have : w.reported s c a = [] := by
      rw [reported, log, List.drop_length, ite_self]
    rw [this]
    exact .same
  | @turn c' whose took =>
    by_cases hc : c' = c
    · subst hc
      obtain ⟨call', told, turn, hcall, hcallbacks, hnow⟩ := took.turn whose has
      exact ⟨call', told, .turn turn hnow, hcall, hcallbacks⟩
    · obtain ⟨hreported, hcalls, hcallbacks⟩ := took.other whose hc
      rw [hreported]
      exact ⟨call, [], .same, hcalls.trans has, hcallbacks⟩
  | joins whose calls notices now =>
    rw [hnone whose]
    exact ⟨call, [], .same, by rw [calls, List.getElem?_append_left hlt, has], htold notices⟩
  | answers whose calls notices now =>
    rw [hnone (whose ▸ rfl)]
    obtain calls | ⟨c', call', has', calls⟩ := calls
    · exact ⟨call, [], .same, by rw [calls, has], htold notices⟩
    · by_cases hc : c' = c
      · subst hc
        obtain rfl := Option.some.inj (has'.symm.trans has)
        exact ⟨_, [], .left whose, by rw [calls, List.getElem?_set_self hlt], htold notices⟩
      · exact ⟨call, [], .same, by rw [calls, List.getElem?_set_ne hc, has], htold notices⟩

/-! ### Runs -/

theorem run_concat (s : Setting) (w : World) (actions : List Action) (a : Action) :
    run s w (actions ++ [a]) = (run s w actions).act s a :=
  List.foldl_append

/-- Something holds of every call and of what it has told, and only calls have told something. -/
structure All (P : Nat → Call → List Callback → Prop) (w : World) : Prop where
  calls : ∀ c call, w.calls[c]? = some call → P c call (w.callbacks c)
  notices : ∀ n ∈ w.notices, n.call < w.calls.length

section
variable {P : Nat → Call → List Callback → Prop}
  (new : ∀ c line handle, P c ⟨line, handle, .fresh, false, none, false⟩ [])
  (left : ∀ c call told, P c call told → P c { call with aborted := true } told)
include new left

/-- What holds of new calls, and is kept when a call is left behind and by the turns in a world, is
kept by any action there. -/
theorem All.act {a : Action} (h : All P w)
    (turn : ∀ c call call' told more entries, w.calls[c]? = some call → P c call told →
      Turn s w c call a call' more entries → P c call' (told ++ more)) : All P (w.act s a) := by
  have hold {c : Nat} {call call' : Call} (has : w.calls[c]? = some call)
      (has' : (w.act s a).calls[c]? = some call') : P c call' ((w.act s a).callbacks c) := by
    obtain ⟨call'', told, fares, hcall, htold⟩ := act_fares s has a
    obtain rfl := Option.some.inj (hcall.symm.trans has')
    rw [htold]
    generalize w.reported s c a = entries at fares
    cases fares with
    | same => exact (List.append_nil _).symm ▸ h.calls c call has
    | left => exact (List.append_nil _).symm ▸ left _ _ _ (h.calls c call has)
    | turn hturn _ => exact turn _ _ _ _ _ _ has (h.calls c call has) hturn
  have hset {c' : Nat} {call' : Call} (calls : (w.act s a).calls = w.calls.set c' call') {c : Nat}
      {call : Call} (hc : (w.act s a).calls[c]? = some call) :
      P c call ((w.act s a).callbacks c) := by
    have hlt := (List.getElem?_eq_some_iff.1 hc).1
    rw [calls, List.length_set] at hlt
    exact hold (List.getElem?_eq_getElem hlt) hc
  cases act_changes s w a with
  | nothing calls notices log now =>
    exact ⟨fun c call hc => hold (calls ▸ hc) hc, by rw [calls, notices]; exact h.notices⟩
  | turn whose took =>
    obtain ⟨has, -, calls, notices, -, -⟩ := took
    refine ⟨fun c call hc => hset calls hc, ?_⟩
    rw [calls, notices, List.length_set]
    intro n hn
    rcases List.mem_append.1 hn with hn | hn
    · exact h.notices n hn
    · obtain ⟨_, -, rfl⟩ := List.mem_map.1 hn
      exact (List.getElem?_eq_some_iff.1 has).1
  | joins whose calls notices now =>
    refine ⟨fun c call hc => ?_, ?_⟩
    · by_cases hlt : c < w.calls.length
      · exact hold (List.getElem?_eq_getElem hlt) hc
      · -- the call is new, so it has told nothing
        rw [calls, List.getElem?_append_right (Nat.not_lt.1 hlt)] at hc
        have hcall := List.mem_singleton.1 (List.mem_of_getElem? hc)
        have htold : (w.act s a).callbacks c = [] := by
          rw [callbacks, notices, List.filter_eq_nil_iff.2, List.map_nil]
          intro n hn hcn
          exact hlt (of_decide_eq_true hcn ▸ h.notices n hn)
        rw [htold, hcall]
        exact new _ _ _
    · rw [calls, notices, List.length_append]
      exact fun n hn => Nat.lt_add_right _ (h.notices n hn)
  | answers whose calls notices now =>
    obtain calls | ⟨c', call', -, calls⟩ := calls
    · exact ⟨fun c call hc => hold (calls ▸ hc) hc, by rw [calls, notices]; exact h.notices⟩
    · refine ⟨fun c call hc => hset calls hc, ?_⟩
      rw [calls, notices, List.length_set]
      exact h.notices

/-- **What holds of new calls, and is kept when a call is left behind and by turns, holds of every
call at any time of a run**, and of what it has told. A turn may be looked at in the world in which
it is had. -/
theorem run_calls (actions : List Action)
    (turn : ∀ n a c call call' told more entries,
      (run s start (actions.take n)).calls[c]? = some call → P c call told →
      Turn s (run s start (actions.take n)) c call a call' more entries → P c call' (told ++ more))
    (n : Nat) : All P (run s start (actions.take n)) := by
  induction n with
  | zero => exact ⟨fun c call hc => (by cases hc), fun n hn => absurd hn List.not_mem_nil⟩
  | succ n ih =>
    rw [List.take_add_one]
    cases actions[n]? with
    | none => rwa [Option.toList_none, List.append_nil]
    | some a =>
      rw [Option.toList_some, run_concat]
      exact ih.act new left (turn n a)

end

theorem now_le_act (s : Setting) (w : World) (a : Action) : w.now ≤ (w.act s a).now := by
  cases act_changes s w a with
  | nothing calls notices log now => exact now
  | turn whose took =>
    obtain ⟨-, -, -, -, -, now⟩ := took
    exact Nat.le_of_eq now.symm
  | joins whose calls notices now => exact Nat.le_of_eq now.symm
  | answers whose calls notices now => exact Nat.le_of_eq now.symm

/-- Time does not go back. -/
theorem now_take_le (s : Setting) (w : World) (actions : List Action) (n : Nat) :
    (run s w (actions.take n)).now ≤ (run s w actions).now := by
  induction actions generalizing w n with
  | nil => exact Nat.le_of_eq (by rw [List.take_nil])
  | cons a later ih =>
    cases n with
    | zero => exact Nat.le_trans (now_le_act s w a) (ih (w.act s a) 0)
    | succ n => exact ih (w.act s a) n

end World

end TokenFeedback
