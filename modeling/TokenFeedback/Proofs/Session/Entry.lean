import TokenFeedback.Proofs.Session.Wanted

/-!
# Ways to have a session done

A caller waits for a session itself, with a cancel handle or without, or has a task do it. As long as
nobody stops the session, this makes no difference. A caller who has a task do it returns what came
of the task if the task is over when it looks, and a cancellation if not and its handle is cancelled.

* `Outcome`: what comes of a task.
* `World.Returns`: what a caller returns if it looks now.
* `World.returns_of_outcome`: **a task that is over is looked at before the handle is.**
* `World.entry_points_agree`: the ways to have a session done, side by side.
-/

namespace TokenFeedback

/-- **What comes of a task**: what its session returned, or what it was broken off with, or, if it
was given up, a cancellation. -/
inductive Outcome : Stage → Except SessionError (List Record) → Prop
  | returned (result : Except SessionError (List Record)) : Outcome (.done result) result
  | text (message : String) : Outcome (.panicked (.text message)) (.error (.panicked message))
  | other : Outcome (.panicked .other) (.error (.panicked "unknown panic"))
  | givenUp : Outcome .dropped (.error .cancelled)

theorem outcome_iff {stage : Stage} {result : Except SessionError (List Record)} :
    Outcome stage result ↔ ∃ log, World.outcome? stage = some (result, log) := by
  constructor
  · intro h
    cases h with
    | returned => exact ⟨_, rfl⟩
    | text => exact ⟨_, rfl⟩
    | other => exact ⟨_, rfl⟩
    | givenUp => exact ⟨_, rfl⟩
  · rintro ⟨log, h⟩
    cases stage with
    | done result =>
      obtain ⟨rfl, -⟩ := Prod.mk.inj (Option.some.inj h)
      exact .returned _
    | panicked p =>
      obtain ⟨rfl, -⟩ := Prod.mk.inj (Option.some.inj h)
      cases p with
      | text message => exact .text message
      | other => exact .other
    | dropped =>
      obtain ⟨rfl, -⟩ := Prod.mk.inj (Option.some.inj h)
      exact .givenUp
    | _ => cases h

namespace World

variable {s : Setting} {w : World} {b : Nat} {bridge : Bridge}
  {result : Except SessionError (List Record)}

/-- A caller that has its answer keeps it. -/
theorem answer_act (hb : w.bridges[b]? = some bridge) (answered : bridge.answer = some result)
    (s : Setting) (a : Action) : (w.act s a).bridges[b]? = some bridge := by
  have hlt : b < w.bridges.length := (List.getElem?_eq_some_iff.1 hb).1
  cases a with
  | begin => exact hb
  | spawn line handle => exact (List.getElem?_append_left hlt).trans hb
  | poll c => rw [turn_bridges rfl, hb]
  | step c => rw [turn_bridges rfl, hb]
  | drop c => rw [turn_bridges rfl, hb]
  | dispose c => rw [turn_bridges rfl, hb]
  | addHandle => exact hb
  | cancel h => exact hb
  | wait ms => exact hb
  | look b' =>
    by_cases hbb : b' = b
    · subst hbb
      rw [act, look, hb]
      simp only [answered, Option.isSome_some, if_true, hb]
    · -- another caller's answer
      have hother (mid : World) (bridges : mid.bridges = w.bridges) (asker : Bridge)
          (result : Except SessionError (List Record)) :
          (mid.answer b' asker result).bridges[b]? = some bridge := by
        simp only [answer, bridges, List.getElem?_set_ne hbb, hb]
      rw [act, look]
      split
      · exact hb
      · split
        · exact hb
        · split
          · exact hother _ rfl _ _
          · split
            · exact hother _ (abort_bridges (w.note [waitCancelledEntry]) _) _ _
            · exact hb

theorem result?_of_done {c : Nat} {call : Call} (has : w.calls[c]? = some call)
    (done : call.stage = .done result) : w.result? c = some result := by
  simp only [result?, has, done]

/-- If the caller looks now, it returns this, and keeps to it. -/
def Returns (s : Setting) (w : World) (b : Nat) (result : Except SessionError (List Record)) :
    Prop :=
  ∀ later, ∃ bridge, (run s (w.act s (.look b)) later).bridges[b]? = some bridge ∧
    bridge.answer = some result

/-- **A caller that finds its task over returns what came of it**, whether its handle is cancelled
or not. -/
theorem returns_of_outcome {call : Call} (hb : w.bridges[b]? = some bridge)
    (unanswered : bridge.answer = none) (has : w.calls[bridge.call]? = some call)
    (came : Outcome call.stage result) : Returns s w b result := by
  obtain ⟨log, houtcome⟩ := outcome_iff.1 came
  have hlt : b < w.bridges.length := (List.getElem?_eq_some_iff.1 hb).1
  have hlooks : (w.act s (.look b)).bridges[b]? = some { bridge with answer := some result } := by
    rw [act, look, hb]
    simp only [unanswered, Option.isSome_none, Bool.false_eq_true, if_false, has,
      Option.bind_some, houtcome, answer, note, List.getElem?_set_self hlt]
  intro later
  refine ⟨{ bridge with answer := some result }, ?_, rfl⟩
  induction later using List.reverseRecOn with
  | nil => exact hlooks
  | append_singleton later a ih =>
    rw [run_concat]
    exact answer_act ih rfl s a

/-- **Every way to have a session done comes to the same**, at any time of any run.

A call whose handle is not cancelled, which its owner does not give up and which does not break
down, is where it would be alone, begun with a handle or without, for a caller that waits or by a
task.

A caller that has a task do the work returns what came of the task; or it returns that it was
cancelled, and its handle is. It returns that it was cancelled only if its handle is cancelled, or
if the task was given up. If the task is over when the caller looks, the caller returns what came of
the task, even if its handle is cancelled; and if nobody stops the session, this is what the session
returned. -/
theorem entry_points_agree (s : Setting) (actions : List Action) :
    let w := run s start actions
    (∀ c call, Unstopped s actions c call → AsAlone s actions c call.line) ∧
    ∀ b bridge, w.bridges[b]? = some bridge →
      ∃ call, w.calls[bridge.call]? = some call ∧ call.handle = some bridge.handle ∧
        (∀ result, bridge.answer = some result → Outcome call.stage result ∨
          result = .error .cancelled ∧ w.handles.isCancelled bridge.handle = true) ∧
        (bridge.answer = some (.error .cancelled) →
          w.handles.isCancelled bridge.handle = true ∨
            call.stage = .dropped ∧ .drop bridge.call ∈ actions) ∧
        (∀ result, bridge.answer = none → Outcome call.stage result → Returns s w b result) ∧
        (Unstopped s actions bridge.call call → ∀ result, bridge.answer = some result →
          w.result? bridge.call = some result ∧ AsAlone s actions bridge.call call.line) := by
  intro w
  have howned : Owned w actions := owned_of_run s actions
  refine ⟨fun c call unstopped => unstopped.asAlone, fun b bridge hb => ?_⟩
  obtain ⟨call, has, hanswers⟩ := (bridged_of_run s actions).answers b bridge hb
  obtain ⟨call', has', hhandle⟩ := howned.bridges b bridge hb
  obtain rfl := Option.some.inj (has'.symm.trans has)
  obtain ⟨hlost, hleft⟩ := howned.calls bridge.call call' has
  have hcancelled : w.isCancelled call' = w.handles.isCancelled bridge.handle := by
    simp only [isCancelled, hhandle]
  rw [hcancelled] at hlost hleft
  have hvalue (result : Except SessionError (List Record))
      (answer : bridge.answer = some result) : Outcome call'.stage result ∨
        result = .error .cancelled ∧ w.handles.isCancelled bridge.handle = true := by
    cases hanswers with
    | waits unanswered => cases unanswered.symm.trans answer
    | @tells result' log answer' finished =>
      obtain rfl := Option.some.inj (answer'.symm.trans answer)
      exact .inl (outcome_iff.2 ⟨log, finished⟩)
    | left answer' aborted =>
      obtain rfl := Option.some.inj (answer'.symm.trans answer)
      exact .inr ⟨rfl, hleft aborted⟩
  refine ⟨call', has, hhandle, hvalue, fun answer => ?_,
    fun result unanswered came => returns_of_outcome hb unanswered has came,
    fun unstopped result answer => ⟨?_, unstopped.asAlone⟩⟩
  · obtain came | ⟨-, raised⟩ := hvalue _ answer
    · -- the session returned the cancellation, or the task was given up
      generalize hstage : call'.stage = stage at came hlost
      cases came with
      | returned =>
        obtain raised | ⟨hdropped, -⟩ | ⟨p, broken⟩ := hlost rfl
        · exact .inl raised
        · cases hdropped
        · cases broken
      | givenUp =>
        obtain raised | given | ⟨p, broken⟩ := hlost rfl
        · exact .inl raised
        · exact .inr given
        · cases broken
    · exact .inl raised
  · have hwanted : w.handles.isCancelled bridge.handle = false :=
      hcancelled.symm.trans unstopped.wanted
    obtain came | ⟨-, raised⟩ := hvalue result answer
    · have hkept := unstopped.isLost
      generalize hstage : call'.stage = stage at came hkept
      cases came with
      | returned => exact result?_of_done has hstage
      | text => cases hkept
      | other => cases hkept
      | givenUp => cases hkept
    · exact absurd (hwanted.symm.trans raised) Bool.false_ne_true

/-! ### Three callers, and one whose task breaks down -/

/-- Every peer refuses, and the tenth notice is too much for the observer. -/
def fragile : Setting :=
  ⟨fun _ => ⟨.standard .sandbox, .prepared .anyone .standard, .young⟩,
    fun _ => .refused (.system 111),
    Callback.entries,
    fun earlier _ => if earlier.length = 9 then .panics (.text "out of paper") else .quiet⟩

/-- All the turns of a call that is refused. -/
def refusedTurns (c : Nat) : List Action :=
  [.poll c, .step c, .step c, .step c, .step c, .step c]

/-- Three ways to have a session done, one behind the other. -/
def threeWays : List Action :=
  [.begin 0 none, .begin 0 (some 0), .spawn 0 0] ++ refusedTurns 0 ++ refusedTurns 1 ++
    refusedTurns 2 ++ [.look 0]

/-- A fourth call breaks down, and its caller is cancelled before it looks. -/
def brokenOff : List Action :=
  threeWays ++ [.spawn 0 0] ++ (refusedTurns 3).take 3 ++ [.cancel 0]

/-- What a call comes to whose peer refuses. -/
def refusedError : SessionError := .connect "feedback.sandbox.push.apple.com:2196" (.system 111)

/-- Three callers of a peer that refuses return the same; and a caller whose task has broken down
returns what broke it off, though its handle is cancelled. -/
theorem entry_points_agree_refused :
    AsAlone fragile threeWays 0 0 ∧ AsAlone fragile threeWays 1 0 ∧
      AsAlone fragile threeWays 2 0 ∧
      (run fragile start threeWays).result? 2 = some (.error refusedError) ∧
      (run fragile start brokenOff).handles.isCancelled 0 = true ∧
      Returns fragile (run fragile start brokenOff) 1 (.error (.panicked "out of paper")) := by
  have hfirst : (run fragile start threeWays).calls[0]? =
      some ⟨0, none, .done (.error refusedError), false, none, false⟩ := rfl
  have hsecond : (run fragile start threeWays).calls[1]? =
      some ⟨0, some 0, .done (.error refusedError), false, none, false⟩ := rfl
  have hthird : (run fragile start threeWays).calls[2]? =
      some ⟨0, some 0, .done (.error refusedError), false, none, false⟩ := rfl
  have hwaits : (run fragile start threeWays).bridges[0]? =
      some ⟨2, 0, some (.error refusedError)⟩ := rfl
  have hwanted : (run fragile start threeWays).handles.isCancelled 0 = false := rfl
  obtain ⟨hcalls, hbridges⟩ := entry_points_agree fragile threeWays
  have hdrained := hcalls 0 _ ⟨hfirst, rfl, by decide, fun p h => (by cases h)⟩
  have hcancellable := hcalls 1 _ ⟨hsecond, hwanted, by decide, fun p h => (by cases h)⟩
  obtain ⟨call, has, -, -, -, -, htask⟩ := hbridges 0 _ hwaits
  obtain rfl := Option.some.inj (has.symm.trans hthird)
  obtain ⟨hresult, htasked⟩ :=
    htask ⟨hthird, hwanted, by decide, fun p h => (by cases h)⟩ _ rfl
  refine ⟨hdrained, hcancellable, htasked, hresult, rfl, ?_⟩
  have hfourth : (run fragile start brokenOff).calls[3]? =
      some ⟨0, some 0, .panicked (.text "out of paper"), false, none, false⟩ := rfl
  have hleft : (run fragile start brokenOff).bridges[1]? = some ⟨3, 0, none⟩ := rfl
  obtain ⟨-, hbroken⟩ := entry_points_agree fragile brokenOff
  obtain ⟨call, has, -, -, -, hreturns, -⟩ := hbroken 1 _ hleft
  obtain rfl := Option.some.inj (has.symm.trans hfourth)
  exact hreturns _ rfl (.text "out of paper")

end World

end TokenFeedback
