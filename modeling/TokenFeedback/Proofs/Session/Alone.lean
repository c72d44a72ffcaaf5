import TokenFeedback.Proofs.Session.Order
import TokenFeedback.Proofs.Session.Step

/-!
# A call among others, and the same call alone

What a call returns hangs on nobody but its own far side: let it be the only call of a world, let
its dial meet what it met among the others, give it the same turns at the same times, and leave out
only its turns in the queue.

* `World.ownTurn`, `World.alone`: the actions of a run that are left for a call when it is alone.
* `World.solo`: the world of a call that is alone.
* `World.Mirrors`, `World.mirrors_of_run`: **the call that is alone keeps up with the call among the
  others**, unless that one is cancelled, given up or broken off.
* `World.result_alone`: so both return the same, and tell the same.
-/

namespace TokenFeedback

namespace Stage

/-- Has the call been cancelled or given up, or has it broken down? -/
def isLost : Stage → Bool
  | failing e => e.isCancelled
  | failed e => e.isCancelled
  | done (.error e) => e.isCancelled
  | panicked _ => true
  | dropped => true
  | _ => false

theorem isLost_step {stage : Stage} (lost : stage.isLost = true) (k : Connection) (now : Nat)
    (link : Link) : (stage.step k now link).next.isLost = true := by
  cases stage <;> first | exact lost | cases lost

theorem isLate_of_isLost {stage : Stage} (lost : stage.isLost = true) :
    stage.standing.isLate = true := by
  cases stage <;> first | rfl | cases lost

theorem begun_of_isLate {stage : Stage} (late : stage.standing.isLate = true) :
    stage ≠ .fresh ∧ stage ≠ .queued ∧ stage ≠ .admitted := by
  refine ⟨?_, ?_, ?_⟩ <;>
  · rintro rfl
    cases late

end Stage

/-- The same connections, one far side, and an observer who does nothing. -/
def Setting.alone (s : Setting) (link : Link) : Setting :=
  { s with network := fun _ => link, reaction := fun _ _ => .quiet }

namespace World

variable {s : Setting} {w : World} {c : Nat} {call call' : Call} {a : Action}
  {told : List Callback} {entries : List LogEntry}

theorem Turn.isLost (turn : Turn s w c call a call' told entries)
    (lost : call.stage.isLost = true) : call'.stage.isLost = true := by
  have hstep := call.stage.isLost_step lost (s.connection call.line) w.now (s.network w.dialled)
  obtain ⟨hfresh, hqueued, -⟩ := Stage.begun_of_isLate (Stage.isLate_of_isLost lost)
  cases turn with
  | wakes => exact lost
  | cancelled => rfl
  | queues _ fresh => exact absurd fresh hfresh
  | enters _ waits =>
    obtain fresh | queued := waits
    · exact absurd fresh hfresh
    · exact absurd queued hqueued
  | rests => exact lost
  | moves _ step =>
    rw [step] at hstep
    exact hstep
  | tells _ step =>
    rw [step] at hstep
    exact hstep
  | struck => rfl
  | sleeps _ _ _ step =>
    rw [step] at hstep
    exact hstep
  | breaks => rfl
  | dropped => rfl

/-- Without a step of its own a call stays where it is, or is lost. -/
theorem Turn.stays (turn : Turn s w c call a call' told entries) (other : a ≠ .step c) :
    told = [] ∧ (call'.stage = call.stage ∨ call'.stage.isLost = true) := by
  cases turn with
  | wakes => exact ⟨rfl, .inl rfl⟩
  | cancelled => exact ⟨rfl, .inr rfl⟩
  | dropped => exact ⟨rfl, .inr rfl⟩
  | queues => exact absurd rfl other
  | enters => exact absurd rfl other
  | rests => exact absurd rfl other
  | moves => exact absurd rfl other
  | tells => exact absurd rfl other
  | struck => exact absurd rfl other
  | sleeps => exact absurd rfl other
  | breaks => exact absurd rfl other

/-! ### A call that is alone -/

/-- Is it the turn of a call? -/
def isAwake (w : World) (c : Nat) : Bool := (w.calls[c]?).any Call.awake

/-- What is left of an action for a call that is alone: it sees the time pass, and makes its step if
this is not one in the queue. -/
def ownTurn (s : Setting) (c : Nat) (w : World) (a : Action) : List Action :=
  match a with
  | .wait ms => [.wait ms]
  | .step c' =>
    if c' = c ∧ w.isAwake c = true ∧ (w.act s a).standing c ≠ .waiting then [.poll 0, .step 0]
    else []
  | _ => []

/-- What is left of a run for a call that is alone. -/
def alone (s : Setting) (line c : Nat) (actions : List Action) : List Action :=
  .begin line none :: trace s (ownTurn s c) start actions

/-- The world of a call that is alone with this far side. -/
def solo (s : Setting) (link : Link) (line c : Nat) (actions : List Action) : World :=
  run (s.alone link) start (alone s line c actions)

theorem solo_concat (s : Setting) (link : Link) (line c : Nat) (actions : List Action)
    (a : Action) : solo s link line c (actions ++ [a]) =
      run (s.alone link) (solo s link line c actions) (ownTurn s c (run s start actions) a) := by
  rw [solo, alone, trace_concat, ← List.cons_append]
  exact List.foldl_append

/-- What is left of an action in which the call makes no step. -/
theorem ownTurn_of_idle (s : Setting) (still : ¬ (a = .step c ∧ w.isAwake c = true)) :
    ownTurn s c w a = [] ∧ a.pause = 0 ∨ ∃ ms, a = .wait ms := by
  cases a with
  | wait ms => exact .inr ⟨ms, rfl⟩
  | step c' =>
    left
    rw [ownTurn, if_neg]
    · exact ⟨rfl, rfl⟩
    · rintro ⟨rfl, awake, -⟩
      exact still ⟨rfl, awake⟩
  | begin => exact .inl ⟨rfl, rfl⟩
  | spawn => exact .inl ⟨rfl, rfl⟩
  | poll => exact .inl ⟨rfl, rfl⟩
  | drop => exact .inl ⟨rfl, rfl⟩
  | dispose => exact .inl ⟨rfl, rfl⟩
  | look => exact .inl ⟨rfl, rfl⟩
  | addHandle => exact .inl ⟨rfl, rfl⟩
  | cancel => exact .inl ⟨rfl, rfl⟩

/-- A call that is alone in a world, at this stage and at this time, and what it has told. -/
structure Lone (line now : Nat) (stage : Stage) (told : List Callback) (v : World) : Prop where
  has : ∃ awake wake, v.calls[0]? = some ⟨line, none, stage, awake, wake, false⟩
  tells : v.callbacks 0 = told
  now : v.now = now

section
variable {line now : Nat} {stage : Stage} {v : World}

theorem Lone.wait (h : Lone line now stage told v) (ms : Nat) :
    Lone line (now + ms) stage told (v.act s (.wait ms)) :=
  ⟨h.has, h.tells, congrArg (· + ms) h.now⟩

/-- A call that is alone and not over has its turn when it is polled. -/
theorem Lone.poll (h : Lone line now stage told v) (runs : stage.isOver = false) :
    Lone line now stage told (v.act s (.poll 0)) ∧ (v.act s (.poll 0)).isAwake 0 = true ∧
      (v.act s (.poll 0)).locks = v.locks := by
  obtain ⟨awake, wake, has⟩ := h.has
  cases awake with
  | true =>
    have hsame : v.act s (.poll 0) = v := by
      rw [act, World.poll, has]
      rfl
    rw [hsame, isAwake, has]
    exact ⟨h, rfl, rfl⟩
  | false =>
    have hawake : v.act s (.poll 0) =
        (v.note (opening s ⟨line, none, stage, false, wake, false⟩)).put 0
          ⟨line, none, stage, true, none, false⟩ := by
      rw [act, World.poll, has]
      dsimp only
      rw [runs, if_neg (by simp)]
      rfl
    have hput : (v.act s (.poll 0)).calls[0]? = some ⟨line, none, stage, true, none, false⟩ := by
      rw [hawake]
      exact List.getElem?_set_self (List.getElem?_eq_some_iff.1 has).1
    refine ⟨⟨⟨true, none, hput⟩, ?_, ?_⟩, ?_, ?_⟩
    · rw [hawake]
      exact h.tells
    · rw [hawake]
      exact h.now
    · rw [isAwake, hput]
      rfl
    · rw [hawake]
      rfl

/-- A call that is alone gets the lock as soon as it asks. -/
theorem Lone.enters (h : Lone line now .fresh [] v) (free : v.locks line = .free) :
    Lone line now .admitted [] (run s v [.poll 0, .step 0]) := by
  obtain ⟨⟨⟨awake, wake, has⟩, tells, hnow⟩, hawake, locks⟩ := h.poll (s := s) rfl
  rw [isAwake, has] at hawake
  obtain rfl : awake = true := hawake
  have hgets : run s v [.poll 0, .step 0] =
      ((v.act s (.poll 0)).withLock line (.held 0 [])).put 0
        ⟨line, none, .admitted, true, wake, false⟩ := by
    have hlock : (v.act s (.poll 0)).locks line = .free := by
      rw [locks, free]
    change (v.act s (.poll 0)).step s 0 = _
    rw [World.step, has]
    dsimp only
    rw [if_neg (by simp), enter]
    dsimp only
    rw [hlock]
    rfl
  rw [hgets]
  exact ⟨⟨true, wake, List.getElem?_set_self (List.getElem?_eq_some_iff.1 has).1⟩, tells, hnow⟩

/-- **A call that is alone does in its turn what comes next at its stage.** -/
theorem Lone.step (h : Lone line now stage told v) (link : Link) (begun : stage ≠ .fresh)
    (admitted : stage ≠ .queued) :
    let next := stage.step (s.connection line) now link
    Lone line now next.next (told ++ next.told) (run (s.alone link) v [.poll 0, .step 0]) := by
  intro next
  -- a poll wakes the call or is in vain
  obtain ⟨v', hpoll, hrun, hover⟩ : ∃ v', Lone line now stage told v' ∧
      run (s.alone link) v [.poll 0, .step 0] = v'.act (s.alone link) (.step 0) ∧
      (v'.isAwake 0 = true ∨ stage.isOver = true) := by
    cases runs : stage.isOver with
    | false =>
      obtain ⟨hlone, hawake, -⟩ := h.poll (s := s.alone link) runs
      exact ⟨_, hlone, rfl, .inl hawake⟩
    | true =>
      obtain ⟨awake, wake, has⟩ := h.has
      have hsame : v.act (s.alone link) (.poll 0) = v := by
        rw [act, World.poll, has]
        dsimp only
        rw [runs, if_pos (by simp)]
      exact ⟨v, h, congrArg (act (s.alone link) · (.step 0)) hsame, .inr rfl⟩
  rw [hrun]
  obtain ⟨⟨awake, wake, has⟩, tells, hnow⟩ := hpoll
  cases awake with
  | true =>
    have htook := step_took (s := s.alone link) has rfl
    obtain ⟨call', more, turn, has', tells', now'⟩ := htook.turn (a := .step 0) rfl has
    obtain ⟨hline, hhandle, haborted⟩ := turn.kept
    obtain ⟨htold, hstage | ⟨callback, p, -, panics⟩⟩ := turn.goes_on begun admitted
    · dsimp only at hstage htold
      rw [hnow] at hstage htold
      obtain ⟨line', handle', stage', awake', wake', aborted'⟩ := call'
      dsimp only at hline hhandle haborted hstage
      subst hline hhandle haborted hstage
      refine ⟨⟨awake', wake', has'⟩, ?_, now'.trans hnow⟩
      rw [tells', tells, htold]
      rfl
    · cases panics
  | false =>
    -- a call that is over does nothing
    have hover : stage.isOver = true := by
      obtain hawake | hover := hover
      · rw [isAwake, has] at hawake
        cases hawake
      · exact hover
    have hsame : v'.act (s.alone link) (.step 0) = v' := by
      rw [act, World.step, has]
      rfl
    have hnext : next = .sleeps none [] stage := Stage.step_of_isOver hover _ _ _
    rw [hsame, hnext]
    exact ⟨⟨false, wake, has⟩, tells.trans (List.append_nil told).symm, hnow⟩

end

/-! ### The call among others -/

/-- **How a call among others and the same call alone stand to each other.** Before the call dials,
it may be alone with any far side; behind its dial it is alone with the one that it met. -/
inductive Mirrors (s : Setting) (line c : Nat) (actions : List Action) : Prop
  | early
      (waits : (run s start actions).standing c = .outside ∨
        (run s start actions).standing c = .waiting)
      (lone : ∀ link, Lone line (run s start actions).now .fresh [] (solo s link line c actions))
      (free : ∀ link, (solo s link line c actions).locks line = .free)
  | admitted (holds : (run s start actions).standing c = .admitted)
      (lone : ∀ link,
        Lone line (run s start actions).now .admitted [] (solo s link line c actions))
  | late {n : Nat} {call : Call} (dialled : (dials s actions)[n]? = some c)
      (has : (run s start actions).calls[c]? = some call)
      (late : call.stage.standing.isLate = true)
      (lone : Lone line (run s start actions).now call.stage ((run s start actions).callbacks c)
        (solo s (s.network n) line c actions))
  | lost {call : Call} (has : (run s start actions).calls[c]? = some call)
      (isLost : call.stage.isLost = true)

section
variable {line : Nat} {actions : List Action}

/-- What is left for a call that is alone of an action in which the call makes no step. -/
theorem solo_of_idle (still : ¬ (a = .step c ∧ (run s start actions).isAwake c = true))
    (link : Link) (line : Nat) :
    (∀ stage told, Lone line (run s start actions).now stage told (solo s link line c actions) →
      Lone line (run s start (actions ++ [a])).now stage told
        (solo s link line c (actions ++ [a]))) ∧
      (solo s link line c (actions ++ [a])).locks = (solo s link line c actions).locks := by
  rw [solo_concat, run_concat, now_act]
  obtain ⟨hown, hpause⟩ | ⟨ms, rfl⟩ := ownTurn_of_idle s still
  · rw [hown, hpause]
    exact ⟨fun _ _ h => h, rfl⟩
  · exact ⟨fun _ _ h => h.wait (s := s.alone link) ms, rfl⟩

/-- An action in which the call makes no step. -/
theorem Mirrors.idle (h : Mirrors s line c actions)
    (still : ¬ (a = .step c ∧ (run s start actions).isAwake c = true)) :
    Mirrors s line c (actions ++ [a]) := by
  have hsolo (link : Link) := solo_of_idle still link line
  -- the call stays where it is, or is lost
  have hfares {call : Call} (has : (run s start actions).calls[c]? = some call) :
      ∃ call', (run s start (actions ++ [a])).calls[c]? = some call' ∧
        (call'.stage.isLost = true ∨ call'.stage = call.stage ∧
          (run s start (actions ++ [a])).callbacks c = (run s start actions).callbacks c) := by
    rw [run_concat]
    obtain ⟨call', told, fares, has', htold⟩ := act_fares s has a
    refine ⟨call', has', ?_⟩
    generalize (run s start actions).reported s c a = entries at fares
    cases fares with
    | same => exact .inr ⟨rfl, htold.trans (List.append_nil _)⟩
    | left => exact .inr ⟨rfl, htold.trans (List.append_nil _)⟩
    | turn turn now =>
      have hother : a ≠ .step c := by
        rintro rfl
        refine still ⟨rfl, ?_⟩
        rw [isAwake, has]
        exact turn.awake
      obtain ⟨rfl, hstage | hlost⟩ := turn.stays hother
      · exact .inr ⟨hstage, htold.trans (List.append_nil _)⟩
      · exact .inl hlost
  -- it stands where it stood, or is lost
  have hstanding : (run s start (actions ++ [a])).standing c = (run s start actions).standing c ∨
      ∃ call', (run s start (actions ++ [a])).calls[c]? = some call' ∧
        call'.stage.isLost = true := by
    cases has : (run s start actions).calls[c]? with
    | none =>
      left
      rw [run_concat, standing_of_joins s a has, standing, has]
    | some call =>
      obtain ⟨call', has', hlost | ⟨hstage, -⟩⟩ := hfares has
      · exact .inr ⟨call', has', hlost⟩
      · left
        rw [standing_of_has has, standing_of_has has', hstage]
  cases h with
  | early waits lone free =>
    obtain hsame | ⟨call', has', lost⟩ := hstanding
    · refine .early ?_ (fun link => (hsolo link).1 _ _ (lone link)) fun link => ?_
      · rw [hsame]
        exact waits
      · rw [(hsolo link).2]
        exact free link
    · exact .lost has' lost
  | admitted holds lone =>
    obtain hsame | ⟨call', has', lost⟩ := hstanding
    · exact .admitted (hsame.trans holds) fun link => (hsolo link).1 _ _ (lone link)
    · exact .lost has' lost
  | @late n call dialled has late lone =>
    obtain ⟨call', has', lost | ⟨hstage, htold⟩⟩ := hfares has
    · exact .lost has' lost
    · refine .late (getElem?_dials dialled a) has' (hstage ▸ late) ?_
      rw [hstage, htold]
      exact (hsolo _).1 _ _ lone
  | @lost call has lost =>
    obtain ⟨call', has', lost' | ⟨hstage, -⟩⟩ := hfares has
    · exact .lost has' lost'
    · exact .lost has' (hstage ▸ lost)

/-- A step of the call. -/
theorem Mirrors.step (h : Mirrors s line c actions)
    (has : (run s start actions).calls[c]? = some call) (awake : call.awake = true)
    (ofLine : call.line = line) : Mirrors s line c (actions ++ [.step c]) := by
  generalize hw : run s start actions = w at has
  have htook := step_took (s := s) has awake
  obtain ⟨call', told, turn, has', htold, hnow⟩ := htook.turn (a := .step c) rfl has
  have hrun : run s start (actions ++ [.step c]) = w.act s (.step c) := by
    rw [run_concat, hw]
  have hstanding : (w.act s (.step c)).standing c = call'.stage.standing := standing_of_has has'
  have hpasses := turn.passes
  -- the call that is alone has a turn as well, if this is not one in the queue
  have hsolo (link : Link) (goes : call'.stage.standing ≠ .waiting) :
      solo s link line c (actions ++ [.step c]) =
        run (s.alone link) (solo s link line c actions) [.poll 0, .step 0] := by
    have hawake : w.isAwake c = true := by
      rw [isAwake, has]
      exact awake
    rw [solo_concat, hw, ownTurn, if_pos ⟨rfl, hawake, hstanding ▸ goes⟩]
  cases h with
  | early waits lone free =>
    rw [hw, standing_of_has has] at waits
    obtain hwaits | hholds := turn.waits waits
    · refine .early ?_ (fun link => ?_) fun link => ?_
      · rw [hrun, hstanding]
        exact .inr hwaits
      all_goals
        have hown : ownTurn s c w (.step c) = [] := by
          rw [ownTurn, if_neg]
          rintro ⟨-, -, goes⟩
          exact goes (hstanding.trans hwaits)
        rw [solo_concat, hw, hown]
      · rw [hrun, hnow, ← hw]
        exact lone link
      · exact free link
    · refine .admitted (by rw [hrun, hstanding, hholds]) fun link => ?_
      rw [hsolo link (by rw [hholds]; simp), hrun, hnow, ← hw]
      exact (lone link).enters (free link)
  | admitted holds lone =>
    rw [hw, standing_of_has has] at holds
    have hstage := Stage.eq_admitted_of_standing holds
    have hgoes : call'.stage.standing ≠ .waiting := by
      rw [holds] at hpasses
      intro hwaits
      rw [hwaits] at hpasses
      cases hpasses
    obtain ⟨rfl, hnext | ⟨_, p, lost, -⟩⟩ :=
      turn.goes_on (by rw [hstage]; simp) (by rw [hstage]; simp)
    · -- the call dials, and this is the next dial
      have hdials : (dials s (actions ++ [.step c]))[w.dialled]? = some c := by
        rw [← hw]
        refine getElem?_dials_next ?_ ?_
        · rw [hw, standing_of_has has, holds]
        · rw [hrun, hstanding, hnext, hstage]
          rfl
      have hsilent : w.callbacks c = [] := by
        have hsound := sound_of_run s actions (hw ▸ has)
        rw [hw] at hsound
        exact hsound.tells.eq_of_told? (by rw [hstage]; rfl)
      refine .late hdials (by rw [hrun]; exact has') ?_ ?_
      · rw [hnext, hstage]
        rfl
      · have hlone := (lone (s.network w.dialled)).step (s := s) (s.network w.dialled)
          (by simp) (by simp)
        rw [hsolo _ hgoes, hrun, hnow, htold, hsilent, hnext, hstage, ← hw, ofLine]
        rw [← hw] at hlone
        exact hlone
    · exact .lost (by rw [hrun]; exact has') (by rw [lost]; rfl)
  | @late n before dialled hbefore late lone =>
    obtain rfl : before = call := by
      rw [hw] at hbefore
      exact Option.some.inj (hbefore.symm.trans has)
    obtain ⟨hfresh, hqueued, hadmitted⟩ := Stage.begun_of_isLate late
    have hlate := hpasses.isLate (.inl late)
    obtain ⟨rfl, hnext | ⟨_, p, lost, -⟩⟩ := turn.goes_on hfresh hqueued
    · refine .late (getElem?_dials dialled _) (by rw [hrun]; exact has') hlate ?_
      have hlone := lone.step (s := s) (s.network n) hfresh hqueued
      rw [hsolo _ ?_, hrun, hnow, htold, hnext, ← hw, ofLine,
        Stage.step_eq hadmitted _ _ _ (s.network n)]
      · exact hlone
      · intro hwaits
        rw [hwaits] at hlate
        cases hlate
    · exact .lost (by rw [hrun]; exact has') (by rw [lost]; rfl)
  | @lost before hbefore lost =>
    obtain rfl : before = call := by
      rw [hw] at hbefore
      exact Option.some.inj (hbefore.symm.trans has)
    exact .lost (by rw [hrun]; exact has') (turn.isLost lost)

end

/-- **A call that is alone keeps up with the call among others.** -/
theorem mirrors_of_run (s : Setting) (line c : Nat) (actions : List Action)
    (ofLine : ∀ call, (run s start actions).calls[c]? = some call → call.line = line) :
    Mirrors s line c actions := by
  induction actions using List.reverseRecOn with
  | nil =>
    refine .early (.inl rfl) (fun link => ?_) fun link => rfl
    exact ⟨⟨false, none, rfl⟩, rfl, rfl⟩
  | append_singleton actions a ih =>
    have hline : ∀ call, (run s start actions).calls[c]? = some call → call.line = line := by
      intro call has
      obtain ⟨call', told, fares, has', -⟩ := act_fares s has a
      rw [← run_concat] at has'
      rw [← ofLine call' has']
      generalize (run s start actions).reported s c a = entries at fares
      cases fares with
      | same => rfl
      | left => rfl
      | turn turn _ => exact turn.kept.1.symm
    by_cases hstep : a = .step c ∧ (run s start actions).isAwake c = true
    · obtain ⟨rfl, hawake⟩ := hstep
      obtain ⟨call, has, awake⟩ := (Option.any_eq_true _ _).1 hawake
      exact (ih hline).step has awake (hline call has)
    · exact (ih hline).idle hstep

/-- A call that returns has a dial, and with the far side of this dial the call that is alone is
where the call is. -/
theorem lone_of_return (s : Setting) (actions : List Action) {c : Nat} {call : Call}
    (has : (run s start actions).calls[c]? = some call)
    {result : Except SessionError (List Record)} (done : call.stage = .done result)
    (wanted : result ≠ .error .cancelled) :
    ∃ n, (dials s actions)[n]? = some c ∧
      Lone call.line (run s start actions).now (.done result) ((run s start actions).callbacks c)
        (solo s (s.network n) call.line c actions) := by
  have hmirrors := mirrors_of_run s call.line c actions fun call' has' => by
    rw [Option.some.inj (has'.symm.trans has)]
  have hgone : (run s start actions).standing c = .gone := by
    rw [standing_of_has has, done]
    rfl
  cases hmirrors with
  | early waits =>
    rw [hgone] at waits
    obtain h | h := waits <;> cases h
  | admitted holds => cases hgone.symm.trans holds
  | @late n before dialled hbefore late lone =>
    obtain rfl := Option.some.inj (hbefore.symm.trans has)
    rw [done] at lone
    exact ⟨n, dialled, lone⟩
  | @lost before hbefore lost =>
    obtain rfl := Option.some.inj (hbefore.symm.trans has)
    rw [done] at lost
    cases result with
    | ok records => cases lost
    | error e =>
      cases e <;> first | exact absurd rfl wanted | cases lost

/-- **What a call returns among others is what it returns alone**, with the far side that it has
met, and it tells the same. The far side is that of its own dial. -/
theorem result_alone (s : Setting) (actions : List Action) {c : Nat} {call : Call}
    (has : (run s start actions).calls[c]? = some call)
    {result : Except SessionError (List Record)} (done : call.stage = .done result)
    (wanted : result ≠ .error .cancelled) :
    ∃ n, (dials s actions)[n]? = some c ∧
      (solo s (s.network n) call.line c actions).result? 0 = some result ∧
      (solo s (s.network n) call.line c actions).callbacks 0 =
        (run s start actions).callbacks c := by
  obtain ⟨n, dialled, lone⟩ := lone_of_return s actions has done wanted
  refine ⟨n, dialled, ?_, lone.tells⟩
  obtain ⟨awake, wake, has'⟩ := lone.has
  rw [result?, has']

end World

end TokenFeedback
