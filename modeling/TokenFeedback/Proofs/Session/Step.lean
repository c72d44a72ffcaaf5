import TokenFeedback.Proofs.Session.Conduct
import TokenFeedback.Proofs.Session.Standing

/-!
# Steps

What a call does in its step hangs on its stage, and is told in one lemma for the calls in the queue
and in one for the others.

* `World.Turn.waits`: a step in the queue.
* `World.Turn.makes_step`, `World.Turn.goes_on`: **a step of a call that does not wait for the
  lock.**
* `World.Turn.leads`: the stage that any turn leads to.
* `World.now_act`: the time that an action takes.
-/

namespace TokenFeedback

namespace Stage

/-- What a step says to the observer. -/
def Progress.told : Progress → List Callback
  | .moves notice _ _ => notice.toList
  | .sleeps _ _ _ => []
  | .breaks _ _ => []

/-- Only a call that dials has to do with the network. -/
theorem step_eq {stage : Stage} (dials : stage ≠ .admitted) (k : Connection) (now : Nat)
    (link link' : Link) : stage.step k now link = stage.step k now link' := by
  cases stage <;> first | rfl | exact absurd rfl dials

/-- What holds of the stage at which a call waits, and of those at which it goes on with what it
waits for, holds of the stage that comes of waiting. -/
theorem await_next {α : Type} {P : Stage → Prop} {now : Nat} {due : Due α} {stage : Stage}
    {next : α → Progress} (waits : P stage)
    (ready : ∀ t a, due = some (t, a) → t ≤ now → P (next a).next) :
    P (await now due stage next).next := by
  cases due with
  | none => exact waits
  | some d =>
    rw [await]
    split
    · next reached => exact ready d.1 d.2 rfl reached
    · exact waits

end Stage

/-- A call after a step that nothing breaks off. -/
def Call.after (call : Call) : Stage.Progress → Call
  | .moves _ _ next => { call with stage := next, awake := !next.isOver, wake := none }
  | .sleeps wake _ stage => { call with stage := stage, awake := false, wake := wake }
  | .breaks message _ =>
    { call with stage := .panicked (.text message), awake := false, wake := none }

theorem Call.stage_after (call : Call) (next : Stage.Progress) :
    (call.after next).stage = next.next := by
  cases next <;> rfl

namespace World

variable {s : Setting} {w : World} {c : Nat} {call call' : Call} {told : List Callback}
  {entries : List LogEntry}

/-- A step is made by a call whose turn it is. -/
theorem Turn.awake (turn : Turn s w c call (.step c) call' told entries) : call.awake = true := by
  cases turn with
  | queues awake => exact awake
  | enters awake => exact awake
  | rests awake => exact awake
  | moves awake => exact awake
  | tells awake => exact awake
  | struck awake => exact awake
  | sleeps awake => exact awake
  | breaks awake => exact awake
  | dropped given =>
    obtain h | ⟨h, -⟩ := given
    · cases h
    · cases h

/-- A step in the queue leads to the queue or to the lock. -/
theorem Turn.waits (turn : Turn s w c call (.step c) call' told entries)
    (waits : call.stage.standing = .outside ∨ call.stage.standing = .waiting) :
    call'.stage.standing = .waiting ∨ call'.stage.standing = .admitted := by
  have hstep (k : Connection) (now : Nat) (link : Link) :
      call.stage.step k now link = .sleeps none [] call.stage := by
    cases hstage : call.stage <;>
      first | rfl | (rw [hstage] at waits; obtain h | h := waits <;> cases h)
  cases turn with
  | queues => exact .inl rfl
  | enters => exact .inr rfl
  | rests _ queued =>
    left
    dsimp only
    rw [queued]
    rfl
  | moves _ step => cases (hstep _ _ _).symm.trans step
  | tells _ step => cases (hstep _ _ _).symm.trans step
  | struck _ step => cases (hstep _ _ _).symm.trans step
  | sleeps _ begun admitted _ =>
    obtain h | h := waits
    · cases hstage : call.stage <;> first | exact absurd hstage begun | (rw [hstage] at h; cases h)
    · exact absurd (Stage.eq_queued_of_standing h) admitted
  | breaks _ step => cases (hstep _ _ _).symm.trans step
  | dropped given =>
    obtain h | ⟨h, -⟩ := given
    · cases h
    · cases h

/-- **A call that does not wait for the lock does and tells in its step what comes next at its
stage**, or the observer breaks it off. -/
theorem Turn.makes_step (turn : Turn s w c call (.step c) call' told entries)
    (begun : call.stage ≠ .fresh) (admitted : call.stage ≠ .queued) :
    let next := call.stage.step (s.connection call.line) w.now (s.network w.dialled)
    told = next.told ∧ (call' = call.after next ∨ ∃ callback p, next.told = [callback] ∧
      call' = { call with stage := .panicked p, awake := false, wake := none } ∧
      s.reaction w.notices callback = .panics p) := by
  intro next
  cases turn with
  | queues _ fresh => exact absurd fresh begun
  | enters _ waits => exact (waits.elim begun admitted).elim
  | rests _ queued => exact absurd queued admitted
  | moves _ step =>
    rw [show next = _ from step]
    exact ⟨rfl, .inl rfl⟩
  | tells _ step =>
    rw [show next = _ from step]
    exact ⟨rfl, .inl rfl⟩
  | struck _ step panics =>
    rw [show next = _ from step]
    exact ⟨rfl, .inr ⟨_, _, rfl, rfl, panics⟩⟩
  | sleeps _ _ _ step =>
    rw [show next = _ from step]
    exact ⟨rfl, .inl rfl⟩
  | breaks _ step =>
    rw [show next = _ from step]
    exact ⟨rfl, .inl rfl⟩
  | dropped given =>
    obtain h | ⟨h, -⟩ := given
    · cases h
    · cases h

/-- The stage behind such a step. -/
theorem Turn.goes_on (turn : Turn s w c call (.step c) call' told entries)
    (begun : call.stage ≠ .fresh) (admitted : call.stage ≠ .queued) :
    let next := call.stage.step (s.connection call.line) w.now (s.network w.dialled)
    told = next.told ∧ (call'.stage = next.next ∨
      ∃ callback p, call'.stage = .panicked p ∧ s.reaction w.notices callback = .panics p) := by
  obtain ⟨htold, rfl | ⟨callback, p, -, rfl, panics⟩⟩ := turn.makes_step begun admitted
  · exact ⟨htold, .inl (call.stage_after _)⟩
  · exact ⟨htold, .inr ⟨callback, p, rfl, panics⟩⟩

/-- **What a turn makes of the stage of its call**: it stays, or goes on, or it asks for the lock, or
it is cancelled, broken off or given up. -/
theorem Turn.leads {a : Action} (turn : Turn s w c call a call' told entries) :
    call'.stage = call.stage ∨
      call'.stage = (call.stage.step (s.connection call.line) w.now (s.network w.dialled)).next ∨
      (call'.stage = .queued ∨ call'.stage = .admitted) ∨
      call'.stage = .failing .cancelled ∧ w.isCancelled call = true ∨
      (∃ p, call'.stage = .panicked p) ∨
      call'.stage = .dropped ∧ (a = .drop c ∨ a = .dispose c ∧ call.aborted = true) := by
  cases turn with
  | wakes => exact .inl rfl
  | cancelled _ _ _ unwanted => exact .inr (.inr (.inr (.inl ⟨rfl, unwanted⟩)))
  | queues => exact .inr (.inr (.inl (.inl rfl)))
  | enters => exact .inr (.inr (.inl (.inr rfl)))
  | rests => exact .inl rfl
  | moves _ step => exact .inr (.inl (congrArg Stage.Progress.next step).symm)
  | tells _ step => exact .inr (.inl (congrArg Stage.Progress.next step).symm)
  | struck => exact .inr (.inr (.inr (.inr (.inl ⟨_, rfl⟩))))
  | sleeps _ _ _ step => exact .inr (.inl (congrArg Stage.Progress.next step).symm)
  | breaks => exact .inr (.inr (.inr (.inr (.inl ⟨_, rfl⟩))))
  | dropped given => exact .inr (.inr (.inr (.inr (.inr ⟨rfl, given⟩))))

/-- How much time an action takes. -/
def Action.pause : Action → Nat
  | .wait ms => ms
  | _ => 0

/-- Only a pause takes time. -/
theorem now_act (s : Setting) (w : World) (a : Action) : (w.act s a).now = w.now + a.pause := by
  cases a with
  | poll c =>
    rw [act, poll]
    split
    · rfl
    · split
      · rfl
      · split
        · exact move_now _ _ _ _
        · rfl
  | step c =>
    cases has : w.calls[c]? with
    | none =>
      rw [act, step, has]
      rfl
    | some call =>
      cases awake : call.awake with
      | true =>
        obtain ⟨-, -, -, -, -, now⟩ := step_took (s := s) has awake
        exact now
      | false =>
        rw [act, step, has]
        dsimp only
        rw [awake]
        rfl
  | drop c =>
    rw [act, drop]
    split
    · rfl
    · split
      · rfl
      · exact move_now _ _ _ _
  | dispose c =>
    rw [act, dispose]
    split
    · rfl
    · split
      · rw [drop]
        split
        · rfl
        · split
          · rfl
          · exact move_now _ _ _ _
      · rfl
  | look b =>
    rw [act, look]
    split
    · rfl
    · split
      · rfl
      · split
        · rfl
        · split
          · unfold abort
            split <;> rfl
          · rfl
  | begin => rfl
  | spawn => rfl
  | addHandle => rfl
  | cancel => rfl
  | wait => rfl

end World

end TokenFeedback
