import Mathlib.Data.List.Induction
import TokenFeedback.Proofs.Session.Turn

/-!
# Where a call stands with the lock of its line

A call waits for the lock, has it and dials, works on a line that is its own, and is done with the
lock some time later. What a turn does to the lock, to the count of the dials and to what the
observer is told hangs only on where the call stands before the turn and behind it.

* `Standing`, `Stage.standing`: the five places.
* `Standing.Passes`: **all that a turn can do to the standing of a call**, with what it tells.
* `Lock.follow`: what becomes of a lock when a call comes to it or leaves it.
* `World.Heeds`, `World.act_heeds`: all that an action can do to standings, locks and dials.
* `World.trace`: what is seen along a run.
-/

namespace TokenFeedback

/-- Where a call stands with the lock of its line. -/
inductive Standing where
  /-- Has not asked. -/
  | outside
  /-- Is in the queue. -/
  | waiting
  /-- Has the lock and has not dialled. -/
  | admitted
  /-- Has the lock and has told that it dials. -/
  | busy
  /-- Has left, or will never ask. -/
  | gone
  deriving Repr, DecidableEq

/-- Is the call at the lock, as its holder or in its queue? -/
def Standing.usesLock : Standing → Bool
  | outside => false
  | waiting => true
  | admitted => true
  | busy => true
  | gone => false

namespace Stage

/-- Where a call at this stage stands. -/
def standing : Stage → Standing
  | fresh => .outside
  | queued => .waiting
  | admitted => .admitted
  | connecting _ _ => .busy
  | connected _ => .busy
  | handshaking _ _ => .busy
  | shaken _ => .busy
  | streaming _ _ _ => .busy
  | delivering _ _ _ _ => .busy
  | closing _ _ _ => .busy
  | closed _ _ => .busy
  | ended _ _ => .busy
  | failing _ => .gone
  | failed _ => .gone
  | done _ => .gone
  | panicked _ => .gone
  | dropped => .gone

/-- Has the call just dialled? -/
def isDialling : Stage → Bool
  | connecting _ _ => true
  | _ => false

theorem usesLock_standing (stage : Stage) : stage.standing.usesLock = stage.usesLock := by
  cases stage <;> rfl

theorem standing_of_holdsTransport {stage : Stage} (h : stage.holdsTransport = true) :
    stage.standing = .busy := by
  cases stage <;> first | rfl | cases h

theorem standing_of_isOver {stage : Stage} (h : stage.isOver = true) : stage.standing = .gone := by
  cases stage <;> first | rfl | cases h

/-- A session that is over has nothing to do, for ever. -/
theorem step_of_isOver {stage : Stage} (h : stage.isOver = true) (k : Connection) (now : Nat)
    (link : Link) : stage.step k now link = .sleeps none [] stage := by
  cases stage <;> first | rfl | cases h

theorem eq_fresh_of_standing {stage : Stage} (h : stage.standing = .outside) : stage = .fresh := by
  cases stage <;> first | rfl | cases h

theorem eq_admitted_of_standing {stage : Stage} (h : stage.standing = .admitted) :
    stage = .admitted := by
  cases stage <;> first | rfl | cases h

theorem eq_queued_of_standing {stage : Stage} (h : stage.standing = .waiting) :
    stage = .queued := by
  cases stage <;> first | rfl | cases h

end Stage

/-- Does a call say that it connects? -/
def Callback.isDial : Callback → Bool
  | .phase .connecting => true
  | _ => false

/-- Is this one of the notices that a call makes without the lock, when it has failed? -/
def Callback.isFarewell : Callback → Bool
  | .phase .terminated => true
  | .failure _ => true
  | _ => false

/-- **All that a turn can do to the standing of a call**, and what the call tells in it. -/
inductive Standing.Passes : Standing → Standing → List Callback → Prop
  | stays (st : Standing) : Passes st st []
  | queues : Passes .outside .waiting []
  | enters {st} (early : st = .outside ∨ st = .waiting) : Passes st .admitted []
  | dials : Passes .admitted .busy [.phase .connecting]
  /-- The observer breaks it off before it has dialled. -/
  | struck : Passes .admitted .gone [.phase .connecting]
  | works {st told} (late : st = .busy ∨ st = .gone) (begun : told.any Callback.isDial = false) :
      Passes .busy st told
  | leaves (st : Standing) : Passes st .gone []
  | closes {told} (farewell : told.all Callback.isFarewell = true) : Passes .gone .gone told

namespace Stage

/-- What comes of a step of a call that stands somewhere with the lock. -/
inductive Progress.Passes : Standing → Progress → Prop
  | dials {due link} :
      Passes .admitted (.moves (some (.phase .connecting)) [] (.connecting due link))
  | works {notice log next} (late : next.standing = .busy ∨ next.standing = .gone)
      (begun : notice.any Callback.isDial = false) (dialled : next.isDialling = false) :
      Passes .busy (.moves notice log next)
  | breaks {message log} : Passes .busy (.breaks message log)
  | closes {notice log next} (late : next.standing = .gone)
      (farewell : notice.all Callback.isFarewell = true) :
      Passes .gone (.moves notice log next)
  | sleeps {st wake log stage} (same : stage.standing = st) : Passes st (.sleeps wake log stage)

theorem await_passes {α : Type} {now : Nat} {due : Due α} {stage : Stage} {next : α → Progress}
    {st : Standing} (same : stage.standing = st) (ready : ∀ a, (next a).Passes st) :
    (await now due stage next).Passes st := by
  cases due with
  | none => exact .sleeps same
  | some d =>
    rw [await]
    split
    · exact ready d.2
    · exact .sleeps same

theorem read_passes (now : Nat) (r : Reader) (b : Batch) (link : Link) :
    (read now r b link).Passes .busy := by
  have hend (r' : Reader) (ending : StreamEnd) (log : List LogEntry) :
      (windUp now r' b link ending log).Passes .busy :=
    .works (.inl rfl) rfl rfl
  unfold read
  split
  · exact .breaks
  · exact .sleeps rfl
  · exact .works (.inl rfl) rfl rfl
  · exact hend _ _ _
  · split
    · exact hend _ _ _
    · exact hend _ _ _

/-- **A step of a call that does not wait for the lock** keeps to the places where a call can
stand. -/
theorem step_passes (k : Connection) (now : Nat) (link : Link) {stage : Stage}
    (begun : stage ≠ .fresh) (admitted : stage ≠ .queued) :
    (stage.step k now link).Passes stage.standing := by
  cases stage with
  | fresh => exact absurd rfl begun
  | queued => exact absurd rfl admitted
  | admitted => exact .dials
  | connecting due link =>
    refine await_passes rfl fun answer => ?_
    cases answer with
    | ok _ => exact .works (.inl rfl) rfl rfl
    | error e => exact .works (.inr rfl) rfl rfl
  | connected link =>
    rw [step]
    split
    · exact .works (.inl rfl) rfl rfl
    · exact .works (.inr rfl) rfl rfl
  | handshaking due link =>
    refine await_passes rfl fun answer => ?_
    cases answer with
    | ok _ => exact .works (.inl rfl) rfl rfl
    | error e => exact .works (.inr rfl) rfl rfl
  | shaken link => exact .works (.inl rfl) rfl rfl
  | streaming r b link => exact read_passes now r b link
  | delivering r b record link =>
    exact .works (.inl rfl) rfl rfl
  | closing due b ending =>
    refine await_passes rfl fun e => ?_
    exact .works (.inl rfl) rfl rfl
  | closed b ending => exact .works (.inl rfl) rfl rfl
  | ended b ending => exact .works (.inr rfl) rfl rfl
  | failing e => exact .closes rfl rfl
  | failed e => exact .closes rfl rfl
  | done result => exact .sleeps rfl
  | panicked p => exact .sleeps rfl
  | dropped => exact .sleeps rfl

end Stage

/-! ### Turns -/

namespace World

/-- **A turn keeps to the places where a call can stand.** -/
theorem Turn.passes {s : Setting} {w : World} {c : Nat} {a : Action} {call call' : Call}
    {told : List Callback} {entries : List LogEntry} (turn : Turn s w c call a call' told entries) :
    call.stage.standing.Passes call'.stage.standing told := by
  have hstep (begun : call.stage ≠ .fresh) (admitted : call.stage ≠ .queued) :=
    call.stage.step_passes (s.connection call.line) w.now (s.network w.dialled) begun admitted
  -- a call that has not got the lock does not move, tell or break in a step of its own
  have hasleep {p : Stage.Progress} (step : call.stage.step (s.connection call.line) w.now
      (s.network w.dialled) = p) (moves : ∀ wake log stage, p ≠ .sleeps wake log stage) :
      call.stage ≠ .fresh ∧ call.stage ≠ .queued := by
    constructor
    · intro h
      rw [h] at step
      exact moves _ _ _ step.symm
    · intro h
      rw [h] at step
      exact moves _ _ _ step.symm
  cases turn with
  | wakes => exact .stays _
  | cancelled => exact .leaves _
  | queues awake fresh =>
    rw [fresh]
    exact .queues
  | enters awake waits =>
    refine .enters ?_
    obtain h | h := waits
    · exact .inl (by rw [h]; rfl)
    · exact .inr (by rw [h]; rfl)
  | rests => exact .stays _
  | @moves log next awake step =>
    obtain ⟨begun, admitted⟩ := hasleep step (by intro _ _ _ h; cases h)
    have hpasses := hstep begun admitted
    rw [step] at hpasses
    generalize call.stage.standing = before at hpasses
    cases hpasses with
    | works late => exact .works late rfl
    | closes late =>
      dsimp only
      rw [late]
      exact .closes rfl
  | @tells callback log next awake step =>
    obtain ⟨begun, admitted⟩ := hasleep step (by intro _ _ _ h; cases h)
    have hpasses := hstep begun admitted
    rw [step] at hpasses
    generalize call.stage.standing = before at hpasses
    cases hpasses with
    | dials => exact .dials
    | works late begun =>
      refine .works late ?_
      simpa using begun
    | closes late farewell =>
      dsimp only
      rw [late]
      refine .closes ?_
      simpa using farewell
  | @struck callback log next p awake step =>
    obtain ⟨begun, admitted⟩ := hasleep step (by intro _ _ _ h; cases h)
    have hpasses := hstep begun admitted
    rw [step] at hpasses
    generalize call.stage.standing = before at hpasses
    cases hpasses with
    | dials => exact .struck
    | works late begun =>
      refine .works (.inr rfl) ?_
      simpa using begun
    | closes late farewell =>
      refine .closes ?_
      simpa using farewell
  | sleeps awake begun admitted step =>
    have hpasses := hstep begun admitted
    rw [step] at hpasses
    generalize call.stage.standing = before at hpasses
    cases hpasses with
    | sleeps same =>
      dsimp only
      rw [same]
      exact .stays _
  | @breaks message log awake step => exact .leaves _
  | dropped => exact .leaves _

/-! ### Locks and dials -/

end World

namespace Lock

/-- The calls at a lock: its holder, and behind it the queue. -/
def members : Lock → List Nat
  | free => []
  | held h q => h :: q

/-- What becomes of a lock when a call comes to it, or leaves it, or does neither. -/
def follow (c : Nat) (before after : Bool) (lock : Lock) : Lock :=
  match before, after with
  | false, true => lock.ask c
  | true, false => lock.leave c
  | _, _ => lock

@[simp] theorem follow_self (c : Nat) (at_ : Bool) (lock : Lock) :
    lock.follow c at_ at_ = lock := by
  cases at_ <;> rfl

theorem holder?_eq_head? (lock : Lock) : lock.holder? = lock.members.head? := by
  cases lock <;> rfl

@[simp] theorem members_ask (c : Nat) (lock : Lock) :
    (lock.ask c).members = lock.members ++ [c] := by
  cases lock <;> rfl

/-- Whoever is behind the one who leaves moves up. -/
theorem members_leave (c : Nat) {lock : Lock} (distinct : lock.members.Nodup) :
    (lock.leave c).members = lock.members.erase c := by
  cases lock with
  | free => rfl
  | held h q =>
    obtain ⟨hnot, hq⟩ := List.nodup_cons.1 distinct
    by_cases hc : h = c
    · subst hc
      rw [members, List.erase_cons_head]
      simp only [leave]
      cases q <;> rfl
    · rw [members, List.erase_cons_tail (by simpa using hc), hq.erase_eq_filter]
      simp only [leave, if_neg hc, members, List.cons.injEq, true_and]
      exact List.filter_congr fun x _ => by by_cases hx : x = c <;> simp [hx]

end Lock

namespace World

variable {s : Setting} {w w' : World} {c : Nat} {call call' : Call}

/-- The line of a call. -/
def line? (w : World) (c : Nat) : Option Nat := (w.calls[c]?).map Call.line

/-- Where a call stands; a call that is not made yet has not asked. -/
def standing (w : World) (c : Nat) : Standing :=
  match w.calls[c]? with
  | some call => call.stage.standing
  | none => .outside

theorem standing_of_has (has : w.calls[c]? = some call) : w.standing c = call.stage.standing := by
  rw [standing, has]

theorem line?_of_has (has : w.calls[c]? = some call) : w.line? c = some call.line := by
  rw [line?, has]
  rfl

/-- The stage of a call; a call that is not made yet has not begun. -/
def stageOf (w : World) (c : Nat) : Stage :=
  match w.calls[c]? with
  | some call => call.stage
  | none => .fresh

theorem stageOf_of_has (has : w.calls[c]? = some call) : w.stageOf c = call.stage := by
  rw [stageOf, has]

/-- A call that has begun is made. -/
theorem exists_of_stageOf {stage : Stage} (h : w.stageOf c = stage) (begun : stage ≠ .fresh) :
    ∃ call, w.calls[c]? = some call ∧ call.stage = stage := by
  cases has : w.calls[c]? with
  | none =>
    rw [stageOf, has] at h
    exact absurd h.symm begun
  | some call => exact ⟨call, rfl, (stageOf_of_has has).symm.trans h⟩

theorem standing_stageOf (w : World) (c : Nat) : (w.stageOf c).standing = w.standing c := by
  rw [stageOf, standing]
  cases w.calls[c]? <;> rfl

/-- What a turn of a call leaves of the locks and of the count of the dials. -/
structure Follows (w : World) (c : Nat) (call call' : Call) (w' : World) : Prop where
  locks : ∀ l, w'.locks l =
    if l = call.line then
      (w.locks l).follow c call.stage.standing.usesLock call'.stage.standing.usesLock
    else w.locks l
  admitted : call'.stage.standing = .admitted →
    call.stage.standing = .admitted ∨ (w'.locks call.line).holder? = some c
  dialled : w'.dialled = w.dialled +
    if call.stage.standing = .admitted ∧ call'.stage.standing = .busy then 1 else 0

/-- A turn behind which the call stands where it stood. -/
theorem Follows.of_eq (locks : w'.locks = w.locks) (dialled : w'.dialled = w.dialled)
    (same : call'.stage.standing = call.stage.standing) : Follows w c call call' w' := by
  refine ⟨fun l => ?_, fun h => .inl (same ▸ h), ?_⟩
  · rw [locks, same, Lock.follow_self, ite_self]
  · have hnot : ¬ (call.stage.standing = .admitted ∧ call.stage.standing = .busy) := by
      rintro ⟨h, h'⟩
      exact absurd (h.symm.trans h') (by decide)
    rw [dialled, same, if_neg hnot, Nat.add_zero]

/-- A move does to the locks what has to be done when a call that is at its lock leaves it. -/
theorem move_locks (w : World) (c : Nat) (call : Call) (next : Stage) (l : Nat) :
    (w.move c call next).locks l =
      if l = call.line ∧ call.stage.usesLock = true ∧ next.usesLock = false then
        (w.locks l).leave c
      else w.locks l := by
  unfold move
  by_cases h : (call.stage.usesLock && !next.usesLock) = true
  · dsimp only
    rw [if_pos h]
    simp only [Bool.and_eq_true, Bool.not_eq_true'] at h
    by_cases hl : l = call.line
    · subst hl
      rw [if_pos ⟨rfl, h⟩]
      exact if_pos rfl
    · rw [if_neg fun h' => hl h'.1]
      exact if_neg hl
  · dsimp only
    rw [if_neg h, if_neg]
    · rfl
    · rintro ⟨-, h₁, h₂⟩
      exact h (by rw [h₁, h₂]; rfl)

@[simp] theorem move_dialled (w : World) (c : Nat) (call : Call) (next : Stage) :
    (w.move c call next).dialled = w.dialled := by
  unfold move
  split <;> rfl

/-- A call has had a turn, or could not have one; this is what is left of the locks and of the count
of the dials. -/
def Followed (w : World) (c : Nat) (call : Call) (w' : World) : Prop :=
  ∃ call', w'.calls = w.calls.set c call' ∧ Follows w c call call' w'

theorem Followed.note (h : Followed w c call w') (log : List LogEntry) :
    Followed w c call (w'.note log) := by
  obtain ⟨call', calls, h⟩ := h
  exact ⟨call', calls, h.locks, h.admitted, h.dialled⟩

/-- A call that could not have a turn. -/
theorem followed_self (has : w.calls[c]? = some call) : Followed w c call w := by
  obtain ⟨hlt, rfl⟩ := List.getElem?_eq_some_iff.1 has
  exact ⟨_, (List.set_getElem_self hlt).symm, .of_eq rfl rfl rfl⟩

/-- A move of a call that does not come to its lock. -/
theorem move_followed {mid : World} {next : Stage} (locks : mid.locks = w.locks)
    (calls : mid.calls = w.calls)
    (comes : next.standing.usesLock = true → call.stage.standing.usesLock = true)
    (admitted : next.standing ≠ .admitted)
    (dialled : mid.dialled = w.dialled +
      if call.stage.standing = .admitted ∧ next.standing = .busy then 1 else 0) :
    Followed w c call (mid.move c call next) := by
  refine ⟨_, (move_calls mid c call next).trans (congrArg (List.set · c _) calls), fun l => ?_,
    fun h => absurd h admitted, (move_dialled mid c call next).trans dialled⟩
  rw [move_locks, locks, ← Stage.usesLock_standing, ← Stage.usesLock_standing]
  by_cases hl : l = call.line
  · rw [if_pos hl]
    cases hnext : next.standing.usesLock with
    | true =>
      rw [comes hnext, if_neg (by simp)]
      rfl
    | false =>
      cases hstage : call.stage.standing.usesLock with
      | true =>
        rw [if_pos ⟨hl, rfl, rfl⟩]
        rfl
      | false =>
        rw [if_neg (by simp)]
        rfl
  · rw [if_neg hl, if_neg (fun h => hl h.1)]

/-- A call that gives up the lock, or its place in the queue, or has neither. -/
theorem leave_followed {mid : World} {next : Stage} (locks : mid.locks = w.locks)
    (calls : mid.calls = w.calls) (dialled : mid.dialled = w.dialled)
    (gone : next.standing = .gone) : Followed w c call (mid.move c call next) := by
  refine move_followed locks calls (fun h => ?_) (fun h => ?_) ?_
  · rw [gone] at h
    cases h
  · rw [gone] at h
    cases h
  · rw [gone, if_neg (by simp), dialled, Nat.add_zero]

theorem poll_followed (has : w.calls[c]? = some call) : Followed w c call (w.poll s c) := by
  rw [poll, has]
  dsimp only
  split
  · exact followed_self has
  · split
    · have hleft : Followed w c call
          ((w.note (opening s call)).move c call (.failing .cancelled)) :=
        leave_followed rfl rfl rfl rfl
      exact hleft.note _
    · exact ⟨_, rfl, .of_eq rfl rfl rfl⟩

theorem enter_followed (fresh : call.stage = .fresh) : Followed w c call (w.enter c call) := by
  have hstanding : call.stage.standing = .outside := by
    rw [fresh]
    rfl
  have hlocks (l : Nat) : (w.enter c call).locks l =
      if l = call.line then (w.locks l).ask c else w.locks l := by
    unfold enter
    dsimp only
    by_cases hl : l = call.line
    · subst hl
      split <;> rfl
    · split <;> simp [withLock, put, hl]
  unfold enter at hlocks ⊢
  dsimp only at hlocks ⊢
  by_cases h : ((w.locks call.line).ask c).holder? = some c
  · rw [if_pos h] at hlocks ⊢
    refine ⟨_, rfl, fun l => ?_, fun _ => .inr ?_, ?_⟩
    · rw [hlocks, hstanding]
      rfl
    · rw [hlocks, if_pos rfl]
      exact h
    · rw [hstanding]
      rfl
  · rw [if_neg h] at hlocks ⊢
    refine ⟨_, rfl, fun l => ?_, fun h => (by cases h), ?_⟩
    · rw [hlocks, hstanding]
      rfl
    · rw [hstanding]
      rfl

theorem tell_keeps (s : Setting) (w : World) (c : Nat) (callback : Callback) :
    (tell s w c callback).1.locks = w.locks ∧ (tell s w c callback).1.dialled = w.dialled ∧
      (tell s w c callback).1.calls = w.calls := by
  unfold tell
  split <;> exact ⟨rfl, rfl, rfl⟩

theorem countDial_keeps (w : World) (next : Stage) :
    (w.countDial next).locks = w.locks ∧ (w.countDial next).calls = w.calls ∧
      (w.countDial next).dialled = w.dialled + if next.isDialling then 1 else 0 := by
  cases next <;> exact ⟨rfl, rfl, rfl⟩

/-- What becomes of a step in which a call moves, with a notice or without. -/
theorem moves_followed {notice : Option Callback} {log : List LogEntry} {next : Stage}
    (comes : next.standing.usesLock = true → call.stage.standing.usesLock = true)
    (admitted : next.standing ≠ .admitted)
    (dials : (if call.stage.standing = .admitted ∧ next.standing = .busy then 1 else 0) =
      if notice.isSome && next.isDialling then 1 else 0) :
    Followed w c call (w.apply s c call (.moves notice log next)) := by
  cases notice with
  | none => exact (move_followed rfl rfl comes admitted (by rw [dials]; rfl)).note log
  | some callback =>
    obtain ⟨hlocks, hdialled, hcalls⟩ := tell_keeps s w c callback
    rw [apply]
    rcases htell : tell s w c callback with ⟨mid, _ | p⟩
    · rw [htell] at hlocks hdialled hcalls
      obtain ⟨hlocks', hcalls', hdialled'⟩ := countDial_keeps mid next
      refine (move_followed (hlocks'.trans hlocks) (hcalls'.trans hcalls) comes admitted ?_).note
        log
      rw [hdialled', dials, ← hdialled]
      rfl
    · rw [htell] at hlocks hdialled hcalls
      exact leave_followed hlocks hcalls hdialled rfl

/-- A call that does not wait for the lock makes its next step. -/
theorem apply_followed {progress : Stage.Progress} (h : progress.Passes call.stage.standing) :
    Followed w c call (w.apply s c call progress) := by
  generalize hst : call.stage.standing = st at h
  cases h with
  | dials =>
    refine moves_followed (fun _ => ?_) (fun h => by cases h) ?_
    · rw [hst]
      rfl
    · rw [hst]
      rfl
  | @works notice log next late begun dialled =>
    refine moves_followed (fun _ => ?_) (fun h => ?_) ?_
    · rw [hst]
      rfl
    · rw [h] at late
      obtain late | late := late <;> cases late
    · rw [hst, dialled, Bool.and_false]
      simp
  | breaks => exact leave_followed rfl rfl rfl rfl
  | @closes notice log next late farewell =>
    have hdialling : next.isDialling = false := by
      cases next <;> first | rfl | cases late
    refine moves_followed (fun h => ?_) (fun h => ?_) ?_
    · rw [late] at h
      cases h
    · rw [late] at h
      cases h
    · rw [hst, hdialling, Bool.and_false]
      simp
  | @sleeps _ wake log stage same => exact ⟨_, rfl, .of_eq rfl rfl (same.trans hst.symm)⟩

theorem step_followed (has : w.calls[c]? = some call) : Followed w c call (w.step s c) := by
  rw [step, has]
  dsimp only
  split
  · exact followed_self has
  · split
    · next fresh => exact enter_followed fresh
    · next queued =>
      have hstanding : call.stage.standing = .waiting := by
        rw [queued]
        rfl
      split
      · next holds =>
        refine ⟨_, rfl, fun l => ?_, fun _ => .inr holds, ?_⟩
        · rw [hstanding]
          exact (ite_self _).symm
        · rw [hstanding]
          rfl
      · exact ⟨_, rfl, .of_eq rfl rfl rfl⟩
    · next begun admitted => exact apply_followed (Stage.step_passes _ _ _ begun admitted)

theorem drop_followed (has : w.calls[c]? = some call) : Followed w c call (w.drop c) := by
  rw [drop, has]
  dsimp only
  split
  · exact followed_self has
  · exact leave_followed rfl rfl rfl rfl

/-- **What an action that is the turn of a call does to the locks and to the count of dials.** -/
theorem act_followed {a : Action} (whose : a.turnOf? = some c) (has : w.calls[c]? = some call) :
    Followed w c call (w.act s a) := by
  cases a with
  | poll c' =>
    obtain rfl := Option.some.inj whose
    exact poll_followed has
  | step c' =>
    obtain rfl := Option.some.inj whose
    exact step_followed has
  | drop c' =>
    obtain rfl := Option.some.inj whose
    exact drop_followed has
  | dispose c' =>
    obtain rfl := Option.some.inj whose
    rw [act, dispose, has]
    dsimp only
    split
    · exact drop_followed has
    · exact followed_self has
  | begin => cases whose
  | spawn => cases whose
  | look => cases whose
  | addHandle => cases whose
  | cancel => cases whose
  | wait => cases whose

/-- An action that is nobody's turn, or the turn of nobody who is there, does nothing to them. -/
theorem act_idle {a : Action} (nobody : ∀ c, a.turnOf? = some c → w.calls[c]? = none) :
    (w.act s a).locks = w.locks ∧ (w.act s a).dialled = w.dialled := by
  cases a with
  | poll c =>
    rw [act, poll, nobody c rfl]
    exact ⟨rfl, rfl⟩
  | step c =>
    rw [act, step, nobody c rfl]
    exact ⟨rfl, rfl⟩
  | drop c =>
    rw [act, drop, nobody c rfl]
    exact ⟨rfl, rfl⟩
  | dispose c =>
    rw [act, dispose, nobody c rfl]
    exact ⟨rfl, rfl⟩
  | look b =>
    rw [act, look]
    split
    · exact ⟨rfl, rfl⟩
    · split
      · exact ⟨rfl, rfl⟩
      · split
        · exact ⟨rfl, rfl⟩
        · split
          · unfold abort
            split <;> exact ⟨rfl, rfl⟩
          · exact ⟨rfl, rfl⟩
  | begin => exact ⟨rfl, rfl⟩
  | spawn => exact ⟨rfl, rfl⟩
  | addHandle => exact ⟨rfl, rfl⟩
  | cancel => exact ⟨rfl, rfl⟩
  | wait => exact ⟨rfl, rfl⟩

/-- **All that an action can do to the standings, the locks and the dials**, and to what the
observer is told. -/
inductive Heeds (w : World) (a : Action) (w' : World) : Prop
  | idle (standing : ∀ c, w'.standing c = w.standing c)
      (lines : ∀ c, (w.line? c).isSome → w'.line? c = w.line? c)
      (notices : w'.notices = w.notices) (locks : w'.locks = w.locks)
      (dialled : w'.dialled = w.dialled)
  | turn {c line told} (whose : a.turnOf? = some c) (has : w.line? c = some line)
      (passes : (w.standing c).Passes (w'.standing c) told)
      (others : ∀ c', c' ≠ c → w'.standing c' = w.standing c')
      (lines : ∀ c', w'.line? c' = w.line? c')
      (notices : w'.notices = w.notices ++ told.map (Notice.mk c))
      (locks : ∀ l, w'.locks l =
        if l = line then
          (w.locks l).follow c (w.standing c).usesLock (w'.standing c).usesLock
        else w.locks l)
      (admitted : w'.standing c = .admitted →
        w.standing c = .admitted ∨ (w'.locks line).holder? = some c)
      (dialled : w'.dialled = w.dialled +
        if w.standing c = .admitted ∧ w'.standing c = .busy then 1 else 0)

/-- Nothing has become of the calls. -/
theorem heeds_idle {a : Action} (calls : w'.calls = w.calls) (notices : w'.notices = w.notices)
    (locks : w'.locks = w.locks) (dialled : w'.dialled = w.dialled) : Heeds w a w' :=
  .idle (fun c => by rw [standing, standing, calls]) (fun c _ => by rw [line?, line?, calls])
    notices locks dialled

theorem Took.heeds {a : Action} (took : Took s w c a (w.act s a)) (whose : a.turnOf? = some c) :
    Heeds w a (w.act s a) := by
  obtain ⟨has, turn, calls, notices, -, -⟩ := took
  rename_i call call' told entries
  obtain ⟨call₂, calls₂, follows⟩ := act_followed (s := s) whose has
  have hlt := (List.getElem?_eq_some_iff.1 has).1
  have has' : (w.act s a).calls[c]? = some call' := by
    rw [calls, List.getElem?_set_self hlt]
  obtain rfl : call₂ = call' := by
    rw [calls₂, List.getElem?_set_self hlt] at has'
    exact Option.some.inj has'
  have hline : call₂.line = call.line := turn.kept.1
  have hbefore := standing_of_has has
  have hafter := standing_of_has has'
  obtain ⟨locks, admitted, dialled⟩ := follows
  rw [← hbefore, ← hafter] at locks admitted dialled
  refine .turn whose (line?_of_has has) ?_ ?_ ?_ notices locks admitted dialled
  · rw [hbefore, hafter]
    exact turn.passes
  · intro c' hc'
    rw [standing, standing, calls, List.getElem?_set_ne (Ne.symm hc')]
  · intro c'
    by_cases hc' : c' = c
    · subst hc'
      rw [line?_of_has has, line?_of_has has', hline]
    · rw [line?, line?, calls, List.getElem?_set_ne (Ne.symm hc')]

/-- **An action heeds the locks.** -/
theorem act_heeds (s : Setting) (w : World) (a : Action) : Heeds w a (w.act s a) := by
  -- a turn that changes no call, or the turn of nobody
  have hidle (calls : (w.act s a).calls = w.calls) :
      (w.act s a).locks = w.locks ∧ (w.act s a).dialled = w.dialled := by
    cases whose : a.turnOf? with
    | none => exact act_idle fun c h => by rw [whose] at h; cases h
    | some c =>
      cases has : w.calls[c]? with
      | none =>
        refine act_idle fun c' h => ?_
        obtain rfl := Option.some.inj (whose.symm.trans h)
        exact has
      | some call =>
        obtain ⟨call', calls', locks, -, dialled⟩ := act_followed (s := s) whose has
        obtain rfl : call' = call := by
          have has' := has
          rw [← calls, calls', List.getElem?_set_self (List.getElem?_eq_some_iff.1 has).1] at has'
          exact Option.some.inj has'
        refine ⟨funext fun l => ?_, ?_⟩
        · rw [locks, Lock.follow_self, ite_self]
        · rw [dialled, if_neg, Nat.add_zero]
          rintro ⟨h, h'⟩
          exact absurd (h.symm.trans h') (by decide)
  cases act_changes s w a with
  | nothing calls notices _ _ =>
    exact heeds_idle calls notices (hidle calls).1 (hidle calls).2
  | turn whose took => exact took.heeds whose
  | joins whose calls notices _ =>
    have hrest := act_idle (s := s) (w := w) (a := a) fun c h => by rw [whose] at h; cases h
    refine .idle (fun c => ?_) (fun c hc => ?_) notices hrest.1 hrest.2
    · by_cases hlt : c < w.calls.length
      · rw [standing, standing, calls, List.getElem?_append_left hlt]
      · -- the new call stands where a call stands that is not made yet
        rw [standing, standing, calls, List.getElem?_append_right (Nat.not_lt.1 hlt),
          List.getElem?_eq_none (Nat.not_lt.1 hlt)]
        cases c - w.calls.length <;> rfl
    · rw [line?, Option.isSome_map] at hc
      obtain ⟨call, has⟩ := Option.isSome_iff_exists.1 hc
      have hlt := (List.getElem?_eq_some_iff.1 has).1
      rw [line?, line?, calls, List.getElem?_append_left hlt]
  | answers whose calls notices _ =>
    have hrest := act_idle (s := s) (w := w) (a := a) fun c h => by rw [whose] at h; cases h
    obtain calls | ⟨c', call, has, calls⟩ := calls
    · exact heeds_idle calls notices hrest.1 hrest.2
    · have hlt := (List.getElem?_eq_some_iff.1 has).1
      refine .idle (fun c => ?_) (fun c _ => ?_) notices hrest.1 hrest.2
      · by_cases hc : c' = c
        · subst hc
          rw [standing, standing, calls, List.getElem?_set_self hlt, has]
        · rw [standing, standing, calls, List.getElem?_set_ne hc]
      · by_cases hc : c' = c
        · subst hc
          rw [line?, line?, calls, List.getElem?_set_self hlt, has]
          rfl
        · rw [line?, line?, calls, List.getElem?_set_ne hc]

/-- A call that is not made yet has not asked behind an action either. -/
theorem standing_of_joins (s : Setting) (a : Action) (has : w.calls[c]? = none) :
    (w.act s a).standing c = .outside := by
  have hout : w.standing c = .outside := by
    rw [standing, has]
  have hnone : w.line? c = none := by
    rw [line?, has]
    rfl
  cases act_heeds s w a with
  | idle standing => exact (standing c).trans hout
  | @turn c' _ _ _ has' _ others =>
    refine (others c ?_).trans hout
    rintro rfl
    cases hnone.symm.trans has'

/-! ### Along a run -/

/-- What is seen of each action of a run, in the world in which it is done. -/
def trace {α : Type} (s : Setting) (see : World → Action → List α) : World → List Action → List α
  | _, [] => []
  | w, a :: later => see w a ++ trace s see (w.act s a) later

theorem trace_concat {α : Type} (s : Setting) (see : World → Action → List α) (w : World)
    (actions : List Action) (a : Action) :
    trace s see w (actions ++ [a]) = trace s see w actions ++ see (run s w actions) a := by
  induction actions generalizing w with
  | nil => exact (List.append_nil _)
  | cons b later ih =>
    rw [List.cons_append, trace, ih, trace, List.append_assoc]
    rfl

/-- What holds at the start and is kept by every action holds at the end of every run. -/
theorem run_induction {P : World → List Action → Prop} (first : P start [])
    (next : ∀ actions a, P (run s start actions) actions →
      P ((run s start actions).act s a) (actions ++ [a])) (actions : List Action) :
    P (run s start actions) actions := by
  induction actions using List.reverseRecOn with
  | nil => exact first
  | append_singleton actions a ih =>
    rw [run_concat]
    exact next actions a ih

end World

end TokenFeedback
