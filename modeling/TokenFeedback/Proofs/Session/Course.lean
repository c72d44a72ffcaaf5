import TokenFeedback.Proofs.Session.Bridge
import TokenFeedback.Proofs.Session.Prompt

/-!
# Calls one after another

On the prompt schedule a call that goes alone, behind calls that are over, does nothing but its own
steps: each as soon as it can be made, and when it sleeps, the time passes until it wakes.

* `Stage.Course`: the steps of a session that is never kept waiting, with the times of its sleeps.
* `World.Sole`, `World.Sole.next?`: a call that goes alone, and what happens next.
* `World.Sole.course`: **the prompt schedule takes a call that goes alone along its course.**
* `World.Rested`: nothing is under way, and the next call may come.
-/

namespace TokenFeedback

namespace Stage

/-- **The course of a session that has dialled and goes on as soon as it can**: from a stage at a
time to a later stage and its time, with what it tells on the way. -/
inductive Course (k : Connection) : Nat → Stage → List Callback → Nat → Stage → Prop
  | here {now stage} : Course k now stage [] now stage
  | moves {now stage link notice log next told time last}
      (step : stage.step k now link = .moves notice log next)
      (dialled : stage.standing ≠ .admitted) (later : Course k now next told time last) :
      Course k now stage (notice.toList ++ told) time last
  | sleeps {now stage link wake log stage' told time last}
      (step : stage.step k now link = .sleeps (some wake) log stage')
      (works : stage.standing = .busy) (early : now < wake)
      (later : Course k wake stage' told time last) : Course k now stage told time last

theorem Course.trans {k : Connection} {now mid time : Nat} {stage stage' last : Stage}
    {told told' : List Callback} (h : Course k now stage told mid stage')
    (h' : Course k mid stage' told' time last) : Course k now stage (told ++ told') time last := by
  induction h with
  | here => exact h'
  | moves step dialled _ ih =>
    rw [List.append_assoc]
    exact .moves step dialled (ih h')
  | sleeps step works early _ ih => exact .sleeps step works early (ih h')

/-- A session that moves is not over and does not wait for the lock. -/
theorem runs_of_moves {stage next : Stage} {k : Connection} {now : Nat} {link : Link}
    {notice : Option Callback} {log : List LogEntry}
    (step : stage.step k now link = .moves notice log next) :
    stage.isOver = false ∧ stage ≠ .fresh ∧ stage ≠ .queued := by
  refine ⟨?_, ?_, ?_⟩
  · rw [Bool.eq_false_iff]
    intro hover
    cases (step_of_isOver hover k now link).symm.trans step
  · rintro rfl
    cases step
  · rintro rfl
    cases step

theorem isOver_of_busy {stage : Stage} (works : stage.standing = .busy) : stage.isOver = false := by
  cases stage <;> first | rfl | cases works

theorem begun_of_busy {stage : Stage} (works : stage.standing = .busy) :
    stage ≠ .fresh ∧ stage ≠ .queued := by
  constructor
  · rintro rfl
    cases works
  · rintro rfl
    cases works

/-- A session that sleeps stands where it stood. -/
theorem standing_of_sleeps {stage stage' : Stage} {k : Connection} {now : Nat} {link : Link}
    {wake : Option Nat} {log : List LogEntry} (works : stage.standing = .busy)
    (step : stage.step k now link = .sleeps wake log stage') : stage'.standing = .busy := by
  obtain ⟨begun, admitted⟩ := begun_of_busy works
  have hpasses := stage.step_passes k now link begun admitted
  rw [step, works] at hpasses
  cases hpasses with
  | sleeps same => exact same

end Stage

/-- A call of a line that nobody can cancel. It is its turn, unless it is over. -/
def Call.going (line : Nat) (stage : Stage) : Call := ⟨line, none, stage, !stage.isOver, none, false⟩

namespace World

variable {s : Setting} {w w' w'' : World}

/-- **With a calm observer a call makes its step**, if it does not wait for the lock. -/
theorem Turn.eq_after {c : Nat} {call call' : Call} {told : List Callback}
    {entries : List LogEntry} (turn : Turn s w c call (.step c) call' told entries)
    (calm : ∀ earlier callback p, s.reaction earlier callback ≠ .panics p)
    (begun : call.stage ≠ .fresh) (admitted : call.stage ≠ .queued) :
    let next := call.stage.step (s.connection call.line) w.now (s.network w.dialled)
    call' = call.after next ∧ told = next.told := by
  obtain ⟨htold, hafter | ⟨_, _, -, -, panics⟩⟩ := turn.makes_step begun admitted
  · exact ⟨hafter, htold⟩
  · exact absurd panics (calm _ _ _)

/-! ### A call that goes alone -/

/-- **A call that goes alone**: it is the last, nobody can cancel it or waits for it, and the calls
before it are over. They have made the notices `before`, and it has told `told`. -/
structure Sole (s : Setting) (w : World) (past : List Call) (before : List Notice) (call : Call)
    (told : List Callback) : Prop where
  reached : ∃ actions, w = run s start actions
  calls : w.calls = past ++ [call]
  finished : ∀ other ∈ past, other.stage.isOver = true ∧ other.awake = false
  nobody : w.bridges = []
  free : call.handle = none
  kept : call.aborted = false
  notices : w.notices = before ++ told.map (Notice.mk past.length)

/-- A turn is counted as a dial if the call dials in it. -/
structure Dials (w : World) (call call' : Call) (w' : World) : Prop where
  keeps : call.stage.standing ≠ .admitted → w'.dialled = w.dialled
  counts : call.stage.standing = .admitted → call'.stage.standing = .busy →
    w'.dialled = w.dialled + 1

namespace Sole

variable {past : List Call} {before : List Notice} {call : Call} {told : List Callback}

theorem has (h : Sole s w past before call told) : w.calls[past.length]? = some call := by
  rw [h.calls, List.getElem?_concat_length]

theorem set_calls (h : Sole s w past before call told) (call' : Call) :
    w.calls.set past.length call' = past ++ [call'] := by
  rw [h.calls, List.set_append_right _ _ (Nat.le_refl _), Nat.sub_self, List.set_cons_zero]

/-- Nobody can cancel it. -/
theorem wanted (h : Sole s w past before call told) : w.isCancelled call = false := by
  rw [isCancelled, h.free]

/-- **What happens next** where a call goes alone: it makes its step if it is its turn; it gets its
turn if there is reason for it; and else the time passes until it wakes. -/
theorem next? (h : Sole s w past before call told) :
    w.next? =
      if call.awake then some (.step past.length)
      else if w.isDue past.length call then some (.poll past.length)
      else if call.stage.isOver then none
      else call.wake.map fun t => .wait (t - w.now) := by
  have hawake := firstOf_concat (fun _ call => call.awake)
    (fun other hother _ => (h.finished other hother).2) call .step
  have hdispose := firstOf_concat (fun _ call => call.aborted && !call.stage.isOver)
    (fun other hother _ => by rw [(h.finished other hother).1]; exact Bool.and_false _) call .dispose
  have hdue := firstOf_concat w.isDue (fun other hother _ => by
    rw [isDue, (h.finished other hother).1, Bool.not_true, Bool.and_false, Bool.false_and,
      Bool.false_and]) call .poll
  have htimes : w.wakeTimes =
      if call.stage.isOver || call.aborted || call.awake then [] else call.wake.toList := by
    have hpast : (past.filterMap fun call => if call.stage.isOver || call.aborted || call.awake
        then none else call.wake) = [] := by
      rw [List.filterMap_eq_nil_iff]
      intro other hother
      rw [(h.finished other hother).1]
      rfl
    rw [wakeTimes, h.calls, List.filterMap_append, hpast, List.nil_append, List.filterMap_cons,
      List.filterMap_nil]
    cases call.stage.isOver || call.aborted || call.awake with
    | true => rfl
    | false => cases call.wake <;> rfl
  rw [World.next?, h.nobody, h.calls, hawake, hdispose, hdue, htimes, h.kept]
  rw [show firstOf ([] : List Bridge) (fun _ b => w.hasNews b) Action.look = none from rfl]
  cases call.awake with
  | true => rfl
  | false =>
    cases w.isDue past.length call with
    | true => rfl
    | false =>
      cases call.stage.isOver with
      | true => rfl
      | false => cases call.wake <;> rfl

/-- A turn of the call leaves it alone with what the turn has made of it. -/
theorem turn (h : Sole s w past before call told) {a : Action}
    (whose : a.turnOf? = some past.length) (took : Took s w past.length a (w.act s a)) :
    ∃ call' more entries, Turn s w past.length call a call' more entries ∧
      Sole s (w.act s a) past before call' (told ++ more) ∧ (w.act s a).now = w.now ∧
      Dials w call call' (w.act s a) := by
  obtain ⟨has, turn, calls, notices, -, now⟩ := took
  rename_i call₁ call' more entries
  obtain rfl := Option.some.inj (has.symm.trans h.has)
  obtain ⟨call₂, calls₂, follows⟩ := act_followed (s := s) whose has
  obtain rfl : call₂ = call' := by
    rw [calls, h.set_calls, h.set_calls] at calls₂
    exact (List.cons.inj (List.append_cancel_left calls₂)).1.symm
  obtain ⟨-, handle, aborted⟩ := turn.kept
  obtain ⟨actions, hrun⟩ := h.reached
  have hdialled := follows.dialled
  refine ⟨call₂, more, entries, turn, ⟨⟨actions ++ [a], ?_⟩, ?_, h.finished, ?_, ?_, ?_, ?_⟩, now,
    fun other => ?_, fun admitted busy => ?_⟩
  · rw [run_concat, ← hrun]
  · rw [calls, h.set_calls]
  · rw [turn_bridges whose, h.nobody]
  · rw [handle, h.free]
  · rw [aborted, h.kept]
  · rw [notices, h.notices, List.append_assoc, List.map_append]
  · rw [hdialled, if_neg fun h => other h.1, Nat.add_zero]
  · rw [hdialled, if_pos ⟨admitted, busy⟩]

/-- A call that has reason to get its turn gets it. -/
theorem poll (h : Sole s w past before call told) (asleep : call.awake = false)
    (runs : call.stage.isOver = false) (dials : call.stage.standing ≠ .admitted)
    (due : w.isDue past.length call = true) :
    ∃ w', Leads s w w' ∧
      Sole s w' past before { call with awake := true, wake := none } told ∧ w'.now = w.now ∧
      w'.dialled = w.dialled := by
  have hnext : w.next? = some (.poll past.length) := by
    rw [h.next?, asleep, due]
    rfl
  obtain ⟨call', more, entries, turn, hsole, hnow, hdialled⟩ :=
    h.turn (a := .poll past.length) rfl (poll_took h.has asleep runs h.kept)
  refine ⟨_, leads_of_next? hnext, ?_, hnow, hdialled.keeps dials⟩
  cases turn with
  | wakes =>
    rw [List.append_nil] at hsole
    exact hsole
  | cancelled _ _ _ unwanted => exact absurd (h.wanted.symm.trans unwanted) Bool.false_ne_true
  | dropped given =>
    obtain given | ⟨given, -⟩ := given
    · cases given
    · cases given

/-- A call whose turn it is, and that does not wait for the lock, makes its step. -/
theorem step (h : Sole s w past before call told)
    (calm : ∀ earlier callback p, s.reaction earlier callback ≠ .panics p)
    (awake : call.awake = true) (begun : call.stage ≠ .fresh) (admitted : call.stage ≠ .queued)
    {next : Stage.Progress}
    (step : call.stage.step (s.connection call.line) w.now (s.network w.dialled) = next) :
    ∃ w', Leads s w w' ∧ Sole s w' past before (call.after next) (told ++ next.told) ∧
      w'.now = w.now ∧ Dials w call (call.after next) w' := by
  have hnext : w.next? = some (.step past.length) := by
    rw [h.next?, awake]
    rfl
  obtain ⟨call', more, entries, turn, hsole, hnow, hdialled⟩ :=
    h.turn (a := .step past.length) rfl (step_took h.has awake)
  obtain ⟨rfl, rfl⟩ := turn.eq_after calm begun admitted
  rw [step] at hsole hdialled
  exact ⟨_, leads_of_next? hnext, hsole, hnow, hdialled⟩

/-- The time passes. -/
theorem wait (h : Sole s w past before call told) (ms : Nat) :
    Sole s (w.act s (.wait ms)) past before call told := by
  obtain ⟨actions, hrun⟩ := h.reached
  exact ⟨⟨actions ++ [.wait ms], by rw [run_concat, ← hrun]⟩, h.calls, h.finished, h.nobody, h.free,
    h.kept, h.notices⟩

/-- A call at work that is asleep sleeps until its time has come, and then has its turn again. -/
theorem wakes (h : Sole s w past before call told) (works : call.stage.standing = .busy)
    (asleep : call.awake = false) {wake : Nat} (wakes : call.wake = some wake)
    (early : w.now < wake) :
    ∃ w', Leads s w w' ∧ Sole s w' past before { call with awake := true, wake := none } told ∧
      w'.now = wake ∧ w'.dialled = w.dialled := by
  have hruns := Stage.isOver_of_busy works
  obtain ⟨begun, admitted⟩ := Stage.begun_of_busy works
  have hnext : w.next? = some (.wait (wake - w.now)) := by
    rw [h.next?, isDue_of_asleep asleep hruns h.kept begun admitted wakes, h.wanted, asleep, hruns,
      wakes, decide_eq_false (Nat.not_le.2 early)]
    rfl
  have hnow : (w.act s (.wait (wake - w.now))).now = wake := Nat.add_sub_of_le (Nat.le_of_lt early)
  have hsole := h.wait (wake - w.now)
  have hdue : (w.act s (.wait (wake - w.now))).isDue past.length call = true := by
    rw [isDue_of_asleep asleep hruns h.kept begun admitted wakes, hnow,
      decide_eq_true (Nat.le_refl wake), Bool.or_true]
  have hdials : call.stage.standing ≠ .admitted := fun h => by cases works.symm.trans h
  obtain ⟨w', hleads, hsole', hnow', hdialled⟩ := hsole.poll asleep hruns hdials hdue
  exact ⟨w', (leads_of_next? hnext).trans hleads, hsole', hnow'.trans hnow, hdialled⟩

/-- **The prompt schedule takes a call that goes alone along its course.** -/
theorem course {line now time : Nat} {stage last : Stage} {more : List Callback}
    (course : stage.Course (s.connection line) now more time last)
    (calm : ∀ earlier callback p, s.reaction earlier callback ≠ .panics p)
    (h : Sole s w past before (.going line stage) told) (hnow : w.now = now) :
    ∃ w', Leads s w w' ∧ Sole s w' past before (.going line last) (told ++ more) ∧
      w'.now = time ∧ w'.dialled = w.dialled := by
  -- a session that has dialled has nothing to do with the network any more
  induction course generalizing w told with
  | here => exact ⟨w, .refl s w, by rwa [List.append_nil], hnow, rfl⟩
  | @moves now stage link notice log next more time last step dialled _ ih =>
    have hstep : stage.step (s.connection line) w.now (s.network w.dialled) =
        .moves notice log next := by
      rw [hnow, Stage.step_eq (fun h => dialled (by rw [h]; rfl)) _ _ _ link, step]
    obtain ⟨hruns, begun, admitted⟩ := Stage.runs_of_moves step
    have hawake : (Call.going line stage).awake = true := by
      rw [Call.going, hruns]
      rfl
    obtain ⟨w₁, hleads, hsole, hnow₁, hdialled⟩ := h.step calm hawake begun admitted hstep
    obtain ⟨w₂, hleads₂, hsole₂, htime, hdialled₂⟩ := ih hsole (hnow₁.trans hnow)
    rw [List.append_assoc] at hsole₂
    exact ⟨w₂, hleads.trans hleads₂, hsole₂, htime, hdialled₂.trans (hdialled.keeps dialled)⟩
  | @sleeps now stage link wake log stage' more time last step works early _ ih =>
    have hstep : stage.step (s.connection line) w.now (s.network w.dialled) =
        .sleeps (some wake) log stage' := by
      rw [hnow, Stage.step_eq (fun hadmitted => by rw [hadmitted] at works; cases works) _ _ _ link,
        step]
    have hawake : (Call.going line stage).awake = true := by
      rw [Call.going, Stage.isOver_of_busy works]
      rfl
    obtain ⟨begun, admitted⟩ := Stage.begun_of_busy works
    obtain ⟨w₁, hleads, hsole, hnow₁, hdialled⟩ := h.step calm hawake begun admitted hstep
    have hdials := hdialled.keeps fun h => by cases works.symm.trans h
    have hworks := Stage.standing_of_sleeps works step
    have hearly : w₁.now < wake := by
      rw [hnow₁, hnow]
      exact early
    obtain ⟨w₂, hleads₂, hsole₂, hnow₂, hdialled₂⟩ := hsole.wakes hworks rfl rfl hearly
    have hgoing : Sole s w₂ past before (.going line stage') told := by
      rw [Call.going, Stage.isOver_of_busy hworks, ← List.append_nil told]
      exact hsole₂
    obtain ⟨w₃, hleads₃, hsole₃, htime, hdialled₃⟩ := ih hgoing hnow₂
    exact ⟨w₃, (hleads.trans hleads₂).trans hleads₃, hsole₃, htime,
      (hdialled₃.trans hdialled₂).trans hdials⟩

/-- A call that has not begun finds the lock free: whoever had it is over. -/
theorem free_lock {line : Nat} (h : Sole s w past before (.going line .fresh) told) :
    w.locks line = .free := by
  obtain ⟨actions, hrun⟩ := h.reached
  have hguarded : Guarded w := hrun ▸ guarded_of_run s actions
  cases hlock : w.locks line with
  | free => rfl
  | held c queue =>
    -- the holder is one of the calls, and none of them uses a lock
    have hmember : c ∈ (w.locks line).members := by
      rw [hlock]
      exact List.mem_cons_self
    obtain ⟨hline, huses⟩ := (hguarded.member line c).1 hmember
    obtain ⟨other, hother, -⟩ := Option.map_eq_some_iff.1 hline
    rw [standing_of_has hother] at huses
    rw [h.calls] at hother
    rcases List.mem_append.1 (List.mem_of_getElem? hother) with hpast | hlast
    · rw [Stage.standing_of_isOver (h.finished other hpast).1] at huses
      cases huses
    · rw [List.mem_singleton.1 hlast] at huses
      cases huses

/-- So it gets the lock as soon as it asks. -/
theorem enters {line : Nat} (h : Sole s w past before (.going line .fresh) told) :
    ∃ w', Leads s w w' ∧ Sole s w' past before (.going line .admitted) told ∧ w'.now = w.now ∧
      w'.dialled = w.dialled := by
  have hnext : w.next? = some (.step past.length) := by
    rw [h.next?]
    rfl
  obtain ⟨actions, hrun⟩ := h.reached
  have hact : w.act s (.step past.length) =
      (w.withLock line (.held past.length [])).put past.length (.going line .admitted) := by
    rw [act, World.step, h.has]
    dsimp only [Call.going]
    rw [if_neg (by simp [Stage.isOver]), enter]
    dsimp only
    rw [h.free_lock, if_pos (show (Lock.ask past.length .free).holder? = some past.length from rfl)]
    rfl
  refine ⟨w.act s (.step past.length), leads_of_next? hnext,
    ⟨⟨actions ++ [.step past.length], ?_⟩, ?_, h.finished, ?_, rfl, rfl, ?_⟩, ?_, ?_⟩
  · rw [run_concat, ← hrun]
  · rw [hact]
    exact h.set_calls _
  · rw [hact]
    exact h.nobody
  · rw [hact]
    exact h.notices
  · rw [hact]
    rfl
  · rw [hact]
    rfl

/-- **A call that goes alone dials as soon as it is made**, and meets what its dial meets. -/
theorem begins {line : Nat}
    (h : Sole s w past before ⟨line, none, .fresh, false, none, false⟩ told)
    (calm : ∀ earlier callback p, s.reaction earlier callback ≠ .panics p) :
    let link := s.network w.dialled
    ∃ w', Leads s w w' ∧
      Sole s w' past before (.going line (.connecting (link.connect.due w.now) link))
        (told ++ [.phase .connecting]) ∧ w'.now = w.now ∧ w'.dialled = w.dialled + 1 := by
  intro link
  have hdue : w.isDue past.length ⟨line, none, .fresh, false, none, false⟩ = true := by
    rw [isDue]
    simp [Stage.isOver]
  obtain ⟨w₁, hleads₁, hsole₁, hnow₁, hdialled₁⟩ := h.poll rfl rfl Standing.noConfusion hdue
  obtain ⟨w₂, hleads₂, hsole₂, hnow₂, hdialled₂⟩ := enters hsole₁
  have hstep : (Call.going line .admitted).stage.step
      (s.connection (Call.going line .admitted).line) w₂.now (s.network w₂.dialled) =
      .moves (some (.phase .connecting)) [] (.connecting (link.connect.due w.now) link) := by
    rw [hnow₂, hnow₁, hdialled₂, hdialled₁]
    rfl
  obtain ⟨w₃, hleads₃, hsole₃, hnow₃, hdialled₃⟩ :=
    hsole₂.step calm rfl (by simp [Call.going]) (by simp [Call.going]) hstep
  refine ⟨w₃, (hleads₁.trans hleads₂).trans hleads₃, hsole₃, ?_, ?_⟩
  · rw [hnow₃, hnow₂, hnow₁]
  · rw [hdialled₃.counts rfl rfl, hdialled₂, hdialled₁]

end Sole

/-! ### Between calls -/

/-- **Nothing is under way**: all calls are over, and nobody waits for one. -/
structure Rested (s : Setting) (w : World) : Prop where
  reached : ∃ actions, w = run s start actions
  finished : ∀ call ∈ w.calls, call.stage.isOver = true ∧ call.awake = false
  nobody : w.bridges = []

theorem rested_start (s : Setting) : Rested s start :=
  ⟨⟨[], rfl⟩, fun _ h => absurd h List.not_mem_nil, rfl⟩

/-- A call that is made where nothing is under way goes alone. -/
theorem Rested.begins (h : Rested s w) (pause line : Nat) :
    Sole s ((w.act s (.wait pause)).act s (.begin line none)) w.calls w.notices
      ⟨line, none, .fresh, false, none, false⟩ [] := by
  obtain ⟨actions, hrun⟩ := h.reached
  refine ⟨⟨actions ++ [.wait pause] ++ [.begin line none], ?_⟩, rfl, h.finished, h.nobody, rfl, rfl,
    (List.append_nil _).symm⟩
  rw [run_concat, run_concat, ← hrun]

/-- A call that went alone has left what the calls before it have returned and told. -/
theorem Sole.keeps {v : World} {call : Call} {told : List Callback}
    (h : Sole s w v.calls v.notices call told) {c : Nat} (lt : c < v.calls.length) :
    w.result? c = v.result? c ∧ w.callbacks c = v.callbacks c := by
  constructor
  · rw [result?, h.calls, List.getElem?_append_left lt]
    rfl
  · rw [callbacks, h.notices, List.filter_append, List.map_append, filter_map_mk,
      if_neg (Nat.ne_of_gt lt), List.append_nil]
    rfl

/-- What a call that went alone has returned and told, if no notice is of a call that there is
not. -/
theorem Sole.answers {v : World} {line : Nat} {told : List Callback}
    {result : Except SessionError (List Record)}
    (h : Sole s w v.calls v.notices (.going line (.done result)) told)
    (noted : ∀ n ∈ v.notices, n.call < v.calls.length) :
    w.result? v.calls.length = some result ∧ w.callbacks v.calls.length = told := by
  constructor
  · rw [result?, h.has]
    rfl
  · have hnone : v.notices.filter (fun n => n.call = v.calls.length) = [] :=
      List.filter_eq_nil_iff.2 fun n hn => by
        simpa using Nat.ne_of_lt (noted n hn)
    rw [callbacks, h.notices, List.filter_append, List.map_append, filter_map_mk, if_pos rfl, hnone]
    rfl

/-- A call that went alone and is over has nothing left under way. -/
theorem Sole.rested {past : List Call} {before : List Notice} {line : Nat} {stage : Stage}
    {told : List Callback} (h : Sole s w past before (.going line stage) told)
    (finished : stage.isOver = true) : Rested s w ∧ w.next? = none := by
  refine ⟨⟨h.reached, fun call hcall => ?_, h.nobody⟩, ?_⟩
  · rw [h.calls] at hcall
    rcases List.mem_append.1 hcall with hpast | hlast
    · exact h.finished call hpast
    · rw [List.mem_singleton.1 hlast]
      exact ⟨finished, congrArg not finished⟩
  · have hdue : w.isDue past.length (.going line stage) = false := by
      rw [isDue, Call.going]
      simp [finished]
    rw [h.next?, hdue, Call.going, finished]
    rfl

end World

end TokenFeedback
