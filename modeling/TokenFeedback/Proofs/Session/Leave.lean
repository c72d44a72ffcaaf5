import TokenFeedback.Proofs.Session.Wanted

/-!
# Calls that are cancelled

The first turn of a call that begins when the handle of the call is cancelled is its last. The call
gives up its transport and its lock, or its place in the queue, as the turn begins; then it tells
that it terminated and that it was cancelled, and returns. The other calls see nothing of it but a
shorter queue.

* `farewell`, `Stage.leaving`: what a cancelled call tells, and where it is meanwhile.
* `World.TakesLeave`, `World.TakesLeave.run`: **a cancelled call does nothing but take its leave**,
  whatever happens meanwhile.
* `World.Barred`, `World.Barred.run`: a call that was made with a cancelled handle never gets further
  than that.
* `World.Guarded.order_of_others`: the others at a lock keep their order.
* `World.cancellation_stops_own_calls`: the main result.
-/

namespace TokenFeedback

/-- What a cancelled call tells. -/
def farewell : List Callback := [.phase .terminated, .failure .cancelled]

/-- Where a cancelled call is after so many steps. -/
def Stage.leaving : Nat → Stage
  | 0 => .failing .cancelled
  | 1 => .failed .cancelled
  | _ + 2 => .done (.error .cancelled)

theorem Stage.standing_leaving (n : Nat) : (Stage.leaving n).standing = .gone := by
  rcases n with _ | _ | n <;> rfl

namespace World

variable {s : Setting} {w : World} {c n : Nat} {call call' : Call} {a : Action}
  {told before more : List Callback} {entries : List LogEntry}

/-! ### Taking leave -/

/-- **A call takes its leave**: `before` was told when it was cancelled, and it has made so many
steps since. The observer may break it off when it is told of the end. -/
inductive TakesLeave (s : Setting) (before : List Callback) (n : Nat) (call : Call)
    (told : List Callback) : Prop
  | leaves (stage : call.stage = .leaving n) (awake : call.awake = !call.stage.isOver)
      (tells : told = before ++ farewell.take n)
  | struck {m p earlier callback} (stage : call.stage = .panicked p) (asleep : call.awake = false)
      (within : m ≤ n) (tells : told = before ++ farewell.take m) (notice : callback ∈ farewell)
      (panics : s.reaction earlier callback = .panics p)

theorem TakesLeave.gone (h : TakesLeave s before n call told) :
    call.stage.standing = .gone ∧ call.stage.holdsTransport = false := by
  cases h with
  | leaves stage =>
    rw [stage]
    rcases n with _ | _ | n <;> exact ⟨rfl, rfl⟩
  | struck stage =>
    rw [stage]
    exact ⟨rfl, rfl⟩

/-- Two steps, and the call has returned, unless the observer has broken it off. -/
theorem TakesLeave.returns (h : TakesLeave s before n call told) (all : 2 ≤ n) :
    call.stage = .done (.error .cancelled) ∨ ∃ p, call.stage = .panicked p := by
  cases h with
  | struck stage => exact .inr ⟨_, stage⟩
  | leaves stage =>
    obtain ⟨n, rfl⟩ : ∃ k, n = k + 2 := ⟨n - 2, by omega⟩
    exact .inl stage

/-- In the midst of a turn, and behind the last, a call has no turn but its own steps. -/
theorem Turn.eq_step (turn : Turn s w c call a call' more entries)
    (busy : call.awake = true ∨ call.stage.isOver = true) : a = .step c := by
  have hnone (asleep : call.awake = false) (runs : call.stage.isOver = false) : False := by
    rw [asleep, runs] at busy
    simp at busy
  cases turn with
  | wakes asleep runs => exact (hnone asleep runs).elim
  | cancelled asleep runs => exact (hnone asleep runs).elim
  | dropped _ asleep runs => exact (hnone asleep runs).elim
  | queues => rfl
  | enters => rfl
  | rests => rfl
  | moves => rfl
  | tells => rfl
  | struck => rfl
  | sleeps => rfl
  | breaks => rfl

/-- A step that tells something, and reports nothing. -/
theorem Turn.of_tells {callback : Callback} {next : Stage}
    (turn : Turn s w c call (.step c) call' more entries) (begun : call.stage ≠ .fresh)
    (admitted : call.stage ≠ .queued)
    (step : ∀ k now link, call.stage.step k now link = .moves (some callback) [] next) :
    more = [callback] ∧ (call'.stage = next ∧ call'.awake = !next.isOver ∨
      ∃ p, call'.stage = .panicked p ∧ call'.awake = false ∧
        s.reaction w.notices callback = .panics p) := by
  obtain ⟨htold, hafter⟩ := turn.makes_step begun admitted
  rw [step] at htold hafter
  refine ⟨htold, ?_⟩
  obtain rfl | ⟨callback', p, hsame, rfl, panics⟩ := hafter
  · exact .inl ⟨rfl, rfl⟩
  · obtain rfl := (List.cons.inj hsame).1
    exact .inr ⟨p, rfl, rfl, panics⟩

/-- A call that is asleep makes no step. -/
theorem step_asleep (has : w.calls[c]? = some call) (asleep : call.awake = false) :
    w.act s (.step c) = w := by
  rw [act, step, has]
  simp only [asleep, Bool.not_false, if_true]

theorem farewell_take {n : Nat} (all : 2 ≤ n) : farewell.take n = farewell :=
  List.take_of_length_le all

/-- A step of a call that takes its leave. -/
theorem TakesLeave.step (h : TakesLeave s before n call (w.callbacks c))
    (has : w.calls[c]? = some call) :
    ∃ call', (w.act s (.step c)).calls[c]? = some call' ∧
      TakesLeave s before (n + 1) call' ((w.act s (.step c)).callbacks c) := by
  cases h with
  | @struck m p earlier callback stage asleep within tells notice panics =>
    rw [step_asleep has asleep]
    exact ⟨call, has, .struck stage asleep (Nat.le_succ_of_le within) tells notice panics⟩
  | leaves stage awake tells =>
    -- a step that tells the next notice, or is broken off by it
    have htells {callback : Callback} (n : Nat) (hn : n + 1 ≤ 2)
        (hnotice : farewell[n]? = some callback) (leaving : call.stage = .leaving n)
        (told : w.callbacks c = before ++ farewell.take n)
        (step : ∀ k now link, call.stage.step k now link =
          .moves (some callback) [] (.leaving (n + 1)))
        (awake : call.awake = true) :
        ∃ call', (w.act s (.step c)).calls[c]? = some call' ∧
          TakesLeave s before (n + 1) call' ((w.act s (.step c)).callbacks c) := by
      have hstanding : call.stage.standing = .gone := by
        rw [leaving, Stage.standing_leaving]
      have hbegun : call.stage ≠ .fresh ∧ call.stage ≠ .queued := by
        constructor
        · intro h
          rw [h] at hstanding
          cases hstanding
        · intro h
          rw [h] at hstanding
          cases hstanding
      obtain ⟨call', more, turn, has', htold, -⟩ :=
        (step_took (s := s) has awake).turn (a := .step c) rfl has
      obtain ⟨rfl, hend⟩ := turn.of_tells hbegun.1 hbegun.2 step
      have htake : w.callbacks c ++ [callback] = before ++ farewell.take (n + 1) := by
        rw [told, List.append_assoc, List.take_add_one, hnotice, Option.toList_some]
      refine ⟨call', has', ?_⟩
      rw [htold, htake]
      obtain ⟨hstage, hawake⟩ | ⟨p, hstage, hasleep, panics⟩ := hend
      · exact .leaves hstage (hstage ▸ hawake) rfl
      · exact .struck hstage hasleep (Nat.le_refl _) rfl (List.mem_of_getElem? hnotice) panics
    rcases n with _ | _ | n
    · exact htells 0 (by omega) rfl stage tells (fun k now link => by rw [stage]; rfl)
        (by rw [awake, stage]; rfl)
    · exact htells 1 (by omega) rfl stage tells (fun k now link => by rw [stage]; rfl)
        (by rw [awake, stage]; rfl)
    · -- it has returned
      rw [step_asleep has (by rw [awake, stage]; rfl)]
      refine ⟨call, has, .leaves stage awake ?_⟩
      rw [tells, farewell_take (by omega), farewell_take (by omega)]

/-- **An action in which a call takes its leave.** -/
theorem TakesLeave.act (h : TakesLeave s before n call (w.callbacks c))
    (has : w.calls[c]? = some call) (a : Action) :
    ∃ call', (w.act s a).calls[c]? = some call' ∧
      TakesLeave s before (n + [a].count (.step c)) call' ((w.act s a).callbacks c) := by
  by_cases hstep : a = .step c
  · subst hstep
    simpa using h.step has
  · have hcount : [a].count (.step c) = 0 := by simp [hstep]
    have hbusy : call.awake = true ∨ call.stage.isOver = true := by
      cases h with
      | leaves stage awake =>
        rw [awake]
        cases call.stage.isOver <;> simp
      | struck stage =>
        rw [stage]
        exact .inr rfl
    rw [hcount, Nat.add_zero]
    obtain ⟨call', more, fares, has', htold⟩ := act_fares s has a
    refine ⟨call', has', ?_⟩
    generalize w.reported s c a = entries at fares
    cases fares with
    | same =>
      rw [htold, List.append_nil]
      exact h
    | left =>
      rw [htold, List.append_nil]
      cases h with
      | leaves stage awake tells => exact .leaves stage awake tells
      | struck stage asleep within tells notice panics =>
        exact .struck stage asleep within tells notice panics
    | turn turn _ => exact absurd (turn.eq_step hbusy) hstep

/-- **A call that takes its leave does nothing else**, whatever happens meanwhile. -/
theorem TakesLeave.run (h : TakesLeave s before n call (w.callbacks c))
    (has : w.calls[c]? = some call) (later : List Action) :
    ∃ call', (run s w later).calls[c]? = some call' ∧
      TakesLeave s before (n + later.count (.step c)) call' ((run s w later).callbacks c) := by
  induction later using List.reverseRecOn with
  | nil => exact ⟨call, has, h⟩
  | append_singleton later a ih =>
    obtain ⟨mid, hmid, hleave⟩ := ih
    rw [run_concat, List.count_append, ← Nat.add_assoc]
    exact hleave.act hmid a

/-- The first turn of a call that begins when the call is cancelled. -/
theorem takesLeave_of_poll (has : w.calls[c]? = some call) (asleep : call.awake = false)
    (runs : call.stage.isOver = false) (kept : call.aborted = false)
    (unwanted : w.isCancelled call = true) :
    ∃ call', (w.act s (.poll c)).calls[c]? = some call' ∧
      TakesLeave s (w.callbacks c) 0 call' ((w.act s (.poll c)).callbacks c) := by
  obtain ⟨call', more, turn, has', htold, -⟩ :=
    (poll_took (s := s) has asleep runs kept).turn (a := .poll c) rfl has
  refine ⟨call', has', ?_⟩
  rw [htold]
  generalize w.reported s c (.poll c) = entries at turn
  cases turn with
  | wakes _ _ _ wanted => exact absurd (wanted.symm.trans unwanted) Bool.false_ne_true
  | cancelled => exact .leaves rfl rfl rfl
  | dropped given =>
    obtain h | ⟨h, -⟩ := given
    · cases h
    · cases h

/-! ### Calls with a cancelled handle -/

/-- **A call that was made with a cancelled handle** has not begun, or takes its leave, or was given
up. -/
inductive Barred (s : Setting) (call : Call) (told : List Callback) : Prop
  | fresh (stage : call.stage = .fresh) (asleep : call.awake = false) (silent : told = [])
  | leaves {steps : Nat} (leave : TakesLeave s [] steps call told)
  | givenUp (stage : call.stage = .dropped) (silent : told = [])

theorem Barred.act (h : Barred s call (w.callbacks c)) (has : w.calls[c]? = some call)
    (unwanted : w.isCancelled call = true) (a : Action) :
    ∃ call', (w.act s a).calls[c]? = some call' ∧ call'.handle = call.handle ∧
      Barred s call' ((w.act s a).callbacks c) := by
  obtain ⟨call', more, fares, has', htold⟩ := act_fares s has a
  obtain ⟨mid, hmid, hhandle⟩ := handle_act s has a
  obtain rfl := Option.some.inj (hmid.symm.trans has')
  refine ⟨mid, has', hhandle, ?_⟩
  cases h with
  | leaves leave =>
    obtain ⟨mid', hmid', hleave⟩ := leave.act has a
    obtain rfl := Option.some.inj (hmid'.symm.trans has')
    exact .leaves hleave
  | givenUp stage silent =>
    have hover : call.stage.isOver = true := by
      rw [stage]
      rfl
    rw [htold, silent]
    generalize w.reported s c a = entries at fares
    cases fares with
    | same => exact .givenUp stage rfl
    | left => exact .givenUp stage rfl
    | turn turn _ =>
      obtain ⟨hstage, rfl⟩ := turn.same_of_isOver hover
      exact .givenUp (hstage.trans stage) rfl
  | fresh stage asleep silent =>
    have hawake (awake : call.awake = true) : False :=
      Bool.false_ne_true (asleep.symm.trans awake)
    rw [htold, silent]
    generalize w.reported s c a = entries at fares
    cases fares with
    | same => exact .fresh stage asleep rfl
    | left => exact .fresh stage asleep rfl
    | turn turn _ =>
      cases turn with
      | wakes _ _ _ wanted => exact absurd (wanted.symm.trans unwanted) Bool.false_ne_true
      | cancelled => exact .leaves (.leaves rfl rfl rfl : TakesLeave s [] 0 _ _)
      | dropped => exact .givenUp rfl rfl
      | queues awake => exact (hawake awake).elim
      | enters awake => exact (hawake awake).elim
      | rests awake => exact (hawake awake).elim
      | moves awake => exact (hawake awake).elim
      | tells awake => exact (hawake awake).elim
      | struck awake => exact (hawake awake).elim
      | sleeps awake => exact (hawake awake).elim
      | breaks awake => exact (hawake awake).elim

theorem Barred.run (h : Barred s call (w.callbacks c)) (has : w.calls[c]? = some call)
    (unwanted : w.isCancelled call = true) (later : List Action) :
    ∃ call', (run s w later).calls[c]? = some call' ∧
      Barred s call' ((run s w later).callbacks c) := by
  induction later generalizing w call with
  | nil => exact ⟨call, has, h⟩
  | cons a later ih =>
    obtain ⟨call', has', hhandle, hbarred⟩ := h.act has unwanted a
    exact ih hbarred has' (isCancelled_call_act unwanted hhandle s a)

/-- Such a call has neither lock nor transport, and tells and returns nothing but the
cancellation. -/
theorem Barred.facts (h : Barred s call told) :
    call.stage.usesLock = false ∧ call.stage.holdsTransport = false ∧ told <+: farewell ∧
      ∀ result, call.stage = .done result → result = .error .cancelled := by
  have hpart : told <+: farewell := by
    cases h with
    | fresh _ _ silent => exact silent ▸ List.nil_prefix
    | givenUp _ silent => exact silent ▸ List.nil_prefix
    | leaves leave =>
      cases leave with
      | leaves _ _ tells => exact tells ▸ List.take_prefix _ _
      | struck _ _ _ tells => exact tells ▸ List.take_prefix _ _
  have hstage : call.stage = .fresh ∨ call.stage = .dropped ∨ (∃ p, call.stage = .panicked p) ∨
      ∃ n, call.stage = .leaving n := by
    cases h with
    | fresh stage => exact .inl stage
    | givenUp stage => exact .inr (.inl stage)
    | leaves leave =>
      cases leave with
      | leaves stage => exact .inr (.inr (.inr ⟨_, stage⟩))
      | struck stage => exact .inr (.inr (.inl ⟨_, stage⟩))
  obtain hstage | hstage | ⟨p, hstage⟩ | ⟨n, hstage⟩ := hstage
  · rw [hstage]
    exact ⟨rfl, rfl, hpart, fun _ h => (by cases h)⟩
  · rw [hstage]
    exact ⟨rfl, rfl, hpart, fun _ h => (by cases h)⟩
  · rw [hstage]
    exact ⟨rfl, rfl, hpart, fun _ h => (by cases h)⟩
  · rw [hstage]
    rcases n with _ | _ | n
    · exact ⟨rfl, rfl, hpart, fun _ h => (by cases h)⟩
    · exact ⟨rfl, rfl, hpart, fun _ h => (by cases h)⟩
    · exact ⟨rfl, rfl, hpart, fun _ h => (Stage.done.inj h).symm⟩

/-! ### The others -/

/-- **The others at a lock keep their order** in the turns of a call. -/
theorem Guarded.order_of_others (h : Guarded w) (whose : a.turnOf? = some c) (line : Nat) :
    ((w.act s a).locks line).members.erase c = (w.locks line).members.erase c := by
  cases act_heeds s w a with
  | idle _ _ _ locks => rw [locks]
  | @turn c' l told whose' has passes others lines notices locks =>
    obtain rfl := Option.some.inj (whose'.symm.trans whose)
    rw [locks]
    by_cases hl : line = l
    · subst hl
      rw [if_pos rfl, h.members_follow]
      split
      · rfl
      · next hne =>
        split
        · next hafter =>
          -- the one who comes was not there
          have hnot : c' ∉ (w.locks line).members := by
            rw [h.member]
            rintro ⟨-, uses⟩
            exact hne (uses.trans hafter.symm)
          rw [List.erase_append_right _ hnot, List.erase_cons_head, List.append_nil,
            List.erase_of_not_mem hnot]
        · exact List.erase_of_not_mem (h.distinct line).not_mem_erase
    · rw [if_neg hl]

/-- Whoever is done with the lock is at no lock. -/
theorem Guarded.notMem_of_gone (h : Guarded w) (gone : w.standing c = .gone) (line : Nat) :
    c ∉ (w.locks line).members := by
  rw [h.member]
  rintro ⟨-, uses⟩
  rw [gone] at uses
  cases uses

/-- The turns of a call do nothing to the other calls. -/
theorem others_of_turn (whose : a.turnOf? = some c) {c' : Nat} (other : c' ≠ c) :
    (w.act s a).calls[c']? = w.calls[c']? ∧ (w.act s a).callbacks c' = w.callbacks c' := by
  cases act_changes s w a with
  | nothing calls notices => exact ⟨by rw [calls], by rw [callbacks, notices, callbacks]⟩
  | turn whose' took =>
    obtain rfl := Option.some.inj (whose'.symm.trans whose)
    obtain ⟨-, hcalls, htold⟩ := took.other whose (Ne.symm other)
    exact ⟨hcalls, htold.trans (List.append_nil _)⟩
  | joins nobody => cases nobody.symm.trans whose
  | answers look =>
    rw [look] at whose
    cases whose

/-- **A cancellation stops the calls that it is meant for, at once and for good, and no others**,
at any time of any run, whatever the far sides and the observer do.

* For good: a handle that is cancelled stays cancelled; a cancellation is meant for the handle, its
  copies and those it is a copy of.
* At once: take a call whose handle is cancelled and whose turn begins, at whatever stage it is. It
  leaves the lock or the queue as its turn begins. From then on, whatever else happens, it has no
  transport, is at no lock, and has told what it had told before and a part of its farewell: as much
  as it has made steps, unless the observer breaks it off there. Two steps, and it has returned the
  cancellation.
* A call that is made with a cancelled handle, for a caller that waits or by a task, never has a
  transport or the lock, and tells and returns nothing but the cancellation.
* No others: a cancellation itself does nothing to calls and callers, to locks and to handles that it
  is not meant for. The turns of a call do nothing to the other calls and to their order at a lock.
  And two calls on one connection whom nobody stops, in this run and in another, with other calls and
  other cancellations around them, return the same and tell the same, if they have the same turns
  and their dials meet the same far side. -/
theorem cancellation_stops_own_calls (s : Setting) (actions : List Action) :
    let w := run s start actions
    (∀ h later, w.handles.isCancelled h = true →
      (run s w later).handles.isCancelled h = true) ∧
    (∀ (hs : Handles) (g h : Nat),
      ((hs.cancel h).isCancelled g = true ↔ hs.isCancelled g = true ∨ hs.Shares g h) ∧
        (h < hs.flagOf.length → (hs.copy h).Shares hs.flagOf.length h)) ∧
    (∀ c call, w.calls[c]? = some call → call.awake = false → call.stage.isOver = false →
      call.aborted = false → w.isCancelled call = true →
        (∀ line, ((w.act s (.poll c)).locks line).members = (w.locks line).members.erase c) ∧
        ∀ later, ∃ call', (run s (w.act s (.poll c)) later).calls[c]? = some call' ∧
          call'.stage.holdsTransport = false ∧
          (∀ line, c ∉ ((run s (w.act s (.poll c)) later).locks line).members) ∧
          TakesLeave s (w.callbacks c) (later.count (.step c)) call'
            ((run s (w.act s (.poll c)) later).callbacks c) ∧
          (2 ≤ later.count (.step c) →
            call'.stage = .done (.error .cancelled) ∨ ∃ p, call'.stage = .panicked p)) ∧
    (∀ h line a, w.handles.isCancelled h = true → a = .begin line (some h) ∨ a = .spawn line h →
      ∀ later, ∃ call, (run s (w.act s a) later).calls[w.calls.length]? = some call ∧
        call.stage.holdsTransport = false ∧
        (∀ l, w.calls.length ∉ ((run s (w.act s a) later).locks l).members) ∧
        (run s (w.act s a) later).callbacks w.calls.length <+: farewell ∧
        ∀ result, call.stage = .done result → result = .error .cancelled) ∧
    (∀ h, (w.act s (.cancel h)).calls = w.calls ∧ (w.act s (.cancel h)).bridges = w.bridges ∧
      (w.act s (.cancel h)).locks = w.locks ∧ (w.act s (.cancel h)).notices = w.notices ∧
      ∀ g, ¬ w.handles.Shares g h →
        (w.act s (.cancel h)).handles.isCancelled g = w.handles.isCancelled g) ∧
    (∀ a c, a.turnOf? = some c →
      (∀ c', c' ≠ c → (w.act s a).calls[c']? = w.calls[c']? ∧
        (w.act s a).callbacks c' = w.callbacks c') ∧
      ∀ line, ((w.act s a).locks line).members.erase c = (w.locks line).members.erase c) ∧
    ∀ actions' c c' call call', Unstopped s actions c call → Unstopped s actions' c' call' →
      call'.line = call.line → alone s call.line c actions = alone s call.line c' actions' →
      (∀ n n', (dials s actions)[n]? = some c → (dials s actions')[n']? = some c' →
        s.network n = s.network n') →
      w.result? c = (run s start actions').result? c' ∧
        w.callbacks c = (run s start actions').callbacks c' := by
  intro w
  have hguarded : Guarded w := guarded_of_run s actions
  have hlater (a : Action) (later : List Action) : Guarded (run s (w.act s a) later) := by
    have hall := guarded_of_run s (actions ++ a :: later)
    rwa [run, List.foldl_append] at hall
  refine ⟨fun h later raised => isCancelled_run raised s later,
    fun hs g h => ⟨Handles.isCancelled_cancel, Handles.shares_copy⟩,
    fun c call has asleep runs kept unwanted => ⟨fun line => ?_, fun later => ?_⟩,
    fun h line a raised made later => ?_, fun h => ⟨rfl, rfl, rfl, rfl, fun g others => ?_⟩,
    fun a c whose => ⟨fun c' other => others_of_turn whose other,
      hguarded.order_of_others whose⟩,
    fun actions' c c' call call' unstopped unstopped' same turns met => ?_⟩
  · obtain ⟨call', has', hleave⟩ := takesLeave_of_poll (s := s) has asleep runs kept unwanted
    have hgone : (w.act s (.poll c)).standing c = .gone := by
      rw [standing_of_has has', hleave.gone.1]
    have hpolled : Guarded (w.act s (.poll c)) := hlater (.poll c) []
    rw [← hguarded.order_of_others (s := s) (a := .poll c) rfl line,
      List.erase_of_not_mem (hpolled.notMem_of_gone hgone line)]
  · obtain ⟨mid, hmid, hleave⟩ := takesLeave_of_poll (s := s) has asleep runs kept unwanted
    obtain ⟨call', has', hleaves⟩ := hleave.run hmid later
    rw [Nat.zero_add] at hleaves
    refine ⟨call', has', hleaves.gone.2, fun line => ?_, hleaves, hleaves.returns⟩
    exact (hlater (.poll c) later).notMem_of_gone
      ((standing_of_has has').trans hleaves.gone.1) line
  · have hcalls : (w.act s a).calls = w.calls ++ [⟨line, some h, .fresh, false, none, false⟩] := by
      obtain rfl | rfl := made <;> rfl
    have hmade : (w.act s a).calls[w.calls.length]? =
        some ⟨line, some h, .fresh, false, none, false⟩ := by
      rw [hcalls, List.getElem?_concat_length]
    have hsilent : (w.act s a).callbacks w.calls.length = [] := by
      have hrun : run s start (actions ++ [a]) = w.act s a := run_concat s start actions a
      rw [← hrun] at hmade ⊢
      exact (silent_of_early s (actions ++ [a]) hmade rfl).2
    have hbarred : Barred s ⟨line, some h, .fresh, false, none, false⟩
        ((w.act s a).callbacks w.calls.length) := .fresh rfl rfl hsilent
    obtain ⟨call, has, hlast⟩ := hbarred.run hmade (isCancelled_act raised s a) later
    obtain ⟨uses, holds, tells, returns⟩ := hlast.facts
    refine ⟨call, has, holds, fun l hmem => ?_, tells, returns⟩
    have hstands := (((hlater a later).member l _).1 hmem).2
    rw [standing_of_has has, Stage.usesLock_standing, uses] at hstands
    cases hstands
  · have hiff : (w.handles.cancel h).isCancelled g = true ↔ _ := Handles.isCancelled_cancel
    rw [or_iff_left others] at hiff
    exact Bool.eq_iff_iff.2 hiff
  · have hlone' := unstopped'.asAlone
    rw [same] at hlone'
    exact unstopped.asAlone.unique hlone' turns met

/-! ### A call that is cancelled while another waits -/

/-- The first call connects and the second waits when the handle of the first is cancelled. -/
def cancelledAtWork : List Action :=
  [.begin 0 (some 0), .begin 0 none, .poll 0, .step 0, .step 0, .step 0, .poll 1, .step 1,
    .cancel 0]

/-- The first call takes its leave, and the second connects. -/
def madeRoom : List Action :=
  cancelledAtWork ++ [.poll 0, .step 0, .step 0, .poll 1, .step 1, .step 1]

/-- The first call makes room and returns, a call that is made with its handle tells no more than
its farewell, and the second call is where the only call of another run is. -/
theorem cancellation_stops_own_calls_at_work :
    let w := run slowToConnect start cancelledAtWork
    (run slowToConnect w [.addHandle]).handles.isCancelled 0 = true ∧
      (w.locks 0).members = [0, 1] ∧
      ((w.act slowToConnect (.poll 0)).locks 0).members = [1] ∧
      (∃ call, (run slowToConnect (w.act slowToConnect (.poll 0)) [.step 0, .step 0]).calls[0]? =
          some call ∧
        (call.stage = .done (.error .cancelled) ∨ ∃ p, call.stage = .panicked p)) ∧
      (run slowToConnect (w.act slowToConnect (.spawn 0 0)) [.poll 2, .step 2]).callbacks 2 <+:
        farewell ∧
      (run slowToConnect start madeRoom).callbacks 1 =
        (run slowToConnect start [.begin 0 none, .poll 0, .step 0, .step 0]).callbacks 0 := by
  intro w
  have hfirst : w.calls[0]? = some ⟨0, some 0,
      .connecting (some (5, .ok ())) (slowToConnect.network 0), false, some 5, false⟩ := rfl
  have hraised : w.handles.isCancelled 0 = true := rfl
  obtain ⟨sticky, -, leaves, barred, -, -, -⟩ :=
    cancellation_stops_own_calls slowToConnect cancelledAtWork
  obtain ⟨hroom, htakes⟩ := leaves 0 _ hfirst rfl rfl rfl hraised
  obtain ⟨call, has, -, -, -, hreturns⟩ := htakes [.step 0, .step 0]
  obtain ⟨-, -, -, -, htells, -⟩ := barred 0 0 (.spawn 0 0) hraised (.inr rfl) [.poll 2, .step 2]
  have hsecond : (run slowToConnect start madeRoom).calls[1]? = some ⟨0, none,
      .connecting (some (5, .ok ())) (slowToConnect.network 1), true, none, false⟩ := rfl
  have honly : (run slowToConnect start [.begin 0 none, .poll 0, .step 0, .step 0]).calls[0]? =
      some ⟨0, none, .connecting (some (5, .ok ())) (slowToConnect.network 0), true, none,
        false⟩ := rfl
  obtain ⟨-, -, -, -, -, -, others⟩ := cancellation_stops_own_calls slowToConnect madeRoom
  obtain ⟨-, hsame⟩ := others [.begin 0 none, .poll 0, .step 0, .step 0] 1 0 _ _
    ⟨hsecond, rfl, by decide, fun p h => (by cases h)⟩
    ⟨honly, rfl, by decide, fun p h => (by cases h)⟩ rfl rfl (fun _ _ _ _ => rfl)
  exact ⟨sticky 0 [.addHandle] hraised, rfl, hroom 0, ⟨call, has, hreturns (by decide)⟩, htells,
    hsame⟩

end World

end TokenFeedback
