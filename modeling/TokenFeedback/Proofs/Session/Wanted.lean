import TokenFeedback.Proofs.Session.Bridge

/-!
# Who is cancelled, and who is not

A handle that is cancelled stays cancelled, and its copies with it. A call is cancelled through its
own handle and through no other; and a caller who has a task do the work leaves it behind through
the handle that the task was given. So a call whose handle is not cancelled, which its owner does not
give up and its observer does not break off, is where it would be if it were alone.

* `Handles.isCancelled_cancel`: which handles a cancellation is meant for.
* `World.isCancelled_run`: **a handle that is cancelled stays cancelled.**
* `World.Owned`, `World.owned_of_run`: what cancelled and left a call.
* `World.Unstopped`, `World.AsAlone`, `World.Unstopped.asAlone`: **a call that nobody stops is where
  it would be alone.**
-/

namespace TokenFeedback

namespace Handles

variable {hs : Handles} {g h : Nat}

/-- Do two handles stand for the same calls? -/
def Shares (hs : Handles) (g h : Nat) : Prop :=
  ∃ flag, hs.flagOf[g]? = some flag ∧ hs.flagOf[h]? = some flag

theorem isCancelled_iff :
    hs.isCancelled g = true ↔ ∃ flag, hs.flagOf[g]? = some flag ∧ flag ∈ hs.raised := by
  unfold isCancelled
  cases hs.flagOf[g]? with
  | none => simp
  | some flag => simp

/-- **A cancellation is meant for the handle, its copies and those it is a copy of**, and for no
other handle. -/
theorem isCancelled_cancel :
    (hs.cancel h).isCancelled g = true ↔ hs.isCancelled g = true ∨ hs.Shares g h := by
  simp only [isCancelled_iff, Shares]
  unfold cancel
  cases hh : hs.flagOf[h]? with
  | none => simp
  | some raised =>
    simp only [List.mem_cons]
    constructor
    · rintro ⟨flag, hflag, rfl | hmem⟩
      · exact .inr ⟨flag, hflag, rfl⟩
      · exact .inl ⟨flag, hflag, hmem⟩
    · rintro (⟨flag, hflag, hmem⟩ | ⟨flag, hflag, hraised⟩)
      · exact ⟨flag, hflag, .inr hmem⟩
      · exact ⟨flag, hflag, .inl (Option.some.inj hraised).symm⟩

theorem isCancelled_add (raised : hs.isCancelled g = true) : hs.add.isCancelled g = true := by
  obtain ⟨flag, hflag, hmem⟩ := isCancelled_iff.1 raised
  have hlt : g < hs.flagOf.length := (List.getElem?_eq_some_iff.1 hflag).1
  refine isCancelled_iff.2 ⟨flag, ?_, hmem⟩
  simp only [add, List.getElem?_append_left hlt, hflag]

/-- A copy stands for the same calls. -/
theorem shares_copy (made : h < hs.flagOf.length) : (hs.copy h).Shares hs.flagOf.length h := by
  have hflag : hs.flagOf[h]? = some hs.flagOf[h] := List.getElem?_eq_getElem made
  refine ⟨hs.flagOf[h], ?_, ?_⟩
  · simp only [copy, hflag, Option.toList_some, List.getElem?_concat_length]
  · simp only [copy, List.getElem?_append_left made, hflag]

end Handles

namespace World

variable {s : Setting} {w : World} {c : Nat} {call call' : Call} {a : Action}
  {told : List Callback} {entries : List LogEntry}

/-! ### Flags stay raised -/

theorem move_handles (w : World) (c : Nat) (call : Call) (next : Stage) :
    (w.move c call next).handles = w.handles := by
  unfold move
  split <;> rfl

theorem drop_handles (w : World) (c : Nat) : (w.drop c).handles = w.handles := by
  unfold drop
  split
  · rfl
  · split
    · rfl
    · exact move_handles w c _ _

/-- A notice may have a handle cancelled. -/
theorem tell_handles (s : Setting) (w : World) (c : Nat) (callback : Callback) :
    (tell s w c callback).1.handles = w.handles ∨
      ∃ h, (tell s w c callback).1.handles = w.handles.cancel h := by
  unfold tell
  split
  · exact .inl rfl
  · exact .inr ⟨_, rfl⟩
  · exact .inl rfl

theorem apply_handles (s : Setting) (w : World) (c : Nat) (call : Call)
    (progress : Stage.Progress) :
    (w.apply s c call progress).handles = w.handles ∨
      ∃ h, (w.apply s c call progress).handles = w.handles.cancel h := by
  cases progress with
  | sleeps wake log stage => exact .inl rfl
  | breaks message log => exact .inl (move_handles _ c call _)
  | moves notice log next =>
    cases notice with
    | none => exact .inl (move_handles w c call next)
    | some callback =>
      have htells := tell_handles s w c callback
      have hmove (mid : World) : (w.apply s c call (.moves (some callback) log next)).handles =
          (tell s w c callback).1.handles := by
        rw [apply]
        rcases tell s w c callback with ⟨mid, _ | p⟩
        · obtain ⟨dialled, hcount⟩ := countDial_eq mid next
          simp only [note, move_handles, hcount]
        · exact move_handles mid c call _
      rw [hmove w]
      exact htells

/-- **All that an action can do to the handles**: it adds one, or cancels one. -/
theorem act_handles (s : Setting) (w : World) (a : Action) :
    (w.act s a).handles = w.handles ∨ (w.act s a).handles = w.handles.add ∨
      ∃ h, (w.act s a).handles = w.handles.cancel h := by
  cases a with
  | begin => exact .inl rfl
  | spawn => exact .inl rfl
  | addHandle => exact .inr (.inl rfl)
  | cancel h => exact .inr (.inr ⟨h, rfl⟩)
  | wait => exact .inl rfl
  | poll c =>
    left
    rw [act, poll]
    split
    · rfl
    · split
      · rfl
      · split
        · exact move_handles _ c _ _
        · rfl
  | step c =>
    rw [act, step]
    split
    · exact .inl rfl
    · split
      · exact .inl rfl
      · split
        · left
          unfold enter
          dsimp only
          split <;> rfl
        · split <;> exact .inl rfl
        · exact (apply_handles s w c _ _).imp_right .inr
  | drop c => exact .inl (drop_handles w c)
  | dispose c =>
    left
    rw [act, dispose]
    split
    · rfl
    · split
      · exact drop_handles w c
      · rfl
  | look b =>
    left
    rw [act, look]
    split
    · rfl
    · split
      · rfl
      · split
        · rfl
        · split
          · unfold abort
            split <;> rfl
          · rfl

theorem isCancelled_act {h : Nat} (raised : w.handles.isCancelled h = true) (s : Setting)
    (a : Action) : (w.act s a).handles.isCancelled h = true := by
  obtain hsame | hadds | ⟨g, hcancels⟩ := act_handles s w a
  · rw [hsame, raised]
  · rw [hadds, Handles.isCancelled_add raised]
  · rw [hcancels]
    exact Handles.isCancelled_cancel.2 (.inl raised)

/-- **A handle that is cancelled stays cancelled.** -/
theorem isCancelled_run {h : Nat} (raised : w.handles.isCancelled h = true) (s : Setting)
    (later : List Action) : (run s w later).handles.isCancelled h = true := by
  induction later generalizing w with
  | nil => exact raised
  | cons a later ih => exact ih (isCancelled_act raised s a)

/-- A call that was made with a cancelled handle is cancelled, and stays so. -/
theorem isCancelled_call_act (raised : w.isCancelled call = true) (same : call'.handle = call.handle)
    (s : Setting) (a : Action) : (w.act s a).isCancelled call' = true := by
  unfold isCancelled at raised ⊢
  rw [same]
  cases hhandle : call.handle with
  | none =>
    rw [hhandle] at raised
    exact raised
  | some h =>
    rw [hhandle] at raised
    exact isCancelled_act raised s a

/-! ### Who stops a call -/

/-- Only a caller whose own handle is cancelled leaves a call behind. -/
theorem look_left (has : w.calls[c]? = some call) (b : Nat) :
    (w.look b).calls[c]? = some call ∨
      (w.look b).calls[c]? = some { call with aborted := true } ∧
        ∃ bridge, w.bridges[b]? = some bridge ∧ bridge.call = c ∧
          w.handles.isCancelled bridge.handle = true := by
  unfold look
  split
  · exact .inl has
  · next bridge hb =>
    split
    · exact .inl has
    · split
      · exact .inl has
      · split
        · next raised =>
          by_cases hc : bridge.call = c
          · subst hc
            refine .inr ⟨?_, bridge, hb, rfl, raised⟩
            have hlt : bridge.call < w.calls.length := (List.getElem?_eq_some_iff.1 has).1
            simp only [answer, abort, note, has, put, List.getElem?_set_self hlt]
          · left
            unfold answer abort
            dsimp only [note]
            split
            · exact has
            · dsimp only [put]
              rw [List.getElem?_set_ne hc, has]
        · exact .inl has

theorem abort_bridges (w : World) (c : Nat) : (w.abort c).bridges = w.bridges := by
  unfold abort
  split <;> rfl

/-- A caller keeps its task and its handle, or is a new one. -/
theorem act_bridges {b : Nat} {bridge : Bridge} (s : Setting) (a : Action)
    (hb : (w.act s a).bridges[b]? = some bridge) :
    (∃ before, w.bridges[b]? = some before ∧ before.call = bridge.call ∧
        before.handle = bridge.handle) ∨
      ∃ line, a = .spawn line bridge.handle ∧ bridge.call = w.calls.length := by
  have hsame (bridges : (w.act s a).bridges = w.bridges) :
      ∃ before, w.bridges[b]? = some before ∧ before.call = bridge.call ∧
        before.handle = bridge.handle := by
    rw [bridges] at hb
    exact ⟨bridge, hb, rfl, rfl⟩
  cases a with
  | begin => exact .inl (hsame rfl)
  | poll c => exact .inl (hsame (turn_bridges rfl))
  | step c => exact .inl (hsame (turn_bridges rfl))
  | drop c => exact .inl (hsame (turn_bridges rfl))
  | dispose c => exact .inl (hsame (turn_bridges rfl))
  | addHandle => exact .inl (hsame rfl)
  | cancel h => exact .inl (hsame rfl)
  | wait ms => exact .inl (hsame rfl)
  | spawn line handle =>
    have hb' : (w.bridges ++ [⟨w.calls.length, handle, none⟩])[b]? = some bridge := hb
    by_cases hlt : b < w.bridges.length
    · rw [List.getElem?_append_left hlt] at hb'
      exact .inl ⟨bridge, hb', rfl, rfl⟩
    · rw [List.getElem?_append_right (Nat.not_lt.1 hlt)] at hb'
      obtain rfl := List.mem_singleton.1 (List.mem_of_getElem? hb')
      exact .inr ⟨line, rfl, rfl⟩
  | look b' =>
    left
    -- an answer is all that a caller may get
    have hanswer (mid : World) (bridges : mid.bridges = w.bridges) {asker : Bridge}
        (hasker : w.bridges[b']? = some asker) {result : Except SessionError (List Record)}
        (h : (mid.answer b' asker result).bridges[b]? = some bridge) :
        ∃ before, w.bridges[b]? = some before ∧ before.call = bridge.call ∧
          before.handle = bridge.handle := by
      simp only [answer, bridges] at h
      by_cases hbb : b' = b
      · subst hbb
        rw [List.getElem?_set_self (List.getElem?_eq_some_iff.1 hasker).1] at h
        obtain rfl := Option.some.inj h
        exact ⟨asker, hasker, rfl, rfl⟩
      · rw [List.getElem?_set_ne hbb] at h
        exact ⟨bridge, h, rfl, rfl⟩
    rw [act, look] at hb
    split at hb
    · exact ⟨bridge, hb, rfl, rfl⟩
    · next asker hasker =>
      split at hb
      · exact ⟨bridge, hb, rfl, rfl⟩
      · split at hb
        · exact hanswer _ (by rfl) hasker hb
        · split at hb
          · exact hanswer _ (abort_bridges (w.note [waitCancelledEntry]) asker.call) hasker hb
          · exact ⟨bridge, hb, rfl, rfl⟩

/-- A call that an action brings has not begun. -/
theorem act_new (s : Setting) (a : Action) (absent : w.calls[c]? = none)
    (has : (w.act s a).calls[c]? = some call) :
    c = w.calls.length ∧ ∃ line handle, call = ⟨line, handle, .fresh, false, none, false⟩ := by
  have hge : w.calls.length ≤ c := List.getElem?_eq_none_iff.1 absent
  have hlt : c < (w.act s a).calls.length := (List.getElem?_eq_some_iff.1 has).1
  cases act_changes s w a with
  | nothing calls => rw [calls, absent] at has; cases has
  | turn whose took =>
    obtain ⟨-, -, calls, -, -, -⟩ := took
    rw [calls, List.length_set] at hlt
    omega
  | joins whose calls =>
    rw [calls, List.length_append, List.length_singleton] at hlt
    rw [calls, List.getElem?_append_right hge] at has
    exact ⟨by omega, _, _, List.mem_singleton.1 (List.mem_of_getElem? has)⟩
  | answers whose calls =>
    obtain calls | ⟨c', call', -, calls⟩ := calls
    · rw [calls, absent] at has
      cases has
    · rw [calls, List.length_set] at hlt
      omega

end World

/-- A session is not lost by its own doing, unless it breaks down. -/
theorem Stage.isLost_of_step {stage : Stage} {k : Connection} {now : Nat} {link : Link}
    (lost : (stage.step k now link).next.isLost = true) :
    stage.isLost = true ∨ ∃ p, (stage.step k now link).next = .panicked p := by
  have hkept {α : Type} {due : Due α} {stage : Stage} {next : α → Progress}
      (waits : stage.isLost = false) (ready : ∀ a, (next a).next.isLost = false)
      (lost : (await now due stage next).next.isLost = true) : False := by
    have hgoes : (await now due stage next).next.isLost = false :=
      await_next (P := fun stage => stage.isLost = false) waits fun _ answer _ _ => ready answer
    exact Bool.false_ne_true (hgoes.symm.trans lost)
  cases stage with
  | connecting due met =>
    refine (hkept rfl (fun answer => ?_) lost).elim
    cases answer <;> rfl
  | handshaking due met =>
    refine (hkept rfl (fun answer => ?_) lost).elim
    cases answer <;> rfl
  | closing due b ending => exact (hkept rfl (fun _ => rfl) lost).elim
  | connected met =>
    rw [step] at lost
    split at lost <;> cases lost
  | streaming r b met =>
    rw [step] at lost ⊢
    unfold read at lost ⊢
    split at lost
    · next h => exact .inr ⟨_, rfl⟩
    · cases lost
    · cases lost
    · cases lost
    · split at lost <;> cases lost
  | failing e => exact .inl lost
  | failed e => exact .inl lost
  | done result => exact .inl lost
  | panicked p => exact .inl rfl
  | dropped => exact .inl rfl
  | fresh => cases lost
  | queued => cases lost
  | admitted => cases lost
  | shaken => cases lost
  | delivering => cases lost
  | closed => cases lost
  | ended => cases lost

/-- **Who stopped a call**: its own handle, its owner or its observer, unless it broke down. -/
structure Call.Owned (call : Call) (w : World) (actions : List World.Action) (c : Nat) : Prop where
  lost : call.stage.isLost = true →
    w.isCancelled call = true ∨ call.stage = .dropped ∧ .drop c ∈ actions ∨
      ∃ p, call.stage = .panicked p
  left : call.aborted = true → w.isCancelled call = true

namespace World

variable {s : Setting} {w : World} {c : Nat} {call call' : Call} {a : Action}
  {told : List Callback} {entries : List LogEntry} {actions : List Action}

theorem Turn.owned (turn : Turn s w c call a call' told entries) (h : call.Owned w actions c) :
    call'.Owned (w.act s a) (actions ++ [a]) c := by
  obtain ⟨-, hhandle, haborted⟩ := turn.kept
  have hraised (raised : w.isCancelled call = true) : (w.act s a).isCancelled call' = true :=
    isCancelled_call_act raised hhandle s a
  refine ⟨fun lost => ?_, fun aborted => hraised (h.left (haborted.symm.trans aborted))⟩
  cases finished : call.stage.isOver with
  | true =>
    obtain ⟨hsame, -⟩ := turn.same_of_isOver finished
    rw [hsame] at lost ⊢
    obtain raised | ⟨hdropped, given⟩ | broken := h.lost lost
    · exact .inl (hraised raised)
    · exact .inr (.inl ⟨hdropped, List.mem_append_left _ given⟩)
    · exact .inr (.inr broken)
  | false =>
    -- a call that is lost and not over has been cancelled
    have hbefore (lost : call.stage.isLost = true) : (w.act s a).isCancelled call' = true := by
      obtain raised | ⟨hdropped, -⟩ | ⟨p, broken⟩ := h.lost lost
      · exact hraised raised
      · rw [hdropped] at finished
        cases finished
      · rw [broken] at finished
        cases finished
    obtain hstays | hnext | hasks | ⟨-, unwanted⟩ | broken | ⟨hdropped, given⟩ := turn.leads
    · rw [hstays] at lost
      exact .inl (hbefore lost)
    · rw [hnext] at lost ⊢
      obtain before | broken := Stage.isLost_of_step lost
      · exact .inl (hbefore before)
      · exact .inr (.inr broken)
    · obtain hqueued | hadmitted := hasks
      · rw [hqueued] at lost
        cases lost
      · rw [hadmitted] at lost
        cases lost
    · exact .inl (hraised unwanted)
    · exact .inr (.inr broken)
    · obtain rfl | ⟨-, aborted⟩ := given
      · exact .inr (.inl ⟨hdropped, List.mem_append_right _ (List.mem_singleton.2 rfl)⟩)
      · exact .inl (hraised (h.left aborted))

/-- **What holds of calls, and of those who wait for them.** -/
structure Owned (w : World) (actions : List Action) : Prop where
  calls : ∀ (c : Nat) (call : Call), w.calls[c]? = some call → call.Owned w actions c
  /-- A task has the handle of its caller. -/
  bridges : ∀ (b : Nat) (bridge : Bridge), w.bridges[b]? = some bridge →
    ∃ call, w.calls[bridge.call]? = some call ∧ call.handle = some bridge.handle

/-- A call keeps its handle. -/
theorem handle_act (s : Setting) (has : w.calls[c]? = some call) (a : Action) :
    ∃ call', (w.act s a).calls[c]? = some call' ∧ call'.handle = call.handle := by
  obtain ⟨call', told, fares, has', -⟩ := act_fares s has a
  refine ⟨call', has', ?_⟩
  generalize w.reported s c a = entries at fares
  cases fares with
  | same => rfl
  | left => rfl
  | turn turn _ => exact turn.kept.2.1

/-- **Every action keeps what holds of calls and of those who wait for them.** -/
theorem Owned.act (h : Owned w actions) (s : Setting) (a : Action) :
    Owned (w.act s a) (actions ++ [a]) := by
  -- a call that an action leaves alone
  have hsame {c : Nat} {call : Call} (has : w.calls[c]? = some call) :
      call.Owned (w.act s a) (actions ++ [a]) c := by
    obtain ⟨lost, left⟩ := h.calls c call has
    refine ⟨fun hlost => ?_, fun aborted => isCancelled_call_act (left aborted) rfl s a⟩
    obtain raised | ⟨hdropped, given⟩ | broken := lost hlost
    · exact .inl (isCancelled_call_act raised rfl s a)
    · exact .inr (.inl ⟨hdropped, List.mem_append_left _ given⟩)
    · exact .inr (.inr broken)
  refine ⟨fun c call' has' => ?_, fun b bridge hb => ?_⟩
  · cases has : w.calls[c]? with
    | none =>
      obtain ⟨-, line, handle, rfl⟩ := act_new s a has has'
      exact ⟨fun lost => (by cases lost), fun aborted => (by cases aborted)⟩
    | some call =>
      obtain ⟨call'', told, fares, has'', -⟩ := act_fares s has a
      obtain rfl := Option.some.inj (has''.symm.trans has')
      generalize w.reported s c a = entries at fares
      cases fares with
      | same => exact hsame has
      | turn turn _ => exact turn.owned (h.calls c call has)
      | @left b whose =>
        subst whose
        refine ⟨(hsame has).lost, fun _ => ?_⟩
        obtain hkept | ⟨-, bridge, hb, rfl, raised⟩ := look_left has b
        · -- it had been left behind before
          have hbefore : call.aborted = true := by
            have hcall := Option.some.inj (has'.symm.trans hkept)
            rw [← hcall]
          exact (hsame has).left hbefore
        · obtain ⟨call₂, has₂, hhandle⟩ := h.bridges b bridge hb
          obtain rfl := Option.some.inj (has₂.symm.trans has)
          refine isCancelled_call_act ?_ rfl s _
          unfold isCancelled
          rw [hhandle]
          exact raised
  · obtain ⟨before, hbefore, hcall, hhandle⟩ | ⟨line, rfl, hcall⟩ := act_bridges s a hb
    · obtain ⟨call, has, hown⟩ := h.bridges b before hbefore
      obtain ⟨call', has', hkept⟩ := handle_act s has a
      exact ⟨call', hcall ▸ has', by rw [hkept, hown, hhandle]⟩
    · refine ⟨⟨line, some bridge.handle, .fresh, false, none, false⟩, ?_, rfl⟩
      rw [hcall]
      exact List.getElem?_concat_length

/-- **What holds of calls and of those who wait for them holds at any time.** -/
theorem owned_of_run (s : Setting) (actions : List Action) : Owned (run s start actions) actions := by
  refine run_induction (P := Owned) ?_ (fun _ a h => h.act s a) actions
  exact ⟨fun c call has => (by cases has), fun b bridge hb => (by cases hb)⟩

/-! ### Calls that nobody stops -/

/-- **Nobody has stopped a call**: its handle is not cancelled, its owner has not given it up, and
it has not broken down. -/
structure Unstopped (s : Setting) (actions : List Action) (c : Nat) (call : Call) : Prop where
  has : (run s start actions).calls[c]? = some call
  wanted : (run s start actions).isCancelled call = false
  owned : .drop c ∉ actions
  whole : ∀ p, call.stage ≠ .panicked p

/-- **A call is where it would be alone**: it returns and has told the same as the only call of a
world that has the same turns, whose handle nobody has, and whose dial meets the far side that the
dial of the call has met. As long as the call has not dialled, any far side will do. -/
structure AsAlone (s : Setting) (actions : List Action) (c line : Nat) : Prop where
  met : ∃ link, ∀ n, (dials s actions)[n]? = some c → s.network n = link
  agrees : ∀ link, (∀ n, (dials s actions)[n]? = some c → s.network n = link) →
    (solo s link line c actions).result? 0 = (run s start actions).result? c ∧
      (solo s link line c actions).callbacks 0 = (run s start actions).callbacks c

/-- A call meets one far side at most. -/
theorem exists_met (s : Setting) (actions : List Action) (c : Nat) :
    ∃ link, ∀ n, (dials s actions)[n]? = some c → s.network n = link := by
  by_cases hmem : c ∈ dials s actions
  · obtain ⟨n, hn⟩ := List.getElem?_of_mem hmem
    refine ⟨s.network n, fun m hm => ?_⟩
    have hlt : n < (dials s actions).length := (List.getElem?_eq_some_iff.1 hn).1
    rw [(List.getElem?_inj hlt (nodup_dials s actions).1).1 (hn.trans hm.symm)]
  · exact ⟨s.network 0, fun n hn => absurd (List.mem_of_getElem? hn) hmem⟩

/-- Two calls at one stage return the same. -/
theorem result?_congr {v : World} {d : Nat} (has : w.calls[c]? = some call)
    (has' : v.calls[d]? = some call') (same : call'.stage = call.stage) :
    v.result? d = w.result? c := by
  simp only [result?, has, has', same]

/-- A call that has not got past the queue and dialled has returned nothing and told nothing. -/
theorem silent_of_early (s : Setting) (actions : List Action)
    (has : (run s start actions).calls[c]? = some call)
    (early : call.stage.standing.isLate = false) :
    (run s start actions).result? c = none ∧ (run s start actions).callbacks c = [] := by
  have hsound := sound_of_run s actions has
  have htold : call.stage.told? = some [] := by
    cases hstage : call.stage <;> first | rfl | (rw [hstage] at early; cases early)
  refine ⟨?_, hsound.tells.eq_of_told? htold⟩
  simp only [result?, has]
  split
  · next hdone =>
    rw [hdone] at htold
    cases htold
  · rfl

namespace Unstopped

theorem isLost (h : Unstopped s actions c call) : call.stage.isLost = false := by
  rw [Bool.eq_false_iff]
  intro lost
  obtain raised | ⟨-, given⟩ | ⟨p, broken⟩ :=
    ((owned_of_run s actions).calls c call h.has).lost lost
  · exact Bool.false_ne_true (h.wanted.symm.trans raised)
  · exact h.owned given
  · exact h.whole p broken

/-- **A call that nobody stops is where it would be alone.** -/
theorem asAlone (h : Unstopped s actions c call) : AsAlone s actions c call.line := by
  have hmirrors := mirrors_of_run s call.line c actions fun call' has' => by
    rw [Option.some.inj (has'.symm.trans h.has)]
  have hstanding := standing_of_has h.has
  refine ⟨exists_met s actions c, fun link met => ?_⟩
  -- before its dial, the call is silent with any far side
  have hearly {stage : Stage} (early : call.stage.standing.isLate = false)
      (before : ∀ result, stage ≠ .done result)
      (lone : Lone call.line (run s start actions).now stage []
        (solo s link call.line c actions)) :
      (solo s link call.line c actions).result? 0 = (run s start actions).result? c ∧
        (solo s link call.line c actions).callbacks 0 = (run s start actions).callbacks c := by
    obtain ⟨hresult, htold⟩ := silent_of_early s actions h.has early
    obtain ⟨awake, wake, hcall⟩ := lone.has
    rw [hresult, htold]
    refine ⟨?_, lone.tells⟩
    simp only [result?, hcall]
  cases hmirrors with
  | early waits lone =>
    rw [hstanding] at waits
    refine hearly ?_ (fun _ hdone => (by cases hdone)) (lone link)
    obtain hwaits | hwaits := waits <;> rw [hwaits] <;> rfl
  | admitted holds lone =>
    rw [hstanding] at holds
    exact hearly (by rw [holds]; rfl) (fun _ hdone => (by cases hdone)) (lone link)
  | @late n before dialled hbefore late lone =>
    obtain rfl := Option.some.inj (hbefore.symm.trans h.has)
    rw [met n dialled] at lone
    obtain ⟨awake, wake, hcall⟩ := lone.has
    exact ⟨result?_congr h.has hcall rfl, lone.tells⟩
  | @lost before hbefore lost =>
    obtain rfl := Option.some.inj (hbefore.symm.trans h.has)
    exact absurd (h.isLost.symm.trans lost) Bool.false_ne_true

end Unstopped

/-- Two calls, in two runs or in one, that are where the same call would be alone, with the same far
side, return the same and tell the same. -/
theorem AsAlone.unique {actions' : List Action} {c' line : Nat} (h : AsAlone s actions c line)
    (h' : AsAlone s actions' c' line) (turns : alone s line c actions = alone s line c' actions')
    (met : ∀ n n', (dials s actions)[n]? = some c → (dials s actions')[n']? = some c' →
      s.network n = s.network n') :
    (run s start actions).result? c = (run s start actions').result? c' ∧
      (run s start actions).callbacks c = (run s start actions').callbacks c' := by
  -- one far side is that of both
  obtain ⟨link, hlink, hlink'⟩ : ∃ link,
      (∀ n, (dials s actions)[n]? = some c → s.network n = link) ∧
        ∀ n', (dials s actions')[n']? = some c' → s.network n' = link := by
    by_cases hmem : c ∈ dials s actions
    · obtain ⟨n, hn⟩ := List.getElem?_of_mem hmem
      obtain ⟨link, hlink⟩ := h.met
      refine ⟨link, hlink, fun n' hn' => ?_⟩
      rw [← met n n' hn hn', hlink n hn]
    · obtain ⟨link, hlink'⟩ := h'.met
      exact ⟨link, fun n hn => absurd (List.mem_of_getElem? hn) hmem, hlink'⟩
  obtain ⟨hresult, htold⟩ := h.agrees link hlink
  obtain ⟨hresult', htold'⟩ := h'.agrees link hlink'
  have hsolo : solo s link line c actions = solo s link line c' actions' := by
    rw [solo, solo, turns]
  rw [← hresult, ← hresult', ← htold, ← htold', hsolo]
  exact ⟨rfl, rfl⟩

end World

end TokenFeedback
