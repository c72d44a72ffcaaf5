import TokenFeedback.Proofs.Session.Alone

/-!
# One call of a line at a time

Any number of calls of one line, in any order of their turns, with cancellations, calls given up and
observers that break them off: at most one of them has a transport, they dial in the order in which
they asked for the lock, whoever leaves makes room for the next, and each returns what it would
return alone.

* `World.single_flight`: the main result.
* `World.relay`: a run in which two of three calls leave before they have returned.
-/

namespace TokenFeedback

namespace World

variable {s : Setting} {w : World} {line c : Nat} {call : Call}

/-- Whoever has a transport has the lock. -/
theorem Guarded.head?_of_holdsTransport (h : Guarded w) (has : w.calls[c]? = some call)
    (holds : call.stage.holdsTransport = true) :
    (w.locks call.line).members.head? = some c := by
  refine h.holder _ c (line?_of_has has) (.inr ?_)
  rw [standing_of_has has, Stage.standing_of_holdsTransport holds]

/-- The calls at a lock are those of its line that wait for it or have it. -/
theorem Guarded.mem_iff (h : Guarded w) :
    c ∈ (w.locks line).members ↔
      ∃ call, w.calls[c]? = some call ∧ call.line = line ∧ call.stage.usesLock = true := by
  rw [h.member, line?, standing]
  cases has : w.calls[c]? with
  | none => simp
  | some call =>
    simp only [Option.map_some, Option.some.injEq, Stage.usesLock_standing]
    constructor
    · intro h
      exact ⟨call, rfl, h⟩
    · rintro ⟨_, rfl, h⟩
      exact h

/-- Whoever leaves a lock makes room, and the order of the others stays. -/
theorem Guarded.members_of_leaves (h : Guarded w) (a : Action) (before : c ∈ (w.locks line).members)
    (after : c ∉ ((w.act s a).locks line).members) :
    ((w.act s a).locks line).members = (w.locks line).members.erase c := by
  cases act_heeds s w a with
  | idle _ _ _ locks =>
    rw [locks] at after
    exact absurd before after
  | @turn c' l told whose has passes others lines notices locks =>
    rw [locks] at after ⊢
    by_cases hl : line = l
    · subst hl
      rw [if_pos rfl, h.members_follow] at after ⊢
      -- only the one whose turn it is can have left
      split at after
      · exact absurd before after
      · split at after
        · exact absurd (List.mem_append_left _ before) after
        · next hne hnot =>
          rw [if_neg hne, if_neg hnot]
          by_cases hc : c = c'
          · rw [hc]
          · exact absurd ((List.mem_erase_of_ne hc).2 before) after
    · rw [if_neg hl] at after
      exact absurd before after

/-- The holder of a lock who still waits finds in its next turn that it has the lock. -/
theorem admitted_of_holder (has : w.calls[c]? = some call)
    (holds : (w.locks call.line).holder? = some c) (queued : call.stage = .queued)
    (kept : call.aborted = false) (wanted : w.isCancelled call = false) :
    (run s w [.poll c, .step c]).standing c = .admitted := by
  have hover : call.stage.isOver = false := by
    rw [queued]
    rfl
  have hlt := (List.getElem?_eq_some_iff.1 has).1
  -- the poll wakes it, or it is awake
  obtain ⟨call', has', awake, queued', line', locks⟩ : ∃ call',
      (w.act s (.poll c)).calls[c]? = some call' ∧ call'.awake = true ∧ call'.stage = .queued ∧
        call'.line = call.line ∧ (w.act s (.poll c)).locks = w.locks := by
    cases awake : call.awake with
    | true =>
      have hsame : w.act s (.poll c) = w := by
        rw [act, poll, has]
        dsimp only
        rw [awake]
        rfl
      rw [hsame]
      exact ⟨call, has, awake, queued, rfl, rfl⟩
    | false =>
      have hwakes : w.act s (.poll c) =
          (w.note (opening s call)).put c { call with awake := true, wake := none } := by
        rw [act, poll, has]
        dsimp only
        rw [awake, hover, kept, wanted, if_neg (by simp), if_neg (by simp)]
      rw [hwakes]
      exact ⟨_, List.getElem?_set_self hlt, rfl, queued, rfl, rfl⟩
  have hgets : run s w [.poll c, .step c] =
      (w.act s (.poll c)).put c { call' with stage := .admitted } := by
    change (w.act s (.poll c)).step s c = _
    rw [step, has']
    dsimp only
    rw [awake, queued', line', locks, if_neg (by simp)]
    exact if_pos holds
  have hadmitted : (run s w [.poll c, .step c]).calls[c]? =
      some { call' with stage := .admitted } := by
    rw [hgets]
    exact List.getElem?_set_self (List.getElem?_eq_some_iff.1 has').1
  rw [standing_of_has hadmitted]
  rfl

/-- **One call of a line at a time.** At any time of any run, whatever the far sides and the
observer do, and in whatever order things happen, cancellations, calls given up and panics included:

* at most one call of a line has a transport, or is about to get one;
* the calls of the line that said that they connect are in the order in which they asked for the
  lock, each of them once;
* the calls at the lock are those of the line that wait for it or have it, so nobody who has ended
  is in the way; who leaves makes room for the next in any case, and a waiting call that is the next
  has the lock as soon as its turn comes, if it is still wanted;
* a call that returns, and was not cancelled, has dialled once, and returns what it returns when it
  is alone with the far side of this dial. -/
theorem single_flight (s : Setting) (actions : List Action) (line : Nat) :
    let w := run s start actions
    (∀ (c c' : Nat) (call call' : Call), w.calls[c]? = some call → w.calls[c']? = some call' →
      call.line = line → call'.line = line → call.stage.holdsTransport = true →
      call'.stage.holdsTransport = true → c = c') ∧
    ((w.connected line).Sublist (asked s line actions) ∧ (asked s line actions).Nodup) ∧
    ((∀ c, c ∈ (w.locks line).members ↔
        ∃ call : Call, w.calls[c]? = some call ∧ call.line = line ∧ call.stage.usesLock = true) ∧
      (∀ a c, c ∈ (w.locks line).members → c ∉ ((w.act s a).locks line).members →
        ((w.act s a).locks line).members = (w.locks line).members.erase c) ∧
      ∀ (c : Nat) (call : Call), w.calls[c]? = some call → (w.locks line).holder? = some c →
        call.stage = .queued → call.aborted = false → w.isCancelled call = false →
        (run s w [.poll c, .step c]).standing c = .admitted) ∧
    ∀ (c : Nat) (call : Call) (result : Except SessionError (List Record)),
      w.calls[c]? = some call → call.line = line → call.stage = .done result →
      result ≠ .error .cancelled →
      ∃ n, (∀ m, (dials s actions)[m]? = some c ↔ m = n) ∧
        (solo s (s.network n) line c actions).result? 0 = some result := by
  intro w
  have hguarded : Guarded w := guarded_of_run s actions
  have hinOrder : InOrder w line (asked s line actions) := inOrder_of_run s line actions
  refine ⟨fun c c' call call' has has' ofLine ofLine' holds holds' => ?_, ⟨?_, hinOrder.distinct⟩,
    ⟨fun c => hguarded.mem_iff, fun a c => hguarded.members_of_leaves a,
      fun c call has holds queued kept wanted => ?_⟩,
    fun c call result has ofLine returned kept => ?_⟩
  · have hhead := hguarded.head?_of_holdsTransport has holds
    have hhead' := hguarded.head?_of_holdsTransport has' holds'
    rw [ofLine] at hhead
    rw [ofLine'] at hhead'
    exact Option.some.inj (hhead.symm.trans hhead')
  · exact (List.sublist_append_left _ _).trans hinOrder.order
  · have hmember : c ∈ (w.locks line).members := by
      rw [Lock.holder?_eq_head?] at holds
      exact List.mem_of_mem_head? holds
    have hline := ((hguarded.member line c).1 hmember).1
    rw [line?_of_has has] at hline
    exact admitted_of_holder has (by rwa [Option.some.inj hline]) queued kept wanted
  · obtain ⟨n, hdialled, hreturns, -⟩ := result_alone s actions has returned kept
    refine ⟨n, fun m => ⟨fun hm => ?_, fun hm => hm ▸ hdialled⟩, by rwa [← ofLine]⟩
    have hlt := (List.getElem?_eq_some_iff.1 hm).1
    exact (List.getElem?_inj hlt (nodup_dials s actions).1).1 (hm.trans hdialled.symm)

/-! ### A run in which two of three calls leave -/

/-- The first far side takes five milliseconds to connect; the others send one record. -/
def relay : Setting :=
  ⟨fun _ => ⟨.standard .sandbox, .prepared .anyone .standard, .young⟩,
    fun n =>
      if n = 0 then ⟨.after 5 (.ok ()), .never, .ofEvents [] true, .never⟩
      else .streaming (.ofEvents [.data [0, 0, 0, 1, 0, 0]] false),
    Callback.entries, fun _ _ => .quiet⟩

/-- While the first call connects, the second and the third wait; the second is given up and the
first is cancelled, and the third has its turns. -/
def relayed : List Action :=
  [.begin 0 (some 0), .begin 0 none, .begin 0 none, .poll 0, .step 0, .step 0, .step 0, .poll 1,
    .step 1, .poll 2, .step 2, .drop 1, .cancel 0, .poll 0, .poll 2] ++ List.replicate 12 (.step 2)

theorem single_flight_relay :
    let before := run relay start (relayed.take 13)
    let after := run relay start (relayed.take 14)
    (∀ c' call', before.calls[c']? = some call' → call'.line = 0 →
      call'.stage.holdsTransport = true → 0 = c') ∧
    ((after.locks 0).members = (before.locks 0).members.erase 0) ∧
    (run relay after [.poll 2, .step 2]).standing 2 = .admitted ∧
    ∃ n, (∀ m, (dials relay relayed)[m]? = some 2 ↔ m = n) ∧
      (solo relay (relay.network n) 0 2 relayed).result? 0 = some (.ok [.ofWire [] 1]) := by
  intro before after
  obtain ⟨alone, -, ⟨-, leaves, -⟩, -⟩ := single_flight relay (relayed.take 13) 0
  obtain ⟨-, -, ⟨-, -, admitted⟩, -⟩ := single_flight relay (relayed.take 14) 0
  obtain ⟨-, -, -, returns⟩ := single_flight relay relayed 0
  refine ⟨fun c' call' has' ofLine' => ?_, ?_, ?_, ?_⟩
  · exact alone 0 c' _ call' rfl has' rfl ofLine' rfl
  · exact leaves (.poll 0) 0 (by decide +kernel) (by decide +kernel)
  · exact admitted 2 _ rfl rfl rfl rfl rfl
  · have hreturned : ((run relay start relayed).calls[2]?).any (fun call =>
        call.line == 0) = true ∧
        (run relay start relayed).result? 2 = some (.ok [.ofWire [] 1]) := by
      decide +kernel
    obtain ⟨hline, hresult⟩ := hreturned
    obtain ⟨call, has, ofLine⟩ := (Option.any_eq_true _ _).1 hline
    obtain ⟨call', has', returned⟩ := done_of_result? hresult
    obtain rfl := Option.some.inj (has'.symm.trans has)
    exact returns 2 call' _ has (by simpa using ofLine) returned (by simp)

end World

end TokenFeedback
