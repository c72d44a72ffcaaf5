import Mathlib.Data.List.Basic
import TokenFeedback.Proofs.Session.Order
import TokenFeedback.Proofs.Session.Step

/-!
# The observer's log of a line, call by call

What calls say while they have the lock comes call by call: from `connecting` on, a call is the only
one of its line that speaks, until it gives up the lock. But a call that fails or is cancelled gives
up the lock before it says so, and so its last words may come at any later time.

* `InBlocks`: notices that stand call by call.
* `World.uttered`: the notices of a run, each with a mark if its call had the lock.
* `World.Laid`, `World.Heeds.laid`: **what is said with the lock stands call by call**, and every
  action keeps it so.
* `Stage.Parting`: what a call at a stage has said without the lock.
* `World.blocks_of_run`: the main result.
* `World.interrupted_by_waiting`: what is said without the lock may stand in the midst of it.
-/

namespace TokenFeedback

/-! ### Blocks -/

/-- The notices of these calls stand call by call, in this order. -/
def InBlocks (order : List Nat) (notices : List Notice) : Prop :=
  notices = order.flatMap fun c => notices.filter fun n => n.call = c

namespace InBlocks

variable {order : List Nat} {notices : List Notice} {c : Nat}

/-- A call that has said nothing yet makes an empty block. -/
theorem concat (h : InBlocks order notices) (silent : ∀ n ∈ notices, n.call ≠ c) :
    InBlocks (order ++ [c]) notices := by
  have hnone : (notices.filter fun n => n.call = c) = [] :=
    List.filter_eq_nil_iff.2 fun n hn => by simpa using silent n hn
  rw [InBlocks, List.flatMap_append, List.flatMap_singleton, hnone, List.append_nil]
  exact h

/-- The last block may grow. -/
theorem append (h : InBlocks (order ++ [c]) notices) (notMem : c ∉ order) (told : List Callback) :
    InBlocks (order ++ [c]) (notices ++ told.map (Notice.mk c)) := by
  have hothers : (order.flatMap fun c' =>
      (notices ++ told.map (Notice.mk c)).filter fun n => n.call = c') =
      order.flatMap fun c' => notices.filter fun n => n.call = c' := by
    refine List.flatMap_congr fun c' hc' => ?_
    have hnone : ((told.map (Notice.mk c)).filter fun n => n.call = c') = [] := by
      refine List.filter_eq_nil_iff.2 fun n hn => ?_
      obtain ⟨_, -, rfl⟩ := List.mem_map.1 hn
      have hne : c ≠ c' := fun h => notMem (h ▸ hc')
      simpa using hne
    rw [List.filter_append, hnone, List.append_nil]
  have hown : ((told.map (Notice.mk c)).filter fun n => n.call = c) = told.map (Notice.mk c) := by
    rw [List.filter_eq_self]
    intro n hn
    obtain ⟨_, -, rfl⟩ := List.mem_map.1 hn
    simp
  rw [InBlocks, List.flatMap_append, List.flatMap_singleton] at h ⊢
  rw [hothers, List.filter_append, hown, ← List.append_assoc, ← h]

end InBlocks

/-! ### What is said with the lock -/

/-- A notice, and whether the call that made it had its lock. -/
structure Utterance where
  notice : Notice
  locked : Bool

/-- What was said with the lock. -/
def lockedOf (said : List Utterance) : List Notice :=
  (said.filter Utterance.locked).map Utterance.notice

/-- What was said without the lock. -/
def unlockedOf (said : List Utterance) : List Notice :=
  (said.filter fun u => !u.locked).map Utterance.notice

/-- What one call has said. -/
def callbacksOf (notices : List Notice) (c : Nat) : List Callback :=
  (notices.filter fun n => n.call = c).map Notice.callback

namespace World

variable {s : Setting} {w w' : World} {a : Action} {line c : Nat} {told : List Callback}

/-- What is said in an action. -/
def uttering (s : Setting) (w : World) (a : Action) : List Utterance :=
  match a.turnOf? with
  | some c =>
    ((w.act s a).notices.drop w.notices.length).map fun n => ⟨n, (w.standing c).usesLock⟩
  | none => []

/-- What is said in a run. -/
def uttered (s : Setting) (actions : List Action) : List Utterance :=
  trace s (uttering s) start actions

theorem uttering_of_turn (whose : a.turnOf? = some c)
    (notices : (w.act s a).notices = w.notices ++ told.map (Notice.mk c)) :
    uttering s w a = (told.map (Notice.mk c)).map fun n => ⟨n, (w.standing c).usesLock⟩ := by
  rw [uttering, whose, notices, List.drop_left]

theorem uttering_of_idle (notices : (w.act s a).notices = w.notices) : uttering s w a = [] := by
  unfold uttering
  split
  · rw [notices, List.drop_length]
    rfl
  · rfl

theorem lockedOf_turn (said : List Utterance) (notices : List Notice) (locked : Bool) :
    lockedOf (said ++ notices.map fun n => ⟨n, locked⟩) =
      lockedOf said ++ if locked then notices else [] := by
  rw [lockedOf, List.filter_append, List.map_append, List.filter_map]
  cases locked
  · simp [lockedOf, Function.comp_def]
  · simp [lockedOf, Function.comp_def]

theorem unlockedOf_turn (said : List Utterance) (notices : List Notice) (locked : Bool) :
    unlockedOf (said ++ notices.map fun n => ⟨n, locked⟩) =
      unlockedOf said ++ if locked then [] else notices := by
  rw [unlockedOf, List.filter_append, List.map_append, List.filter_map]
  cases locked
  · simp [unlockedOf, Function.comp_def]
  · simp [unlockedOf, Function.comp_def]

end World

namespace Standing

variable {st st' : Standing} {told : List Callback}

/-- Of the calls at a lock only the holder says something. -/
theorem Passes.holds_of_speaks (h : st.Passes st' told) (uses : st.usesLock = true)
    (speaks : told ≠ []) : st = .admitted ∨ st = .busy := by
  cases h with
  | stays => exact absurd rfl speaks
  | queues => exact absurd rfl speaks
  | enters => exact absurd rfl speaks
  | dials => exact .inl rfl
  | struck => exact .inl rfl
  | works => exact .inr rfl
  | leaves => exact absurd rfl speaks
  | closes => cases uses

/-- What a call says first when it has the lock. -/
theorem Passes.head?_of_admitted (h : Standing.Passes .admitted st' told) (speaks : told ≠ []) :
    told.head? = some (.phase .connecting) := by
  cases h with
  | stays => exact absurd rfl speaks
  | enters => exact absurd rfl speaks
  | dials => rfl
  | struck => rfl
  | leaves => exact absurd rfl speaks

end Standing

namespace World

variable {s : Setting} {w : World} {a : Action} {line c : Nat} {told : List Callback}
  {asked : List Nat}

/-- Whoever said that it connects has got past the queue. -/
theorem InOrder.isLate_of_mem (h : InOrder w line asked) (hc : c ∈ w.connected line) :
    (w.standing c).isLate = true := by
  obtain ⟨n, hn, rfl⟩ := List.mem_map.1 hc
  exact h.late n (List.mem_filter.1 (List.mem_filter.1 hn).1).1

theorem InOrder.nodup_connected (h : InOrder w line asked) : (w.connected line).Nodup :=
  h.distinct.sublist ((List.sublist_append_left _ _).trans h.order)

/-- **What is said with the lock of a line stands call by call.** -/
structure Laid (w : World) (line : Nat) (said : List Utterance) : Prop where
  all : said.map Utterance.notice = w.notices
  /-- Whoever is busy is the last who said that it connects. -/
  last : ∀ c, w.line? c = some line → w.standing c = .busy →
    ∃ earlier, w.connected line = earlier ++ [c]
  blocks : InBlocks (w.connected line) (w.ofLine line (lockedOf said))
  opens : ∀ c ∈ w.connected line,
    (callbacksOf (lockedOf said) c).head? = some (.phase .connecting)

theorem Laid.mem_notices {said : List Utterance} (h : Laid w line said) {n : Notice}
    (hn : n ∈ lockedOf said) : n ∈ w.notices := by
  obtain ⟨u, hu, rfl⟩ := List.mem_map.1 hn
  rw [← h.all]
  exact List.mem_map_of_mem (List.mem_filter.1 hu).1

/-- **Every action keeps what is said with the lock call by call.** -/
theorem Heeds.laid {said : List Utterance} (heeds : Heeds w a (w.act s a)) (guarded : Guarded w)
    (inOrder : InOrder w line asked) (h : Laid w line said) :
    Laid (w.act s a) line (said ++ uttering s w a) := by
  cases heeds with
  | idle standing lines notices locks dialled =>
    have hline (c : Nat) (hc : (w.standing c).isLate = true) :
        (w.act s a).line? c = w.line? c := lines c (isSome_line?_of_isLate hc)
    have hconnected : (w.act s a).connected line = w.connected line := by
      rw [connected, onLine_of_idle inOrder.late lines notices, ← connected]
    have hlocked : (w.act s a).ofLine line (lockedOf said) = w.ofLine line (lockedOf said) :=
      ofLine_congr (fun n hn => hline _ (inOrder.late n (h.mem_notices hn))) line
    rw [uttering_of_idle notices, List.append_nil]
    refine ⟨h.all.trans notices.symm, fun c has hbusy => ?_, ?_, ?_⟩
    · rw [standing] at hbusy
      rw [hconnected]
      exact h.last c ((hline c (by rw [hbusy]; rfl)).symm.trans has) hbusy
    · rw [hconnected, hlocked]
      exact h.blocks
    · rw [hconnected]
      exact h.opens
  | @turn c l told whose has passes others lines notices locks admitted dialled =>
    have hconnected := connected_of_turn has passes lines notices line
    have hlocked : lockedOf (said ++ uttering s w a) =
        lockedOf said ++ if (w.standing c).usesLock then told.map (Notice.mk c) else [] := by
      rw [uttering_of_turn whose notices, lockedOf_turn]
    have hofLine : (w.act s a).ofLine line (lockedOf (said ++ uttering s w a)) =
        w.ofLine line (lockedOf said) ++
          if line = l ∧ (w.standing c).usesLock = true then told.map (Notice.mk c) else [] := by
      rw [ofLine_congr (fun n _ => lines n.call), hlocked, ofLine, List.filter_append]
      refine congrArg (w.ofLine line (lockedOf said) ++ ·) ?_
      by_cases huses : (w.standing c).usesLock = true
      · rw [if_pos huses]
        simp only [huses, and_true]
        exact ofLine_map_mk has told line
      · rw [if_neg huses, if_neg fun h => huses h.2]
        rfl
    -- whoever has the lock and has not said that it connects has said nothing
    have hsilent (hadmitted : w.standing c = .admitted) (n : Notice) (hn : n ∈ w.notices) :
        n.call ≠ c := by
      rintro rfl
      have hlate := inOrder.late n hn
      rw [hadmitted] at hlate
      cases hlate
    refine ⟨?_, fun c' has' hbusy => ?_, ?_, fun c' hc' => ?_⟩
    · rw [uttering_of_turn whose notices, List.map_append, h.all, notices, List.map_map]
      simp [Function.comp_def]
    · rw [lines] at has'
      by_cases hc : c' = c
      · subst hc
        obtain rfl := Option.some.inj (has.symm.trans has')
        rw [hbusy] at passes
        obtain hbefore | hbefore := passes.of_busy
        · -- it has just dialled
          have hspeaks : told ≠ [] := by
            rw [hbefore] at passes
            cases passes
            simp
          rw [hconnected, if_pos ⟨rfl, hbefore, hspeaks⟩]
          exact ⟨_, rfl⟩
        · rw [hconnected, if_neg (by rw [hbefore]; simp), List.append_nil]
          exact h.last c' has hbefore
      · rw [others c' hc] at hbusy
        have hquiet : ¬ (line = l ∧ w.standing c = .admitted ∧ told ≠ []) := by
          rintro ⟨rfl, hadmitted, -⟩
          -- a line has one holder
          have hhead := guarded.holder line c has (.inl hadmitted)
          have hhead' := guarded.holder line c' has' (.inr hbusy)
          exact hc (Option.some.inj (hhead'.symm.trans hhead))
        rw [hconnected, if_neg hquiet, List.append_nil]
        exact h.last c' has' hbusy
    · rw [hofLine, hconnected]
      by_cases hspeaks : line = l ∧ (w.standing c).usesLock = true ∧ told ≠ []
      · obtain ⟨rfl, huses, hne⟩ := hspeaks
        simp only [huses, and_self, if_true, true_and]
        obtain hadmitted | hbusy := passes.holds_of_speaks huses hne
        · rw [if_pos ⟨hadmitted, hne⟩]
          refine (h.blocks.concat fun n hn => ?_).append (fun hc => ?_) told
          · exact hsilent hadmitted n (h.mem_notices (List.mem_filter.1 hn).1)
          · have hlate := inOrder.isLate_of_mem hc
            rw [hadmitted] at hlate
            cases hlate
        · rw [if_neg (by rw [hbusy]; simp), List.append_nil]
          obtain ⟨earlier, hlast⟩ := h.last c has hbusy
          have hdistinct := inOrder.nodup_connected
          have hblocks := h.blocks
          rw [hlast] at hdistinct hblocks ⊢
          refine hblocks.append (fun hc => ?_) told
          exact (List.nodup_append.1 hdistinct).2.2 c hc c (List.mem_singleton_self c) rfl
      · have hnone : (if line = l ∧ (w.standing c).usesLock = true then told.map (Notice.mk c)
            else []) = [] := by
          split
          · next hline =>
            have htold : told = [] := by
              by_contra hne
              exact hspeaks ⟨hline.1, hline.2, hne⟩
            rw [htold]
            rfl
          · rfl
        have hquiet : ¬ (line = l ∧ w.standing c = .admitted ∧ told ≠ []) := by
          rintro ⟨hl, hadmitted, hne⟩
          exact hspeaks ⟨hl, by rw [hadmitted]; rfl, hne⟩
        rw [hnone, if_neg hquiet, List.append_nil, List.append_nil]
        exact h.blocks
    · rw [hconnected] at hc'
      rw [hlocked, callbacksOf, List.filter_append, List.map_append]
      rcases List.mem_append.1 hc' with hc' | hc'
      · rw [List.head?_append, ← callbacksOf, h.opens c' hc']
        rfl
      · split at hc'
        · next hdials =>
          obtain ⟨-, hadmitted, hne⟩ := hdials
          rw [List.mem_singleton.1 hc']
          have hnone : ((lockedOf said).filter fun n => n.call = c) = [] :=
            List.filter_eq_nil_iff.2 fun n hn => by
              simpa using hsilent hadmitted n (h.mem_notices hn)
          have huses : (w.standing c).usesLock = true := by
            rw [hadmitted]
            rfl
          rw [hnone, if_pos huses, filter_map_mk, if_pos rfl]
          rw [hadmitted] at passes
          exact passes.head?_of_admitted hne
        · cases hc'

/-- **What is said with the lock of a line stands call by call**, at any time of any run. -/
theorem laid_of_run (s : Setting) (line : Nat) (actions : List Action) :
    Laid (run s start actions) line (uttered s actions) := by
  refine run_induction (P := fun w actions => Laid w line (uttered s actions)) ?_ ?_ actions
  · exact ⟨rfl, fun c has => (by cases has), rfl, fun c hc => absurd hc List.not_mem_nil⟩
  · intro actions a h
    rw [uttered, trace_concat]
    exact (act_heeds s _ a).laid (guarded_of_run s actions) (inOrder_of_run s line actions) h

end World

/-! ### What is said without the lock -/

namespace Stage

/-- The last words of a call that has failed. -/
def lastWords (e : SessionError) : List Callback := [.phase .terminated, .failure e]

/-- Has the call said, without the lock, that it terminated? -/
def hasParted : Stage → Bool
  | failed _ => true
  | done (.error _) => true
  | panicked _ => true
  | dropped => true
  | _ => false

/-- **What a call at a stage has said without the lock.** -/
inductive Parting : Stage → List Callback → Prop
  /-- A call that has the lock, or waits for it, or has returned records, or is about to fail. -/
  | silent {stage} (kept : stage.hasParted = false) : Parting stage []
  | failed {e} : Parting (.failed e) [.phase .terminated]
  | returned {e} : Parting (.done (.error e)) (lastWords e)
  | panicked {p said e} (part : said <+: lastWords e) : Parting (.panicked p) said
  | dropped {said e} (part : said <+: lastWords e) : Parting .dropped said

theorem Parting.isPrefix {stage : Stage} {said : List Callback} (h : stage.Parting said) :
    ∃ e, said <+: lastWords e := by
  cases h with
  | silent => exact ⟨.cancelled, List.nil_prefix⟩
  | failed => exact ⟨.cancelled, _, rfl⟩
  | returned => exact ⟨_, List.prefix_refl _⟩
  | panicked part => exact ⟨_, part⟩
  | dropped part => exact ⟨_, part⟩

theorem Parting.eq_nil {stage : Stage} {said : List Callback} (h : stage.Parting said)
    (kept : stage.hasParted = false) : said = [] := by
  cases h with
  | silent => rfl
  | failed => cases kept
  | returned => cases kept
  | panicked => cases kept
  | dropped => cases kept

/-- A stage at which a call has said nothing without the lock, or can have said nothing. -/
theorem parting_nil {stage : Stage} (kept : stage.hasParted = false ∨ ∃ p, stage = .panicked p) :
    stage.Parting [] := by
  obtain kept | ⟨p, rfl⟩ := kept
  · exact .silent kept
  · exact .panicked (List.nil_prefix (l := lastWords .cancelled))

theorem hasParted_of_usesLock {stage : Stage} (uses : stage.usesLock = true) :
    stage.hasParted = false := by
  cases stage <;> first | rfl | cases uses

theorem hasParted_of_mayRest {stage : Stage} (rests : stage.mayRest = true)
    (runs : stage.isOver = false) : stage.hasParted = false := by
  cases stage <;> first | rfl | (cases rests; done) | cases runs

/-- A step that a call makes with the lock leaves nothing said without it. -/
theorem hasParted_step {stage : Stage} (uses : stage.usesLock = true) (k : Connection) (now : Nat)
    (link : Link) : (stage.step k now link).next.hasParted = false ∨
      ∃ p, (stage.step k now link).next = .panicked p := by
  cases stage with
  | queued => exact .inl rfl
  | admitted => exact .inl rfl
  | connecting due link =>
    refine .inl (await_next (P := fun stage => stage.hasParted = false) rfl fun _ answer _ _ => ?_)
    cases answer <;> rfl
  | connected link =>
    left
    rw [step]
    split <;> rfl
  | handshaking due link =>
    refine .inl (await_next (P := fun stage => stage.hasParted = false) rfl fun _ answer _ _ => ?_)
    cases answer <;> rfl
  | shaken link => exact .inl rfl
  | streaming r b link =>
    rw [step, read]
    split
    · exact .inr ⟨_, rfl⟩
    · exact .inl rfl
    · exact .inl rfl
    · exact .inl rfl
    · left
      split <;> rfl
  | delivering r b record link => exact .inl rfl
  | closing due b ending =>
    exact .inl (await_next (P := fun stage => stage.hasParted = false) rfl fun _ _ _ _ => rfl)
  | closed b ending => exact .inl rfl
  | ended b ending => exact .inl rfl
  | fresh => cases uses
  | failing => cases uses
  | failed => cases uses
  | done => cases uses
  | panicked => cases uses
  | dropped => cases uses

/-- **What a step adds to what a call has said without the lock.** -/
theorem Parting.step_parting {stage : Stage} {said : List Callback} (h : stage.Parting said)
    (k : Connection) (now : Nat) (link : Link) :
    (stage.step k now link).next.Parting
      (said ++ if stage.usesLock then [] else (stage.step k now link).told) := by
  cases uses : stage.usesLock with
  | true =>
    rw [if_pos rfl, h.eq_nil (hasParted_of_usesLock uses)]
    exact parting_nil (hasParted_step uses k now link)
  | false =>
    rw [if_neg Bool.false_ne_true]
    cases h with
    | silent kept =>
      cases stage with
      | fresh => exact .silent rfl
      | failing e => exact .failed
      | done result =>
        cases result with
        | ok records => exact .silent rfl
        | error e => cases kept
      | failed => cases kept
      | panicked => cases kept
      | dropped => cases kept
      | _ => cases uses
    | failed => exact .returned
    | returned =>
      rw [show Progress.told _ = [] from rfl, List.append_nil]
      exact .returned
    | panicked part =>
      rw [show Progress.told _ = [] from rfl, List.append_nil]
      exact .panicked part
    | dropped part =>
      rw [show Progress.told _ = [] from rfl, List.append_nil]
      exact .dropped part

end Stage

namespace World

variable {s : Setting} {w : World} {a : Action} {line c : Nat} {call call' : Call}
  {told : List Callback} {entries : List LogEntry}

/-- **What a turn adds to what a call has said without the lock.** -/
theorem Turn.parting {said : List Callback} (turn : Turn s w c call a call' told entries)
    (h : call.stage.Parting said) (rests : call.awake = false → call.stage.mayRest = true) :
    call'.stage.Parting (said ++ if call.stage.usesLock then [] else told) := by
  have hstep := h.step_parting (s.connection call.line) w.now (s.network w.dialled)
  have hsame : (said ++ if call.stage.usesLock then [] else ([] : List Callback)) = said := by
    rw [ite_self, List.append_nil]
  -- a call that is asleep and not over has said nothing yet without the lock
  have hasleep (asleep : call.awake = false) (runs : call.stage.isOver = false) : said = [] :=
    h.eq_nil (Stage.hasParted_of_mayRest (rests asleep) runs)
  cases turn with
  | wakes =>
    rw [hsame]
    exact h
  | cancelled asleep runs =>
    rw [hsame, hasleep asleep runs]
    exact .silent rfl
  | queues _ fresh =>
    rw [hsame, h.eq_nil (by rw [fresh]; rfl)]
    exact .silent rfl
  | enters _ waits =>
    rw [hsame, h.eq_nil (by obtain hw | hw := waits <;> rw [hw] <;> rfl)]
    exact .silent rfl
  | rests _ queued =>
    rw [hsame]
    exact h
  | moves _ step =>
    rw [step] at hstep
    exact hstep
  | tells _ step =>
    rw [step] at hstep
    exact hstep
  | struck _ step =>
    rw [step] at hstep
    obtain ⟨e, part⟩ := hstep.isPrefix
    exact .panicked part
  | sleeps _ _ _ step =>
    rw [step] at hstep
    exact hstep
  | breaks _ step =>
    rw [step] at hstep
    exact hstep
  | dropped _ asleep runs =>
    rw [hsame, hasleep asleep runs]
    exact .dropped (List.nil_prefix (l := Stage.lastWords .cancelled))

/-- What a call says in an action it says with the lock or without. -/
theorem said_of_act (s : Setting) (w : World) (a : Action) (c : Nat) (said : List Utterance) :
    ∃ more, (w.act s a).callbacks c = w.callbacks c ++ more ∧
      callbacksOf (lockedOf (said ++ uttering s w a)) c =
        callbacksOf (lockedOf said) c ++ (if (w.standing c).usesLock then more else []) ∧
      callbacksOf (unlockedOf (said ++ uttering s w a)) c =
        callbacksOf (unlockedOf said) c ++ (if (w.standing c).usesLock then [] else more) ∧
      (w.calls[c]? = none → more = []) := by
  cases act_heeds s w a with
  | idle _ _ notices =>
    refine ⟨[], ?_, ?_, ?_, fun _ => rfl⟩
    · rw [callbacks, notices, ← callbacks, List.append_nil]
    · rw [uttering_of_idle notices, List.append_nil, ite_self, List.append_nil]
    · rw [uttering_of_idle notices, List.append_nil, ite_self, List.append_nil]
  | @turn c' line told whose has _ _ _ notices =>
    refine ⟨if c' = c then told else [], ?_, ?_, ?_, fun hnone => if_neg ?_⟩
    · rw [callbacks, notices, List.filter_append, List.map_append, filter_map_mk, ← callbacks]
    · rw [uttering_of_turn whose notices, lockedOf_turn, callbacksOf, List.filter_append,
        List.map_append, ← callbacksOf]
      by_cases hc : c' = c
      · subst hc
        split
        · rw [filter_map_mk]
        · rfl
      · rw [if_neg hc, ite_self]
        split
        · rw [filter_map_mk, if_neg hc]
        · rfl
    · rw [uttering_of_turn whose notices, unlockedOf_turn, callbacksOf, List.filter_append,
        List.map_append, ← callbacksOf]
      by_cases hc : c' = c
      · subst hc
        split
        · rfl
        · rw [filter_map_mk]
      · rw [if_neg hc, ite_self]
        split
        · rfl
        · rw [filter_map_mk, if_neg hc]
    · rintro rfl
      rw [line?, hnone] at has
      cases has

/-- **What a call has said it has said first with the lock and then without**, at any time of any
run. -/
theorem parting_of_run (s : Setting) (actions : List Action) (c : Nat) :
    ((run s start actions).stageOf c).Parting (callbacksOf (unlockedOf (uttered s actions)) c) ∧
      (run s start actions).callbacks c = callbacksOf (lockedOf (uttered s actions)) c ++
        callbacksOf (unlockedOf (uttered s actions)) c := by
  induction actions using List.reverseRecOn with
  | nil => exact ⟨.silent rfl, rfl⟩
  | append_singleton actions a ih =>
    obtain ⟨parting, parts⟩ := ih
    obtain ⟨more, htold, hlocked, hunlocked, hnone⟩ :=
      said_of_act s (run s start actions) a c (uttered s actions)
    rw [run_concat, uttered, trace_concat, ← uttered, hlocked, hunlocked, htold, parts]
    rw [← standing_stageOf, Stage.usesLock_standing]
    refine ⟨?_, ?_⟩
    · cases has : (run s start actions).calls[c]? with
      | none =>
        -- the call is not made, or it is new
        have hfresh : ((run s start actions).act s a).stageOf c = .fresh := by
          have hout := standing_of_joins s a has
          rw [← standing_stageOf] at hout
          exact Stage.eq_fresh_of_standing hout
        have hbefore : (run s start actions).stageOf c = .fresh := by
          rw [stageOf, has]
        rw [hbefore] at parting
        rw [hfresh, hnone has, ite_self, List.append_nil, parting.eq_nil rfl]
        exact .silent rfl
      | some call =>
        obtain ⟨call', told, fares, has', htold'⟩ := act_fares s has a
        obtain rfl : more = told := List.append_cancel_left (htold.symm.trans htold')
        rw [stageOf_of_has has] at parting ⊢
        rw [stageOf_of_has has']
        generalize (run s start actions).reported s c a = entries at fares
        cases fares with
        | same =>
          rw [ite_self, List.append_nil]
          exact parting
        | left =>
          rw [ite_self, List.append_nil]
          exact parting
        | turn turn _ => exact turn.parting parting (sound_of_run s actions has).rests
    · cases uses : ((run s start actions).stageOf c).usesLock with
      | true =>
        -- before it gives up the lock, it has said nothing without it
        rw [parting.eq_nil (Stage.hasParted_of_usesLock uses)]
        simp
      | false => simp

/-- **What is said with the lock stands call by call.** The notices that the calls of a line make
while they have its lock are the blocks of these calls, one behind the other in the order in which
they said that they connect, and each block begins with `connecting`.

Without the lock a call says at most its last words, that it terminated and then why it failed, and
it says them behind all else. It does so just if it returns a failure: a call that returns records
has said everything in its block, and so has a call that still has the lock. -/
theorem blocks_of_run (s : Setting) (line : Nat) (actions : List Action) :
    let w := run s start actions
    let said := uttered s actions
    said.map Utterance.notice = w.notices ∧
    ((w.connected line).Nodup ∧ InBlocks (w.connected line) (w.ofLine line (lockedOf said)) ∧
      ∀ c ∈ w.connected line,
        (callbacksOf (lockedOf said) c).head? = some (.phase .connecting)) ∧
    (∀ c, w.callbacks c = callbacksOf (lockedOf said) c ++ callbacksOf (unlockedOf said) c ∧
      ∃ e, callbacksOf (unlockedOf said) c <+: Stage.lastWords e) ∧
    (∀ (c : Nat) (call : Call), w.calls[c]? = some call → call.stage.usesLock = true →
      callbacksOf (unlockedOf said) c = []) ∧
    (∀ c records, w.result? c = some (.ok records) → callbacksOf (unlockedOf said) c = []) ∧
    ∀ c e, w.result? c = some (.error e) →
      callbacksOf (unlockedOf said) c = Stage.lastWords e := by
  intro w said
  have hlaid : Laid w line said := laid_of_run s line actions
  have hinOrder : InOrder w line (asked s line actions) := inOrder_of_run s line actions
  have hparting (c : Nat) := parting_of_run s actions c
  -- what a call that has returned has said without the lock
  have hreturned (c : Nat) (result : Except SessionError (List Record))
      (h : w.result? c = some result) :
      (Stage.done result).Parting (callbacksOf (unlockedOf said) c) := by
    have hstage : w.stageOf c = .done result := by
      obtain ⟨call, has, hdone⟩ := done_of_result? h
      rw [stageOf_of_has has, hdone]
    rw [← hstage]
    exact (hparting c).1
  refine ⟨hlaid.all, ⟨hinOrder.nodup_connected, hlaid.blocks, hlaid.opens⟩,
    fun c => ⟨(hparting c).2, (hparting c).1.isPrefix⟩, fun c call has uses => ?_,
    fun c records h => (hreturned c _ h).eq_nil rfl, fun c e h => ?_⟩
  · have hstage := (hparting c).1
    rw [stageOf_of_has has] at hstage
    exact hstage.eq_nil (Stage.hasParted_of_usesLock uses)
  · have hsaid := hreturned c _ h
    generalize callbacksOf (unlockedOf said) c = parted at hsaid
    cases hsaid with
    | silent kept => cases kept
    | returned => rfl

/-! ### Last words in the midst of a block -/

/-- Nobody else says anything between the `connecting` of a call and its last notice. -/
def Uninterrupted (notices : List Notice) : Prop :=
  ∀ before between after n m, notices = before ++ n :: (between ++ m :: after) →
    n.callback.isDial = true → m.call = n.call → ∀ k ∈ between, k.call = n.call

/-- The far side refuses after five milliseconds. -/
def refusal : Setting :=
  ⟨fun _ => ⟨.standard .sandbox, .prepared .anyone .standard, .young⟩,
    fun _ => ⟨.after 5 (.error (.system 111)), .never, .ofEvents [] true, .never⟩,
    Callback.entries, fun _ _ => .quiet⟩

/-- While the first call connects, the second waits for the lock and is cancelled. -/
def cancelledInQueue : List Action :=
  [.begin 0 none, .begin 0 (some 0), .poll 0, .step 0, .step 0, .step 0, .poll 1, .step 1,
    .cancel 0, .poll 1, .step 1, .step 1, .wait 5, .poll 0, .step 0, .step 0, .step 0]

/-- The last words of the second call are no part of its block, for it has none, and the first call
has made one notice with the lock. -/
theorem blocks_of_run_refusal :
    let w := run refusal start cancelledInQueue
    let said := uttered refusal cancelledInQueue
    w.connected 0 = [0] ∧ (callbacksOf (lockedOf said) 0).head? = some (.phase .connecting) ∧
      callbacksOf (unlockedOf said) 1 = Stage.lastWords .cancelled := by
  intro w said
  obtain ⟨-, ⟨-, -, opens⟩, -, -, -, fails⟩ := blocks_of_run refusal 0 cancelledInQueue
  have hconnected : w.connected 0 = [0] := by decide +kernel
  refine ⟨hconnected, opens 0 ?_, fails 1 .cancelled (by decide +kernel)⟩
  change 0 ∈ w.connected 0
  rw [hconnected]
  exact List.mem_singleton_self 0

/-- **The last words of a call that was cancelled in the queue stand between the notices of the call
that has the lock.** So the log of a line is not made of whole sessions one behind the other. -/
theorem interrupted_by_waiting :
    ¬ Uninterrupted ((run refusal start cancelledInQueue).onLine 0) := by
  have hlog : (run refusal start cancelledInQueue).onLine 0 =
      [⟨0, .phase .connecting⟩, ⟨1, .phase .terminated⟩, ⟨1, .failure .cancelled⟩,
        ⟨0, .phase .terminated⟩,
        ⟨0, .failure (.connect "feedback.sandbox.push.apple.com:2196" (.system 111))⟩] := by
    decide +kernel
  intro h
  rw [hlog] at h
  have hfirst := h [] [⟨1, .phase .terminated⟩, ⟨1, .failure .cancelled⟩] _
    ⟨0, .phase .connecting⟩ ⟨0, .phase .terminated⟩ rfl rfl rfl ⟨1, .phase .terminated⟩
    List.mem_cons_self
  exact absurd hfirst (by decide)

end World

end TokenFeedback
