import TokenFeedback.Mock.Counters
import Mathlib.Data.List.Basic
import Mathlib.Data.List.Induction
import Mathlib.Order.Bounds.Basic

/-!
# The counts agree, and nobody sleeps through the last signal

The steps of the one who accepts, of the connections that finish and of those who wait come in any
order. So a count can be looked at in the middle of an update, and a signal can come between a look
and the sleep that follows it.

* `Counters.Moves`, `act_moves`: what one step can do.
* `Kept`, `kept_of_run`: what each count counts. So `Kept.balance`: **the accepted connections are
  those that are open, those that are over, and those just between two counts.**
* `isGreatest_of_run`: **the peak is the most that were ever open at once**, or the one who accepts
  has still to mark it.
* `Attentive`, `attentive_of_run`: whoever has looked and found too few has missed no signal.
* `Owed`, `returned_of_four_turns`: **whoever waits for what has come returns by four turns of his
  own**, whatever the others do.
* `consistent_of_run`: **the counts agree, and no signal is lost.**
* `waitClosed_eq_alone`: what someone is told who waits while nothing else happens.
-/

namespace TokenFeedback

namespace Opening

/-- The new connection, if it is counted as accepted. -/
def accepts : Opening → Nat
  | .idle => 0
  | .accepted | .counted _ => 1

/-- The new connection, if it is counted as open. -/
def opens : Opening → Nat
  | .idle | .accepted => 0
  | .counted _ => 1

/-- As many as were open when the new connection was counted, if this has still to be marked. -/
def unmarked : Opening → Nat
  | .idle | .accepted => 0
  | .counted active => active

theorem opens_le_accepts (o : Opening) : o.opens ≤ o.accepts := by
  cases o with
  | idle => exact Nat.le_refl 0
  | accepted => exact Nat.zero_le 1
  | counted active => exact Nat.le_refl 1

end Opening

namespace Waiter

/-- Someone has a signal, if he listens. -/
def hear (w : Waiter) : Waiter :=
  match w.place with
  | .outside | .returned => w
  | .registered | .checked | .suspended => { w with signalled := true }

theorem hear_place (w : Waiter) : w.hear.place = w.place := by
  rcases w with ⟨target, _ | _ | _ | _ | _, signalled⟩ <;> rfl

theorem hear_target (w : Waiter) : w.hear.target = w.target := by
  rcases w with ⟨target, _ | _ | _ | _ | _, signalled⟩ <;> rfl

/-- Whoever has looked and found too few listens. -/
theorem hear_signalled {w : Waiter} (h : w.place = .checked ∨ w.place = .suspended) :
    w.hear.signalled = true := by
  rcases w with ⟨target, place, signalled⟩
  obtain rfl | rfl := h <;> rfl

/-- As many turns, at most, as someone needs to return who is owed it. -/
def turnsLeft (w : Waiter) : Nat :=
  match w.place with
  | .outside => 2
  | .registered => 1
  | .checked => 4
  | .suspended => 3
  | .returned => 0

theorem turnsLeft_hear (w : Waiter) : w.hear.turnsLeft = w.turnsLeft := by
  rw [turnsLeft, hear_place]
  rfl

theorem turnsLeft_le_four (w : Waiter) : w.turnsLeft ≤ 4 := by
  rcases w with ⟨target, _ | _ | _ | _ | _, signalled⟩ <;> simp [turnsLeft]

theorem place_of_turnsLeft {w : Waiter} (h : w.turnsLeft = 0) : w.place = .returned := by
  rcases w with ⟨target, place, signalled⟩
  cases place with
  | outside | registered | checked | suspended => cases h
  | returned => rfl

end Waiter

namespace Counters

/-! ### Steps and runs -/

theorem signal_eq_map (waiters : List Waiter) : signal waiters = waiters.map Waiter.hear := by
  refine List.map_congr_left fun w _ => ?_
  rcases w with ⟨target, _ | _ | _ | _ | _, signalled⟩ <;> rfl

/-- What one step can do. -/
inductive Moves (s : Counters) : Action → Counters → Prop
  | stays {a} : Moves s a s
  | accepts (stage : s.opening = .idle) :
      Moves s .opens
        { s with opening := .accepted, tally := { s.tally with accepted := s.tally.accepted + 1 } }
  | counts (stage : s.opening = .accepted) :
      Moves s .opens
        { s with
          opening := .counted (s.tally.active + 1)
          tally := { s.tally with active := s.tally.active + 1 } }
  | marks {active} (stage : s.opening = .counted active) :
      Moves s .opens
        { s with
          opening := .idle
          tally := { s.tally with peak := max s.tally.peak active }
          connections := s.connections ++ [.working] }
  | leaves {i} (has : s.connections[i]? = some .working) :
      Moves s (.finishes i)
        { s with
          connections := s.connections.set i .left
          tally := { s.tally with active := s.tally.active - 1 } }
  | closes {i} (has : s.connections[i]? = some .left) :
      Moves s (.finishes i)
        { s with
          connections := s.connections.set i .closed
          tally := { s.tally with closed := s.tally.closed + 1 } }
  | signals {i} (has : s.connections[i]? = some .closed) :
      Moves s (.finishes i)
        { s with connections := s.connections.set i .over, waiters := s.waiters.map Waiter.hear }
  | arrives (target : Nat) :
      Moves s (.arrives target) { s with waiters := s.waiters ++ [⟨target, .outside, false⟩] }
  | waits {i w} (has : s.waiters[i]? = some w) :
      Moves s (.waits i) { s with waiters := s.waiters.set i (waiterStep s.tally.closed w) }

theorem act_moves (s : Counters) (a : Action) : Moves s a (s.act a) := by
  cases a with
  | opens =>
    rw [act, openStep]
    cases h : s.opening with
    | idle => exact .accepts h
    | accepted => exact .counts h
    | counted active => exact .marks h
  | finishes i =>
    rw [act, finishStep]
    split
    · next has => exact .leaves has
    · next has => exact .closes has
    · next has => exact signal_eq_map s.waiters ▸ .signals has
    · exact .stays
  | arrives target => exact .arrives target
  | waits i =>
    rw [act, waitStep]
    split
    · next has => exact .waits has
    · exact .stays

theorem run_concat (s : Counters) (actions : List Action) (a : Action) :
    run s (actions ++ [a]) = (run s actions).act a := List.foldl_concat _ _ _ _

/-- What holds at the start and is kept by every step holds at any time of a run. -/
theorem run_induction {P : Counters → List Action → Prop} (first : P start [])
    (next : ∀ actions a s, P (run start actions) actions → Moves (run start actions) a s →
      P s (actions ++ [a])) (actions : List Action) :
    P (run start actions) actions := by
  induction actions using List.reverseRecOn with
  | nil => exact first
  | append_singleton actions a ih =>
    rw [run_concat]
    exact next actions a _ ih (act_moves _ a)

variable {s s' : Counters} {a : Action} {w : Waiter}

/-! ### What the counts count -/

/-- Every connection is at one of the four places. -/
theorem length_eq_counts (connections : List Finishing) :
    connections.length = connections.count .working + connections.count .left +
      connections.count .closed + connections.count .over := by
  induction connections with
  | nil => rfl
  | cons c connections ih =>
    rw [List.length_cons, ih]
    cases c <;> simp <;> omega

/-- **What each count counts.** -/
structure Kept (s : Counters) : Prop where
  accepted : s.tally.accepted = s.connections.length + s.opening.accepts
  active : s.tally.active = s.connections.count .working + s.opening.opens
  closed : s.tally.closed = s.connections.count .closed + s.connections.count .over
  peak : max s.tally.peak s.opening.unmarked ≤ s.tally.accepted

/-- **Every step keeps what the counts count.** -/
theorem Moves.kept (moves : Moves s a s') (kept : Kept s) : Kept s' := by
  obtain ⟨haccepted, hactive, hclosed, hpeak⟩ := kept
  have hall := length_eq_counts s.connections
  cases moves with
  | stays | arrives | waits => exact ⟨haccepted, hactive, hclosed, hpeak⟩
  | accepts stage | counts stage | marks stage =>
    rw [stage] at haccepted hactive hpeak
    simp only [Opening.accepts, Opening.opens, Opening.unmarked] at haccepted hactive hpeak
    constructor <;> simp [Opening.accepts, Opening.opens, Opening.unmarked] <;> omega
  | leaves has | closes has | signals has =>
    obtain ⟨hi, hc⟩ := List.getElem?_eq_some_iff.1 has
    -- so what is taken off the count of its place is there
    have hpos := List.count_pos_iff.2 (List.mem_of_getElem? has)
    constructor <;> simp [List.count_set hi, hc] <;> omega

theorem kept_of_run (actions : List Action) : Kept (run start actions) :=
  run_induction (P := fun s _ => Kept s) ⟨rfl, rfl, rfl, Nat.le_refl 0⟩
    (fun _ _ _ kept moves => moves.kept kept) actions

/-- **Where the accepted connections are**: open, over, or just between two counts. -/
theorem Kept.balance (kept : Kept s) :
    s.tally.accepted + s.opening.opens =
      s.tally.active + s.tally.closed + s.connections.count .left + s.opening.accepts := by
  obtain ⟨haccepted, hactive, hclosed, -⟩ := kept
  have hall := length_eq_counts s.connections
  omega

/-- No connection is counted twice. -/
theorem Kept.active_add_closed_le (kept : Kept s) :
    s.tally.active + s.tally.closed ≤ s.tally.accepted := by
  have hbalance := kept.balance
  have hopens := s.opening.opens_le_accepts
  omega

/-- Nobody is in the middle of an update: the one who accepts has no new connection, and no
connection is on its way to be over. -/
structure Quiet (s : Counters) : Prop where
  opening : s.opening = .idle
  connections : ∀ c ∈ s.connections, c = .working ∨ c = .over

/-- Every connection is counted while nobody is in the middle of an update. -/
theorem Kept.active_add_closed (kept : Kept s) (quiet : Quiet s) :
    s.tally.active + s.tally.closed = s.tally.accepted := by
  have hbalance := kept.balance
  have hleft : s.connections.count .left = 0 :=
    List.count_eq_zero.2 fun h => by simpa using quiet.connections _ h
  rw [quiet.opening, Opening.opens, Opening.accepts] at hbalance
  omega

/-- A connection that has still to leave is counted as open. -/
theorem Kept.active_pos (kept : Kept s) {i : Nat} (has : s.connections[i]? = some .working) :
    0 < s.tally.active := by
  have hpos : 0 < s.connections.count .working :=
    List.count_pos_iff.2 (List.mem_of_getElem? has)
  have hactive := kept.active
  omega

/-! ### The most that were open -/

/-- How many connections were open, at all the times of a run. -/
def everActive (actions : List Action) : Set Nat :=
  {n | ∃ before, before <+: actions ∧ (run start before).tally.active = n}

theorem everActive_concat (actions : List Action) (a : Action) :
    everActive (actions ++ [a]) =
      insert (run start (actions ++ [a])).tally.active (everActive actions) := by
  ext n
  simp only [everActive, Set.mem_insert_iff, Set.mem_ofPred_eq, List.prefix_concat_iff]
  constructor
  · rintro ⟨before, rfl | hbefore, rfl⟩
    · exact .inl rfl
    · exact .inr ⟨before, hbefore, rfl⟩
  · rintro (rfl | ⟨before, hbefore, rfl⟩)
    · exact ⟨_, .inl rfl, rfl⟩
    · exact ⟨before, .inr hbefore, rfl⟩

/-- A step that raises the number of the open connections leaves it to be marked. -/
theorem Moves.peak (moves : Moves s a s')
    (bound : s.tally.active ≤ max s.tally.peak s.opening.unmarked) :
    max s'.tally.active (max s.tally.peak s.opening.unmarked) =
      max s'.tally.peak s'.opening.unmarked := by
  cases moves with
  | stays | arrives | waits | closes | signals => exact Nat.max_eq_right bound
  | leaves => exact Nat.max_eq_right (Nat.le_trans (Nat.sub_le _ 1) bound)
  | accepts stage | counts stage | marks stage =>
    rw [stage] at bound ⊢
    simp only [Opening.unmarked] at bound ⊢
    omega

/-- **The peak is the most that were ever open at once**, or the one who accepts has still to mark
it. -/
theorem isGreatest_of_run (actions : List Action) :
    IsGreatest (everActive actions)
      (max (run start actions).tally.peak (run start actions).opening.unmarked) := by
  induction actions using List.reverseRecOn with
  | nil =>
    refine ⟨⟨[], List.prefix_rfl, rfl⟩, ?_⟩
    rintro n ⟨before, hbefore, rfl⟩
    rw [List.prefix_nil.1 hbefore]
    exact Nat.le_refl 0
  | append_singleton actions a ih =>
    have hnow : (run start actions).tally.active ∈ everActive actions :=
      ⟨actions, List.prefix_rfl, rfl⟩
    rw [everActive_concat, run_concat, ← (act_moves _ a).peak (ih.2 hnow)]
    exact ih.insert _

/-! ### Those who wait -/

/-- Whoever has returned has waited for no more than are over. Whoever has looked and found too few
has missed no signal: if there are enough by now and he has none, then one is still ahead. -/
structure Attentive (s : Counters) (w : Waiter) : Prop where
  returned : w.place = .returned → w.target ≤ s.tally.closed
  unsignalled : w.place = .checked ∨ w.place = .suspended → w.signalled = false →
    w.target ≤ s.tally.closed → .closed ∈ s.connections

namespace Attentive

/-- Someone who has not moved, while no connection was counted as over or made its signal. -/
theorem still (h : Attentive s w) (closed : s'.tally.closed = s.tally.closed)
    (ahead : .closed ∈ s.connections → .closed ∈ s'.connections) : Attentive s' w := by
  refine ⟨fun hplace => ?_, fun hplace hsignal henough => ?_⟩
  · rw [closed]
    exact h.returned hplace
  · rw [closed] at henough
    exact ahead (h.unsignalled hplace hsignal henough)

/-- Someone who has not moved, while one more was counted as over: its signal is ahead. -/
theorem raised (h : Attentive s w) (closed : s.tally.closed ≤ s'.tally.closed)
    (ahead : .closed ∈ s'.connections) : Attentive s' w :=
  ⟨fun hplace => Nat.le_trans (h.returned hplace) closed, fun _ _ _ => ahead⟩

/-- Someone hears a signal. -/
theorem hear (h : Attentive s w) (closed : s'.tally.closed = s.tally.closed) :
    Attentive s' w.hear := by
  refine ⟨fun hplace => ?_, fun hplace hsignal => ?_⟩
  · rw [w.hear_place] at hplace
    rw [w.hear_target, closed]
    exact h.returned hplace
  · rw [w.hear_place] at hplace
    rw [Waiter.hear_signalled hplace] at hsignal
    cases hsignal

/-- Someone has a turn. -/
theorem turn (h : Attentive s w) : Attentive s (waiterStep s.tally.closed w) := by
  rcases w with ⟨target, place, signalled⟩
  cases place with
  | outside => constructor <;> simp [waiterStep]
  | registered =>
    -- he returns if there are enough, and has looked at too few if not
    rw [waiterStep]
    by_cases henough : target ≤ s.tally.closed
    · constructor <;> simp [henough]
    · constructor <;> simp [henough]
  | checked => exact ⟨by simp [waiterStep], fun _ => h.unsignalled (.inl rfl)⟩
  | suspended =>
    rw [waiterStep]
    cases signalled with
    | true => constructor <;> simp
    | false => exact h
  | returned => exact h

end Attentive

/-- **Every step keeps everyone attentive.** -/
theorem Moves.attentive (moves : Moves s a s') (h : ∀ w ∈ s.waiters, Attentive s w) :
    ∀ w ∈ s'.waiters, Attentive s' w := by
  cases moves with
  | stays => exact h
  | accepts | counts => exact fun w hw => (h w hw).still rfl id
  | marks => exact fun w hw => (h w hw).still rfl (List.mem_append_left _)
  | @leaves i has =>
    refine fun w hw => (h w hw).still rfl fun hahead => ?_
    obtain ⟨k, hk⟩ := List.mem_iff_getElem?.1 hahead
    -- the one who leaves is not the one whose signal is ahead
    have hne : i ≠ k := by
      rintro rfl
      cases has.symm.trans hk
    exact List.mem_of_getElem? ((List.getElem?_set_ne hne).trans hk)
  | closes has =>
    have hi := (List.getElem?_eq_some_iff.1 has).1
    exact fun w hw => (h w hw).raised (Nat.le_succ _) (List.mem_set hi _)
  | signals =>
    intro w' hw'
    obtain ⟨w, hw, rfl⟩ := List.mem_map.1 hw'
    exact (h w hw).hear rfl
  | arrives target =>
    intro w hw
    rcases List.mem_append.1 hw with hw | hw
    · exact (h w hw).still rfl id
    · rw [List.mem_singleton.1 hw]
      constructor <;> simp
  | waits has =>
    intro w' hw'
    rcases List.mem_or_eq_of_mem_set hw' with hw' | rfl
    · exact (h w' hw').still rfl id
    · exact (h _ (List.mem_of_getElem? has)).turn.still rfl id

theorem attentive_of_run (actions : List Action) :
    ∀ w ∈ (run start actions).waiters, Attentive (run start actions) w :=
  run_induction (P := fun s _ => ∀ w ∈ s.waiters, Attentive s w)
    (fun _ hw => absurd hw List.not_mem_nil) (fun _ _ _ h moves => moves.attentive h) actions

/-! ### Who is owed a return -/

/-- There are enough for him, and he is awake or has a signal that wakes him. -/
structure Owed (s : Counters) (w : Waiter) : Prop where
  enough : w.target ≤ s.tally.closed
  signalled : w.place = .checked ∨ w.place = .suspended → w.signalled = true

/-- **Nobody sleeps through the last signal**: if there are enough and no signal is ahead, he is
owed a return. -/
theorem Attentive.owed (h : Attentive s w) (enough : w.target ≤ s.tally.closed)
    (noneAhead : .closed ∉ s.connections) : Owed s w :=
  ⟨enough, fun hplace => Bool.eq_true_of_not_eq_false fun hsignal =>
    noneAhead (h.unsignalled hplace hsignal enough)⟩

theorem Moves.closed_le (moves : Moves s a s') : s.tally.closed ≤ s'.tally.closed := by
  cases moves with
  | closes => exact Nat.le_succ _
  | stays | accepts | counts | marks | leaves | signals | arrives | waits => exact Nat.le_refl _

/-- What becomes of someone in his own turn. -/
theorem waiter_act_waits {j : Nat} (has : s.waiters[j]? = some w) :
    (s.act (.waits j)).waiters[j]? = some (waiterStep s.tally.closed w) ∧
      (s.act (.waits j)).tally = s.tally := by
  have hj := (List.getElem?_eq_some_iff.1 has).1
  rw [act, waitStep, has]
  exact ⟨List.getElem?_set_self hj, rfl⟩

/-- What becomes of someone in a turn of others. -/
theorem Moves.waiter (moves : Moves s a s') {j : Nat} (has : s.waiters[j]? = some w)
    (other : a ≠ .waits j) : s'.waiters[j]? = some w ∨ s'.waiters[j]? = some w.hear := by
  cases moves with
  | stays | accepts | counts | marks | leaves | closes => exact .inl has
  | signals => exact .inr (by rw [List.getElem?_map, has, Option.map_some])
  | arrives =>
    have hj := (List.getElem?_eq_some_iff.1 has).1
    exact .inl ((List.getElem?_append_left hj).trans has)
  | @waits i =>
    have hne : i ≠ j := fun h => other (h ▸ rfl)
    exact .inl ((List.getElem?_set_ne hne).trans has)

namespace Owed

theorem hear (h : Owed s w) (closed : s.tally.closed ≤ s'.tally.closed) : Owed s' w.hear := by
  refine ⟨?_, fun hplace => ?_⟩
  · rw [w.hear_target]
    exact Nat.le_trans h.enough closed
  · rw [w.hear_place] at hplace
    exact Waiter.hear_signalled hplace

/-- A turn of someone who is owed a return brings him nearer to it. -/
theorem turn (h : Owed s w) :
    Owed s (waiterStep s.tally.closed w) ∧
      (waiterStep s.tally.closed w).turnsLeft ≤ w.turnsLeft - 1 := by
  rcases w with ⟨target, place, signalled⟩
  have henough : target ≤ s.tally.closed := h.enough
  cases place with
  | outside => exact ⟨⟨henough, by simp [waiterStep]⟩, Nat.le_refl 1⟩
  | registered =>
    have hreturns : waiterStep s.tally.closed ⟨target, .registered, signalled⟩ =
        ⟨target, .returned, signalled⟩ := by
      rw [waiterStep, if_pos henough]
    rw [hreturns]
    exact ⟨⟨henough, by simp⟩, Nat.le_refl 0⟩
  | checked => exact ⟨⟨henough, fun _ => h.signalled (.inl rfl)⟩, Nat.le_refl 3⟩
  | suspended =>
    obtain rfl : signalled = true := h.signalled (.inr rfl)
    exact ⟨⟨henough, by simp [waiterStep]⟩, Nat.le_refl 2⟩
  | returned => exact ⟨h, Nat.le_refl 0⟩

/-- What a step makes of someone who is owed a return: his own turns bring him nearer to it, and
those of others leave him where he is. -/
theorem act (h : Owed s w) {j : Nat} (has : s.waiters[j]? = some w) (a : Action) :
    ∃ w', (s.act a).waiters[j]? = some w' ∧ Owed (s.act a) w' ∧
      w'.turnsLeft ≤ w.turnsLeft - if a = .waits j then 1 else 0 := by
  by_cases hown : a = .waits j
  · subst hown
    obtain ⟨hwaiter, htally⟩ := waiter_act_waits has
    obtain ⟨howed, hturns⟩ := h.turn
    refine ⟨_, hwaiter, ⟨?_, howed.signalled⟩, by rwa [if_pos rfl]⟩
    rw [htally]
    exact howed.enough
  · have hmoves := act_moves s a
    rw [if_neg hown]
    rcases hmoves.waiter has hown with hw | hw
    · exact ⟨w, hw, ⟨Nat.le_trans h.enough hmoves.closed_le, h.signalled⟩, Nat.le_refl _⟩
    · exact ⟨_, hw, h.hear hmoves.closed_le, Nat.le_of_eq w.turnsLeft_hear⟩

/-- In a run someone who is owed a return comes as much nearer to it as he has turns. -/
theorem run (h : Owed s w) {j : Nat} (has : s.waiters[j]? = some w) (more : List Action) :
    ∃ w', (run s more).waiters[j]? = some w' ∧
      w'.turnsLeft ≤ w.turnsLeft - more.count (.waits j) := by
  induction more generalizing s w with
  | nil => exact ⟨w, has, Nat.le_refl _⟩
  | cons a more ih =>
    obtain ⟨w₁, hw₁, howed, hfirst⟩ := h.act has a
    obtain ⟨w', hw', hrest⟩ := ih howed hw₁
    refine ⟨w', hw', ?_⟩
    rw [List.count_cons]
    simp only [beq_iff_eq]
    omega

end Owed

/-- **Whoever waits for what has come returns by four turns of his own**, whatever the others do,
unless a signal is still ahead. -/
theorem returned_of_four_turns (actions more : List Action) {j : Nat}
    (has : (run start actions).waiters[j]? = some w)
    (enough : w.target ≤ (run start actions).tally.closed)
    (noneAhead : .closed ∉ (run start actions).connections)
    (turns : 4 ≤ more.count (.waits j)) :
    ∃ w', (run (run start actions) more).waiters[j]? = some w' ∧ w'.place = .returned := by
  have howed := (attentive_of_run actions w (List.mem_of_getElem? has)).owed enough noneAhead
  obtain ⟨w', hw', hturns⟩ := howed.run has more
  have hfour := w.turnsLeft_le_four
  exact ⟨w', hw', Waiter.place_of_turnsLeft (by omega)⟩

/-! ### The counts and the signals together -/

/-- **The counts agree, and no signal is lost**, for any number of connections and of those who
wait, at any time of any run.

A connection that has still to leave is counted as open, so that the count of the open ones never
falls below nothing. Those that are open or over are no more than were accepted, and so is the peak.
While nobody is in the middle of an update, every accepted connection is open or over, and the peak
is the most that were ever open at once.

Whoever has returned has waited for no more than are over, so that none is open if he has waited for
all that were accepted. Nobody sleeps without a signal while there are enough for him, unless a
connection that is over has still to signal it; and if none has, then he returns by four turns of
his own, whatever the others do. -/
theorem consistent_of_run (actions : List Action) :
    let s := run start actions
    (∀ i : Nat, s.connections[i]? = some .working → 0 < s.tally.active) ∧
    s.tally.active + s.tally.closed ≤ s.tally.accepted ∧
    s.tally.peak ≤ s.tally.accepted ∧
    (Quiet s → s.tally.active + s.tally.closed = s.tally.accepted ∧
      IsGreatest (everActive actions) s.tally.peak) ∧
    (∀ w ∈ s.waiters, w.place = .returned →
      w.target ≤ s.tally.closed ∧ (s.tally.accepted = w.target → s.tally.active = 0)) ∧
    (∀ w ∈ s.waiters, w.place = .suspended → w.signalled = false → w.target ≤ s.tally.closed →
      .closed ∈ s.connections) ∧
    ∀ (j : Nat) (w : Waiter) (more : List Action), s.waiters[j]? = some w →
      w.target ≤ s.tally.closed → .closed ∉ s.connections → 4 ≤ more.count (.waits j) →
      ∃ w', (run s more).waiters[j]? = some w' ∧ w'.place = .returned := by
  intro s
  have hkept : Kept s := kept_of_run actions
  have hattentive : ∀ w ∈ s.waiters, Attentive s w := attentive_of_run actions
  have hle := hkept.active_add_closed_le
  refine ⟨fun i has => hkept.active_pos has, hle, ?_, fun quiet => ⟨?_, ?_⟩,
    fun w hw hplace => ?_, fun w hw hplace => (hattentive w hw).unsignalled (.inr hplace),
    fun j w more => returned_of_four_turns actions more⟩
  · exact Nat.le_trans (Nat.le_max_left _ _) hkept.peak
  · exact hkept.active_add_closed quiet
  · have hgreatest := isGreatest_of_run actions
    rwa [quiet.opening, Opening.unmarked, Nat.max_zero] at hgreatest
  · have henough := (hattentive w hw).returned hplace
    exact ⟨henough, fun hall => by omega⟩

/-- Two connections are counted as over before either has signalled it, and the one who waits for
both has looked in between. He falls asleep without a signal, and the first signal wakes him. -/
example :
    let both := [.opens, .opens, .opens, .opens, .opens, .opens, .arrives 2, .waits 0, .finishes 0,
      .finishes 0, .waits 0, .finishes 1, .finishes 1, .waits 0]
    (run start both).waiters = [⟨2, .suspended, false⟩] ∧
      (run start both).connections = [.closed, .closed] ∧
      (run start (both ++ [.finishes 1, .waits 0, .waits 0, .waits 0])).waiters =
        [⟨2, .returned, false⟩] := by decide

/-! ### Waiting alone -/

/-- Someone who has so many turns while nothing else happens. -/
theorem waiter_run_waits {j : Nat} (has : s.waiters[j]? = some w) (turns : Nat) :
    (run s (List.replicate turns (.waits j))).waiters[j]? =
        some ((waiterStep s.tally.closed)^[turns] w) ∧
      (run s (List.replicate turns (.waits j))).tally = s.tally := by
  induction turns generalizing s w with
  | zero => exact ⟨has, rfl⟩
  | succ turns ih =>
    obtain ⟨hwaiter, htally⟩ := waiter_act_waits has
    obtain ⟨hrest, htallies⟩ := ih hwaiter
    rw [htally] at hrest htallies
    rw [List.replicate_succ, Function.iterate_succ_apply]
    exact ⟨hrest, htallies⟩

/-- **What someone is told who waits while nothing else happens**: the counts if he returns, which
he does in his second turn or never. -/
theorem waitClosed_eq_alone (s : Counters) (target turns : Nat) :
    let newcomer := s.waiters.length
    let alone := run s (.arrives target :: List.replicate (turns + 2) (.waits newcomer))
    s.waitClosed target =
      if (alone.waiters[newcomer]?).map Waiter.place = some .returned then some alone.tally
      else none := by
  intro newcomer alone
  have hcomes : (s.act (.arrives target)).waiters[newcomer]? = some ⟨target, .outside, false⟩ :=
    List.getElem?_concat_length
  obtain ⟨hwaiter, htally⟩ := waiter_run_waits hcomes (turns + 2)
  have hlooked : alone.waiters[newcomer]? = some
      ((waiterStep s.tally.closed)^[turns]
        ⟨target, if target ≤ s.tally.closed then .returned else .checked, false⟩) := hwaiter
  rw [hlooked, Option.map_some, show alone.tally = s.tally from htally, waitClosed]
  by_cases henough : target ≤ s.tally.closed
  · have hstays : waiterStep s.tally.closed ⟨target, .returned, false⟩ =
        ⟨target, .returned, false⟩ := rfl
    rw [if_pos henough, if_pos henough, Function.iterate_fixed hstays, if_pos rfl]
  · rw [if_neg henough, if_neg henough, if_neg]
    cases turns with
    | zero => simp
    | succ turns =>
      have hfalls : waiterStep s.tally.closed ⟨target, .checked, false⟩ =
          ⟨target, .suspended, false⟩ := rfl
      have hsleeps : waiterStep s.tally.closed ⟨target, .suspended, false⟩ =
          ⟨target, .suspended, false⟩ := rfl
      rw [Function.iterate_succ_apply, hfalls, Function.iterate_fixed hsleeps]
      simp

end Counters

end TokenFeedback
