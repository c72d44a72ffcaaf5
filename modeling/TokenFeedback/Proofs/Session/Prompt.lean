import TokenFeedback.Session.Prompt

/-!
# Prompt schedules

The prompt schedule takes the first action that somebody has reason for. What comes of enough of its
actions does not hang on how many are allowed, once nothing happens any more.

* `World.isDue_of_asleep`: when a call at work gets its turn.
* `World.firstOf_concat`: which element of a list acts.
* `World.Leads`, `World.Leads.settles`: **what comes of enough actions.**
-/

namespace TokenFeedback.World

variable {s : Setting} {w w' w'' : World}

/-- There is reason to give its turn to a call that is asleep and does not wait for the lock when it
is cancelled, or when its time has come. -/
theorem isDue_of_asleep {c : Nat} {call : Call} {t : Nat} (asleep : call.awake = false)
    (runs : call.stage.isOver = false) (kept : call.aborted = false)
    (begun : call.stage ≠ .fresh) (admitted : call.stage ≠ .queued) (wake : call.wake = some t) :
    w.isDue c call = (w.isCancelled call || decide (t ≤ w.now)) := by
  unfold isDue
  rw [asleep, runs, kept, wake]
  split
  · next fresh => exact absurd fresh begun
  · next queued => exact absurd queued admitted
  · rfl

/-- After enough actions of the prompt schedule one world comes of another. -/
def Leads (s : Setting) (w w' : World) : Prop :=
  ∃ n, ∀ more, settle s (n + more) w = settle s more w'

theorem Leads.refl (s : Setting) (w : World) : Leads s w w :=
  ⟨0, fun more => by rw [Nat.zero_add]⟩

theorem Leads.trans (h : Leads s w w') (h' : Leads s w' w'') : Leads s w w'' := by
  obtain ⟨n, hn⟩ := h
  obtain ⟨m, hm⟩ := h'
  exact ⟨n + m, fun more => by rw [Nat.add_assoc, hn, hm]⟩

theorem leads_of_next? {a : Action} (next : w.next? = some a) : Leads s w (w.act s a) :=
  ⟨1, fun more => by rw [Nat.add_comm, settle, next]⟩

/-- Where nothing happens next, nothing happens any more. -/
theorem Leads.settles (h : Leads s w w') (rest : w'.next? = none) :
    ∃ enough, ∀ bound, enough ≤ bound → settle s bound w = w' := by
  obtain ⟨n, hn⟩ := h
  refine ⟨n, fun bound le => ?_⟩
  obtain ⟨more, rfl⟩ := Nat.exists_eq_add_of_le le
  rw [hn]
  cases more with
  | zero => rfl
  | succ more => rw [settle, rest]

/-- Where nothing else passes a test, the last element of a list is found, if it passes. -/
theorem find?_zipIdx_concat {α : Type} {past : List α} {x : α} {test : α × Nat → Bool}
    (fail : ∀ y ∈ past, ∀ i, test (y, i) = false) :
    (past ++ [x]).zipIdx.find? test =
      if test (x, past.length) then some (x, past.length) else none := by
  have hpast : past.zipIdx.find? test = none := by
    rw [List.find?_eq_none]
    rintro ⟨y, i⟩ hy
    rw [fail y (List.fst_mem_of_mem_zipIdx hy) i]
    exact Bool.false_ne_true
  rw [List.zipIdx_append, List.find?_append, hpast, Option.none_or, Nat.zero_add,
    List.zipIdx_singleton, List.find?_singleton]

/-- The first action that a list gives rise to is that of its last element, if no other gives rise
to one. -/
theorem firstOf_concat {α : Type} {past : List α} (test : Nat → α → Bool)
    (fail : ∀ x ∈ past, ∀ i, test i x = false) (x : α) (action : Nat → Action) :
    firstOf (past ++ [x]) test action =
      if test past.length x then some (action past.length) else none := by
  rw [firstOf, find?_zipIdx_concat]
  · dsimp only
    split
    · rfl
    · rfl
  · exact fail

end TokenFeedback.World
