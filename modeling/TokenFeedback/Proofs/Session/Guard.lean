import TokenFeedback.Proofs.Session.Standing

/-!
# Who has the lock

At any time of any run the calls at the lock of a line are the calls of this line that wait for it
or have it, and whoever has got past the queue is the holder. So a line has one call at work at a
time.

* `World.Guarded`: what holds of the locks; `World.Heeds.guarded`: **every action keeps it.**
* `World.guarded_of_run`: it holds at any time.
-/

namespace TokenFeedback

namespace Standing

variable {st st' : Standing} {told : List Callback}

/-- Whoever is busy behind a turn had the lock before. -/
theorem Passes.of_busy (h : st.Passes .busy told) : st = .admitted ∨ st = .busy := by
  cases h with
  | stays => exact .inr rfl
  | dials => exact .inl rfl
  | works => exact .inr rfl

/-- Nobody has not asked any more who had asked. -/
theorem Passes.ne_outside (h : st.Passes st' told) (asked : st ≠ .outside) : st' ≠ .outside := by
  cases h with
  | stays => exact asked
  | queues => exact absurd rfl asked
  | enters => simp
  | dials => simp
  | struck => simp
  | works late =>
    obtain rfl | rfl := late <;> simp
  | leaves => simp
  | closes => simp

/-- Whoever comes to the lock had not asked before, and has said nothing. -/
theorem Passes.of_comes (h : st.Passes st' told) (before : st.usesLock = false)
    (after : st'.usesLock = true) : st = .outside ∧ st' ≠ .busy ∧ told = [] := by
  cases h with
  | stays => exact absurd (before.symm.trans after) Bool.false_ne_true
  | queues => exact ⟨rfl, by simp, rfl⟩
  | enters early =>
    obtain rfl | rfl := early
    · exact ⟨rfl, by simp, rfl⟩
    · cases before
  | dials => cases before
  | struck => cases before
  | works => cases before
  | leaves => cases after
  | closes => cases after

end Standing

namespace World

variable {s : Setting} {w w' : World} {a : Action}

theorem isSome_line?_of_standing {c : Nat} (h : w.standing c ≠ .outside) :
    (w.line? c).isSome = true := by
  rw [standing] at h
  rw [line?]
  cases has : w.calls[c]? with
  | none =>
    rw [has] at h
    exact absurd rfl h
  | some call => rfl

theorem standing_ne_of_usesLock {c : Nat} (h : (w.standing c).usesLock = true) :
    w.standing c ≠ .outside := by
  intro hout
  rw [hout] at h
  cases h

/-- **What holds of the locks.** -/
structure Guarded (w : World) : Prop where
  /-- The calls at a lock are those of the line that wait for it or have it. -/
  member : ∀ line c, c ∈ (w.locks line).members ↔
    w.line? c = some line ∧ (w.standing c).usesLock = true
  distinct : ∀ line, (w.locks line).members.Nodup
  /-- Whoever does not wait is the holder. -/
  holder : ∀ line c, w.line? c = some line → w.standing c = .admitted ∨ w.standing c = .busy →
    (w.locks line).members.head? = some c

theorem guarded_start : Guarded start := by
  refine ⟨fun line c => ⟨fun h => ?_, fun h => ?_⟩, fun line => List.nodup_nil, fun line c h => ?_⟩
  · cases h
  · cases h.1
  · cases h

/-- What becomes of the calls at the lock of a line when one of them, or one who comes to it, has a
turn. -/
theorem Guarded.members_follow (h : Guarded w) (line c : Nat) (after : Bool) :
    ((w.locks line).follow c (w.standing c).usesLock after).members =
      if (w.standing c).usesLock = after then (w.locks line).members
      else if after then (w.locks line).members ++ [c] else (w.locks line).members.erase c := by
  cases hb : (w.standing c).usesLock <;> cases after
  · rfl
  · exact Lock.members_ask c _
  · exact Lock.members_leave c (h.distinct line)
  · rfl

/-- The holder stays the holder in the turns of others. -/
theorem Guarded.head?_follow (h : Guarded w) {line c c' : Nat} (after : Bool) (other : c' ≠ c)
    (holds : (w.locks line).members.head? = some c') :
    ((w.locks line).follow c (w.standing c).usesLock after).members.head? = some c' := by
  rw [h.members_follow]
  obtain ⟨q, hq⟩ := List.head?_eq_some_iff.1 holds
  rw [hq]
  split
  · rfl
  · split
    · rfl
    · rw [List.erase_cons_tail (by simpa using other)]
      rfl

/-- **Every action keeps what holds of the locks.** -/
theorem Heeds.guarded (heeds : Heeds w a w') (h : Guarded w) : Guarded w' := by
  cases heeds with
  | idle standing lines notices locks dialled =>
    refine ⟨fun line c => ?_, fun line => ?_, fun line c has hst => ?_⟩
    · rw [locks, h.member, standing]
      constructor
      · rintro ⟨has, uses⟩
        exact ⟨(lines c (by rw [has]; rfl)).trans has, uses⟩
      · rintro ⟨has, uses⟩
        have hsome := isSome_line?_of_standing (standing_ne_of_usesLock uses)
        exact ⟨(lines c hsome).symm.trans has, uses⟩
    · rw [locks]
      exact h.distinct line
    · rw [standing] at hst
      have hsome : (w.line? c).isSome = true := by
        refine isSome_line?_of_standing ?_
        obtain hst | hst := hst <;> rw [hst] <;> simp
      rw [locks]
      exact h.holder line c ((lines c hsome).symm.trans has) hst
  | @turn c line told whose has passes others lines notices locks admitted dialled =>
    have hline (c' l : Nat) (has' : w.line? c' = some l) (hl : l ≠ line) : c' ≠ c := by
      rintro rfl
      exact hl (Option.some.inj (has'.symm.trans has))
    have hother (l : Nat) (hl : l ≠ line) : w'.locks l = w.locks l := by
      rw [locks, if_neg hl]
    have hthis := locks line
    rw [if_pos rfl] at hthis
    refine ⟨fun l c' => ?_, fun l => ?_, fun l c' has' hst => ?_⟩
    · rw [lines]
      by_cases hl : l = line
      · subst hl
        rw [hthis, h.members_follow]
        by_cases hc : c' = c
        · subst hc
          -- the one who has the turn is at the lock behind it if it stands there then
          have hmem := h.member l c'
          cases hb : (w.standing c').usesLock <;> cases ha : (w'.standing c').usesLock <;>
            simp_all [(h.distinct l).mem_erase_iff]
        · have hmem := h.member l c'
          rw [others c' hc]
          split
          · exact hmem
          · split
            · simp [hmem, hc]
            · rw [(h.distinct l).mem_erase_iff]
              simp [hmem, hc]
      · rw [hother l hl, h.member]
        constructor
        · rintro ⟨has', uses⟩
          rw [others c' (hline c' l has' hl)]
          exact ⟨has', uses⟩
        · rintro ⟨has', uses⟩
          rw [others c' (hline c' l has' hl)] at uses
          exact ⟨has', uses⟩
    · by_cases hl : l = line
      · subst hl
        rw [hthis, h.members_follow]
        split
        · exact h.distinct l
        · next hne =>
          split
          · next hafter =>
            have hnot : c ∉ (w.locks l).members := by
              rw [h.member]
              rintro ⟨-, uses⟩
              exact hne (uses.trans hafter.symm)
            exact List.nodup_append.2 ⟨h.distinct l, by simp, by
              intro x hx y hy
              rw [List.mem_singleton.1 hy]
              rintro rfl
              exact hnot hx⟩
          · exact (h.distinct l).erase c
      · rw [hother l hl]
        exact h.distinct l
    · rw [lines] at has'
      by_cases hc : c' = c
      · subst hc
        obtain rfl := Option.some.inj (has.symm.trans has')
        -- it had the lock, or has just got it
        have hheld : w.standing c' = .admitted ∨ w.standing c' = .busy →
            (w'.locks line).members.head? = some c' := by
          intro hbefore
          have hhead := h.holder line c' has hbefore
          have hsame : (w.standing c').usesLock = (w'.standing c').usesLock := by
            obtain hb | hb := hbefore <;> obtain ha | ha := hst <;> rw [hb, ha] <;> rfl
          rw [hthis, hsame, Lock.follow_self]
          exact hhead
        obtain hst | hst := hst
        · obtain hbefore | hgets := admitted hst
          · exact hheld (.inl hbefore)
          · rwa [Lock.holder?_eq_head?] at hgets
        · rw [hst] at passes
          exact hheld passes.of_busy
      · rw [others c' hc] at hst
        have hhead := h.holder l c' has' hst
        by_cases hl : l = line
        · subst hl
          rw [hthis]
          exact h.head?_follow _ hc hhead
        · rwa [hother l hl]

/-- **What holds of the locks holds at any time.** -/
theorem guarded_of_run (s : Setting) (actions : List Action) : Guarded (run s start actions) :=
  run_induction (P := fun w _ => Guarded w) guarded_start
    (fun _ a h => (act_heeds s _ a).guarded h) actions

end World

end TokenFeedback
