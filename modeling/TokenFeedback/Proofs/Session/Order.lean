import TokenFeedback.Proofs.Session.Guard

/-!
# The order of the calls of a line

The queue of a lock keeps the order of its calls, and nobody passes by. So the calls of a line that
say that they connect do so in the order in which they asked for the lock; those that give up before
are left out.

* `World.onLine`: what the observer was told by the calls of a line.
* `World.asked`, `World.connected`: who asked for the lock of a line, and who said that it connects,
  each in order.
* `World.InOrder`, `World.Heeds.inOrder`: **those who connect, and behind them those who wait, are
  in the order in which they asked.**
* `World.dials`: who dialled, by the number of the dial.
-/

namespace TokenFeedback

namespace Standing

variable {st st' : Standing} {told : List Callback}

/-- Has the call said that it connects, or will it never do so? -/
def isLate : Standing → Bool
  | busy => true
  | gone => true
  | _ => false

theorem Passes.isLate (h : st.Passes st' told) (late : st.isLate = true ∨ told ≠ []) :
    st'.isLate = true := by
  cases h with
  | stays => simpa using late
  | queues => simp [Standing.isLate] at late
  | enters early => obtain rfl | rfl := early <;> simp [Standing.isLate] at late
  | dials => rfl
  | struck => rfl
  | works late => obtain rfl | rfl := late <;> rfl
  | leaves => rfl
  | closes => rfl

/-- Whoever stays at the lock and does not say that it connects has done so before or not. -/
theorem Passes.busy_iff (h : st.Passes st' told) (plain : ¬ (st = .admitted ∧ told ≠ []))
    (before : st.usesLock = true) (after : st'.usesLock = true) : st' = .busy ↔ st = .busy := by
  cases h with
  | stays => rfl
  | queues => cases before
  | enters early => obtain rfl | rfl := early <;> simp
  | dials => simp at plain
  | struck => cases after
  | works late =>
    obtain rfl | rfl := late
    · rfl
    · cases after
  | leaves => cases after
  | closes => cases after

theorem isFarewell_isDial {callback : Callback} (h : callback.isFarewell = true) :
    callback.isDial = false := by
  cases callback with
  | phase p => cases p <;> first | rfl | cases h
  | token r => rfl
  | streamEnd e n => rfl
  | failure e => rfl

/-- Only who has just got the lock says that it connects. -/
theorem Passes.filter_isDial (h : st.Passes st' told) :
    told.filter Callback.isDial = if st = .admitted ∧ st'.isLate = true ∧ told ≠ [] then
      [.phase .connecting] else [] := by
  cases h with
  | stays => simp
  | queues => simp
  | enters => simp
  | dials => rfl
  | struck => rfl
  | works late begun =>
    rw [if_neg (by simp), List.filter_eq_nil_iff]
    simpa using begun
  | leaves => simp
  | closes farewell =>
    rw [if_neg (by simp), List.filter_eq_nil_iff]
    intro callback hc
    rw [isFarewell_isDial (List.all_eq_true.1 farewell callback hc)]
    exact Bool.false_ne_true

end Standing

namespace World

variable {s : Setting} {w w' : World} {a : Action}

/-- The notices that come from calls of a line. -/
def ofLine (w : World) (line : Nat) (notices : List Notice) : List Notice :=
  notices.filter fun n => w.line? n.call = some line

/-- What the observer was told by the calls of a line, and by which. -/
def onLine (w : World) (line : Nat) : List Notice := w.ofLine line w.notices

/-- The calls of a line that said that they connect, in this order. -/
def connected (w : World) (line : Nat) : List Nat :=
  ((w.onLine line).filter fun n => n.callback.isDial).map Notice.call

/-- The call that comes to the lock of a line in an action, if one does. -/
def asking (s : Setting) (line : Nat) (w : World) (a : Action) : List Nat :=
  match a.turnOf? with
  | some c =>
    if w.line? c = some line ∧ w.standing c = .outside ∧
        ((w.act s a).standing c).usesLock = true then [c]
    else []
  | none => []

/-- The calls that asked for the lock of a line, in this order. -/
def asked (s : Setting) (line : Nat) (actions : List Action) : List Nat :=
  trace s (asking s line) start actions

/-- The calls at the lock of a line that have not said that they connect. -/
def expected (w : World) (line : Nat) : List Nat :=
  (w.locks line).members.filter fun c => w.standing c ≠ .busy

/-- **What holds of the order of calls.** -/
structure InOrder (w : World) (line : Nat) (asked : List Nat) : Prop where
  /-- Whoever has told something has got past the queue. -/
  late : ∀ n ∈ w.notices, (w.standing n.call).isLate = true
  begun : ∀ c ∈ asked, w.standing c ≠ .outside
  distinct : asked.Nodup
  order : (w.connected line ++ w.expected line).Sublist asked

theorem isSome_line?_of_isLate {c : Nat} (h : (w.standing c).isLate = true) :
    (w.line? c).isSome = true := by
  refine isSome_line?_of_standing ?_
  intro hout
  rw [hout] at h
  cases h

/-- The notices of one call come from its line. -/
theorem ofLine_map_mk {c line : Nat} (has : w.line? c = some line) (told : List Callback)
    (l : Nat) : w.ofLine l (told.map (Notice.mk c)) =
      if l = line then told.map (Notice.mk c) else [] := by
  rw [ofLine]
  split
  · next hl =>
    rw [List.filter_eq_self]
    intro n hn
    obtain ⟨_, -, rfl⟩ := List.mem_map.1 hn
    simp [has, hl]
  · next hl =>
    rw [List.filter_eq_nil_iff]
    intro n hn
    obtain ⟨_, -, rfl⟩ := List.mem_map.1 hn
    simpa [has] using fun h => hl h.symm

/-- Calls stay on their lines. -/
theorem ofLine_congr {notices : List Notice}
    (lines : ∀ n ∈ notices, w'.line? n.call = w.line? n.call) (l : Nat) :
    w'.ofLine l notices = w.ofLine l notices := by
  refine List.filter_congr fun n hn => ?_
  rw [lines n hn]

/-- What a turn adds to what was told on a line. -/
theorem onLine_of_turn {c line : Nat} {told : List Callback} (has : w.line? c = some line)
    (lines : ∀ c', w'.line? c' = w.line? c')
    (notices : w'.notices = w.notices ++ told.map (Notice.mk c)) (l : Nat) :
    w'.onLine l = w.onLine l ++ if l = line then told.map (Notice.mk c) else [] := by
  rw [onLine, onLine, notices, ofLine_congr (fun n _ => lines n.call), ofLine, List.filter_append]
  exact congrArg (w.ofLine l w.notices ++ ·) (ofLine_map_mk has told l)

theorem onLine_of_idle (late : ∀ n ∈ w.notices, (w.standing n.call).isLate = true)
    (lines : ∀ c, (w.line? c).isSome → w'.line? c = w.line? c) (notices : w'.notices = w.notices)
    (l : Nat) : w'.onLine l = w.onLine l := by
  rw [onLine, onLine, notices]
  exact ofLine_congr (fun n hn => lines n.call (isSome_line?_of_isLate (late n hn))) l

/-- Whoever is in nobody's way stands in the same place of the queue. -/
theorem filter_of_others {c : Nat} {members : List Nat}
    (others : ∀ c', c' ≠ c → w'.standing c' = w.standing c') (hnot : c ∉ members) :
    (members.filter fun c => w'.standing c ≠ .busy) =
      members.filter fun c => w.standing c ≠ .busy := by
  refine List.filter_congr fun c' hc' => ?_
  rw [others c' fun h => hnot (h ▸ hc')]

/-- Only who has just got the lock is added to those who connect. -/
theorem connected_of_turn {c line : Nat} {told : List Callback} (has : w.line? c = some line)
    (passes : (w.standing c).Passes (w'.standing c) told) (lines : ∀ c', w'.line? c' = w.line? c')
    (notices : w'.notices = w.notices ++ told.map (Notice.mk c)) (l : Nat) :
    w'.connected l = w.connected l ++
      if l = line ∧ w.standing c = .admitted ∧ told ≠ [] then [c] else [] := by
  have hdial : (told.map (Notice.mk c)).filter (fun n => n.callback.isDial) =
      (told.filter Callback.isDial).map (Notice.mk c) := by
    rw [List.filter_map]
    rfl
  rw [connected, connected, onLine_of_turn has lines notices l, List.filter_append, List.map_append]
  congr 1
  by_cases hl : l = line
  · rw [if_pos hl, hdial, passes.filter_isDial]
    by_cases h : w.standing c = .admitted ∧ told ≠ []
    · rw [if_pos ⟨h.1, passes.isLate (.inr h.2), h.2⟩, if_pos ⟨hl, h⟩]
      rfl
    · rw [if_neg fun h' => h ⟨h'.1, h'.2.2⟩, if_neg fun h' => h h'.2]
      rfl
  · rw [if_neg hl, if_neg fun h => hl h.1]
    rfl

/-- In a turn of a call of the line, those who connect and those who wait keep their order. -/
theorem order_of_turn (guarded : Guarded w) {c line : Nat} {told : List Callback}
    (has : w.line? c = some line) (passes : (w.standing c).Passes (w'.standing c) told)
    (others : ∀ c', c' ≠ c → w'.standing c' = w.standing c')
    (locks : w'.locks line =
      (w.locks line).follow c (w.standing c).usesLock (w'.standing c).usesLock) :
    ((if w.standing c = .admitted ∧ told ≠ [] then [c] else []) ++ w'.expected line).Sublist
      (w.expected line ++
        if w.standing c = .outside ∧ (w'.standing c).usesLock = true then [c] else []) := by
  have hmember := guarded.member line c
  have hmembers := guarded.members_follow line c (w'.standing c).usesLock
  rw [← locks] at hmembers
  -- the holder is the first at the lock
  have hhead (h : w.standing c = .admitted) :
      ∃ q, (w.locks line).members = c :: q ∧ c ∉ q := by
    obtain ⟨q, hq⟩ := List.head?_eq_some_iff.1 (guarded.holder line c has (.inl h))
    have hdistinct := guarded.distinct line
    rw [hq] at hdistinct
    exact ⟨q, hq, (List.nodup_cons.1 hdistinct).1⟩
  have hkept (q : List Nat) (hnot : c ∉ q) :
      (q.filter fun c => w'.standing c ≠ .busy) = q.filter fun c => w.standing c ≠ .busy :=
    filter_of_others others hnot
  rw [expected, expected, hmembers]
  by_cases hdial : w.standing c = .admitted ∧ told ≠ []
  · -- the holder goes from those who are expected to those who connect
    obtain ⟨q, hq, hnot⟩ := hhead hdial.1
    rw [if_pos hdial, hq]
    have hfront : (c :: q).filter (fun c => w.standing c ≠ .busy) =
        c :: q.filter fun c => w.standing c ≠ .busy := by
      rw [List.filter_cons_of_pos]
      simp [hdial.1]
    have hback : (if (w.standing c).usesLock = (w'.standing c).usesLock then c :: q
          else if (w'.standing c).usesLock = true then c :: q ++ [c] else (c :: q).erase c).filter
          (fun c => w'.standing c ≠ .busy) = q.filter fun c => w.standing c ≠ .busy := by
      have hlate := passes.isLate (.inr hdial.2)
      cases hafter : w'.standing c with
      | busy =>
        rw [if_pos (by rw [hdial.1]; rfl), List.filter_cons_of_neg (by simp [hafter]), hkept q hnot]
      | gone =>
        rw [if_neg (by rw [hdial.1]; simp [Standing.usesLock]),
          if_neg (by simp [Standing.usesLock]), List.erase_cons_head, hkept q hnot]
      | outside => rw [hafter] at hlate; cases hlate
      | waiting => rw [hafter] at hlate; cases hlate
      | admitted => rw [hafter] at hlate; cases hlate
    rw [hfront, hback]
    exact List.sublist_append_left _ _
  · rw [if_neg hdial, List.nil_append]
    by_cases hsame : (w.standing c).usesLock = (w'.standing c).usesLock
    · -- nobody comes and nobody leaves
      rw [if_pos hsame, if_neg, List.append_nil]
      · have hkeep : (w.locks line).members.filter (fun c => w'.standing c ≠ .busy) =
            (w.locks line).members.filter fun c => w.standing c ≠ .busy := by
          refine List.filter_congr fun c' hc' => ?_
          by_cases hc : c' = c
          · subst hc
            have huses := (hmember.1 hc').2
            simp only [ne_eq, passes.busy_iff hdial huses (hsame ▸ huses)]
          · rw [others c' hc]
        exact hkeep ▸ List.Sublist.refl _
      · rintro ⟨hout, huses⟩
        rw [hout] at hsame
        exact absurd (hsame.trans huses) Bool.false_ne_true
    · rw [if_neg hsame]
      cases hafter : (w'.standing c).usesLock with
      | true =>
        -- the one who comes is the last
        have hbefore : (w.standing c).usesLock = false := by
          rw [hafter] at hsame
          exact Bool.eq_false_iff.2 hsame
        obtain ⟨hout, hbusy, -⟩ := passes.of_comes hbefore hafter
        have hnot : c ∉ (w.locks line).members := by
          rw [hmember, hbefore]
          simp
        rw [if_pos rfl, if_pos ⟨hout, rfl⟩, List.filter_append, hkept _ hnot,
          List.filter_cons_of_pos (by simpa using hbusy)]
        exact List.Sublist.refl _
      | false =>
        rw [if_neg Bool.false_ne_true, if_neg (by simp), List.append_nil,
          hkept _ (guarded.distinct line).not_mem_erase]
        exact (List.erase_sublist).filter _

/-- **Every action keeps the order of the calls.** -/
theorem Heeds.inOrder {line : Nat} {asked : List Nat} (heeds : Heeds w a (w.act s a))
    (guarded : Guarded w) (h : InOrder w line asked) :
    InOrder (w.act s a) line (asked ++ asking s line w a) := by
  cases heeds with
  | idle standing lines notices locks dialled =>
    have hnobody : asking s line w a = [] := by
      unfold asking
      split
      · rw [if_neg]
        rintro ⟨-, hout, huses⟩
        rw [standing, hout] at huses
        cases huses
      · rfl
    rw [hnobody, List.append_nil]
    refine ⟨?_, ?_, h.distinct, ?_⟩
    · rw [notices]
      simpa only [standing] using h.late
    · simpa only [standing] using h.begun
    · rw [connected, onLine_of_idle h.late lines notices, expected, locks]
      simpa only [standing, connected, expected] using h.order
  | @turn c l told whose has passes others lines notices locks admitted dialled =>
    have hasking : asking s line w a =
        if l = line ∧ w.standing c = .outside ∧ ((w.act s a).standing c).usesLock = true then [c]
        else [] := by
      rw [asking, whose]
      simp only [has, Option.some.injEq]
    refine ⟨fun n hn => ?_, fun c' hc' => ?_, ?_, ?_⟩
    · rw [notices] at hn
      by_cases hc : n.call = c
      · rw [hc]
        rcases List.mem_append.1 hn with hn | hn
        · exact passes.isLate (.inl (hc ▸ h.late n hn))
        · obtain ⟨callback, hc, -⟩ := List.mem_map.1 hn
          exact passes.isLate (.inr (List.ne_nil_of_mem hc))
      · rw [others n.call hc]
        rcases List.mem_append.1 hn with hn | hn
        · exact h.late n hn
        · obtain ⟨callback, -, rfl⟩ := List.mem_map.1 hn
          exact absurd rfl hc
    · rcases List.mem_append.1 hc' with hc' | hc'
      · by_cases hc : c' = c
        · subst hc
          exact passes.ne_outside (h.begun c' hc')
        · rw [others c' hc]
          exact h.begun c' hc'
      · rw [hasking] at hc'
        split at hc'
        · next hasks =>
          rw [List.mem_singleton.1 hc']
          exact standing_ne_of_usesLock hasks.2.2
        · cases hc'
    · rw [hasking]
      split
      · next hasks =>
        have hnot : c ∉ asked := fun hc => h.begun c hc hasks.2.1
        refine List.nodup_append.2 ⟨h.distinct, by simp, fun x hx y hy => ?_⟩
        rw [List.mem_singleton.1 hy]
        rintro rfl
        exact hnot hx
      · rw [List.append_nil]
        exact h.distinct
    · rw [connected_of_turn has passes lines notices, hasking]
      by_cases hl : line = l
      · subst hl
        have hturn := order_of_turn guarded has passes others (by rw [locks, if_pos rfl])
        simp only [true_and] at hturn ⊢
        rw [List.append_assoc]
        refine ((List.Sublist.refl _).append hturn).trans ?_
        rw [← List.append_assoc]
        exact h.order.append (List.Sublist.refl _)
      · -- the turn of a call of another line
        have hnot : c ∉ (w.locks line).members := by
          rw [guarded.member, has]
          rintro ⟨h, -⟩
          exact hl (Option.some.inj h).symm
        rw [if_neg fun h => hl h.1, if_neg fun h => hl h.1.symm, List.append_nil, List.append_nil,
          expected, locks, if_neg hl, filter_of_others others hnot]
        exact h.order

/-- **The calls of a line say that they connect in the order in which they asked for its lock**, at
any time of any run. -/
theorem inOrder_of_run (s : Setting) (line : Nat) (actions : List Action) :
    InOrder (run s start actions) line (asked s line actions) := by
  refine run_induction (P := fun w actions => InOrder w line (asked s line actions)) ?_ ?_ actions
  · exact ⟨fun n hn => absurd hn List.not_mem_nil, fun c hc => absurd hc List.not_mem_nil,
      List.nodup_nil, List.Sublist.refl _⟩
  · intro actions a h
    rw [asked, trace_concat]
    exact (act_heeds s _ a).inOrder (guarded_of_run s actions) h

/-! ### Dials -/

/-- The call that dials in an action, if one does. -/
def dialling (s : Setting) (w : World) (a : Action) : List Nat :=
  match a.turnOf? with
  | some c => if w.standing c = .admitted ∧ (w.act s a).standing c = .busy then [c] else []
  | none => []

/-- The calls that dialled, by the number of the dial. -/
def dials (s : Setting) (actions : List Action) : List Nat := trace s (dialling s) start actions

/-- Every dial has a number of its own. -/
theorem length_dials (s : Setting) (actions : List Action) :
    (dials s actions).length = (run s start actions).dialled := by
  refine run_induction
    (P := fun w actions => (dials s actions).length = w.dialled) rfl ?_ actions
  intro actions a h
  rw [dials, trace_concat, List.length_append, ← dials, h]
  generalize run s start actions = w
  cases act_heeds s w a with
  | idle standing _ _ _ dialled =>
    have hnobody : dialling s w a = [] := by
      unfold dialling
      split
      · rw [if_neg]
        rintro ⟨hadmitted, hbusy⟩
        rw [standing, hadmitted] at hbusy
        cases hbusy
      · rfl
    rw [hnobody, dialled]
    rfl
  | turn whose _ _ _ _ _ _ _ dialled =>
    rw [dialled, dialling, whose]
    dsimp only
    split <;> rfl

/-- A dial keeps its number. -/
theorem getElem?_dials {actions : List Action} {n c : Nat}
    (dialled : (dials s actions)[n]? = some c) (a : Action) :
    (dials s (actions ++ [a]))[n]? = some c := by
  have hlt := (List.getElem?_eq_some_iff.1 dialled).1
  rw [dials, trace_concat, ← dials, List.getElem?_append_left hlt, dialled]

/-- Whoever dials has the next number. -/
theorem getElem?_dials_next {actions : List Action} {c : Nat}
    (holds : (run s start actions).standing c = .admitted)
    (busy : (run s start (actions ++ [.step c])).standing c = .busy) :
    (dials s (actions ++ [.step c]))[(run s start actions).dialled]? = some c := by
  rw [run_concat] at busy
  have hdialling : dialling s (run s start actions) (.step c) = [c] := if_pos ⟨holds, busy⟩
  rw [dials, trace_concat, hdialling, ← dials, ← length_dials]
  exact List.getElem?_concat_length

/-- A call dials at most once. -/
theorem nodup_dials (s : Setting) (actions : List Action) :
    (dials s actions).Nodup ∧
      ∀ c ∈ dials s actions, ((run s start actions).standing c).isLate = true := by
  refine run_induction (P := fun w actions =>
    (dials s actions).Nodup ∧ ∀ c ∈ dials s actions, (w.standing c).isLate = true)
    ⟨List.nodup_nil, fun c hc => absurd hc List.not_mem_nil⟩ ?_ actions
  intro actions a ⟨distinct, late⟩
  rw [dials, trace_concat, ← dials]
  generalize run s start actions = w at late
  -- whoever is late stays late
  have hlate (c : Nat) (hc : (w.standing c).isLate = true) :
      ((w.act s a).standing c).isLate = true := by
    cases act_heeds s w a with
    | idle standing => rwa [standing]
    | @turn c' line told whose has passes others =>
      by_cases h : c = c'
      · subst h
        exact passes.isLate (.inl hc)
      · rwa [others c h]
  have hdialling (c : Nat) (hc : c ∈ dialling s w a) :
      w.standing c = .admitted ∧ ((w.act s a).standing c).isLate = true := by
    unfold dialling at hc
    split at hc
    · split at hc
      · next h =>
        rw [List.mem_singleton.1 hc, h.2]
        exact ⟨h.1, rfl⟩
      · cases hc
    · cases hc
  refine ⟨List.nodup_append.2 ⟨distinct, ?_, fun x hx y hy hxy => ?_⟩, fun c hc => ?_⟩
  · unfold dialling
    split
    · split <;> simp
    · exact List.nodup_nil
  · subst hxy
    have hearly := late x hx
    rw [(hdialling x hy).1] at hearly
    cases hearly
  · rcases List.mem_append.1 hc with hc | hc
    · exact hlate c (late c hc)
    · exact (hdialling c hc).2

end World

end TokenFeedback
